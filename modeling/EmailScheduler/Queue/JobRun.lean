import EmailScheduler.Queue.Pipeline
import EmailScheduler.Delivery.RowLedger

/-!
# One job under its lock

The delivery system seen from one BullMQ job that keeps its lock: the job is started when it is
idle, one execution runs it, and when that has ended BullMQ settles the job by how it ended.
Executions of other jobs, sweeps and everything else go on in between; no other execution of the
same email is started, and the job's own execution does not crash.

Of BullMQ the model assumes what the pipeline assumes: `moveToDelayed` leaves `attemptsMade` as it
is, an `UnrecoverableError` fails the job, and any other error runs it again while `attemptsMade + 1
< attempts` and counts.
-/

set_option autoImplicit false

namespace EmailScheduler

open Foundation

/-- `job.opts.attempts ?? 1`. -/
def Job.maxAttempts (job : Job) : Nat := job.attempts.getD 1

/-- A job whose processor threw is run again while attempts remain. -/
def Job.afterThrow (job : Job) : Verdict := .afterThrow job.attemptsMade job.maxAttempts

/-- What becomes of a job whose execution ended. -/
def Job.verdict (job : Job) (outcome : Outcome) : Verdict := outcome.verdict job.afterThrow

/-- Where BullMQ has the job: it will be run, it is run by an execution, or it will not be run
again. -/
inductive JobPhase where
  | idle
  | active (i : Nat)
  | ended
deriving DecidableEq

/-- How far the current execution has come with `mailer.send`: not called, called, it threw (or
refused every recipient), and the transaction of `recordFailure` for it committed. -/
inductive SendState where
  | unsent
  | sent
  | threw
  | recorded
deriving DecidableEq

/-- How often the current execution has called `mailer.send`. -/
def SendState.count : SendState → Nat
  | .unsent => 0
  | _ => 1

/-- The send state after an event of the execution in `stage`. -/
def SendState.next (n : SendState) (stage : Stage) : DeliveryEvent → SendState
  | .advance _ input =>
      match stage with
      | .claimed _ _ _ => .sent
      | .recordingFailure _ _ => if n = .threw ∧ input.reply.commits = true then .recorded else n
      | _ => n
  | .sendThrows _ _ => .threw
  | .sendReturns _ receipt => if receipt.acceptedCount = 0 then .threw else n
  | _ => n

/-- The calls of `mailer.send` in an event of the execution in `stage`. -/
def Stage.sendCalls (stage : Stage) : DeliveryEvent → Nat
  | .advance _ _ => match stage with
      | .claimed _ _ _ => 1
      | _ => 0
  | _ => 0

/-- The execution that an event is about. -/
def DeliveryEvent.execution? : DeliveryEvent → Option Nat
  | .advance i _ | .sendReturns i _ | .sendThrows i _ | .crash i => some i
  | _ => none

/-- A job, the deliveries around it, and how often its executions have called `mailer.send`. -/
structure JobRun where
  delivery : Delivery
  job : Job
  phase : JobPhase
  sends : Nat
  sendState : SendState

inductive JobEvent where
  | start
  | world (event : DeliveryEvent)
  | settle

/-- The row with an id is there and satisfies `p`. -/
def Database.RowHas (db : Database) (id : Uuid) (p : ScheduledEmail → Prop) : Prop :=
  ∃ e ∈ db.emails, e.id = id ∧ p e

theorem Database.RowHas.mono {db : Database} {id : Uuid} {p q : ScheduledEmail → Prop}
    (h : db.RowHas id p) (hpq : ∀ e, p e → q e) : db.RowHas id q := by
  obtain ⟨e, he, hid, hp⟩ := h
  exact ⟨e, he, hid, hpq e hp⟩

theorem Database.RowHas.of_emails_eq {db db' : Database} {id : Uuid} {p : ScheduledEmail → Prop}
    (h : db.RowHas id p) (hemails : db'.emails = db.emails) : db'.RowHas id p := by
  obtain ⟨e, he, hid, hp⟩ := h
  exact ⟨e, by rw [hemails]; exact he, hid, hp⟩

namespace JobRun

/-- The email of the job. -/
def emailId (s : JobRun) : Uuid := s.job.scheduledEmailId

/-- The event is one of the job's own execution. -/
def owns (s : JobRun) (event : DeliveryEvent) : Bool :=
  match s.phase with
  | .active i => decide (event.execution? = some i)
  | _ => false

/-- The stage of the job's execution; `crashed` if it has none. -/
def stage (s : JobRun) : Stage :=
  match s.phase with
  | .active i => s.delivery.stageOf i
  | _ => .crashed

/-- The lock is kept: no other execution of the email is started, and the job's own one does not
crash. -/
def allows (s : JobRun) : DeliveryEvent → Bool
  | .deliver job => decide (job.scheduledEmailId ≠ s.emailId)
  | .crash i => decide (s.phase ≠ .active i)
  | _ => true

/-- The state after an event of the delivery system. -/
def after (s : JobRun) (event : DeliveryEvent) (d : Delivery) : JobRun :=
  { s with
    delivery := d
    sends := if s.owns event then s.sends + s.stage.sendCalls event else s.sends
    sendState := if s.owns event then s.sendState.next s.stage event else s.sendState }

/-- BullMQ settles the job. -/
def settle (s : JobRun) : Verdict → JobRun
  | .completed => { s with phase := .ended }
  | .failed => { s with phase := .ended }
  | .delayed => { s with phase := .idle }
  | .retried => { s with
      phase := .idle
      job := { s.job with attemptsMade := s.job.attemptsMade + 1 } }

/-- One step. -/
def step (config : AppConfig) : JobEvent → JobRun → Option JobRun
  | .start, s =>
      match s.phase with
      | .idle => (Delivery.step config (.deliver s.job) s.delivery).map fun d =>
          { s with
            delivery := d
            phase := .active s.delivery.executions.length
            sendState := .unsent }
      | _ => none
  | .world event, s =>
      if s.allows event then (Delivery.step config event s.delivery).map (s.after event) else none
  | .settle, s =>
      match s.phase with
      | .active i =>
          match s.delivery.stageOf i with
          | .finished outcome => some (s.settle (s.job.verdict outcome))
          | _ => none
      | _ => none

/-- Runs start at any point of a run of deliveries at which no execution of the email is under
way. -/
def system (config : AppConfig) : TransitionSystem JobRun JobEvent where
  init s := (Delivery.system config).Reachable TransitionSystem.anyStep s.delivery ∧
    (∃ e ∈ s.delivery.database.emails, e.id = s.emailId) ∧
    (∀ j job, s.delivery.jobOf? j = some job → job.scheduledEmailId = s.emailId →
      (s.delivery.stageOf j).isRunning = false) ∧
    1 ≤ s.job.maxAttempts ∧ s.job.attemptsMade = 0 ∧ s.phase = .idle ∧ s.sends = 0 ∧
    s.sendState = .unsent
  step := step config

variable {config : AppConfig} {P : JobRun → JobEvent → Prop} {s t : JobRun} {event : JobEvent}

/-- **Step rule of a job.** -/
inductive StepCase (config : AppConfig) (s : JobRun) : JobEvent → JobRun → Prop where
  | start {d : Delivery} : s.phase = .idle →
      (Delivery.system config).step (.deliver s.job) s.delivery = some d →
      StepCase config s .start { s with
        delivery := d
        phase := .active s.delivery.executions.length
        sendState := .unsent }
  | world {event : DeliveryEvent} {d : Delivery} : s.allows event = true →
      (Delivery.system config).step event s.delivery = some d →
      StepCase config s (.world event) (s.after event d)
  | settle {i : Nat} {outcome : Outcome} : s.phase = .active i →
      s.delivery.stageOf i = .finished outcome →
      StepCase config s .settle (s.settle (s.job.verdict outcome))

theorem stepCase_of_step (h : (system config).step event s = some t) :
    StepCase config s event t := by
  simp only [system] at h
  cases event with
  | start =>
      simp only [step] at h
      split at h
      next hphase =>
        obtain ⟨d, hd, rfl⟩ := Option.map_eq_some_iff.1 h
        exact .start hphase hd
      next => cases h
  | world event =>
      simp only [step] at h
      split at h
      next hallows =>
        obtain ⟨d, hd, rfl⟩ := Option.map_eq_some_iff.1 h
        exact .world hallows hd
      next => cases h
  | settle =>
      simp only [step] at h
      split at h
      next i hphase =>
        split at h
        next outcome hstage =>
          cases h
          exact .settle hphase hstage
        next => cases h
      next => cases h

/-! ## The lock -/

/-- The job's execution runs the job, and no other execution of the email is under way. -/
structure Locked (config : AppConfig) (s : JobRun) : Prop where
  reachable : (Delivery.system config).Reachable TransitionSystem.anyStep s.delivery
  row : ∃ e ∈ s.delivery.database.emails, e.id = s.emailId
  own : ∀ i, s.phase = .active i →
    s.delivery.jobOf? i = some s.job ∧ s.delivery.stageOf i ≠ .crashed
  exclusive : ∀ j job, s.delivery.jobOf? j = some job → job.scheduledEmailId = s.emailId →
    (s.delivery.stageOf j).isRunning = true → s.phase = .active j

theorem locked_init (h : (system config).init s) : Locked config s := by
  obtain ⟨hreach, hrow, hidle, -, -, hphase, -, -⟩ := h
  constructor
  · exact hreach
  · exact hrow
  · intro i hactive
    rw [hphase] at hactive
    cases hactive
  · intro j job hjob hid hrunning
    rw [hidle j job hjob hid] at hrunning
    cases hrunning

/-- The job's execution exists from its start on. -/
theorem start_own {d : Delivery}
    (h : (Delivery.system config).step (.deliver s.job) s.delivery = some d) :
    d.jobOf? s.delivery.executions.length = some s.job ∧
      d.stageOf s.delivery.executions.length = .loading := by
  cases h
  constructor
  · simp [Delivery.jobOf?]
  · exact (Delivery.stageOf_append s.job).trans (if_pos rfl)

theorem locked_start (hinv : Locked config s) {d : Delivery} (hphase : s.phase = .idle)
    (h : (Delivery.system config).step (.deliver s.job) s.delivery = some d) :
    Locked config { s with
      delivery := d
      phase := .active s.delivery.executions.length
      sendState := .unsent } := by
  obtain ⟨hjob, hstage⟩ := start_own h
  constructor
  · exact hinv.reachable.trans (.single trivial h)
  · exact Delivery.exists_email_of_step h hinv.row
  · intro i hactive
    cases hactive
    refine ⟨hjob, ?_⟩
    rw [hstage]
    exact Stage.noConfusion
  · intro j job hj hid hrunning
    rcases Delivery.isRunning_of_step h hrunning with ⟨hold, hkept⟩ | ⟨_, -, hnew, -⟩
    · -- No execution of the email ran while the job was idle.
      rw [hkept] at hj
      have hactive := hinv.exclusive j job hj hid hold
      rw [hphase] at hactive
      cases hactive
    · exact congrArg JobPhase.active hnew.symm

theorem locked_world (hinv : Locked config s) {event : DeliveryEvent} {d : Delivery}
    (hallows : s.allows event = true)
    (h : (Delivery.system config).step event s.delivery = some d) :
    Locked config (s.after event d) := by
  constructor
  · exact hinv.reachable.trans (.single trivial h)
  · exact Delivery.exists_email_of_step h hinv.row
  · intro i hactive
    obtain ⟨hjob, hstage⟩ := hinv.own i hactive
    refine ⟨Delivery.jobOf?_eq_of_step h hjob, ?_⟩
    show d.stageOf i ≠ .crashed
    rcases Delivery.crashed_of_step h (i := i) with hcrash | hkept
    · rw [hcrash] at hallows
      exact absurd hactive (of_decide_eq_true hallows)
    · exact hkept hstage
  · intro j job hj hid hrunning
    rcases Delivery.isRunning_of_step h hrunning with ⟨hold, hkept⟩ | ⟨new, hevent, -, hnew⟩
    · rw [show (s.after event d).delivery.jobOf? j = s.delivery.jobOf? j from hkept] at hj
      exact hinv.exclusive j job hj hid hold
    · rw [show (s.after event d).delivery.jobOf? j = some new from hnew] at hj
      cases hj
      rw [hevent] at hallows
      exact absurd hid (of_decide_eq_true hallows)

theorem locked_settle (hinv : Locked config s) {i : Nat} {outcome : Outcome}
    (hphase : s.phase = .active i) (hstage : s.delivery.stageOf i = .finished outcome)
    (verdict : Verdict) : Locked config (s.settle verdict) := by
  have hexclusive : ∀ j job, s.delivery.jobOf? j = some job → job.scheduledEmailId = s.emailId →
      (s.delivery.stageOf j).isRunning = false := by
    intro j job hj hid
    rw [← Bool.not_eq_true]
    intro hrunning
    have hactive := hinv.exclusive j job hj hid hrunning
    rw [hphase, JobPhase.active.injEq] at hactive
    rw [← hactive, hstage] at hrunning
    cases hrunning
  constructor
  · cases verdict <;> exact hinv.reachable
  · cases verdict <;> exact hinv.row
  · intro i hactive
    cases verdict <;> cases hactive
  · intro j job hj hid hrunning
    have hfalse : (s.delivery.stageOf j).isRunning = false := by
      cases verdict <;> exact hexclusive j job hj hid
    have htrue : (s.delivery.stageOf j).isRunning = true := by
      cases verdict <;> exact hrunning
    rw [hfalse] at htrue
    cases htrue

theorem locked_step (hinv : Locked config s) (h : (system config).step event s = some t) :
    Locked config t := by
  cases stepCase_of_step h with
  | start hphase hd => exact locked_start hinv hphase hd
  | world hallows hd => exact locked_world hinv hallows hd
  | settle hphase hstage => exact locked_settle hinv hphase hstage _

/-! ## The row of the job -/

/-- What an execution has loaded, and runs on, is the job's only if the execution is the job's. -/
theorem Locked.owner (hinv : Locked config s) {i : Nat} {loaded : LoadedEmail}
    (hloaded : (s.delivery.stageOf i).loaded? = some loaded)
    (hid : loaded.email.id = s.emailId) : s.phase = .active i := by
  have hrunning : (s.delivery.stageOf i).isRunning = true := by
    cases hstage : s.delivery.stageOf i with
    | finished outcome => rw [hstage] at hloaded; cases hloaded
    | crashed => rw [hstage] at hloaded; cases hloaded
    | _ => rfl
  obtain ⟨x, hx, -⟩ :=
    Delivery.exists_of_stageOf_ne_crashed (Delivery.ne_crashed_of_isRunning hrunning)
  have hjob := Delivery.jobOf?_of_getElem? hx
  have hname := Delivery.loaded_id_eq hinv.reachable hjob hloaded
  exact hinv.exclusive i x.job hjob (hname.symm.trans hid) hrunning

/-- The execution that holds a claim on the job's email is the job's. -/
theorem Locked.owner_of_claim (hinv : Locked config s) {i : Nat} {p : LoadedEmail × ClaimedEmail}
    (hp : (s.delivery.stageOf i).delivery? = some p) (hid : p.2.id = s.emailId) :
    s.phase = .active i := by
  apply hinv.owner (Stage.loaded?_of_delivery? hp)
  exact (Delivery.claim_id_eq hinv.reachable hp).symm.trans hid

theorem owns_advance {i : Nat} {input : StepInput} (h : s.phase = .active i) :
    s.owns (.advance i input) = true := by
  rw [owns, h]
  exact decide_eq_true rfl

/-- **Others leave the row alone.** An event that is not one of the job's execution changes the row
of the job only by giving up a stale lease. -/
theorem Locked.rowHas_of_other (hinv : Locked config s) {event : DeliveryEvent} {d : Delivery}
    (howns : s.owns event = false)
    (h : (Delivery.system config).step event s.delivery = some d)
    {p : ScheduledEmail → Prop} (hrow : s.delivery.database.RowHas s.emailId p)
    (habandoned : ∀ now e, event = .sweep now → e ∈ s.delivery.database.emails →
      e.id = s.emailId → isStale config now e = true → p e → p (abandonRow e)) :
    d.database.RowHas s.emailId p := by
  obtain ⟨e, he, hid, hp⟩ := hrow
  obtain ⟨e', he', hid', hchange⟩ := Delivery.accountStep_of_mem hinv.reachable h he
  refine ⟨e', he', hid'.trans hid, ?_⟩
  -- The events of executions that write the row are events of the job's execution.
  have hnot : ∀ {i : Nat} {input : StepInput}, event = .advance i input →
      s.phase ≠ .active i := by
    intro i input hevent hactive
    rw [hevent, owns_advance hactive] at howns
    cases howns
  generalize hc : d.database.account e' = c at hchange
  have hemail : e' = c.email := congrArg Account.email hc
  rw [hemail]
  cases hchange with
  | keep => exact hp
  | deferred hevent hstage hloaded =>
      refine absurd (hinv.owner ?_ (hloaded.trans hid)) (hnot hevent)
      rw [hstage]
      rfl
  | claimed hevent hstage hloaded =>
      refine absurd (hinv.owner ?_ (hloaded.trans hid)) (hnot hevent)
      rw [hstage]
      rfl
  | @accepted i input claimed receipt hevent hstage hheld =>
      have hclaim := (heldBy_iff.1 hheld).1
      refine absurd (hinv.owner_of_claim (p := (claimed.loaded, claimed.claim)) ?_
        (hclaim.symm.trans hid)) (hnot hevent)
      rw [hstage]
      rfl
  | @failed i input x claimed error result hevent _ hstage _ _ hheld =>
      have hclaim := (heldBy_iff.1 hheld).1
      refine absurd (hinv.owner_of_claim (p := (claimed.loaded, claimed.claim)) ?_
        (hclaim.symm.trans hid)) (hnot hevent)
      rw [hstage]
      rfl
  | failedLate => exact hp
  | abandoned hevent hstale => exact habandoned _ _ hevent he hid hstale hp

/-! ## Events of the job's execution -/

theorem stage_of_active {i : Nat} (hphase : s.phase = .active i) :
    s.stage = s.delivery.stageOf i := by
  rw [stage, hphase]

/-- What an event of the job's execution does. -/
inductive OwnStep (config : AppConfig) (s : JobRun) (i : Nat) (d : Delivery) :
    DeliveryEvent → Prop where
  | advanced {input : StepInput} :
      advance config s.job input s.delivery.world (s.delivery.stageOf i) =
        some (d.stageOf i, d.world) →
      OwnStep config s i d (.advance i input)
  | returned {sending : Sending} {receipt : DeliveryReceipt} :
      s.delivery.stageOf i = .sending sending → d.stageOf i = afterSend sending receipt →
      d.database = s.delivery.database → OwnStep config s i d (.sendReturns i receipt)
  | threw {sending : Sending} {error : ThrownValue} :
      s.delivery.stageOf i = .sending sending → d.stageOf i = .recordingFailure sending error →
      d.database = s.delivery.database → OwnStep config s i d (.sendThrows i error)

theorem Locked.ownStep (hinv : Locked config s) {i : Nat} (hphase : s.phase = .active i)
    {event : DeliveryEvent} {d : Delivery} (howns : s.owns event = true)
    (hallows : s.allows event = true)
    (h : (Delivery.system config).step event s.delivery = some d) :
    OwnStep config s i d event := by
  obtain ⟨hjob, hcrashed⟩ := hinv.own i hphase
  have hlen := Delivery.lt_length_of_stageOf hcrashed
  -- Only the events of an execution name one, and this one names the job's.
  have hexecution : event.execution? = some i := by
    rw [owns, hphase] at howns
    exact of_decide_eq_true howns
  cases Delivery.stepCase_of_step h with
  | @advance j input x stage' w hx hstage hadvance =>
      cases hexecution
      rw [Delivery.jobOf?_of_getElem? hx, Option.some.injEq] at hjob
      apply OwnStep.advanced
      rw [← hjob, hstage, hadvance]
      exact congrArg some (Prod.ext (Delivery.stageOf_moveTo_self hlen).symm rfl)
  | sendReturns hstage hreceipt =>
      cases hexecution
      exact .returned hstage (Delivery.stageOf_moveTo_self hlen) rfl
  | sendRefused hstage htransient hpending =>
      cases hexecution
      exact .threw hstage (Delivery.stageOf_moveTo_self hlen) rfl
  | sendThrows hstage htransient =>
      cases hexecution
      exact .threw hstage (Delivery.stageOf_moveTo_self hlen) rfl
  | crash hrunning =>
      cases hexecution
      exact absurd hphase (of_decide_eq_true hallows)
  | deliver job => cases hexecution
  | smtpAccepts hpending => cases hexecution
  | sweep now => cases hexecution
  | createBatch hleads hok => cases hexecution
  | updateSender sender => cases hexecution
  | seed => cases hexecution
  | tick hclock => cases hexecution

/-- An event of another party leaves the job's execution where it is. -/
theorem stageOf_of_other {i : Nat} (hphase : s.phase = .active i) (hinv : Locked config s)
    {event : DeliveryEvent} {d : Delivery} (howns : s.owns event = false)
    (h : (Delivery.system config).step event s.delivery = some d) :
    d.stageOf i = s.delivery.stageOf i := by
  have hne : event.execution? ≠ some i := by
    rw [owns, hphase] at howns
    exact of_decide_eq_false howns
  cases Delivery.stageStep_of_step h i with
  | same heq => exact heq
  | delivered job _ hcrashed _ => exact absurd hcrashed (hinv.own i hphase).2
  | crashed hevent _ => exact absurd (by rw [hevent]; rfl) hne
  | advanced input hevent _ _ => exact absurd (by rw [hevent]; rfl) hne
  | returned _ _ _ _ hevent => exact absurd (by rw [hevent]; rfl) hne
  | threw _ _ _ _ hevent => exact absurd (by rw [hevent]; rfl) hne

end JobRun

end EmailScheduler
