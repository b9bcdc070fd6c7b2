import EmailScheduler.Delivery.HourlyCap
import EmailScheduler.Queue.OneRunner

/-!
# The send budget of an email

`SMTP_MAX_ATTEMPTS` is a bound on the attempts of a job. What it bounds for an email is how often
its message is handed to the SMTP server: an execution hands it over at most once, BullMQ runs a job
at most that often, and a job that is finished for good leaves a closed row, so a job that is added
again for the row sends nothing. The one thing that BullMQ does not count is an execution whose
worker stops before the job is settled. Its job is put back with the attempts it had, although a
message may have been handed over.

So the bound is `SMTP_MAX_ATTEMPTS` and one for each time the job was put back (`sendBudget`), and a
worker that stops after each refusal but before the settling reaches it.
-/

set_option autoImplicit false

namespace EmailScheduler

open Foundation

/-! ## What an execution hands over -/

/-- The messages that an execution may have handed over. -/
def Stage.spent : Stage → Nat
  | .loading => 0
  | .delaying _ => 0
  | .reserving _ _ => 0
  | .recordingRateLimit _ _ _ => 0
  | .claiming _ _ => 0
  | .claimed _ _ _ => 0
  | .finished (.delayed _) => 0
  | _ => 1

theorem Stage.spent_le_one (stage : Stage) : stage.spent ≤ 1 := by
  unfold spent
  split <;> decide

theorem spent_afterSend (d : Sending) (receipt : DeliveryReceipt) :
    (afterSend d receipt).spent = 1 := by
  unfold afterSend
  split <;> rfl

theorem spent_outcome (recorded : Recorded) : (Stage.finished recorded.outcome).spent = 1 := by
  cases recorded <;> rfl

/-- What an execution may have handed over only grows. -/
theorem spent_of_advance {config : AppConfig} {job : Job} {input : StepInput} {w w' : World}
    {stage stage' : Stage} (h : advance config job input w stage = some (stage', w')) :
    stage.spent ≤ stage'.spent := by
  cases advanceCase_of_advance h with
  -- These end in a stage that counts as one.
  | threw _ => exact stage.spent_le_one
  | unfinished => exact (spent_outcome _).ge
  | labelled _ => exact (spent_outcome _).ge
  | _ => simp [Stage.spent]

namespace Delivery

variable {config : AppConfig} {s t : Delivery} {event : DeliveryEvent} {id : Uuid} {i : Nat}

/-- How often a message for an email was handed to the SMTP server. -/
def sentTo (s : Delivery) (id : Uuid) : Nat :=
  s.submissions.countP fun x => decide (x.message.scheduledEmailId = id)

/-- An update of one element that does not change what is counted. -/
theorem countP_modify {α : Type} {p : α → Bool} {f : α → α} (hf : ∀ x, p (f x) = p x)
    (rows : List α)
    (n : Nat) : (rows.modify n f).countP p = rows.countP p := by
  induction rows generalizing n with
  | nil => cases n <;> rfl
  | cons x rows ih =>
      cases n with
      | zero => simp [List.countP_cons, hf]
      | succ n => simp [List.countP_cons, ih]

theorem sentTo_settle (m : Nat) (status : Fate) : (s.settle m status).sentTo id = s.sentTo id :=
  countP_modify (f := fun x : Submission => { x with status := status })
    (fun _ => rfl) s.submissions m

theorem spent_of_step (h : (system config).step event s = some t)
    (hdeliver : ∀ job, event ≠ .deliver job) : (s.stageOf i).spent ≤ (t.stageOf i).spent := by
  cases stageStep_of_step h i with
  | same heq => rw [heq]
  | delivered job hevent => exact absurd hevent (hdeliver job)
  | crashed _ heq =>
      rw [heq]
      exact (s.stageOf i).spent_le_one
  | advanced _ _ _ hadvance => exact spent_of_advance hadvance
  | returned d receipt _ heq =>
      rw [heq, spent_afterSend]
      exact (s.stageOf i).spent_le_one
  | threw _ _ _ heq =>
      rw [heq]
      exact (s.stageOf i).spent_le_one

/-- **Only the step after a claim hands a message over.** -/
theorem sentTo_of_step (h : (system config).step event s = some t) (id : Uuid) :
    t.sentTo id = s.sentTo id ∨ t.sentTo id = s.sentTo id + 1 ∧
      ∃ i loaded claim now, s.stageOf i = .claimed loaded claim now ∧ loaded.email.id = id ∧
        (t.stageOf i).spent = 1 := by
  cases stepCase_of_step h with
  | @advance i input x stage' w hx hstage hadvance =>
      have hself : Delivery.stageOf { (s.moveTo i stage') with world := w } i = stage' :=
        stageOf_moveTo_self (List.getElem?_eq_some_iff.1 hx).1
      -- The messages of an email grow by one when `mailer.send` is called for it.
      cases admissionStep_of_advance hadvance with
      | other _ hsame =>
          left
          simp only [sentTo, submissions]
          rw [hsame]
      | reserved _ _ _ _ hsame =>
          left
          simp only [sentTo, submissions]
          rw [hsame]
      | sent loaded claim now handedOverAt hclaimed _ hnew =>
          have hcount : sentTo { (s.moveTo i stage') with world := w } id = s.sentTo id +
              List.countP (fun x : Submission => decide (x.message.scheduledEmailId = id))
                [⟨loaded.message, loaded.email.senderId, claim.processingToken, now, handedOverAt,
                  .pending⟩] := by
            simp only [sentTo, submissions]
            rw [hnew, List.countP_append]
          by_cases hid : loaded.email.id = id
          · right
            have hone : decide (loaded.message.scheduledEmailId = id) = true := decide_eq_true hid
            rw [List.countP_cons, if_pos hone] at hcount
            refine ⟨hcount, i, loaded, claim, now, hstage.trans hclaimed, hid, ?_⟩
            rw [hself]
            rw [hclaimed] at hadvance
            cases hadvance
            rfl
          · left
            have hzero : ¬ decide (loaded.message.scheduledEmailId = id) = true := by
              rw [decide_eq_true_eq]
              exact hid
            rw [List.countP_cons, if_neg hzero] at hcount
            exact hcount
  | sendRefused => exact Or.inl (sentTo_settle _ _)
  | smtpAccepts => exact Or.inl (sentTo_settle _ _)
  | _ => exact Or.inl rfl

end Delivery

namespace Pipeline

variable {config : AppConfig} {s t : Pipeline} {event : PipelineEvent} {jobs : List BulkJob}
  {id : Uuid} {requeued : Nat}

/-! ## Attempts -/

/-- The attempts of every live job are those of `defaultJobOptions`, and one is left. -/
structure AttemptsLeft (config : AppConfig) (job : QueuedJob BullJobId EmailJobData) : Prop where
  attempts : job.attempts = config.smtpMaxAttempts.toNat
  left : job.attemptsMade + 1 ≤ config.smtpMaxAttempts.toNat

theorem attemptsLeft_queuedJob (job : BulkJob) : AttemptsLeft config (queuedJob config job) := by
  refine ⟨rfl, ?_⟩
  have hmin := config.one_le_smtpMaxAttempts
  show 0 + 1 ≤ config.smtpMaxAttempts.toNat
  omega

/-- A job that is tried again has an attempt left. -/
theorem lt_of_retried {job : QueuedJob BullJobId EmailJobData} {outcome : Outcome}
    (h : outcome.verdict job.afterThrow = .retried) : job.attemptsMade + 1 < job.attempts := by
  apply Verdict.afterThrow_eq_retried_iff.1
  cases outcome with
  | returned => cases h
  | delayed availableAt => cases h
  | unrecoverable message => cases h
  | _ => exact h

theorem attemptsLeft_of_reachable (h : (system config).Reachable KeepsOpenRows s) :
    ∀ x ∈ s.queue.live, AttemptsLeft config x.1 := by
  apply h.invariant_of_reachable (I := fun s => ∀ x ∈ s.queue.live, AttemptsLeft config x.1)
  · rintro s ⟨-, hqueue⟩ x hx
    rw [hqueue] at hx
    cases hx
  · intro s event t hs _ hstep hinv
    -- A move keeps the jobs.
    have hmove : ∀ id state, ∀ x ∈ (s.queue.move id state).live, AttemptsLeft config x.1 := by
      intro id state x hx
      rcases JobQueue.mem_live_move hx with ⟨y, hy, -, rfl⟩ | ⟨hold, -⟩
      · exact hinv y hy
      · exact hinv x hold
    cases stepCase_of_step hstep with
    | world => exact hinv
    | addBulk jobs =>
        intro x hx
        rcases JobQueue.mem_live_addAll hx with hold | ⟨⟨y, hy, hnew⟩, -⟩
        · exact hinv x hold
        · obtain ⟨bulk, -, rfl⟩ := List.mem_map.1 hy
          rw [← hnew]
          exact attemptsLeft_queuedJob bulk
    | promote job => exact hmove _ _
    | start job => exact hmove _ _
    | requeue job i =>
        intro x hx
        rcases JobQueue.mem_live_putBack hx with ⟨y, hy, -, rfl⟩ | ⟨hold, -⟩
        · exact ⟨(hinv y hy).attempts, (hinv y hy).left⟩
        · exact hinv x hold
    | giveUp job i =>
        intro x hx
        exact hinv x (JobQueue.mem_liveWithout.1 hx).1
    | settle job i outcome hjob =>
        intro x hx
        change x ∈ (s.queue.settle config.retention job (outcome.verdict job.afterThrow)).live at hx
        cases hverdict : outcome.verdict job.afterThrow with
        | completed =>
            rw [hverdict] at hx
            exact hinv x (JobQueue.mem_liveWithout.1 hx).1
        | failed =>
            rw [hverdict] at hx
            exact hinv x (JobQueue.mem_liveWithout.1 hx).1
        | delayed =>
            rw [hverdict] at hx
            exact hmove _ _ x hx
        | retried =>
            rw [hverdict] at hx
            rcases JobQueue.mem_live_retry hx with ⟨y, hy, hid, rfl⟩ | ⟨hold, -⟩
            · obtain rfl : y.1 = job :=
                congrArg Prod.fst ((queueInv_of_reachable hs).ids.live_eq hy hjob hid)
              have hattempts := (hinv y hy).attempts
              refine ⟨hattempts, ?_⟩
              rw [← hattempts]
              exact lt_of_retried hverdict
            · exact hinv x hold

/-! ## The budget of one email -/

/-- The stage of a live job's execution; a job without one has not done anything yet. -/
def stageAt (s : Pipeline) : LiveState Nat → Stage
  | .active i => s.delivery.stageOf i
  | _ => .loading

/-- The messages handed over for an email are paid for. While the job is live: by the attempts it
made, by the execution that runs it and by the times it was put back; or its row is closed and no
execution is delivering it. -/
structure Budget (config : AppConfig) (id : Uuid) (requeued : Nat) (s : Pipeline) : Prop where
  total : s.delivery.sentTo id ≤ config.smtpMaxAttempts.toNat + requeued
  idle : (∀ x ∈ s.queue.live, x.1.data.scheduledEmailId ≠ id) →
    s.delivery.sentTo id = 0 ∨ Closed s.delivery.database id
  live : ∀ x ∈ s.queue.live, x.1.data.scheduledEmailId = id →
    s.delivery.sentTo id ≤ x.1.attemptsMade + (s.stageAt x.2).spent + requeued ∨
      (s.stageAt x.2).delivery? = none ∧ Closed s.delivery.database id

theorem budget_init (h : (system config).init s) : Budget config id 0 s := by
  obtain ⟨⟨-, -, -, -, -, hsubmissions, -⟩, hqueue⟩ := h
  have hnone : s.delivery.sentTo id = 0 := by
    rw [Delivery.sentTo, hsubmissions]
    rfl
  constructor
  · omega
  · exact fun _ => Or.inl hnone
  · intro x hx
    rw [hqueue] at hx
    cases hx

/-- An execution that has loaded the row of an email runs the live job for it. -/
theorem exists_job_of_loaded (hinv : QueueInv s)
    (hs : (Delivery.system config).Reachable TransitionSystem.anyStep s.delivery) {i : Nat}
    {loaded : LoadedEmail} (hrunning : (s.delivery.stageOf i).isRunning = true)
    (hloaded : (s.delivery.stageOf i).loaded? = some loaded) :
    ∃ job, (job, .active i) ∈ s.queue.live ∧ job.data.scheduledEmailId = loaded.email.id := by
  obtain ⟨job, hactive⟩ := hinv.running i hrunning
  exact ⟨job, hactive, (Delivery.loaded_id_eq hs (hinv.active job i hactive) hloaded).symm⟩

/-- A row that is closed is not claimed: a job for it that has claimed nothing still has not. -/
theorem delivery?_eq_none_of_step (hinv : QueueInv s)
    (hs : (Delivery.system config).Reachable TransitionSystem.anyStep s.delivery)
    {event : DeliveryEvent} {d : Delivery}
    (h : (Delivery.system config).step event s.delivery = some d)
    {x : QueuedJob BullJobId EmailJobData × LiveState Nat} (hx : x ∈ s.queue.live)
    (hclosed : Closed s.delivery.database x.1.data.scheduledEmailId)
    (hnone : (s.stageAt x.2).delivery? = none) :
    (Pipeline.stageAt ⟨d, s.queue⟩ x.2).delivery? = none := by
  obtain ⟨job, state⟩ := x
  cases state with
  | waiting => rfl
  | delayed => rfl
  | active i =>
      change (s.delivery.stageOf i).delivery? = none at hnone
      show (d.stageOf i).delivery? = none
      by_contra hsome
      obtain ⟨p, hp⟩ := Option.ne_none_iff_exists'.1 hsome
      rcases (Delivery.stageStep_of_step h i).delivery? hp with
        hbefore | ⟨now, token, hstage, hclaim⟩
      · rw [hnone] at hbefore
        cases hbefore
      · -- A claim succeeds on an open row only.
        obtain ⟨row, hrow, hmatch, -⟩ := claimEmail_eq_ok_some hclaim
        obtain ⟨hrowId, -, hopen⟩ := claimable_iff.1 hmatch
        have hloaded : (s.delivery.stageOf i).loaded? = some p.1 := by
          rw [hstage]
          rfl
        have hjobId := Delivery.loaded_id_eq hs (hinv.active job i hx) hloaded
        have hfalse := hclosed.isOpen_eq_false (Delivery.primaryKey_emails hs) hrow
          (hrowId.trans hjobId)
        rw [hopen] at hfalse
        cases hfalse

/-- A message is handed over by the execution of the live job, within its attempt. -/
theorem sentTo_of_world (hinv : QueueInv s) (hbudget : Budget config id requeued s)
    (hs : (Delivery.system config).Reachable TransitionSystem.anyStep s.delivery)
    {event : DeliveryEvent} {d : Delivery}
    (h : (Delivery.system config).step event s.delivery = some d) :
    d.sentTo id = s.delivery.sentTo id ∨ ∃ job i, (job, .active i) ∈ s.queue.live ∧
      job.data.scheduledEmailId = id ∧ (d.stageOf i).spent = 1 ∧
      d.sentTo id ≤ job.attemptsMade + 1 + requeued := by
  rcases Delivery.sentTo_of_step h id with
    hsame | ⟨hmore, i, loaded, claim, now, hstage, hid, hspent⟩
  · exact Or.inl hsame
  · right
    -- Before the step the execution had handed nothing over, so its attempt still pays for one.
    have hloaded : (s.delivery.stageOf i).loaded? = some loaded := by
      rw [hstage]
      rfl
    obtain ⟨job, hactive, hdata⟩ := exists_job_of_loaded hinv hs (by rw [hstage]; rfl) hloaded
    have hdata := hdata.trans hid
    refine ⟨job, i, hactive, hdata, hspent, ?_⟩
    have hstageAt : s.stageAt (.active i) = .claimed loaded claim now := hstage
    rcases hbudget.live _ hactive hdata with hle | ⟨hnone, -⟩
    · simp only [hstageAt, Stage.spent] at hle
      omega
    · dsimp only at hnone
      rw [hstageAt] at hnone
      cases hnone

/-- **Step lemma for the delivery system.** -/
theorem budget_world (hinv : QueueInv s) (hbudget : Budget config id requeued s)
    (hleft : ∀ x ∈ s.queue.live, AttemptsLeft config x.1)
    (hs : (Delivery.system config).Reachable TransitionSystem.anyStep s.delivery)
    {event : DeliveryEvent} {d : Delivery} (hdeliver : ∀ job, event ≠ .deliver job)
    (h : (Delivery.system config).step event s.delivery = some d) :
    Budget config id requeued ⟨d, s.queue⟩ := by
  have hsent := sentTo_of_world hinv hbudget hs h
  constructor
  · show d.sentTo id ≤ config.smtpMaxAttempts.toNat + requeued
    rcases hsent with hsame | ⟨job, i, hactive, -, -, hle⟩
    · rw [hsame]
      exact hbudget.total
    · have hone := (hleft _ hactive).left
      dsimp only at hone
      omega
  · intro hnone
    change ∀ x ∈ s.queue.live, x.1.data.scheduledEmailId ≠ id at hnone
    show d.sentTo id = 0 ∨ _
    -- Without a job there is no execution, so nothing is handed over and the row stays closed.
    rcases hsent with hsame | ⟨job, i, hactive, hdata, -⟩
    · rw [hsame]
      apply (hbudget.idle hnone).imp_right
      intro hclosed
      exact closed_of_world hinv hs h hclosed fun job i _ hx hid _ => absurd hid (hnone _ hx)
    · exact absurd hdata (hnone _ hactive)
  · intro x hx hid
    change x ∈ s.queue.live at hx
    show d.sentTo id ≤ _ ∨ _
    have hspent : (s.stageAt x.2).spent ≤ (Pipeline.stageAt ⟨d, s.queue⟩ x.2).spent := by
      cases x.2 with
      | active i => exact Delivery.spent_of_step h hdeliver
      | waiting => exact le_refl 0
      | delayed => exact le_refl 0
    rcases hbudget.live x hx hid with hle | ⟨hnone, hclosed⟩
    · left
      rcases hsent with hsame | ⟨job, i, hactive, hdata, hone, hmore⟩
      · rw [hsame]
        omega
      · -- The job is this one.
        obtain rfl := hinv.live_eq hactive hx (hdata.trans hid.symm)
        have hone : (Pipeline.stageAt ⟨d, s.queue⟩ (.active i)).spent = 1 := hone
        dsimp only at hle ⊢
        omega
    · right
      refine ⟨delivery?_eq_none_of_step hinv hs h hx (by rwa [hid]) hnone,
        closed_of_world hinv hs h hclosed ?_⟩
      intro job i _ hactive hdata _
      obtain rfl := hinv.live_eq hactive hx (hdata.trans hid.symm)
      exact hnone

/-- **Step lemma for `addBulk`.** -/
theorem budget_addBulk (hinv : QueueInv s)
    (hinv' : QueueInv ⟨s.delivery, s.queue.addBulk config jobs⟩)
    (hbudget : Budget config id requeued s) :
    Budget config id requeued ⟨s.delivery, s.queue.addBulk config jobs⟩ := by
  refine ⟨hbudget.total, ?_, ?_⟩
  · intro hnone
    apply hbudget.idle
    intro x hx
    exact hnone x (JobQueue.mem_live_addAll_of_mem hx _)
  · intro x hx hid
    rcases JobQueue.mem_live_addAll hx with hold | ⟨⟨y, hy, hnew⟩, hinactive, hunknown⟩
    · exact hbudget.live x hold hid
    · -- The id was not known, so the email had no live job.
      obtain ⟨bulk, -, rfl⟩ := List.mem_map.1 hy
      have hloading : s.stageAt x.2 = .loading := by
        cases hstate : x.2 with
        | active i => exact absurd hstate (hinactive i)
        | waiting => rfl
        | delayed => rfl
      have hidle := hbudget.idle fun z hz hdata => by
        apply hunknown z.1 (QueueInv.mem_jobs hz)
        rw [(hinv.named z.1 (QueueInv.mem_jobs hz)).1, hdata, ← hid]
        exact ((hinv'.named x.1 (QueueInv.mem_jobs hx)).1).symm
      show s.delivery.sentTo id ≤ x.1.attemptsMade + (s.stageAt x.2).spent + requeued ∨
        (s.stageAt x.2).delivery? = none ∧ _
      rw [hloading]
      rcases hidle with hzero | hclosed
      · left
        rw [hzero]
        exact Nat.zero_le _
      · exact Or.inr ⟨rfl, hclosed⟩

/-- A job goes to another state. The messages for its own email have to be paid for there. -/
theorem budget_moved (hinv : QueueInv s) (hbudget : Budget config id requeued s)
    {job : QueuedJob BullJobId EmailJobData} {state : LiveState Nat}
    (hjob : (job, state) ∈ s.queue.live) (state' : LiveState Nat) {d : Delivery} {q : EmailQueue}
    {requeued' : Nat}
    (hlive : ∀ x ∈ q.live, (∃ y ∈ s.queue.live, y.1.id = job.id ∧ x.1.data = y.1.data ∧
      x.1.attemptsMade = y.1.attemptsMade ∧ x.2 = state') ∨ x ∈ s.queue.live)
    (hkept : ∀ x ∈ s.queue.live, ∃ y ∈ q.live, y.1.data = x.1.data)
    (hsent : d.sentTo id = s.delivery.sentTo id) (hdatabase : d.database = s.delivery.database)
    (hstages : ∀ x ∈ s.queue.live, Pipeline.stageAt ⟨d, s.queue⟩ x.2 = s.stageAt x.2)
    (hle : requeued ≤ requeued')
    (hpaid : job.data.scheduledEmailId = id → (s.stageAt state).spent + requeued ≤
      (Pipeline.stageAt ⟨d, s.queue⟩ state').spent + requeued')
    (hdelivery : (Pipeline.stageAt ⟨d, s.queue⟩ state').delivery? = none) :
    Budget config id requeued' ⟨d, q⟩ := by
  constructor
  · have htotal := hbudget.total
    show d.sentTo id ≤ config.smtpMaxAttempts.toNat + requeued'
    omega
  · intro hnone
    show d.sentTo id = 0 ∨ Closed d.database id
    rw [hsent, hdatabase]
    apply hbudget.idle
    intro x hx
    obtain ⟨y, hy, hdata⟩ := hkept x hx
    rw [← hdata]
    exact hnone y hy
  · intro x hx hid
    show d.sentTo id ≤ x.1.attemptsMade + (Pipeline.stageAt ⟨d, s.queue⟩ x.2).spent + requeued' ∨
      (Pipeline.stageAt ⟨d, s.queue⟩ x.2).delivery? = none ∧ Closed d.database id
    rw [hsent, hdatabase]
    rcases hlive x hx with ⟨y, hy, hyid, hdata, hmade, hstate⟩ | hold
    -- The moved job pays with its new state; the others keep state and stage.
    · obtain rfl := hinv.ids.live_eq hy hjob hyid
      rw [hdata] at hid
      have hpaid := hpaid hid
      rw [hstate, hmade]
      rcases hbudget.live _ hjob hid with hbefore | ⟨-, hclosed⟩
      · left
        dsimp only at hbefore ⊢
        omega
      · exact Or.inr ⟨hdelivery, hclosed⟩
    · rw [hstages x hold]
      rcases hbudget.live x hold hid with hbefore | hidle
      · left
        omega
      · exact Or.inr hidle

/-- A move leaves the data of the jobs and the attempts made. -/
theorem budget_move (hinv : QueueInv s) (hbudget : Budget config id requeued s)
    {job : QueuedJob BullJobId EmailJobData} {state : LiveState Nat}
    (hjob : (job, state) ∈ s.queue.live) (state' : LiveState Nat) {d : Delivery}
    (hsent : d.sentTo id = s.delivery.sentTo id) (hdatabase : d.database = s.delivery.database)
    (hstages : ∀ x ∈ s.queue.live, Pipeline.stageAt ⟨d, s.queue⟩ x.2 = s.stageAt x.2)
    (hpaid : job.data.scheduledEmailId = id →
      (s.stageAt state).spent ≤ (Pipeline.stageAt ⟨d, s.queue⟩ state').spent)
    (hdelivery : (Pipeline.stageAt ⟨d, s.queue⟩ state').delivery? = none) :
    Budget config id requeued ⟨d, s.queue.move job.id state'⟩ := by
  refine budget_moved hinv hbudget hjob state' ?_ ?_ hsent hdatabase hstages (le_refl _)
    (fun hid => Nat.add_le_add_right (hpaid hid) _) hdelivery
  · intro x hx
    rcases JobQueue.mem_live_move hx with ⟨y, hy, hyid, rfl⟩ | ⟨hold, -⟩
    · exact Or.inl ⟨y, hy, hyid, rfl, rfl, rfl⟩
    · exact Or.inr hold
  · exact fun x hx => JobQueue.exists_mem_live_move hx _ _

/-- A waiting job is started. -/
theorem budget_start (hinv : QueueInv s) (hbudget : Budget config id requeued s)
    {job : QueuedJob BullJobId EmailJobData} (hjob : (job, .waiting) ∈ s.queue.live) {d : Delivery}
    (h : (Delivery.system config).step (.deliver (processorJob job)) s.delivery = some d) :
    Budget config id requeued ⟨d, s.queue.move job.id (.active s.delivery.executions.length)⟩ := by
  cases h
  have hnew : Delivery.stageOf { s.delivery with
      executions := s.delivery.executions ++ [⟨processorJob job, .loading⟩] }
        s.delivery.executions.length = .loading := by
    rw [Delivery.stageOf_append, if_pos rfl]
  refine budget_move (d := { s.delivery with executions := s.delivery.executions ++
    [⟨processorJob job, .loading⟩] }) hinv hbudget hjob _ rfl rfl ?_ ?_ ?_
  · intro x hx
    cases hstate : x.2 with
    | waiting => rfl
    | delayed => rfl
    | active i =>
        -- Executions that were there keep their stage.
        have hactive : (x.1, .active i) ∈ s.queue.live := by
          rw [← hstate]
          exact hx
        obtain ⟨y, hy, -⟩ := Option.map_eq_some_iff.1 (hinv.active x.1 i hactive)
        have hlt : i < s.delivery.executions.length := (List.getElem?_eq_some_iff.1 hy).1
        exact (Delivery.stageOf_append _).trans (if_neg (Nat.ne_of_lt hlt))
  · intro _
    show Stage.spent .loading ≤ (Delivery.stageOf _ _).spent
    rw [hnew]
  · show (Delivery.stageOf _ _).delivery? = none
    rw [hnew]
    rfl

/-- A job that is finished for good leaves a closed row. -/
theorem budget_finish (hinv : QueueInv s) (hbudget : Budget config id requeued s)
    {job : QueuedJob BullJobId EmailJobData} {state : LiveState Nat}
    (hjob : (job, state) ∈ s.queue.live)
    {q : EmailQueue} (hlive : q.live = s.queue.liveWithout job.id)
    (hclosed : Closed s.delivery.database job.data.scheduledEmailId) :
    Budget config id requeued ⟨s.delivery, q⟩ := by
  refine ⟨hbudget.total, ?_, ?_⟩
  · intro hnone
    show s.delivery.sentTo id = 0 ∨ Closed s.delivery.database id
    by_cases hown : job.data.scheduledEmailId = id
    · rw [← hown]
      exact Or.inr hclosed
    · apply hbudget.idle
      intro x hx hid
      refine hnone x ?_ hid
      change x ∈ q.live
      rw [hlive]
      refine JobQueue.mem_liveWithout.2 ⟨hx, ?_⟩
      intro hsame
      rw [hinv.ids.live_eq hx hjob hsame] at hid
      exact hown hid
  · intro x hx hid
    change x ∈ q.live at hx
    rw [hlive] at hx
    exact hbudget.live x (JobQueue.mem_liveWithout.1 hx).1 hid

/-- **Step lemma for settling.** -/
theorem budget_settle (hinv : QueueInv s) (hbudget : Budget config id requeued s)
    {job : QueuedJob BullJobId EmailJobData} {i : Nat} {outcome : Outcome}
    (hjob : (job, .active i) ∈ s.queue.live) (hstage : s.delivery.stageOf i = .finished outcome)
    (hkeeps : KeepsOpenRows s (.settle job.id)) : Budget config id requeued
      ⟨s.delivery, s.queue.settle config.retention job (outcome.verdict job.afterThrow)⟩ := by
  have hstageAt : s.stageAt (.active i) = .finished outcome := hstage
  cases hverdict : outcome.verdict job.afterThrow with
  | delayed =>
      -- An execution that is delayed has handed nothing over.
      obtain ⟨availableAt, rfl⟩ : ∃ availableAt, outcome = .delayed availableAt := by
        cases outcome with
        | delayed availableAt => exact ⟨availableAt, rfl⟩
        | returned => cases hverdict
        | unrecoverable => cases hverdict
        | _ => exact absurd hverdict (Verdict.afterThrow_ne_delayed _ _)
      refine budget_move hinv hbudget hjob _ rfl rfl (fun _ _ => rfl) ?_ rfl
      intro _
      rw [hstageAt]
      exact le_refl _
  | retried =>
      -- The attempt is counted.
      refine ⟨hbudget.total, ?_, ?_⟩
      · intro hnone
        apply hbudget.idle
        intro x hx
        obtain ⟨y, hy, hdata⟩ := JobQueue.exists_mem_live_retry hx job.id
        rw [← hdata]
        exact hnone y hy
      · intro x hx hid
        rcases JobQueue.mem_live_retry hx with ⟨y, hy, hyid, rfl⟩ | ⟨hold, -⟩
        · obtain rfl := hinv.ids.live_eq hy hjob hyid
          apply (hbudget.live _ hjob hid).imp
          · intro hle
            have hone := (s.stageAt (.active i)).spent_le_one
            show s.delivery.sentTo id ≤ job.attemptsMade + 1 + 0 + requeued
            dsimp only at hle
            omega
          · rintro ⟨-, hclosed⟩
            exact ⟨rfl, hclosed⟩
        · exact hbudget.live x hold hid
  | completed =>
      exact budget_finish hinv hbudget hjob rfl
        (closed_of_verdict hinv hjob hstage hkeeps (Or.inl hverdict))
  | failed =>
      exact budget_finish hinv hbudget hjob rfl
        (closed_of_verdict hinv hjob hstage hkeeps (Or.inr hverdict))

/-! ## Runs -/

/-- How often the job of an email is put back in a run. -/
def requeues (id : Uuid) (events : List PipelineEvent) : Nat :=
  events.countP fun event =>
    match event with
    | .requeue jobId => decide (jobId = createBullJobId id)
    | _ => false

theorem requeues_concat (id : Uuid) (events : List PipelineEvent) (event : PipelineEvent) :
    requeues id events ≤ requeues id (events ++ [event]) := by
  rw [requeues, requeues, List.countP_append]
  exact Nat.le_add_right _ _

theorem Budget.mono (hbudget : Budget config id requeued s) {requeued' : Nat}
    (hle : requeued ≤ requeued') : Budget config id requeued' s := by
  refine ⟨by have := hbudget.total; omega, hbudget.idle, ?_⟩
  intro x hx hid
  apply (hbudget.live x hx hid).imp_left
  intro hpaid
  omega

theorem budget_step (hinv : QueueInv s) {events : List PipelineEvent}
    (hbudget : Budget config id (requeues id events) s)
    (hs : (system config).Reachable KeepsOpenRows s) (hkeeps : KeepsOpenRows s event)
    (h : (system config).step event s = some t) :
    Budget config id (requeues id (events ++ [event])) t := by
  have hmono := requeues_concat id events event
  cases stepCase_of_step h with
  | world event d hdeliver hd =>
      exact (budget_world hinv hbudget (attemptsLeft_of_reachable hs)
        (delivery_reachable hs) hdeliver
        hd).mono hmono
  | addBulk jobs hjobs =>
      exact (budget_addBulk hinv (queueInv_addBulk hinv (delivery_reachable hs) hjobs) hbudget).mono
        hmono
  | promote job hjob =>
      exact (budget_move hinv hbudget hjob .waiting rfl rfl (fun _ _ => rfl)
        (fun _ => le_refl _) rfl).mono hmono
  | start job d hjob hd => exact (budget_start hinv hbudget hjob hd).mono hmono
  | settle job i outcome hjob hstage =>
      exact (budget_settle hinv hbudget hjob hstage hkeeps).mono hmono
  | giveUp job i hjob =>
      exact (budget_finish hinv hbudget hjob rfl (closed_of_giveUp hinv hjob hkeeps)).mono hmono
  | requeue job i hjob =>
      refine budget_moved hinv hbudget hjob .waiting ?_ ?_ rfl rfl (fun _ _ => rfl) hmono
        ?_ rfl
      · intro x hx
        rcases JobQueue.mem_live_putBack hx with ⟨y, hy, hyid, rfl⟩ | ⟨hold, -⟩
        · exact Or.inl ⟨y, hy, hyid, rfl, rfl, rfl⟩
        · exact Or.inr hold
      · exact fun x hx => JobQueue.exists_mem_live_putBack hx _
      intro hid
      -- What the execution that was cut off may have handed over is paid for by this step.
      have hone := (s.stageAt (.active i)).spent_le_one
      have hcount : requeues id (events ++ [.requeue job.id]) = requeues id events + 1 := by
        have hname : job.id = createBullJobId id := by
          rw [(hinv.named job (QueueInv.mem_jobs hjob)).1, hid]
        rw [requeues, requeues, List.countP_append, List.countP_singleton, if_pos]
        exact decide_eq_true hname
      show _ ≤ 0 + requeues id (events ++ [.requeue job.id])
      omega

/-- **The send budget.** In every run that gives up no job on an open row and loses no lock, the
messages handed over for an email are at most `SMTP_MAX_ATTEMPTS` and one for each time its job was
put back. -/
theorem sendBudget {events : List PipelineEvent} {s₀ : Pipeline} (hinit : (system config).init s₀)
    (hrun : (system config).run KeepsOpenRows events s₀ = some s) (id : Uuid) :
    s.delivery.sentTo id ≤ config.smtpMaxAttempts.toNat + requeues id events := by
  have hreach : (system config).Reachable KeepsOpenRows s₀ := ⟨s₀, hinit, .refl⟩
  have hbudget := TransitionSystem.invariant_of_run (I := fun past s =>
    (system config).Reachable KeepsOpenRows s ∧
      Budget config id (requeues id past) s) [] events hrun
      ⟨hreach, budget_init hinit⟩ ?_
  · exact hbudget.2.total
  · -- The requeues counted so far grow with the run.
    rintro past s event t hkeeps hstep ⟨hs, hbudget⟩
    refine ⟨hs.trans (.single hkeeps hstep), ?_⟩
    exact budget_step (queueInv_of_reachable hs) hbudget hs hkeeps hstep

/-- An execution whose message is refused for the time being, and whose worker stops before the job
is settled; or the settling and the next start. -/
def refusedOnce (i : Nat) (now : Int) : List PipelineEvent :=
  [.start (createBullJobId 100),
    .world (.advance i ⟨now, 0, .done⟩), .world (.advance i ⟨now, 0, .done⟩),
    .world (.advance i ⟨now, 70 + i, .done⟩), .world (.advance i ⟨now, 0, .done⟩),
    .world (.sendThrows i (.object (.string "EMESSAGE") (.integer 451))),
    .world (.advance i ⟨now, 0, .done⟩)]

/-- Three attempts, and one more after the worker stopped. -/
def refusedEachTime : List PipelineEvent :=
  let settled : List PipelineEvent :=
    [.settle (createBullJobId 100), .promote (createBullJobId 100)]
  scheduledAndQueued ++ refusedOnce 0 1000 ++ [.requeue (createBullJobId 100)] ++
    refusedOnce 1 10000000 ++ settled ++ refusedOnce 2 20000000 ++ settled ++
    refusedOnce 3 30000000

theorem refusedEachTime_runs :
    ((system validConfig).run KeepsOpenRows refusedEachTime idleStart).isSome = true := by
  decide +kernel

/-- The bound is reached. -/
theorem sendBudget_after_refusedEachTime : ∃ s,
    (system validConfig).run KeepsOpenRows refusedEachTime idleStart = some s ∧
      validConfig.smtpMaxAttempts.toNat + requeues 100 refusedEachTime ≤ s.delivery.sentTo 100 ∧
      s.delivery.sentTo 100 ≤ validConfig.smtpMaxAttempts.toNat + requeues 100 refusedEachTime :=
  ⟨_, (Option.some_get refusedEachTime_runs).symm, by decide +kernel,
    sendBudget (idleStart_init validConfig) (Option.some_get refusedEachTime_runs).symm 100⟩

end Pipeline

end EmailScheduler
