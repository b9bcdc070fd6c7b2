import EmailScheduler.Delivery.Processor
import EmailScheduler.Scheduling.Statements

/-!
# The delivery system

Any number of executions of the processor over one world, with everything that can happen between
their steps: jobs are delivered (also twice, also while an execution of the same job runs), the SMTP
server accepts messages, processes crash, the stale sweep runs, batches are created, senders change
their policy, limiter keys are seeded, and the Redis clock moves. A batch is created in one step
here; how concurrent calls of `createEmailBatch` interleave is the subject of another module.

An execution is named by its position. Executions and submissions are never removed, so positions
stay valid through a run.
-/

set_option autoImplicit false

namespace EmailScheduler

open Foundation

structure Execution where
  job : Job
  stage : Stage
deriving DecidableEq

/-- The state of the system. -/
structure Delivery where
  world : World
  executions : List Execution

/-- What happens in one step. -/
inductive DeliveryEvent where
  | deliver (job : Job)
  | advance (i : Nat) (input : StepInput)
  | sendReturns (i : Nat) (receipt : DeliveryReceipt)
  | sendThrows (i : Nat) (error : ThrownValue)
  | smtpAccepts (m : Nat)
  | crash (i : Nat)
  | sweep (now : Int)
  | createBatch (input : CreateBatchInput) (batchId : Uuid) (newId : Nat → Uuid)
  | updateSender (sender : EmailSender)
  | seed (policy : SenderPolicy) (acceptedCount : Nat) (lastAcceptedAt : Option Int) (now : Int)
  | tick (clock : Int)

namespace Delivery

variable (s : Delivery)

/-- The database of the world. -/
abbrev database : Database := s.world.database

/-- The submissions of the world. -/
abbrev submissions : List Submission := s.world.submissions

/-- Replace the database. -/
def withDatabase (db : Database) : Delivery := { s with world := { s.world with database := db } }

/-- Replace the limiter. -/
def withLimiter (limiter : Limiter) : Delivery :=
  { s with world := { s.world with limiter := limiter } }

/-- Add a submission. -/
def withSubmission (x : Submission) : Delivery :=
  { s with world := { s.world with submissions := s.submissions ++ [x] } }

/-- Settle a submission. -/
def settle (m : Nat) (status : Fate) : Delivery :=
  { s with world := { s.world with
    submissions := s.submissions.modify m fun x => { x with status := status } } }

/-- Move an execution to a stage. -/
def moveTo (i : Nat) (stage : Stage) : Delivery :=
  { s with executions := s.executions.modify i fun x => { x with stage := stage } }

/-- The stage of an execution; one that does not exist counts as crashed. -/
def stageOf (i : Nat) : Stage := (s.executions[i]?.map Execution.stage).getD .crashed

/-- The status of a submission; one that does not exist counts as refused. -/
def statusOf (m : Nat) : Fate :=
  (s.submissions[m]?.map Submission.status).getD .refused

/-- `mailer.send` returns. A receipt with an accepted recipient means that the server accepted the
message. -/
def sendReturns (i : Nat) (receipt : DeliveryReceipt) : Option Delivery :=
  match s.stageOf i with
  | .sending d =>
      if receipt.acceptedCount ≠ 0 ∧ s.statusOf d.submission ≠ .accepted then none
      else some (s.moveTo i (afterSend d receipt))
  | _ => none

/-- `mailer.send` throws. A transient error means that the server did not accept the message and
never will. -/
def sendThrows (i : Nat) (error : ThrownValue) : Option Delivery :=
  match s.stageOf i with
  | .sending d =>
      if classifyDeliveryError error = .transient then
        if s.statusOf d.submission = .pending then
          some ((s.settle d.submission .refused).moveTo i (.recordingFailure d error))
        else none
      else some (s.moveTo i (.recordingFailure d error))
  | _ => none

/-- One step. -/
def step (config : AppConfig) : DeliveryEvent → Delivery → Option Delivery
  | .deliver job, s => some { s with executions := s.executions ++ [⟨job, .loading⟩] }
  | .advance i input, s =>
      s.executions[i]?.bind fun x =>
        (advance config x.job input s.world x.stage).map fun result =>
          { (s.moveTo i result.1) with world := result.2 }
  | .sendReturns i receipt, s => s.sendReturns i receipt
  | .sendThrows i error, s => s.sendThrows i error
  | .smtpAccepts m, s => if s.statusOf m = .pending then some (s.settle m .accepted) else none
  | .crash i, s => if (s.stageOf i).isRunning then some (s.moveTo i .crashed) else none
  | .sweep now, s => some (s.withDatabase (sweepStaleLeases config s.database now).2)
  | .createBatch input batchId newId, s =>
      if input.parsedLeads.leads = [] then none
      else
        match createBatchTransaction s.database input batchId newId with
        | .ok (_, db) => some (s.withDatabase db)
        | .error _ => none
  | .updateSender sender, s =>
      some (s.withDatabase { s.database with
        senders := updateMany (fun x => decide (x.id = sender.id))
          (fun x => { sender with userId := x.userId }) s.database.senders })
  | .seed policy acceptedCount lastAcceptedAt now, s =>
      some (s.withLimiter (s.world.limiter.seed config policy acceptedCount lastAcceptedAt now))
  | .tick clock, s =>
      if s.world.limiter.clock ≤ clock then
        some (s.withLimiter { s.world.limiter with clock := clock })
      else none

/-- Runs start with any senders and with no batches, emails, attempts, limiter keys, submissions or
executions. -/
def system (config : AppConfig) : TransitionSystem Delivery DeliveryEvent where
  init s := s.database.batches = [] ∧ s.database.emails = [] ∧ s.database.attempts = [] ∧
    s.world.limiter.redis = ExpiringStore.empty ∧ s.world.limiter.history = [] ∧
    s.submissions = [] ∧ s.executions = []
  step := step config

/-! ## A start state -/

/-- One sender with a limit of two emails an hour, one second apart. -/
def oneSender : EmailSender where
  id := 1
  userId := 1
  displayName := "Sender"
  email := "sender@test.invalid"
  normalizedEmail := "sender@test.invalid"
  isDefault := true
  isActive := true
  hourlyLimit := 2
  minimumDelayMs := 1000

/-- The state with one sender and nothing scheduled. -/
def oneSenderStart : Delivery where
  world := ⟨⟨[oneSender], [], [], []⟩, Limiter.emptyLimiter, []⟩
  executions := []

theorem oneSenderStart_init (config : AppConfig) : (system config).init oneSenderStart :=
  ⟨rfl, rfl, rfl, rfl, rfl, rfl, rfl⟩

theorem reachable_from_oneSender {config : AppConfig} {P : Delivery → DeliveryEvent → Prop}
    [∀ s event, Decidable (P s event)] (events : List DeliveryEvent) {s : Delivery}
    (h : (system config).run P events oneSenderStart = some s) : (system config).Reachable P s :=
  TransitionSystem.reachable_of_run events (oneSenderStart_init config) h

/-- A request of the sender for a list of recipients, due at once. -/
def requestFor (leads : List String) : CreateBatchInput where
  userId := 1
  senderId := 1
  idempotencyKey := "request"
  subject := "Subject"
  bodyText := "Body"
  startAt := 0
  hourlyLimit := 2
  minimumDelayMs := 1000
  sourceFilename := "leads.txt"
  parsedLeads := ⟨leads.map fun lead => ⟨lead, lead⟩, leads.length, 0, 0, []⟩

/-! ## Fields -/

section Fields

variable {s} {i j m : Nat} {stage : Stage}

@[simp] theorem withDatabase_database (db : Database) : (s.withDatabase db).database = db := rfl

@[simp] theorem stageOf_settle (status : Fate) :
    (s.settle m status).stageOf i = s.stageOf i := rfl

theorem stageOf_of_getElem? {x : Execution} (h : s.executions[i]? = some x) :
    s.stageOf i = x.stage := by
  rw [stageOf, h]
  rfl

theorem exists_of_stageOf_ne_crashed (h : s.stageOf i ≠ .crashed) :
    ∃ x, s.executions[i]? = some x ∧ x.stage = s.stageOf i := by
  unfold stageOf at h ⊢
  cases hx : s.executions[i]? with
  | none =>
      rw [hx] at h
      exact absurd rfl h
  | some x => exact ⟨x, rfl, rfl⟩

theorem stageOf_moveTo_self (h : i < s.executions.length) :
    (s.moveTo i stage).stageOf i = stage := by
  simp [stageOf, moveTo, h]

theorem stageOf_moveTo_of_ne (stage : Stage) (h : j ≠ i) :
    (s.moveTo i stage).stageOf j = s.stageOf j := by
  simp [stageOf, moveTo, Ne.symm h]

/-- Only the last move of an execution counts. -/
theorem moveTo_moveTo (stage' : Stage) : (s.moveTo i stage').moveTo i stage = s.moveTo i stage := by
  simp only [moveTo, List.modify_modify_eq, Function.comp_def]

/-- A new execution leaves the others where they are. -/
theorem stageOf_append (job : Job) : stageOf { s with
    executions := s.executions ++ [⟨job, stage⟩] } i =
      if i = s.executions.length then stage else s.stageOf i := by
  unfold stageOf
  rw [List.getElem?_append]
  split
  next hlt =>
    rw [if_neg (by omega)]
  next hle =>
    rw [List.getElem?_singleton]
    by_cases hi : i = s.executions.length
    · simp [hi]
    · rw [if_neg (by omega), if_neg hi, List.getElem?_eq_none (by omega)]

end Fields

/-! ## Inversion of a step -/

/-- **What a step does.** One case for each way in which an event can happen, with its guards. -/
inductive StepCase (config : AppConfig) (s : Delivery) : DeliveryEvent → Delivery → Prop where
  | deliver (job : Job) : StepCase config s (.deliver job)
      { s with executions := s.executions ++ [⟨job, .loading⟩] }
  | advance {i : Nat} {input : StepInput} {x : Execution} {stage' : Stage} {w : World} :
      s.executions[i]? = some x → s.stageOf i = x.stage →
      advance config x.job input s.world x.stage = some (stage', w) →
      StepCase config s (.advance i input) { (s.moveTo i stage') with world := w }
  | sendReturns {i : Nat} {receipt : DeliveryReceipt} {d : Sending} : s.stageOf i = .sending d →
      (receipt.acceptedCount ≠ 0 → s.statusOf d.submission = .accepted) →
      StepCase config s (.sendReturns i receipt) (s.moveTo i (afterSend d receipt))
  | sendRefused {i : Nat} {error : ThrownValue} {d : Sending} : s.stageOf i = .sending d →
      classifyDeliveryError error = .transient → s.statusOf d.submission = .pending →
      StepCase config s (.sendThrows i error)
        ((s.settle d.submission .refused).moveTo i (.recordingFailure d error))
  | sendThrows {i : Nat} {error : ThrownValue} {d : Sending} : s.stageOf i = .sending d →
      classifyDeliveryError error ≠ .transient →
      StepCase config s (.sendThrows i error) (s.moveTo i (.recordingFailure d error))
  | smtpAccepts {m : Nat} : s.statusOf m = .pending →
      StepCase config s (.smtpAccepts m) (s.settle m .accepted)
  | crash {i : Nat} : (s.stageOf i).isRunning = true →
      StepCase config s (.crash i) (s.moveTo i .crashed)
  | sweep (now : Int) : StepCase config s (.sweep now)
      (s.withDatabase (sweepStaleLeases config s.database now).2)
  | createBatch {input : CreateBatchInput} {batchId : Uuid} {newId : Nat → Uuid}
      {batch : EmailBatch} {db : Database} : input.parsedLeads.leads ≠ [] →
      createBatchTransaction s.database input batchId newId = .ok (batch, db) →
      StepCase config s (.createBatch input batchId newId) (s.withDatabase db)
  | updateSender (sender : EmailSender) : StepCase config s (.updateSender sender)
      (s.withDatabase { s.database with
        senders := updateMany (fun x => decide (x.id = sender.id))
          (fun x => { sender with userId := x.userId }) s.database.senders })
  | seed (policy : SenderPolicy) (acceptedCount : Nat) (lastAcceptedAt : Option Int) (now : Int) :
      StepCase config s (.seed policy acceptedCount lastAcceptedAt now)
        (s.withLimiter (s.world.limiter.seed config policy acceptedCount lastAcceptedAt now))
  | tick {clock : Int} : s.world.limiter.clock ≤ clock → StepCase config s (.tick clock)
      (s.withLimiter { s.world.limiter with clock := clock })

theorem stepCase_of_step {config : AppConfig} {event : DeliveryEvent} {s t : Delivery}
    (h : step config event s = some t) : StepCase config s event t := by
  cases event with
  | deliver job =>
      cases h
      exact .deliver job
  | advance i input =>
      obtain ⟨x, hx, hadvance⟩ := Option.bind_eq_some_iff.1 h
      obtain ⟨result, hresult, rfl⟩ := Option.map_eq_some_iff.1 hadvance
      exact .advance hx (stageOf_of_getElem? hx) hresult
  | sendReturns i receipt =>
      simp only [step, sendReturns] at h
      split at h
      next d hstage =>
        split at h
        next => cases h
        next hreceipt =>
          cases h
          -- A receipt with an accepted recipient is given only if the server accepted the message.
          exact .sendReturns hstage fun hne => not_not.1 fun hstatus => hreceipt ⟨hne, hstatus⟩
      next => cases h
  | sendThrows i error =>
      simp only [step, sendThrows] at h
      split at h
      next d hstage =>
        split at h
        next htransient =>
          split at h
          next hpending =>
            cases h
            exact .sendRefused hstage htransient hpending
          next => cases h
        -- Any other error leaves open what became of the message.
        next htransient =>
          cases h
          exact .sendThrows hstage htransient
      next => cases h
  | smtpAccepts m =>
      simp only [step] at h
      split at h
      next hpending =>
        cases h
        exact .smtpAccepts hpending
      next => cases h
  | crash i =>
      simp only [step] at h
      split at h
      next hrunning =>
        cases h
        exact .crash hrunning
      next => cases h
  | sweep now =>
      cases h
      exact .sweep now
  | createBatch input batchId newId =>
      simp only [step] at h
      split at h
      next => cases h
      next hleads =>
        split at h
        next batch db hok =>
          cases h
          exact .createBatch hleads hok
        next => cases h
  | updateSender sender =>
      cases h
      exact .updateSender sender
  | seed policy acceptedCount lastAcceptedAt now =>
      cases h
      exact .seed policy acceptedCount lastAcceptedAt now
  | tick clock =>
      simp only [step] at h
      split at h
      next hclock =>
        cases h
        exact .tick hclock
      next => cases h

/-- What a step of an execution does to the system. -/
theorem step_advance (config : AppConfig) {input : StepInput} {s t : Delivery} {i : Nat}
    (h : step config (.advance i input) s = some t) :
    ∃ x stage' w, s.executions[i]? = some x ∧ s.stageOf i = x.stage ∧
      advance config x.job input s.world x.stage = some (stage', w) ∧
      t = { (s.moveTo i stage') with world := w } := by
  cases stepCase_of_step h with
  | advance hx hstage hadvance => exact ⟨_, _, _, hx, hstage, hadvance, rfl⟩

/-- An execution that is somewhere exists. -/
theorem lt_length_of_stageOf {s : Delivery} {i : Nat} (h : s.stageOf i ≠ .crashed) :
    i < s.executions.length := by
  obtain ⟨x, hx, -⟩ := exists_of_stageOf_ne_crashed h
  exact (List.getElem?_eq_some_iff.1 hx).1

theorem ne_crashed_of_isRunning {stage : Stage} (h : stage.isRunning = true) :
    stage ≠ .crashed := by
  intro heq
  rw [heq] at h
  cases h

end Delivery

/-! ## What a step does to an execution -/

/-- A change of the stage of one execution. -/
inductive StageStep (config : AppConfig) (event : DeliveryEvent) (s t : Delivery) (i : Nat) :
    Prop where
  | same : t.stageOf i = s.stageOf i → StageStep config event s t i
  | delivered (job : Job) : event = .deliver job → s.stageOf i = .crashed →
      t.stageOf i = .loading → StageStep config event s t i
  | crashed : event = .crash i → t.stageOf i = .crashed → StageStep config event s t i
  | advanced {x : Execution} (input : StepInput) : event = .advance i input →
      s.executions[i]? = some x →
      advance config x.job input s.world (s.stageOf i) = some (t.stageOf i, t.world) →
      StageStep config event s t i
  | returned (d : Sending) (receipt : DeliveryReceipt) : s.stageOf i = .sending d →
      t.stageOf i = afterSend d receipt → event = .sendReturns i receipt →
      StageStep config event s t i
  | threw (d : Sending) (error : ThrownValue) : s.stageOf i = .sending d →
      t.stageOf i = .recordingFailure d error → event = .sendThrows i error →
      StageStep config event s t i

/-- One execution moves on, and the others stay where they are. -/
theorem StageStep.of_moveTo {config : AppConfig} {event : DeliveryEvent} {s t : Delivery} {i : Nat}
    {stage' : Stage} (ht : ∀ j, t.stageOf j = (s.moveTo i stage').stageOf j)
    (hi : s.stageOf i ≠ .crashed)
    (hself : t.stageOf i = stage' → StageStep config event s t i) (j : Nat) :
    StageStep config event s t j := by
  by_cases hj : j = i
  · subst hj
    exact hself ((ht j).trans (Delivery.stageOf_moveTo_self (Delivery.lt_length_of_stageOf hi)))
  · exact .same ((ht j).trans (Delivery.stageOf_moveTo_of_ne stage' hj))

/-- **Step rule for stages.** -/
theorem Delivery.stageStep_of_step {config : AppConfig} {event : DeliveryEvent} {s t : Delivery}
    (h : Delivery.step config event s = some t) (j : Nat) : StageStep config event s t j := by
  cases stepCase_of_step h with
  | deliver job =>
      -- A delivery starts a new execution, after the others.
      by_cases hj : j = s.executions.length
      · refine .delivered job rfl ?_ ((stageOf_append job).trans (if_pos hj))
        rw [stageOf, List.getElem?_eq_none (by omega)]
        rfl
      · exact .same ((stageOf_append job).trans (if_neg hj))
  | @advance i input x stage' w hx hstage hadvance =>
      have hi : s.stageOf i ≠ .crashed := by
        rw [hstage]
        intro hcrashed
        rw [hcrashed] at hadvance
        cases hadvance
      have hmoved : ∀ k, Delivery.stageOf { s.moveTo i stage' with world := w } k =
          (s.moveTo i stage').stageOf k := fun _ => rfl
      apply StageStep.of_moveTo hmoved hi
      intro hself
      refine .advanced input rfl hx ?_
      rw [hself, hstage]
      exact hadvance
  | sendReturns hstage hreceipt =>
      apply StageStep.of_moveTo (fun _ => rfl) (by rw [hstage]; simp)
      exact fun hself => .returned _ _ hstage hself rfl
  | @sendRefused i error d hstage htransient hpending =>
      have hmoved : ∀ k, ((s.settle d.submission .refused).moveTo i
          (.recordingFailure d error)).stageOf k =
            (s.moveTo i (.recordingFailure d error)).stageOf k :=
        fun _ => rfl
      apply StageStep.of_moveTo hmoved (by rw [hstage]; simp)
      exact fun hself => .threw _ _ hstage hself rfl
  | sendThrows hstage htransient =>
      apply StageStep.of_moveTo (fun _ => rfl) (by rw [hstage]; simp)
      exact fun hself => .threw _ _ hstage hself rfl
  | smtpAccepts hpending => exact .same (stageOf_settle _)
  | crash hrunning =>
      apply StageStep.of_moveTo (fun _ => rfl) (ne_crashed_of_isRunning hrunning)
      exact fun hself => .crashed rfl hself
  | sweep now => exact .same rfl
  | createBatch hleads hok => exact .same rfl
  | updateSender sender => exact .same rfl
  | seed => exact .same rfl
  | tick hclock => exact .same rfl

/-- After a step an execution has the claim it had before, or the one it just committed. -/
theorem StageStep.delivery? {config : AppConfig} {event : DeliveryEvent} {s t : Delivery} {i : Nat}
    (h : StageStep config event s t i) {p : LoadedEmail × ClaimedEmail}
    (hp : (t.stageOf i).delivery? = some p) :
    (s.stageOf i).delivery? = some p ∨ ∃ now token, s.stageOf i = .claiming p.1 now ∧
      claimEmail s.database p.1.email.id now token = .ok (some p.2, t.database) := by
  cases h with
  | same heq => exact Or.inl (by rw [← heq]; exact hp)
  | delivered _ _ _ heq => rw [heq] at hp; cases hp
  | crashed _ heq => rw [heq] at hp; cases hp
  | advanced input _ _ hadvance =>
      rcases delivery?_of_advance hadvance hp with hold | ⟨now, hstage, hclaim⟩
      · exact Or.inl hold
      · exact Or.inr ⟨now, input.token, hstage, hclaim⟩
  | returned d receipt hstage heq =>
      rw [heq, delivery?_afterSend] at hp
      rw [hstage]
      exact Or.inl hp
  | threw d error hstage heq =>
      rw [heq] at hp
      rw [hstage]
      exact Or.inl hp

/-- In every state reached, a claim is on the email that the execution loaded. -/
theorem Delivery.claim_id_eq {config : AppConfig} {P : Delivery → DeliveryEvent → Prop}
    {s : Delivery} (h : (system config).Reachable P s) {i : Nat} {p : LoadedEmail × ClaimedEmail}
    (hp : (s.stageOf i).delivery? = some p) : p.2.id = p.1.email.id := by
  refine h.invariant (I := fun s => ∀ i p, (s.stageOf i).delivery? = some p →
    p.2.id = p.1.email.id) ?_ ?_ i p hp
  · rintro s ⟨-, -, -, -, -, -, hexecutions⟩ i p hp
    rw [stageOf, hexecutions] at hp
    cases hp
  · intro s event t _ hstep hinv i p hp
    rcases (stageStep_of_step hstep i).delivery? hp with hold | ⟨now, token, -, hclaim⟩
    · exact hinv i p hold
    · obtain ⟨row, -, hmatch, hclaim, -⟩ := claimEmail_eq_ok_some hclaim
      rw [hclaim]
      exact (claimable_iff.1 hmatch).1

/-! ## What a step does to the database -/

/-- A change of the database: nothing, or one committed operation. -/
inductive DatabaseStep (config : AppConfig) (db : Database) : Database → Prop where
  | refl : DatabaseStep config db db
  | deferred {id : Uuid} {nextAvailableAt now : Int} {token : Uuid} {db' : Database} :
      recordRateLimit db id nextAvailableAt now token = .ok ((), db') → DatabaseStep config db db'
  | claimed {id : Uuid} {now : Int} {token : Uuid} {claim : Option ClaimedEmail} {db' : Database} :
      claimEmail db id now token = .ok (claim, db') → DatabaseStep config db db'
  | accepted {claim : ClaimedEmail} {receipt : DeliveryReceipt} {now : Int} {db' : Database} :
      recordAccepted db claim receipt now = .ok ((), db') → DatabaseStep config db db'
  | failed {claim : ClaimedEmail} {error : ThrownValue} {finalRetry : Bool} {now : Int}
      {result : FailureResult} {db' : Database} :
      recordFailure config db claim (classifyDeliveryError error) finalRetry error now =
        .ok (result, db') → DatabaseStep config db db'
  | labelled {batchId : Uuid} {unsuccessful : Nat} {db' : Database} :
      labelBatch db batchId unsuccessful = .ok ((), db') → DatabaseStep config db db'
  | swept (now : Int) : DatabaseStep config db (sweepStaleLeases config db now).2
  | created {input : CreateBatchInput} {batchId : Uuid} {newId : Nat → Uuid} {batch : EmailBatch}
      {db' : Database} :
      createBatchTransaction db input batchId newId = .ok (batch, db') → DatabaseStep config db db'
  | senderUpdated (sender : EmailSender) : DatabaseStep config db { db with
      senders := updateMany (fun x => decide (x.id = sender.id))
        (fun x => { sender with userId := x.userId }) db.senders }

/-- An operation that is not refused and can commit does so. -/
theorem Reply.deliver_of_commits {β : Type} {reply : Reply} (h : reply.commits = true)
    (db : Database) (value : β) (db' : Database) :
    (reply.deliver db (.ok (value, db'))).2 = db' := by
  cases reply with
  | refused e => cases h
  | done => rfl
  | lost e => rfl

/-- The store after an operation is the store before it, or the one that the operation committed
because it was not refused. -/
theorem Reply.deliver_snd_of_commits {β : Type} (reply : Reply) (db : Database)
    (outcome : Transaction β) {R : Database → Prop} (hrefl : R db)
    (hcommit : ∀ value db', reply.commits = true → outcome = .ok (value, db') → R db') :
    R (reply.deliver db outcome).2 := by
  cases reply with
  | refused e => exact hrefl
  | done =>
      cases outcome with
      | error e => exact hrefl
      | ok result => exact hcommit result.1 result.2 rfl rfl
  | lost e =>
      cases outcome with
      | error e' => exact hrefl
      | ok result => exact hcommit result.1 result.2 rfl rfl

/-- The store after an operation is the store before it, or the one the operation committed. -/
theorem Reply.deliver_snd {β : Type} (reply : Reply) (db : Database) (outcome : Transaction β)
    {R : Database → Prop} (hrefl : R db)
    (hcommit : ∀ value db', outcome = .ok (value, db') → R db') :
    R (reply.deliver db outcome).2 := by
  apply reply.deliver_snd_of_commits db outcome hrefl
  intro value db' _ hok
  exact hcommit value db' hok

theorem databaseStep_of_advance {config : AppConfig} {job : Job} {input : StepInput} {w w' : World}
    {stage stage' : Stage} (h : advance config job input w stage = some (stage', w')) :
    DatabaseStep config w.database w'.database := by
  cases stage with
  | loading => cases h; exact .refl
  | delaying => cases h; exact .refl
  | reserving => cases h; exact .refl
  | recordingRateLimit =>
      cases h
      exact Reply.deliver_snd _ _ _ .refl fun _ _ hok => .deferred hok
  | claiming =>
      cases h
      exact Reply.deliver_snd _ _ _ .refl fun _ _ hok => .claimed hok
  | claimed => cases h; exact .refl
  | sending => cases h
  | recordingAccepted =>
      cases h
      exact Reply.deliver_snd _ _ _ .refl fun _ _ hok => .accepted hok
  | recordingFailure =>
      cases h
      exact Reply.deliver_snd _ _ _ .refl fun _ _ hok => .failed hok
  | countingRemaining => cases h; exact .refl
  | countingUnsuccessful => cases h; exact .refl
  | labelling =>
      cases h
      exact Reply.deliver_snd _ _ _ .refl fun _ _ hok => .labelled hok
  | finished => cases h
  | crashed => cases h

/-- Every operation of an execution but the label leaves senders and batches alone. -/
theorem parents_of_advance {config : AppConfig} {job : Job} {input : StepInput} {w w' : World}
    {stage stage' : Stage} (h : advance config job input w stage = some (stage', w')) :
    (w'.database.senders = w.database.senders ∧ w'.database.batches = w.database.batches) ∨
      ∃ d recorded unsuccessful, stage = .labelling d recorded unsuccessful := by
  -- It is enough to look at what an operation commits.
  have hdeliver : ∀ {β : Type} (reply : Reply) (outcome : Transaction β),
      (∀ value db, outcome = .ok (value, db) →
        db.senders = w.database.senders ∧ db.batches = w.database.batches) →
      (reply.deliver w.database outcome).2.senders = w.database.senders ∧
        (reply.deliver w.database outcome).2.batches = w.database.batches :=
    fun reply outcome hcommit => reply.deliver_snd w.database outcome
      (R := fun db => db.senders = w.database.senders ∧ db.batches = w.database.batches)
      ⟨rfl, rfl⟩ hcommit
  cases stage with
  | labelling d recorded unsuccessful => exact Or.inr ⟨d, recorded, unsuccessful, rfl⟩
  | recordingRateLimit loaded nextAvailableAt now =>
      cases h
      refine Or.inl (hdeliver _ _ ?_)
      intro _ db hok
      rcases recordRateLimit_eq_ok hok with rfl | ⟨row, -, -, -, rfl⟩ <;> exact ⟨rfl, rfl⟩
  | claiming loaded now =>
      cases h
      refine Or.inl (hdeliver _ _ ?_)
      intro claim db hok
      cases claim with
      | none =>
          rw [(claimEmail_eq_ok_none hok).1]
          exact ⟨rfl, rfl⟩
      | some claim =>
          obtain ⟨row, -, -, -, -, rfl⟩ := claimEmail_eq_ok_some hok
          exact ⟨rfl, rfl⟩
  | recordingAccepted d receipt =>
      cases h
      refine Or.inl (hdeliver _ _ ?_)
      intro _ db hok
      rw [(recordAccepted_eq_ok hok).2]
      exact ⟨rfl, rfl⟩
  | recordingFailure d error =>
      cases h
      refine Or.inl (hdeliver _ _ ?_)
      intro result db hok
      rw [(recordFailure_eq_ok hok).2]
      exact ⟨rfl, rfl⟩
  | loading => cases h; exact Or.inl ⟨rfl, rfl⟩
  | delaying => cases h; exact Or.inl ⟨rfl, rfl⟩
  | reserving => cases h; exact Or.inl ⟨rfl, rfl⟩
  | claimed => cases h; exact Or.inl ⟨rfl, rfl⟩
  | countingRemaining => cases h; exact Or.inl ⟨rfl, rfl⟩
  | countingUnsuccessful => cases h; exact Or.inl ⟨rfl, rfl⟩
  | sending => cases h
  | finished => cases h
  | crashed => cases h

/-- **Step rule for the database.** -/
theorem Delivery.databaseStep_of_step {config : AppConfig} {event : DeliveryEvent} {s t : Delivery}
    (h : Delivery.step config event s = some t) : DatabaseStep config s.database t.database := by
  cases stepCase_of_step h with
  | deliver job => exact .refl
  | advance hx hstage hadvance => exact databaseStep_of_advance hadvance
  | sendReturns hstage hreceipt => exact .refl
  | sendRefused hstage htransient hpending => exact .refl
  | sendThrows hstage htransient => exact .refl
  | smtpAccepts hpending => exact .refl
  | crash hrunning => exact .refl
  | sweep now => exact .swept now
  | createBatch hleads hok => exact .created hok
  | updateSender sender => exact .senderUpdated sender
  | seed => exact .refl
  | tick hclock => exact .refl

end EmailScheduler
