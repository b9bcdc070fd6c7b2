import EmailScheduler.Delivery.HourlyCap
import EmailScheduler.Delivery.Ledger

/-!
# Never early

`claimEmail` does not look at a clock. An email is still never sent before its `scheduledAt`,
because an execution reads `now` once, after it has loaded a row whose `nextAttemptAt` has passed,
and `nextAttemptAt` is never before `scheduledAt` while the row may be sent: `createEmailBatch`
starts there, a deferral moves to a time after the `now` of an execution that was due, and a retry
to a time after the failure. The row may change between the load and the claim; its `scheduledAt`
does not.

Clocks of different workers are unrelated. Within one execution the clock does not go back.
-/

set_option autoImplicit false

namespace EmailScheduler

open Foundation

/-- The row that an execution has loaded, and the `now` at which it was due. -/
def Stage.read? : Stage → Option (LoadedEmail × Int)
  | .reserving loaded now => some (loaded, now)
  | .recordingRateLimit loaded _ now => some (loaded, now)
  | .claiming loaded now => some (loaded, now)
  | .claimed loaded _ now => some (loaded, now)
  | .sending d => some (d.loaded, d.admittedAt)
  | .recordingAccepted d _ => some (d.loaded, d.admittedAt)
  | .recordingFailure d _ => some (d.loaded, d.admittedAt)
  | .countingRemaining d _ => some (d.loaded, d.admittedAt)
  | .countingUnsuccessful d _ => some (d.loaded, d.admittedAt)
  | .labelling d _ _ => some (d.loaded, d.admittedAt)
  | _ => none

theorem read?_afterSend (d : Sending) (receipt : DeliveryReceipt) :
    (afterSend d receipt).read? = some (d.loaded, d.admittedAt) := by
  unfold afterSend
  split_ifs <;> rfl

theorem Stage.read?_of_admission? {stage : Stage} {q : LoadedEmail × Int}
    (h : stage.admission? = some q) : stage.read? = some q := by
  cases stage <;> cases h <;> rfl

/-- What the clock showed when an execution read it, for a stage that reads it again. -/
def Stage.rereads? : Stage → Option Int
  | .recordingAccepted d _ => some d.admittedAt
  | .recordingFailure d _ => some d.admittedAt
  | _ => none

section Advance

variable {config : AppConfig} {job : Job} {input : StepInput} {w w' : World}
  {stage stage' : Stage}

/-- After a step an execution has what it had read before, or it has just loaded an open row that
was due. -/
theorem read?_of_advance (h : advance config job input w stage = some (stage', w'))
    {q : LoadedEmail × Int} (hq : stage'.read? = some q) :
    stage.read? = some q ∨
      (w.database.findScheduledEmail job.scheduledEmailId = some q.1 ∧
        q.1.email.status.isOpen = true ∧ q.1.email.nextAttemptAt ≤ q.2) := by
  cases advanceCase_of_advance h with
  | due hfind hopen hdue =>
      cases hq
      exact Or.inr ⟨hfind, hopen, hdue⟩
  | denied _ => exact Or.inl hq
  | admitted _ => exact Or.inl hq
  | claimed _ => exact Or.inl hq
  | sent => exact Or.inl hq
  | accepted _ => exact Or.inl hq
  | notAccepted _ => exact Or.inl hq
  | failed _ _ => exact Or.inl hq
  | countedRemaining _ => exact Or.inl hq
  | countedUnsuccessful => exact Or.inl hq
  | caughtRemaining => exact Or.inl hq
  | caughtUnsuccessful => exact Or.inl hq
  | caughtLabel _ => exact Or.inl hq
  -- The other cases end in a stage without a row.
  | _ => cases hq

/-- A deferral is to a time after the `now` of its execution. -/
theorem lt_of_denied (h : advance config job input w stage = some (stage', w'))
    {loaded : LoadedEmail} {nextAvailableAt now : Int}
    (hstage : stage' = .recordingRateLimit loaded nextAvailableAt now) : now < nextAvailableAt := by
  cases advanceCase_of_advance h with
  | denied hlater =>
      cases hstage
      exact hlater
  | _ => cases hstage

end Advance

theorem RowStep.scheduledAt_eq {config : AppConfig} {e e' : ScheduledEmail}
    (h : RowStep config e e') : e'.scheduledAt = e.scheduledAt := by
  cases h <;> rfl

/-- The email with an id is scheduled for no later than `time`. -/
def Database.DueBy (db : Database) (id : Uuid) (time : Int) : Prop :=
  ∃ e ∈ db.emails, e.id = id ∧ e.scheduledAt ≤ time

/-- One account: a row that may still be sent waits for its `scheduledAt`, and no attempt was made
before it. -/
structure AccountDue (c : Account) : Prop where
  waits : c.email.status.isTerminal = false → c.email.scheduledAt ≤ c.email.nextAttemptAt
  attempts : ∀ a ∈ c.attempts, c.email.scheduledAt ≤ a.startedAt

namespace Delivery

variable {config : AppConfig} {P : Delivery → DeliveryEvent → Prop} {s t : Delivery}
  {event : DeliveryEvent}

/-- The clock of an execution does not go back. -/
def ClockForward (s : Delivery) : DeliveryEvent → Prop
  | .advance i input => (s.stageOf i).rereads?.all (fun time => decide (time ≤ input.now)) = true
  | _ => True

instance (s : Delivery) (event : DeliveryEvent) : Decidable (ClockForward s event) :=
  match event with
  | .advance i input => inferInstanceAs (Decidable
      ((s.stageOf i).rereads?.all (fun time => decide (time ≤ input.now)) = true))
  | .deliver _ | .sweep _ | .sendReturns _ _ | .sendThrows _ _ | .smtpAccepts _ | .crash _
  | .createBatch _ _ _ | .updateSender _ | .seed _ _ _ _ | .tick _ => .isTrue trivial

theorem ClockForward.le {i : Nat} {input : StepInput} {d : Sending} {error : ThrownValue}
    (h : ClockForward s (.advance i input)) (hstage : s.stageOf i = .recordingFailure d error) :
    d.admittedAt ≤ input.now := by
  have hclock : (s.stageOf i).rereads?.all (fun time => decide (time ≤ input.now)) = true := h
  rw [hstage] at hclock
  exact of_decide_eq_true hclock

/-- A row stays and keeps its `scheduledAt`. -/
theorem dueBy_of_step (h : (system config).step event s = some t) {id : Uuid} {time : Int}
    (hdue : s.database.DueBy id time) : t.database.DueBy id time := by
  obtain ⟨e, he, hid, hle⟩ := hdue
  obtain ⟨f, new, hrows⟩ := emailsStep h
  refine ⟨f e, hrows.mem_map he, (hrows.rows e he).id_eq.trans hid, ?_⟩
  rw [(hrows.rows e he).scheduledAt_eq]
  exact hle

/-- What executions have read, when they defer to, and when messages were admitted. -/
structure DueInv (s : Delivery) : Prop where
  accounts : ∀ e ∈ s.database.emails, AccountDue (s.database.account e)
  reads : ∀ i q, (s.stageOf i).read? = some q → s.database.DueBy q.1.email.id q.2
  deferrals : ∀ i loaded nextAvailableAt now,
    s.stageOf i = .recordingRateLimit loaded nextAvailableAt now → now < nextAvailableAt
  sends : ∀ x ∈ s.submissions, s.database.DueBy x.message.scheduledEmailId x.admittedAt

theorem dueInv_init (h : (system config).init s) : DueInv s := by
  obtain ⟨-, hemails, -, -, -, hsubmissions, hexecutions⟩ := h
  constructor
  · intro e he
    rw [hemails] at he
    cases he
  · intro i q hq
    rw [stageOf, hexecutions] at hq
    cases hq
  · intro i loaded nextAvailableAt now hstage
    rw [stageOf, hexecutions] at hstage
    cases hstage
  · intro x hx
    rw [hsubmissions] at hx
    cases hx

/-- The time that an execution has read is not before the row that it changes was scheduled. -/
theorem DueInv.scheduledAt_le (hinv : DueInv s)
    (hkey : PrimaryKey ScheduledEmail.id s.database.emails) {i : Nat} {q : LoadedEmail × Int}
    (hq : (s.stageOf i).read? = some q) {e : ScheduledEmail} (he : e ∈ s.database.emails)
    (hid : q.1.email.id = e.id) : e.scheduledAt ≤ q.2 := by
  obtain ⟨e', he', hid', hle⟩ := hinv.reads i q hq
  rw [← hkey.eq_of_key_eq he' he (hid'.trans hid)]
  exact hle

theorem accountDue_append {c : Account} (hinv : AccountDue c) {e : ScheduledEmail} {a : SendAttempt}
    (hscheduled : e.scheduledAt = c.email.scheduledAt)
    (hwaits : e.status.isTerminal = false → e.scheduledAt ≤ e.nextAttemptAt)
    (ha : c.email.scheduledAt ≤ a.startedAt) : AccountDue ⟨e, c.attempts ++ [a]⟩ := by
  refine ⟨hwaits, fun b hb => ?_⟩
  rw [hscheduled]
  rcases List.mem_append.1 hb with hb | hb
  · exact hinv.attempts b hb
  · rw [List.mem_singleton.1 hb]
    exact ha

theorem accountDue_update {c : Account} (hinv : AccountDue c) {e : ScheduledEmail} {token : Uuid}
    {data : SendAttempt → SendAttempt} (hscheduled : e.scheduledAt = c.email.scheduledAt)
    (hdata : ∀ a, (data a).startedAt = a.startedAt)
    (hwaits : e.status.isTerminal = false → e.scheduledAt ≤ e.nextAttemptAt) :
    AccountDue ⟨e, updateAttempt token data c.attempts⟩ := by
  refine ⟨hwaits, fun a ha => ?_⟩
  rw [hscheduled]
  rcases mem_updateAttempt ha with ⟨ha, -⟩ | ⟨b, hb, -, rfl⟩
  · exact hinv.attempts a ha
  · rw [hdata]
    exact hinv.attempts b hb

theorem accountDue_step (hreach : (system config).Reachable P s) (hclock : ClockForward s event)
    (hinv : DueInv s) {e : ScheduledEmail} (he : e ∈ s.database.emails) {c' : Account}
    (h : AccountStep config s event (s.database.account e) c') : AccountDue c' := by
  have hkey := primaryKey_emails hreach
  have hdue := hinv.accounts e he
  cases h with
  | keep => exact hdue
  | @deferred i input loaded nextAvailableAt now _ hstage hid _ =>
      have hscheduled : e.scheduledAt ≤ now :=
        hinv.scheduledAt_le hkey (i := i) (q := (loaded, now)) (by rw [hstage]; rfl) he hid
      have hlater := hinv.deferrals i loaded nextAvailableAt now hstage
      refine accountDue_append hdue rfl (fun _ => ?_) hscheduled
      show e.scheduledAt ≤ nextAvailableAt
      omega
  | @claimed i input loaded now _ hstage hid hopen _ _ =>
      have hscheduled : e.scheduledAt ≤ now :=
        hinv.scheduledAt_le hkey (i := i) (q := (loaded, now)) (by rw [hstage]; rfl) he hid
      refine accountDue_append hdue rfl (fun _ => ?_) hscheduled
      exact hdue.waits (ScheduledEmailStatus.not_isTerminal_of_isOpen hopen)
  | accepted _ _ _ => exact accountDue_update hdue rfl (fun _ => rfl) fun hopen => by cases hopen
  | @failed i input x d error result hevent _ hstage _ _ hheld =>
      subst hevent
      refine accountDue_update hdue rfl (fun _ => rfl) fun hopen => ?_
      cases result with
      | failed => cases hopen
      | unknown => cases hopen
      | retryable =>
          -- A retry waits from a reading of the clock that is not before the first one.
          have hid : d.loaded.email.id = e.id := by
            have hclaim := claim_id_eq hreach (i := i) (p := (d.loaded, d.claim))
              (by rw [hstage]; rfl)
            exact hclaim.symm.trans (heldBy_iff.1 hheld).1.symm
          have hscheduled : e.scheduledAt ≤ d.admittedAt :=
            hinv.scheduledAt_le hkey (i := i) (q := (d.loaded, d.admittedAt))
              (by rw [hstage]; rfl) he hid
          have hnow := hclock.le hstage
          have hbackoff := config.one_le_smtpBackoffMs
          show e.scheduledAt ≤ input.now + config.smtpBackoffMs
          omega
  | failedLate _ _ _ _ _ => exact accountDue_update hdue rfl (fun _ => rfl) hdue.waits
  | abandoned _ _ => exact ⟨fun hopen => (by cases hopen), hdue.attempts⟩

theorem accountDue_new {input : CreateBatchInput} {batchId : Uuid} {newId : Nat → Uuid}
    {e : ScheduledEmail} (h : e ∈ emailRows input batchId newId) : AccountDue ⟨e, []⟩ := by
  obtain ⟨n, hn, rfl⟩ := List.mem_mapIdx.1 h
  constructor
  · intro _
    exact Int.le_refl _
  · intro a ha
    cases ha

theorem dueInv_step (hreach : (system config).Reachable P s) (hclock : ClockForward s event)
    (h : (system config).step event s = some t) (hinv : DueInv s) : DueInv t := by
  constructor
  · intro e' he'
    rcases accountStep_of_step (logInv_of_reachable hreach) (primaryKey_emails hreach) h he' with
      ⟨e, he, hchange⟩ | ⟨input, batchId, newId, -, hrow, hattempts⟩
    · -- A row that was there before.
      exact accountDue_step hreach hclock hinv he hchange
    · rw [show t.database.account e' = ⟨e', []⟩ from congrArg (Account.mk e') hattempts]
      exact accountDue_new hrow
  · -- An execution between its load and its claim has read a time by which the row was due.
    intro i q hq
    have hold : ∀ {stage : Stage}, s.stageOf i = stage → stage.read? = some q →
        t.database.DueBy q.1.email.id q.2 := by
      intro stage hstage hread
      exact dueBy_of_step h (hinv.reads i q (by rw [hstage]; exact hread))
    cases stageStep_of_step h i with
    | same heq => exact hold heq.symm hq
    | delivered _ _ _ heq => rw [heq] at hq; cases hq
    | crashed _ heq => rw [heq] at hq; cases hq
    | advanced input _ _ hadvance =>
        rcases read?_of_advance hadvance hq with hread | ⟨hfind, hopen, hnext⟩
        · exact hold rfl hread
        · -- The row was open and due when it was loaded.
          have hmem := (Database.findScheduledEmail_eq_some _ hfind).1
          have hwaits := (hinv.accounts _ hmem).waits
            (ScheduledEmailStatus.not_isTerminal_of_isOpen hopen)
          exact dueBy_of_step h ⟨_, hmem, rfl, Int.le_trans hwaits hnext⟩
    | returned d receipt hstage heq =>
        rw [heq, read?_afterSend] at hq
        exact hold hstage hq
    | threw d error hstage heq =>
        rw [heq] at hq
        exact hold hstage hq
  · -- A deferral is only recorded for a later time.
    intro i loaded nextAvailableAt now hstage
    cases stageStep_of_step h i with
    | same heq => exact hinv.deferrals i loaded nextAvailableAt now (heq.symm.trans hstage)
    | delivered _ _ _ heq => rw [heq] at hstage; cases hstage
    | crashed _ heq => rw [heq] at hstage; cases hstage
    | advanced input _ _ hadvance => exact lt_of_denied hadvance hstage
    | returned d receipt _ heq =>
        have hread := congrArg Stage.delivery? (heq.symm.trans hstage)
        rw [delivery?_afterSend] at hread
        cases hread
    | threw d error _ heq => rw [heq] at hstage; cases hstage
  · -- A message is an old one, or the send of an execution that was admitted.
    intro x hx
    rcases submission_of_step h hx with
      ⟨y, hy, hmessage, -, hnow⟩ | ⟨i, loaded, hadmission, hmessage, -⟩
    · rw [← hmessage, ← hnow]
      exact dueBy_of_step h (hinv.sends y hy)
    · rw [hmessage]
      exact dueBy_of_step h (hinv.reads i _ (Stage.read?_of_admission? hadmission))

/-- **Never early.** A row that may still be sent waits for its `scheduledAt`; no deferral and no
claim was made before it; and no message was handed over under an earlier `now`. -/
structure NeverEarly (s : Delivery) : Prop where
  waits : ∀ e ∈ s.database.emails, e.status.isTerminal = false → e.scheduledAt ≤ e.nextAttemptAt
  attempts : ∀ a ∈ s.database.attempts, ∀ e ∈ s.database.emails, e.id = a.scheduledEmailId →
    e.scheduledAt ≤ a.startedAt
  claims : ∀ i loaded now, s.stageOf i = .claiming loaded now → ∀ e ∈ s.database.emails,
    e.id = loaded.email.id → e.scheduledAt ≤ now
  sends : ∀ x ∈ s.submissions, ∀ e ∈ s.database.emails, e.id = x.message.scheduledEmailId →
    e.scheduledAt ≤ x.admittedAt

theorem neverEarly_of_reachable (h : (system config).Reachable ClockForward s) : NeverEarly s := by
  have hinv : DueInv s := h.invariant_of_reachable (fun _ hs => dueInv_init hs)
    fun _ _ _ hreach hclock hstep hinv => dueInv_step hreach hclock hstep hinv
  have hkey := primaryKey_emails h
  constructor
  · intro e he
    exact (hinv.accounts e he).waits
  · intro a ha e he hid
    exact (hinv.accounts e he).attempts a (mem_attemptsOf.2 ⟨ha, hid.symm⟩)
  · intro i loaded now hstage e he hid
    exact hinv.scheduledAt_le hkey (i := i) (q := (loaded, now)) (by rw [hstage]; rfl) he hid.symm
  · intro x hx e he hid
    obtain ⟨e', he', hid', hle⟩ := hinv.sends x hx
    rw [← hkey.eq_of_key_eq he' he (hid'.trans hid.symm)]
    exact hle

/-- An email scheduled for time 1000: an execution comes early, the next one is due and is deferred
by the limiter, and the last one fails transiently. -/
def earlyThenDeferred : List DeliveryEvent :=
  [.createBatch { requestFor ["a@test.invalid", "b@test.invalid"] with startAt := 1000 } 10
      (fun i => 100 + i),
    .deliver ⟨101, 0, some 3⟩, .advance 0 ⟨900, 0, .done⟩, .advance 0 ⟨900, 0, .done⟩,
    .deliver ⟨100, 0, some 3⟩, .tick 1500, .advance 1 ⟨1500, 0, .done⟩,
    .advance 1 ⟨1500, 0, .done⟩, .deliver ⟨101, 0, some 3⟩, .tick 2000,
    .advance 2 ⟨2000, 0, .done⟩, .advance 2 ⟨2000, 0, .done⟩, .advance 2 ⟨2000, 70, .done⟩,
    .deliver ⟨101, 0, some 3⟩, .tick 2500, .advance 3 ⟨2500, 0, .done⟩,
    .advance 3 ⟨2500, 0, .done⟩, .advance 3 ⟨2500, 71, .done⟩, .advance 3 ⟨2500, 0, .done⟩,
    .sendThrows 3 (.object (.string "ECONNECTION") .other), .advance 3 ⟨2600, 0, .done⟩]

theorem neverEarly_after_earlyThenDeferred : ∃ s,
    (system validConfig).run ClockForward earlyThenDeferred oneSenderStart = some s ∧
      s.database.emails.map (fun e => (e.scheduledAt, e.nextAttemptAt, e.status)) =
        [(1000, 1000, .scheduled), (2000, 3600, .retryable)] ∧
      s.database.attempts.map (fun a => (a.outcome, a.startedAt)) =
        [(.rateLimited, 2000), (.transientFailure, 2500)] ∧ NeverEarly s := by
  have hearly : ∀ s, (system validConfig).run ClockForward earlyThenDeferred
      oneSenderStart = some s → NeverEarly s := by
    intro s hs
    exact neverEarly_of_reachable (reachable_from_oneSender earlyThenDeferred hs)
  exact ⟨_, rfl, by decide, by decide, hearly _ rfl⟩

end Delivery

end EmailScheduler
