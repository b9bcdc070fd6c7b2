import EmailScheduler.Delivery.Ledger

/-!
# The row and its ledger

The columns `status`, `attemptCount`, `processingToken`, `rateLimitedUntil`, `nextAttemptAt` and
`sentAt` of a row agree with each other and with the row's attempts in every state reached. Six
operations write these columns; each changes an account by one case of `AccountStep`, and
`rowLedger_step` goes through the cases.

The attempt numbers are `1`, …, `attemptCount` in the order of the log, so the next number is free:
a deferral or a claim under a token that no attempt carries meets no unique constraint.
-/

set_option autoImplicit false

namespace EmailScheduler

open Foundation

/-- **The row and ledger invariant.** -/
structure RowLedger (c : Account) : Prop where
  numbers : c.attempts.map SendAttempt.attemptNumber = List.range' 1 c.email.attemptCount
  processing_iff : c.email.status = .processing ↔ c.email.processingToken ≠ none
  claimed : ∀ token, c.email.processingToken = some token → ∃ a ∈ c.attempts,
    a.attemptNumber = c.email.attemptCount ∧ a.attemptToken = token ∧ a.outcome = .claimed
  rateLimited_iff : c.email.status = .rateLimited ↔ c.email.rateLimitedUntil ≠ none
  rateLimited_until : ∀ time, c.email.rateLimitedUntil = some time → time = c.email.nextAttemptAt
  sent_iff : c.email.status = .sent ↔ c.email.sentAt ≠ none

namespace RowLedger

variable {c : Account}

/-- No attempt has a number above the count. -/
theorem number_le (h : RowLedger c) {a : SendAttempt} (ha : a ∈ c.attempts) :
    a.attemptNumber ≤ c.email.attemptCount := by
  have hmem : a.attemptNumber ∈ c.attempts.map SendAttempt.attemptNumber :=
    List.mem_map_of_mem ha
  rw [h.numbers, List.mem_range'_1] at hmem
  omega

/-- The numbers after one more attempt. -/
theorem numbers_append (h : RowLedger c) {a : SendAttempt}
    (ha : a.attemptNumber = c.email.attemptCount + 1) :
    (c.attempts ++ [a]).map SendAttempt.attemptNumber =
      List.range' 1 (c.email.attemptCount + 1) := by
  rw [List.map_append, h.numbers, List.map_singleton, ha, List.range'_1_concat, Nat.add_comm]

/-- A row that is not being processed has no token. -/
theorem token_eq_none (h : RowLedger c) (hstatus : c.email.status ≠ .processing) :
    c.email.processingToken = none := by
  by_contra htoken
  exact hstatus (h.processing_iff.2 htoken)

theorem until_eq_none (h : RowLedger c) (hstatus : c.email.status ≠ .rateLimited) :
    c.email.rateLimitedUntil = none := by
  by_contra huntil
  exact hstatus (h.rateLimited_iff.2 huntil)

theorem sentAt_eq_none (h : RowLedger c) (hstatus : c.email.status ≠ .sent) :
    c.email.sentAt = none := by
  by_contra hsent
  exact hstatus (h.sent_iff.2 hsent)

/-- A new row has an empty ledger. -/
theorem of_new {input : CreateBatchInput} {batchId : Uuid} {newId : Nat → Uuid} {e : ScheduledEmail}
    (h : e ∈ emailRows input batchId newId) : RowLedger ⟨e, []⟩ := by
  obtain ⟨n, hn, rfl⟩ := List.mem_mapIdx.1 h
  constructor
  · rfl
  · simp [emailRow]
  · intro token htoken
    cases htoken
  · simp [emailRow]
  · intro time htime
    cases htime
  · simp [emailRow]

end RowLedger

theorem ne_processing_of_isOpen {status : ScheduledEmailStatus} (h : status.isOpen = true) :
    status ≠ .processing ∧ status ≠ .sent := by
  constructor
  · rintro rfl
    cases h
  · rintro rfl
    cases h

theorem status_of_heldBy {claim : ClaimedEmail} {e : ScheduledEmail} (h : heldBy claim e = true) :
    e.status = .processing := by
  exact (heldBy_iff.1 h).2.1

theorem FailureResult.status_cases (result : FailureResult) :
    result.status ≠ .processing ∧ result.status ≠ .rateLimited ∧ result.status ≠ .sent := by
  cases result with
  | failed => simp [FailureResult.status]
  | retryable => simp [FailureResult.status]
  | unknown => simp [FailureResult.status]

namespace Delivery

variable {config : AppConfig} {P : Delivery → DeliveryEvent → Prop} {s t : Delivery}
  {event : DeliveryEvent}

theorem rowLedger_step {c c' : Account} (h : AccountStep config s event c c')
    (hinv : RowLedger c) : RowLedger c' := by
  cases h with
  | keep => exact hinv
  | deferred _ _ _ hopen =>
      -- An open row has no token and no send time.
      obtain ⟨hprocessing, hsent⟩ := ne_processing_of_isOpen hopen
      have htoken := hinv.token_eq_none hprocessing
      constructor
      · exact hinv.numbers_append rfl
      · simp [deferRow, htoken]
      · intro token heq
        rw [show (deferRow _ c.email).processingToken = c.email.processingToken from rfl,
          htoken] at heq
        cases heq
      · simp [deferRow]
      · intro time htime
        exact (Option.some.inj htime).symm
      · simp [deferRow, hinv.sentAt_eq_none hsent]
  | @claimed i input loaded now _ _ _ hopen _ _ =>
      -- The claim logs its attempt under the token that it puts on the row.
      obtain ⟨-, hsent⟩ := ne_processing_of_isOpen hopen
      constructor
      · exact hinv.numbers_append rfl
      · simp [claimRow]
      · intro token heq
        refine ⟨_, List.mem_append_right _ (List.mem_singleton_self _), rfl, ?_, rfl⟩
        exact Option.some.inj heq
      · simp [claimRow]
      · intro time htime
        cases htime
      · simp [claimRow, hinv.sentAt_eq_none hsent]
  | accepted _ _ hheld =>
      -- The row was in `PROCESSING`, so it was not deferred.
      have hprocessing := status_of_heldBy hheld
      have huntil := hinv.until_eq_none (by rw [hprocessing]; decide)
      constructor
      · refine (map_updateAttempt _ ?_ _).trans hinv.numbers
        exact fun _ => rfl
      · simp [acceptRow]
      · intro token heq
        cases heq
      · simp [acceptRow, huntil]
      · intro time htime
        rw [show (acceptRow _ _ c.email).rateLimitedUntil = c.email.rateLimitedUntil from rfl,
          huntil] at htime
        cases htime
      · simp [acceptRow]
  | @failed i input x d error result _ _ _ _ _ hheld =>
      have hprocessing := status_of_heldBy hheld
      have huntil := hinv.until_eq_none (by rw [hprocessing]; decide)
      have hsentAt := hinv.sentAt_eq_none (by rw [hprocessing]; decide)
      obtain ⟨hresult, hlimited, hsent⟩ := result.status_cases
      constructor
      · refine (map_updateAttempt _ ?_ _).trans hinv.numbers
        exact fun _ => rfl
      · simp [failRow, hresult]
      · intro token heq
        cases heq
      · simp [failRow, huntil, hlimited]
      · intro time htime
        rw [show (failRow _ _ _ _ c.email).rateLimitedUntil = c.email.rateLimitedUntil from rfl,
          huntil] at htime
        cases htime
      · simp [failRow, hsent, hsentAt]
  | @failedLate i input d error result _ _ _ hid hfree =>
      constructor
      · refine (map_updateAttempt _ ?_ _).trans hinv.numbers
        exact fun _ => rfl
      · exact hinv.processing_iff
      · -- The row's own attempt is under another token, because the claim does not hold the row.
        intro token htoken
        obtain ⟨a, ha, hnumber, heq, houtcome⟩ := hinv.claimed token htoken
        refine ⟨a, mem_updateAttempt_of_ne ha ?_, hnumber, heq, houtcome⟩
        rw [heq]
        rintro rfl
        have hcolumn : c.email.processingToken = some d.claim.processingToken := htoken
        have hprocessing := hinv.processing_iff.2 (by rw [hcolumn]; simp)
        rw [heldBy_iff.2 ⟨hid.symm, hprocessing, hcolumn⟩] at hfree
        cases hfree
      · exact hinv.rateLimited_iff
      · exact hinv.rateLimited_until
      · exact hinv.sent_iff
  | abandoned _ hstale =>
      have hprocessing : c.email.status = .processing := (isStale_iff.1 hstale).1
      have huntil := hinv.until_eq_none (by rw [hprocessing]; decide)
      have hsentAt := hinv.sentAt_eq_none (by rw [hprocessing]; decide)
      constructor
      · exact hinv.numbers
      · simp [abandonRow]
      · intro token heq
        cases heq
      · simp [abandonRow, huntil]
      · intro time htime
        rw [show (abandonRow c.email).rateLimitedUntil = c.email.rateLimitedUntil from rfl,
          huntil] at htime
        cases htime
      · simp [abandonRow, hsentAt]

/-- The ledger of every row, in runs under any restriction. -/
theorem rowLedger_of_mem (h : (system config).Reachable P s) :
    ∀ e ∈ s.database.emails, RowLedger (s.database.account e) := by
  apply account_invariant (I := RowLedger) h
  · intro input batchId newId e he
    exact RowLedger.of_new he
  · intro s event c _ _ e _ hchange hinv
    exact rowLedger_step hchange hinv

/-! ## The unique constraint -/

/-- No attempt carries the token. -/
def FreshToken (db : Database) (token : Uuid) : Prop :=
  ∀ a ∈ db.attempts, a.attemptToken ≠ token

/-- The next number of a row is free. -/
theorem createSendAttempt_isOk (emails : List ScheduledEmail) (attempt : SendAttempt)
    {row : ScheduledEmail} (hledger : RowLedger (s.database.account row))
    (hfresh : FreshToken s.database attempt.attemptToken)
    (hemail : attempt.scheduledEmailId = row.id)
    (hnumber : attempt.attemptNumber = row.attemptCount + 1) :
    ∃ db, Database.createSendAttempt { s.database with emails := emails } attempt = .ok db := by
  unfold Database.createSendAttempt
  rw [if_neg]
  · exact ⟨_, rfl⟩
  · intro hany
    obtain ⟨a, ha, hconflict⟩ := List.any_eq_true.1 hany
    rw [Bool.or_eq_true, Bool.and_eq_true] at hconflict
    rcases hconflict with htoken | ⟨hid, hsame⟩
    · exact hfresh a ha (of_decide_eq_true htoken)
    · have hmem : a ∈ (s.database.account row).attempts :=
        mem_attemptsOf.2 ⟨ha, (of_decide_eq_true hid).trans hemail⟩
      have hle := hledger.number_le hmem
      have heq := of_decide_eq_true hsame
      rw [hnumber] at heq
      change a.attemptNumber ≤ row.attemptCount at hle
      omega

theorem recordRateLimit_isOk (h : (system config).Reachable P s) {token : Uuid}
    (hfresh : FreshToken s.database token) (id : Uuid) (nextAvailableAt now : Int) :
    ∃ db, recordRateLimit s.database id nextAvailableAt now token = .ok ((), db) := by
  unfold recordRateLimit
  dsimp only
  split
  next => exact ⟨_, rfl⟩
  next email hsome =>
    obtain ⟨row, hrow, -, rfl⟩ := mem_of_head?_updateManyAndReturn hsome
    obtain ⟨db, hdb⟩ := createSendAttempt_isOk (updateManyAndReturn (deferrable id)
      (deferRow nextAvailableAt) s.database.emails).2
      (deferAttempt (deferRow nextAvailableAt row) now token) (rowLedger_of_mem h row hrow) hfresh
      rfl rfl
    exact ⟨db, by rw [hdb]; rfl⟩

/-- A token that no attempt carries is on no row. -/
theorem token_ne_of_fresh (h : (system config).Reachable P s) {token : Uuid}
    (hfresh : FreshToken s.database token) {e : ScheduledEmail} (he : e ∈ s.database.emails) :
    e.processingToken ≠ some token := by
  intro htoken
  obtain ⟨a, ha, -, heq, -⟩ := (rowLedger_of_mem h e he).claimed token htoken
  exact hfresh a (mem_attemptsOf.1 ha).1 heq

theorem claimEmail_isOk (h : (system config).Reachable P s) {token : Uuid}
    (hfresh : FreshToken s.database token) (id : Uuid) (now : Int) :
    ∃ claim db, claimEmail s.database id now token = .ok (claim, db) := by
  unfold claimEmail
  dsimp only
  split
  next => exact ⟨none, _, rfl⟩
  next email hsome =>
    obtain ⟨row, hrow, -, rfl⟩ := mem_of_head?_updateManyAndReturn hsome
    rw [if_neg]
    · obtain ⟨db, hdb⟩ := createSendAttempt_isOk (updateManyAndReturn (claimable id)
        (claimRow token now) s.database.emails).2 (claimAttempt (claimRow token now row) now token)
        (rowLedger_of_mem h row hrow) hfresh rfl rfl
      exact ⟨some _, db, by rw [hdb]; rfl⟩
    · intro hany
      obtain ⟨e, he, htoken⟩ := List.any_eq_true.1 hany
      exact token_ne_of_fresh h hfresh he (of_decide_eq_true htoken)

/-- **Row and ledger.** In every state reached every row agrees with its attempts, and neither a
deferral nor a claim fails, whatever the email, unless its token was drawn before. -/
theorem rowLedger_of_reachable (h : (system config).Reachable TransitionSystem.anyStep s) :
    (∀ e ∈ s.database.emails, RowLedger (s.database.account e)) ∧
      ∀ token, FreshToken s.database token →
        (∀ id nextAvailableAt now,
          ∃ db, recordRateLimit s.database id nextAvailableAt now token = .ok ((), db)) ∧
        ∀ id now, ∃ claim db, claimEmail s.database id now token = .ok (claim, db) := by
  refine ⟨rowLedger_of_mem h, fun token hfresh => ⟨?_, ?_⟩⟩
  · exact recordRateLimit_isOk h hfresh
  · exact claimEmail_isOk h hfresh

/-- Two emails: the second one is deferred while the first one is sent, and claimed later. -/
def deferredThenClaimed : List DeliveryEvent :=
  [.createBatch (requestFor ["a@test.invalid", "b@test.invalid"]) 10 (fun i => 100 + i),
    .deliver ⟨100, 0, some 3⟩, .deliver ⟨101, 0, some 3⟩,
    .advance 0 ⟨1000, 0, .done⟩, .advance 0 ⟨1000, 0, .done⟩, .advance 0 ⟨1000, 70, .done⟩,
    .advance 1 ⟨1000, 0, .done⟩, .advance 1 ⟨1000, 0, .done⟩, .advance 1 ⟨1000, 71, .done⟩,
    .advance 0 ⟨1000, 0, .done⟩, .smtpAccepts 0, .sendReturns 0 ⟨"message", none, 1, 0⟩,
    .advance 0 ⟨1500, 0, .done⟩, .deliver ⟨101, 0, some 3⟩, .tick 2000,
    .advance 2 ⟨2000, 0, .done⟩, .advance 2 ⟨2000, 0, .done⟩, .advance 2 ⟨2000, 72, .done⟩]

theorem rowLedger_after_deferredThenClaimed : ∃ s,
    (system validConfig).run TransitionSystem.anyStep deferredThenClaimed oneSenderStart = some s ∧
      s.database.emails.map ScheduledEmail.status = [.sent, .processing] ∧
      s.database.emails.map ScheduledEmail.attemptCount = [1, 2] ∧
      (∀ e ∈ s.database.emails, RowLedger (s.database.account e)) ∧
      FreshToken s.database 73 ∧
      ∃ claim db, claimEmail s.database 101 2000 73 = .ok (claim, db) := by
  have hfresh : ∀ s, (system validConfig).run TransitionSystem.anyStep deferredThenClaimed
      oneSenderStart = some s → FreshToken s.database 73 := by
    intro s hs
    cases hs
    unfold FreshToken
    decide
  have hreach : ∀ s, (system validConfig).run TransitionSystem.anyStep deferredThenClaimed
      oneSenderStart = some s → (system validConfig).Reachable TransitionSystem.anyStep s := by
    intro s hs
    exact reachable_from_oneSender deferredThenClaimed hs
  exact ⟨_, rfl, by decide, by decide, (rowLedger_of_reachable (hreach _ rfl)).1, hfresh _ rfl,
    ((rowLedger_of_reachable (hreach _ rfl)).2 73 (hfresh _ rfl)).2 101 2000⟩

end Delivery

end EmailScheduler
