import EmailScheduler.Delivery.RowLedger

/-!
# Claims and their ends

A claim opens an attempt and puts its row into `PROCESSING`. `recordAccepted` and `recordFailure`
end it on both sides. The stale sweep does not: it takes the row out of `PROCESSING` by a bulk
update that leaves `processingStartedAt` and the attempt as they are.

So every claim is closed as long as no sweep finds a stale row, and a sweep that finds one breaks
the rule at once.
-/

set_option autoImplicit false

namespace EmailScheduler

open Foundation

/-- **Every claim is closed.** An attempt is `CLAIMED` and unfinished exactly while its row is in
`PROCESSING` under its token, and a row has a start time exactly while it is in `PROCESSING`. -/
structure ClaimsClosed (db : Database) : Prop where
  attempts : ∀ a ∈ db.attempts, (a.outcome = .claimed ∧ a.finishedAt = none) ↔
    ∃ e ∈ db.emails, e.id = a.scheduledEmailId ∧ e.status = .processing ∧
      e.processingToken = some a.attemptToken
  started : ∀ e ∈ db.emails, e.processingStartedAt ≠ none ↔ e.status = .processing

/-- The same of one account. -/
structure AccountClosed (c : Account) : Prop where
  attempts : ∀ a ∈ c.attempts, (a.outcome = .claimed ∧ a.finishedAt = none) ↔
    c.email.status = .processing ∧ c.email.processingToken = some a.attemptToken
  started : c.email.processingStartedAt ≠ none ↔ c.email.status = .processing

/-- An attempt of a row that is not being processed is closed. -/
theorem AccountClosed.closed {c : Account} (h : AccountClosed c)
    (hstatus : c.email.status ≠ .processing) {a : SendAttempt} (ha : a ∈ c.attempts) :
    ¬ (a.outcome = .claimed ∧ a.finishedAt = none) := by
  intro hopen
  exact hstatus ((h.attempts a ha).1 hopen).1

theorem AccountClosed.startedAt_eq_none {c : Account} (h : AccountClosed c)
    (hstatus : c.email.status ≠ .processing) : c.email.processingStartedAt = none := by
  by_contra hstarted
  exact hstatus (h.started.1 hstarted)

theorem FailureResult.outcome_ne_claimed (result : FailureResult) :
    result.outcome ≠ .claimed := by
  cases result with
  | failed => simp [FailureResult.outcome]
  | retryable => simp [FailureResult.outcome]
  | unknown => simp [FailureResult.outcome]

namespace Delivery

variable {config : AppConfig} {P : Delivery → DeliveryEvent → Prop} {s t : Delivery}
  {event : DeliveryEvent}

/-- The sweep of a reconcile pass finds no stale row. -/
def NothingStale (config : AppConfig) (s : Delivery) : DeliveryEvent → Prop
  | .sweep now => ∀ e ∈ s.database.emails, isStale config now e = false
  | _ => True

instance (s : Delivery) (event : DeliveryEvent) : Decidable (NothingStale config s event) :=
  match event with
  | .sweep now =>
      inferInstanceAs (Decidable (∀ e ∈ s.database.emails, isStale config now e = false))
  | .deliver _ | .advance _ _ | .sendReturns _ _ | .sendThrows _ _ | .smtpAccepts _ | .crash _
  | .createBatch _ _ _ | .updateSender _ | .seed _ _ _ _ | .tick _ => .isTrue trivial

/-- The end of a claim closes its attempt. The other attempts of the row were closed before. -/
theorem accountClosed_of_recorded {c : Account} (hinv : AccountClosed c) {claim : ClaimedEmail}
    (hheld : heldBy claim c.email = true) {data : SendAttempt → SendAttempt}
    (hdata : ∀ a, (data a).outcome ≠ .claimed) {e : ScheduledEmail}
    (hstatus : e.status ≠ .processing) (hstarted : e.processingStartedAt = none) :
    AccountClosed ⟨e, updateAttempt claim.processingToken data c.attempts⟩ := by
  constructor
  · intro a ha
    constructor
    · rintro ⟨houtcome, hfinished⟩
      exfalso
      rcases mem_updateAttempt ha with ⟨ha, hne⟩ | ⟨b, -, -, rfl⟩
      · have htoken := ((hinv.attempts a ha).1 ⟨houtcome, hfinished⟩).2
        obtain ⟨-, -, hcolumn⟩ := heldBy_iff.1 hheld
        rw [hcolumn, Option.some.injEq] at htoken
        exact hne htoken.symm
      · exact hdata b houtcome
    · rintro ⟨hprocessing, -⟩
      exact absurd hprocessing hstatus
  · simp [hstatus, hstarted]

theorem accountClosed_step {c c' : Account} (hstale : NothingStale config s event)
    (hmem : c.email ∈ s.database.emails) (hattempts : ∀ a ∈ c.attempts, a ∈ s.database.attempts)
    (h : AccountStep config s event c c') (hinv : AccountClosed c) : AccountClosed c' := by
  cases h with
  | keep => exact hinv
  | deferred _ _ _ hopen =>
      -- The row is open, so its attempts are closed, and the new one is closed at once.
      have hprocessing := (ne_processing_of_isOpen hopen).1
      have hstarted := hinv.startedAt_eq_none hprocessing
      constructor
      · intro a ha
        rcases List.mem_append.1 ha with ha | ha
        · have hclosed := hinv.closed hprocessing ha
          simp [deferRow, hclosed]
        · rw [List.mem_singleton.1 ha]
          simp [deferRow, deferAttempt]
      · simp [deferRow, hstarted]
  | @claimed i input loaded now _ _ _ hopen _ hfresh =>
      -- The new attempt is the only open one, and the row is processed under its token.
      have hprocessing := (ne_processing_of_isOpen hopen).1
      constructor
      · intro a ha
        rcases List.mem_append.1 ha with ha | ha
        · have hclosed := hinv.closed hprocessing ha
          have htoken := hfresh a (hattempts a ha)
          simp [claimRow, hclosed, Ne.symm htoken]
        · rw [List.mem_singleton.1 ha]
          simp [claimRow, claimAttempt]
      · simp [claimRow]
  | accepted _ _ hheld =>
      exact accountClosed_of_recorded hinv hheld (by simp [acceptAttempt]) (by simp [acceptRow]) rfl
  | @failed i input x d error result _ _ _ _ _ hheld =>
      apply accountClosed_of_recorded hinv hheld
      · intro a
        exact result.outcome_ne_claimed
      · exact result.status_cases.1
      · rfl
  | @failedLate i input d error result _ _ _ hid hfree =>
      constructor
      · intro a ha
        rcases mem_updateAttempt ha with ⟨ha, -⟩ | ⟨b, hb, htoken, rfl⟩
        · exact hinv.attempts a ha
        · -- The attempt of the claim is not the one that the row is processed under.
          constructor
          · rintro ⟨houtcome, -⟩
            exact absurd houtcome result.outcome_ne_claimed
          · rintro ⟨hprocessing, hcolumn⟩
            rw [show (failAttempt _ _ _ b).attemptToken = b.attemptToken from rfl,
              htoken] at hcolumn
            have hheld := heldBy_iff.2 ⟨hid.symm, hprocessing, hcolumn⟩
            rw [hfree] at hheld
            cases hheld
      · exact hinv.started
  | abandoned hevent hmatch =>
      -- The sweep would leave the attempt open, but it finds no stale row.
      subst hevent
      have := hstale c.email hmem
      rw [hmatch] at this
      cases this

theorem accountClosed_of_reachable (h : (system config).Reachable (NothingStale config) s) :
    ∀ e ∈ s.database.emails, AccountClosed (s.database.account e) := by
  apply account_invariant (I := AccountClosed) h
  · intro input batchId newId e he
    obtain ⟨n, hn, rfl⟩ := List.mem_mapIdx.1 he
    constructor
    · intro a ha
      cases ha
    · simp [emailRow]
  · intro s event c _ hP e he hchange hinv
    refine accountClosed_step hP he ?_ hchange hinv
    intro a ha
    exact (mem_attemptsOf.1 ha).1

/-- Closed accounts, over the tables. -/
theorem claimsClosed_of_accounts (hlog : LogInv s)
    (hkey : PrimaryKey ScheduledEmail.id s.database.emails)
    (h : ∀ e ∈ s.database.emails, AccountClosed (s.database.account e)) :
    ClaimsClosed s.database := by
  constructor
  · intro a ha
    obtain ⟨e, he, hid⟩ := hlog.owners a ha
    have hmem : a ∈ (s.database.account e).attempts := mem_attemptsOf.2 ⟨ha, hid.symm⟩
    rw [(h e he).attempts a hmem]
    constructor
    · rintro ⟨hprocessing, htoken⟩
      exact ⟨e, he, hid, hprocessing, htoken⟩
    · rintro ⟨e', he', hid', hprocessing, htoken⟩
      rw [← hkey.eq_of_key_eq he' he (hid'.trans hid.symm)]
      exact ⟨hprocessing, htoken⟩
  · intro e he
    exact (h e he).started

/-- A sweep that finds a stale row leaves it with a start time, but not in `PROCESSING`. -/
theorem not_claimsClosed_of_stale (h : (system config).step event s = some t)
    (hstale : ¬ NothingStale config s event) : ¬ ClaimsClosed t.database := by
  intro hclosed
  apply hstale
  cases event with
  | sweep now =>
      intro e he
      by_contra hmatch
      rw [Bool.not_eq_false] at hmatch
      cases h
      have hmem : abandonRow e ∈ (sweepStaleLeases config s.database now).2.emails :=
        mem_updateMany.2 ⟨e, he, by simp [hmatch]⟩
      have hstarted : (abandonRow e).processingStartedAt ≠ none := by
        obtain ⟨-, startedAt, hsome, -⟩ := isStale_iff.1 hmatch
        rw [show (abandonRow e).processingStartedAt = e.processingStartedAt from rfl, hsome]
        exact Option.some_ne_none startedAt
      have hprocessing := (hclosed.started _ hmem).1 hstarted
      cases hprocessing
  | _ => trivial

/-- **Claims are closed.** In a run in which no sweep finds a stale row every claim is closed in
every state reached; and the next step keeps it so if and only if it is no sweep that finds one. -/
theorem claimsClosed_of_reachable (h : (system config).Reachable (NothingStale config) s) :
    ClaimsClosed s.database ∧ ∀ event t, (system config).step event s = some t →
      (ClaimsClosed t.database ↔ NothingStale config s event) := by
  have hclosed : ∀ {s}, (system config).Reachable (NothingStale config) s →
      ClaimsClosed s.database := by
    intro s h
    exact claimsClosed_of_accounts (logInv_of_reachable h) (primaryKey_emails h)
      (accountClosed_of_reachable h)
  refine ⟨hclosed h, fun event t hstep => ⟨?_, ?_⟩⟩
  · intro hnext
    by_contra hstale
    exact not_claimsClosed_of_stale hstep hstale hnext
  · intro hstale
    exact hclosed (h.trans (.single hstale hstep))

/-- A claim is made and sent, a sweep within the lease finds nothing, and the message is
accepted. -/
def sweptWithinLease : List DeliveryEvent :=
  [.createBatch (requestFor ["lead@test.invalid"]) 10 (fun i => 100 + i),
    .deliver ⟨100, 0, some 3⟩, .advance 0 ⟨0, 0, .done⟩, .advance 0 ⟨0, 0, .done⟩,
    .advance 0 ⟨0, 70, .done⟩, .advance 0 ⟨0, 0, .done⟩, .sweep 30000, .smtpAccepts 0,
    .sendReturns 0 ⟨"message", none, 1, 0⟩, .advance 0 ⟨30000, 0, .done⟩]

/-- The worker that claimed crashes, and a sweep after the lease gives the row up. -/
def crashedThenSwept : List DeliveryEvent :=
  [.createBatch (requestFor ["lead@test.invalid"]) 10 (fun i => 100 + i),
    .deliver ⟨100, 0, some 3⟩, .advance 0 ⟨0, 0, .done⟩, .advance 0 ⟨0, 0, .done⟩,
    .advance 0 ⟨0, 70, .done⟩, .crash 0, .sweep 30001]

theorem claimsClosed_after_sweptWithinLease : ∃ s,
    (system validConfig).run (NothingStale validConfig) sweptWithinLease oneSenderStart = some s ∧
      s.database.emails.map ScheduledEmail.status = [.sent] ∧ ClaimsClosed s.database := by
  have hclosed : ∀ s, (system validConfig).run (NothingStale validConfig) sweptWithinLease
      oneSenderStart = some s → ClaimsClosed s.database := by
    intro s hs
    exact (claimsClosed_of_reachable (reachable_from_oneSender sweptWithinLease hs)).1
  exact ⟨_, rfl, by decide, hclosed _ rfl⟩

/-- After the crash and the sweep the row is in `DELIVERY_UNKNOWN` with a start time, and its
attempt is still `CLAIMED` and unfinished. -/
theorem not_claimsClosed_after_crashedThenSwept : ∃ s,
    (system validConfig).Reachable TransitionSystem.anyStep s ∧
      s.database.emails.map (fun e => (e.status, e.processingStartedAt)) =
        [(.deliveryUnknown, some 0)] ∧
      s.database.attempts.map (fun a => (a.outcome, a.finishedAt)) = [(.claimed, none)] ∧
      ¬ ClaimsClosed s.database := by
  refine ⟨_, reachable_from_oneSender crashedThenSwept rfl, by decide, by decide, ?_⟩
  intro hclosed
  have hrow := hclosed.started _ (List.mem_singleton_self _)
  revert hrow
  decide

end Delivery

end EmailScheduler
