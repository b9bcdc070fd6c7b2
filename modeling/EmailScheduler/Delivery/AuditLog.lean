import EmailScheduler.Delivery.RowLedger

/-!
# The audit log

A row is `SENT` if and only if exactly one of its attempts is `SMTP_ACCEPTED`, and such an attempt
stays as it is. The log is rewritten in two places. `recordAccepted` rewrites the attempt of a claim
that holds its row, so the attempt is still `CLAIMED`. `recordFailure` rewrites the attempt of a
claim whether or not the claim still holds its row.

The catch block also runs when a query fails after the accepting transaction has committed: its
reply is lost, or one of the queries of `updateBatchCompletion` throws. The row is then `SENT`, and
`recordFailure` overwrites the accepted attempt. `KeepsAcceptance` excludes exactly these commits.
-/

set_option autoImplicit false

namespace EmailScheduler

open Foundation

/-- The attempt was accepted by the SMTP server. -/
def SendAttempt.isAccepted (a : SendAttempt) : Bool := decide (a.outcome = .smtpAccepted)

/-- **The log agrees with the rows.** -/
def AuditAgrees (db : Database) : Prop :=
  ∀ e ∈ db.emails, e.status = .sent ↔ (db.attemptsOf e.id).countP SendAttempt.isAccepted = 1

instance (db : Database) : Decidable (AuditAgrees db) :=
  inferInstanceAs (Decidable (∀ e ∈ db.emails, e.status = .sent ↔
    (db.attemptsOf e.id).countP SendAttempt.isAccepted = 1))

/-- The catch block is about to commit a failure for a claim whose attempt is accepted. -/
def Stage.overwritesAcceptance (attempts : List SendAttempt) (reply : Reply) : Stage → Bool
  | .recordingFailure d _ => reply.commits &&
      attempts.any fun a => decide (a.attemptToken = d.claim.processingToken) && a.isAccepted
  | _ => false

/-- Accepted attempts stay. -/
def AcceptedKept (db db' : Database) : Prop :=
  ∀ a ∈ db.attempts, a.isAccepted = true → a ∈ db'.attempts

/-- The log of one account: one accepted attempt on a `SENT` row, none on any other. -/
def AccountAudited (c : Account) : Prop :=
  c.attempts.countP SendAttempt.isAccepted = if c.email.status = .sent then 1 else 0

theorem AccountAudited.not_isAccepted {c : Account} (h : AccountAudited c)
    (hstatus : c.email.status ≠ .sent) {a : SendAttempt} (ha : a ∈ c.attempts) :
    a.isAccepted = false := by
  rw [AccountAudited, if_neg hstatus, List.countP_eq_zero] at h
  simpa using h a ha

theorem FailureResult.outcome_ne_accepted (result : FailureResult) :
    result.outcome ≠ .smtpAccepted := by
  cases result with
  | failed => simp [FailureResult.outcome]
  | retryable => simp [FailureResult.outcome]
  | unknown => simp [FailureResult.outcome]

theorem not_isAccepted_failAttempt (result : FailureResult) (sanitized : SafeError) (now : Int)
    (a : SendAttempt) : (failAttempt result sanitized now a).isAccepted = false :=
  decide_eq_false result.outcome_ne_accepted

/-- Rewriting an attempt that was not accepted into one that is not keeps the count. -/
theorem countP_updateAttempt_of_false (token : Uuid) {data : SendAttempt → SendAttempt}
    {attempts : List SendAttempt}
    (hbefore : ∀ a ∈ attempts, a.attemptToken = token → a.isAccepted = false)
    (hafter : ∀ a, (data a).isAccepted = false) :
    (updateAttempt token data attempts).countP SendAttempt.isAccepted =
      attempts.countP SendAttempt.isAccepted := by
  unfold updateAttempt updateMany
  rw [List.countP_map]
  apply List.countP_congr
  intro a ha
  simp only [Function.comp_apply, decide_eq_true_eq]
  split
  next htoken => rw [hafter, hbefore a ha htoken]
  next => rfl

namespace Delivery

variable {config : AppConfig} {P : Delivery → DeliveryEvent → Prop} {s t : Delivery}
  {event : DeliveryEvent}

/-- The step does not commit `recordFailure` in an execution whose acceptance has committed. -/
def KeepsAcceptance (s : Delivery) : DeliveryEvent → Prop
  | .advance i input =>
      (s.stageOf i).overwritesAcceptance s.database.attempts input.reply = false
  | _ => True

instance (s : Delivery) (event : DeliveryEvent) : Decidable (KeepsAcceptance s event) :=
  match event with
  | .advance i input => inferInstanceAs (Decidable
      ((s.stageOf i).overwritesAcceptance s.database.attempts input.reply = false))
  | .deliver _ | .sweep _ | .sendReturns _ _ | .sendThrows _ _ | .smtpAccepts _ | .crash _
  | .createBatch _ _ _ | .updateSender _ | .seed _ _ _ _ | .tick _ => .isTrue trivial

theorem KeepsAcceptance.not_accepted {i : Nat} {input : StepInput} {d : Sending}
    {error : ThrownValue} (h : KeepsAcceptance s (.advance i input))
    (hstage : s.stageOf i = .recordingFailure d error) (hcommits : input.reply.commits = true)
    {a : SendAttempt} (ha : a ∈ s.database.attempts)
    (htoken : a.attemptToken = d.claim.processingToken) : a.isAccepted = false := by
  have hstep : (s.stageOf i).overwritesAcceptance s.database.attempts input.reply = false := h
  rw [hstage, Stage.overwritesAcceptance, hcommits, Bool.true_and, List.any_eq_false] at hstep
  simpa [htoken] using hstep a ha

/-- The row that a claim holds has its attempt in the log, still `CLAIMED`. -/
theorem attempt_of_heldBy {c : Account} (hledger : RowLedger c) {claim : ClaimedEmail}
    (hheld : heldBy claim c.email = true) :
    ∃ a ∈ c.attempts, a.attemptToken = claim.processingToken ∧ a.outcome = .claimed := by
  obtain ⟨-, -, hcolumn⟩ := heldBy_iff.1 hheld
  obtain ⟨a, ha, -, htoken, houtcome⟩ := hledger.claimed _ hcolumn
  exact ⟨a, ha, htoken, houtcome⟩

theorem accountAudited_step {c c' : Account} (hkeeps : KeepsAcceptance s event)
    (hledger : RowLedger c) (htokens : PrimaryKey SendAttempt.attemptToken c.attempts)
    (hattempts : ∀ a ∈ c.attempts, a ∈ s.database.attempts)
    (h : AccountStep config s event c c') (hinv : AccountAudited c) : AccountAudited c' := by
  cases h with
  | keep => exact hinv
  | deferred _ _ _ hopen =>
      have hsent := (ne_processing_of_isOpen hopen).2
      rw [AccountAudited, if_neg hsent] at hinv
      simp [AccountAudited, hinv, deferAttempt, deferRow, SendAttempt.isAccepted]
  | claimed _ _ _ hopen _ _ =>
      have hsent := (ne_processing_of_isOpen hopen).2
      rw [AccountAudited, if_neg hsent] at hinv
      simp [AccountAudited, hinv, claimAttempt, claimRow, SendAttempt.isAccepted]
  | @accepted i input d receipt _ _ hheld =>
      have hprocessing := status_of_heldBy hheld
      rw [AccountAudited, if_neg (by rw [hprocessing]; decide)] at hinv
      -- The attempt of the claim is the only one that changes, and it was not accepted.
      obtain ⟨a, ha, htoken, houtcome⟩ := attempt_of_heldBy hledger hheld
      obtain ⟨front, back, heq, hupdated⟩ :=
        htokens.exists_updateMany_eq ha htoken (acceptAttempt receipt input.now)
      have hfront : front.countP SendAttempt.isAccepted + back.countP SendAttempt.isAccepted =
          0 := by
        rw [heq, List.countP_append, List.countP_cons_of_neg (by simp [SendAttempt.isAccepted,
          houtcome])] at hinv
        exact hinv
      show (updateAttempt d.claim.processingToken (acceptAttempt receipt input.now)
        c.attempts).countP SendAttempt.isAccepted = 1
      rw [updateAttempt, hupdated, List.countP_append, List.countP_cons_of_pos (by rfl)]
      omega
  | @failed i input x d error result _ _ _ _ _ hheld =>
      have hsent : c.email.status ≠ .sent := by
        rw [status_of_heldBy hheld]
        decide
      have hcount := countP_updateAttempt_of_false d.claim.processingToken
        (fun a ha _ => hinv.not_isAccepted hsent ha) (not_isAccepted_failAttempt result
          (safeError (classifyDeliveryError error) error) input.now)
      rw [AccountAudited, if_neg hsent] at hinv
      unfold AccountAudited
      rw [if_neg (show (failRow _ _ _ _ c.email).status ≠ .sent from result.status_cases.2.2),
        hcount, hinv]
  | @failedLate i input d error result hevent hstage hcommits _ _ =>
      subst hevent
      unfold AccountAudited
      rw [countP_updateAttempt_of_false _ ?_ (not_isAccepted_failAttempt _ _ _)]
      · exact hinv
      · intro a ha htoken
        exact hkeeps.not_accepted hstage hcommits (hattempts a ha) htoken
  | abandoned _ hstale =>
      have hsent : c.email.status ≠ .sent := by
        rw [(isStale_iff.1 hstale).1]
        decide
      rw [AccountAudited, if_neg hsent] at hinv
      simp [AccountAudited, hinv, abandonRow]

theorem auditAgrees_of_mem (h : (system config).Reachable KeepsAcceptance s) :
    ∀ e ∈ s.database.emails, AccountAudited (s.database.account e) := by
  apply account_invariant (I := AccountAudited) h
  · intro input batchId newId e he
    obtain ⟨n, hn, rfl⟩ := List.mem_mapIdx.1 he
    rfl
  · intro s event c hreach hkeeps e he hchange hinv
    have htokens : PrimaryKey SendAttempt.attemptToken (s.database.account e).attempts :=
      List.Nodup.sublist (List.filter_sublist.map _) (logInv_of_reachable hreach).tokens
    apply accountAudited_step hkeeps (rowLedger_of_mem hreach e he) htokens ?_ hchange hinv
    intro a ha
    exact (mem_attemptsOf.1 ha).1

theorem auditAgrees_of_accounts
    (h : ∀ e ∈ s.database.emails, AccountAudited (s.database.account e)) :
    AuditAgrees s.database := by
  intro e he
  have haudited : (s.database.attemptsOf e.id).countP SendAttempt.isAccepted =
      if e.status = .sent then 1 else 0 := h e he
  rw [haudited]
  by_cases hsent : e.status = .sent
  · simp [hsent]
  · simp [hsent]

/-- A step that does not commit a failure over an acceptance keeps the accepted attempts. -/
theorem acceptedKept_of_step (hreach : (system config).Reachable P s)
    (hkeeps : KeepsAcceptance s event) (h : (system config).step event s = some t) :
    AcceptedKept s.database t.database := by
  intro a ha haccepted
  have hsame : t.database.attempts = s.database.attempts → a ∈ t.database.attempts := by
    intro heq
    rw [heq]
    exact ha
  cases commitStep_of_step h with
  | quiet _ hattempts => exact hsame hattempts
  | deferred _ _ hok =>
      rcases recordRateLimit_eq_ok hok with hdb | ⟨row, -, -, -, hdb⟩
      · exact hsame (by rw [hdb])
      · rw [hdb]
        exact List.mem_append_left _ ha
  | @claimed _ _ _ _ claim _ _ hok =>
      cases claim with
      | none => exact hsame (by rw [(claimEmail_eq_ok_none hok).1])
      | some claim =>
          obtain ⟨row, -, -, -, -, hdb⟩ := claimEmail_eq_ok_some hok
          rw [hdb]
          exact List.mem_append_left _ ha
  | @accepted i input d receipt _ _ hok =>
      obtain ⟨⟨row, hrow, hheld⟩, hdb⟩ := recordAccepted_eq_ok hok
      obtain ⟨b, hb, htoken, houtcome⟩ := attempt_of_heldBy (rowLedger_of_mem hreach row hrow) hheld
      rw [hdb]
      -- The attempt of the claim is still open, so it is not the accepted one.
      refine mem_updateAttempt_of_ne ha fun heq => ?_
      have hab : a = b := (logInv_of_reachable hreach).tokens.eq_of_key_eq ha
        (mem_attemptsOf.1 hb).1 (heq.trans htoken.symm)
      simp [SendAttempt.isAccepted, hab, houtcome] at haccepted
  | @failed i input x d error result hevent _ hstage hcommits hok =>
      subst hevent
      rw [(recordFailure_eq_ok hok).2]
      -- This is where an accepted attempt could be overwritten.
      refine mem_updateAttempt_of_ne ha fun heq => ?_
      rw [hkeeps.not_accepted hstage hcommits ha heq] at haccepted
      cases haccepted
  | swept _ hdb => exact hsame (by rw [hdb]; rfl)
  | created _ hok =>
      obtain ⟨-, -, -, -, -, hdb⟩ := createBatchTransaction_eq_ok hok
      exact hsame (by rw [hdb]; rfl)

/-- In a run without such commits accepted attempts stay to the end. -/
theorem acceptedKept_of_steps (hreach : (system config).Reachable KeepsAcceptance s)
    (h : (system config).Steps KeepsAcceptance s t) : AcceptedKept s.database t.database := by
  induction h with
  | refl => exact fun a ha _ => ha
  | tail event hst hkeeps hstep ih =>
      intro a ha haccepted
      exact acceptedKept_of_step (hreach.trans hst) hkeeps hstep a (ih a ha haccepted) haccepted

/-- A failure committed over an acceptance overwrites the accepted attempt. -/
theorem not_acceptedKept_of_overwrite (h : (system config).step event s = some t)
    (hkeeps : ¬ KeepsAcceptance s event) : ¬ AcceptedKept s.database t.database := by
  intro hkept
  apply hkeeps
  cases event with
  | advance i input =>
      obtain ⟨x, stage', w, hx, hstage, hadvance, rfl⟩ := step_advance config h
      show (s.stageOf i).overwritesAcceptance s.database.attempts input.reply = false
      rw [hstage]
      cases hcase : x.stage with
      | recordingFailure d error =>
          rw [hcase] at hadvance
          by_contra hover
          rw [Bool.not_eq_false, Stage.overwritesAcceptance, Bool.and_eq_true,
            List.any_eq_true] at hover
          obtain ⟨hcommits, a, ha, hmatch⟩ := hover
          rw [Bool.and_eq_true, decide_eq_true_eq] at hmatch
          -- The transaction finds the attempt, commits, and leaves no accepted attempt of the
          -- token.
          have hany : s.database.attempts.any (fun b =>
              decide (b.attemptToken = d.claim.processingToken)) = true :=
            List.any_eq_true.2 ⟨a, ha, by simp [hmatch.1]⟩
          obtain ⟨result, db, hok⟩ := recordFailure_isOk config hany
            (classifyDeliveryError error) x.job.finalRetry error input.now
          have hw : w.database = db := by
            cases hadvance
            show (input.reply.deliver s.database _).2 = db
            rw [hok, input.reply.deliver_of_commits hcommits]
          have hmem : a ∈ w.database.attempts := hkept a ha hmatch.2
          rw [hw, (recordFailure_eq_ok hok).2] at hmem
          rcases mem_updateAttempt hmem with ⟨-, hne⟩ | ⟨b, -, -, rfl⟩
          · exact hne hmatch.1
          · rw [not_isAccepted_failAttempt] at hmatch
            exact Bool.false_ne_true hmatch.2
      | _ => rfl
  | _ => trivial

/-- **The audit log.** In a run in which no failure is committed over an acceptance the log agrees
with the rows in every state reached, and accepted attempts stay to the end of the run. And the next
step keeps both if and only if it is no such commit. -/
theorem auditAgrees_of_reachable (h : (system config).Reachable KeepsAcceptance s) :
    AuditAgrees s.database ∧
      (∀ t, (system config).Steps KeepsAcceptance s t → AcceptedKept s.database t.database) ∧
      ∀ event t, (system config).step event s = some t →
        (AuditAgrees t.database ∧ AcceptedKept s.database t.database ↔
          KeepsAcceptance s event) := by
  have hagrees : ∀ {s}, (system config).Reachable KeepsAcceptance s → AuditAgrees s.database := by
    intro s h
    exact auditAgrees_of_accounts (auditAgrees_of_mem h)
  refine ⟨hagrees h, fun t => acceptedKept_of_steps h, fun event t hstep => ⟨?_, ?_⟩⟩
  · rintro ⟨-, hkept⟩
    by_contra hover
    exact not_acceptedKept_of_overwrite hstep hover hkept
  · intro hkeeps
    exact ⟨hagrees (h.trans (.single hkeeps hstep)), acceptedKept_of_step h hkeeps hstep⟩

/-- A first send fails transiently, the retry is accepted, and every query is answered. -/
def failedThenAccepted : List DeliveryEvent :=
  [.createBatch (requestFor ["lead@test.invalid"]) 10 (fun i => 100 + i),
    .deliver ⟨100, 0, some 3⟩, .advance 0 ⟨0, 0, .done⟩, .advance 0 ⟨0, 0, .done⟩,
    .advance 0 ⟨0, 70, .done⟩, .advance 0 ⟨0, 0, .done⟩,
    .sendThrows 0 (.object (.string "ECONNECTION") .other), .advance 0 ⟨500, 0, .done⟩,
    .deliver ⟨100, 1, some 3⟩, .tick 1500, .advance 1 ⟨1500, 0, .done⟩,
    .advance 1 ⟨1500, 0, .done⟩, .advance 1 ⟨1500, 71, .done⟩, .advance 1 ⟨1500, 0, .done⟩,
    .smtpAccepts 1, .sendReturns 1 ⟨"message", none, 1, 0⟩, .advance 1 ⟨2000, 0, .done⟩]

/-- The message is accepted and recorded, and then the first count of `updateBatchCompletion`
fails. -/
def acceptedThenQueryFails : List DeliveryEvent :=
  [.createBatch (requestFor ["lead@test.invalid"]) 10 (fun i => 100 + i),
    .deliver ⟨100, 0, some 3⟩, .advance 0 ⟨0, 0, .done⟩, .advance 0 ⟨0, 0, .done⟩,
    .advance 0 ⟨0, 70, .done⟩, .advance 0 ⟨0, 0, .done⟩, .smtpAccepts 0,
    .sendReturns 0 ⟨"message", none, 1, 0⟩, .advance 0 ⟨500, 0, .done⟩,
    .advance 0 ⟨500, 0, .refused notFinalizedError⟩, .advance 0 ⟨501, 0, .done⟩]

theorem auditAgrees_after_failedThenAccepted : ∃ s,
    (system validConfig).run KeepsAcceptance failedThenAccepted oneSenderStart = some s ∧
      s.database.attempts.map SendAttempt.outcome = [.transientFailure, .smtpAccepted] ∧
      AuditAgrees s.database := by
  have hagrees : ∀ s, (system validConfig).run KeepsAcceptance failedThenAccepted
      oneSenderStart = some s → AuditAgrees s.database := by
    intro s hs
    exact (auditAgrees_of_reachable (reachable_from_oneSender failedThenAccepted hs)).1
  exact ⟨_, rfl, by decide, hagrees _ rfl⟩

/-- The row is `SENT`, and its only attempt says `DELIVERY_UNKNOWN`. -/
theorem not_auditAgrees_after_acceptedThenQueryFails : ∃ s,
    (system validConfig).Reachable TransitionSystem.anyStep s ∧
      s.database.emails.map ScheduledEmail.status = [.sent] ∧
      s.database.attempts.map SendAttempt.outcome = [.deliveryUnknown] ∧
      ¬ AuditAgrees s.database := by
  refine ⟨_, reachable_from_oneSender acceptedThenQueryFails rfl, by decide, by decide, ?_⟩
  decide

end Delivery

end EmailScheduler
