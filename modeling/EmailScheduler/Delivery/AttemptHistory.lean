import EmailScheduler.Delivery.AtMostOnce
import EmailScheduler.Delivery.AuditLog

/-!
# The history of attempts

An email is attempted again only after an attempt that the SMTP server did not take: every attempt
but the latest was deferred by the limiter or failed transiently. And the latest attempt of a row
that is not terminal says why the row is as it is (`attemptHistory_of_reachable`).

The audit log is rewritten by claims, also by claims that lost their row. `OwnedBy` is what keeps
them off the earlier attempts: while an execution may still record an outcome, its attempt is the
latest one of its row, and the row is its own or terminal.
-/

set_option autoImplicit false

namespace EmailScheduler

open Foundation

/-! ## Who may still record -/

/-- The claim of an execution that has not ended its claim. -/
def Recorded.claim? (d : Sending) : Recorded → Option ClaimedEmail
  | .accepted => some d.claim
  | .failed _ => none

/-- The claim under which an execution may still write its row or its attempt. -/
def Stage.claim? : Stage → Option ClaimedEmail
  | .claimed _ claim _ => some claim
  | .sending d => some d.claim
  | .recordingAccepted d _ => some d.claim
  | .recordingFailure d _ => some d.claim
  | .countingRemaining d recorded => recorded.claim? d
  | .countingUnsuccessful d recorded => recorded.claim? d
  | .labelling d recorded _ => recorded.claim? d
  | _ => none

/-- The execution is about to record a failure. -/
def Stage.recordsFailure : Stage → Bool
  | .recordingFailure _ _ => true
  | _ => false

theorem claim?_afterSend (d : Sending) (receipt : DeliveryReceipt) :
    (afterSend d receipt).claim? = some d.claim := by
  unfold afterSend
  split_ifs <;> rfl

/-- Such an execution holds its token in the lease protocol. -/
theorem token?_of_claim? {stage : Stage} {claim : ClaimedEmail} (h : stage.claim? = some claim) :
    stage.holder.token? = some claim.processingToken := by
  have hrecorded : ∀ {d : Sending} {recorded : Recorded}, recorded.claim? d = some claim →
      (recorded.holder d).token? = some claim.processingToken := by
    intro d recorded hclaim
    cases recorded with
    | accepted =>
        cases hclaim
        rfl
    | failed => cases hclaim
  cases stage with
  | claimed =>
      cases h
      rfl
  | sending =>
      cases h
      rfl
  | recordingAccepted =>
      cases h
      rfl
  | recordingFailure d error =>
      cases h
      by_cases htransient : classifyDeliveryError error = .transient
      · simp [Stage.holder, htransient, Sending.refused, Holder.token?]
      · simp [Stage.holder, htransient, Sending.sent, Holder.token?]
  | countingRemaining => exact hrecorded h
  | countingUnsuccessful => exact hrecorded h
  | labelling => exact hrecorded h
  | _ => cases h

section Advance

variable {config : AppConfig} {job : Job} {input : StepInput} {w w' : World} {stage stage' : Stage}
  {claim : ClaimedEmail}

/-- After a step an execution may record under the claim it had, or under the one it just made. -/
theorem claim?_of_advance (h : advance config job input w stage = some (stage', w'))
    (hclaim : stage'.claim? = some claim) :
    (stage.claim? = some claim ∧ stage.recordsFailure = false) ∨
      ∃ loaded now, stage = .claiming loaded now ∧
        claimEmail w.database loaded.email.id now input.token = .ok (some claim, w'.database) := by
  cases advanceCase_of_advance h with
  | claimed hok =>
      cases hclaim
      exact Or.inr ⟨_, _, rfl, hok⟩
  | sent => exact Or.inl ⟨hclaim, rfl⟩
  | accepted => exact Or.inl ⟨hclaim, rfl⟩
  | notAccepted => exact Or.inl ⟨hclaim, rfl⟩
  | countedRemaining => exact Or.inl ⟨hclaim, rfl⟩
  | countedUnsuccessful => exact Or.inl ⟨hclaim, rfl⟩
  | caughtRemaining => exact Or.inl ⟨hclaim, rfl⟩
  | caughtUnsuccessful => exact Or.inl ⟨hclaim, rfl⟩
  | caughtLabel => exact Or.inl ⟨hclaim, rfl⟩
  -- The other cases end the claim, or come before it.
  | _ => cases hclaim

end Advance

namespace Delivery

variable {config : AppConfig} {P : Delivery → DeliveryEvent → Prop} {s t : Delivery}
  {event : DeliveryEvent} {i : Nat} {claim : ClaimedEmail}

/-- A step moves the execution that takes it. -/
theorem advanced_of_step {input : StepInput}
    (h : (system config).step (.advance i input) s = some t) :
    ∃ x : Execution, advance config x.job input s.world (s.stageOf i) = some
    (t.stageOf i, t.world) := by
  obtain ⟨x, stage', w, hx, hsame, hadvance, rfl⟩ := step_advance config h
  have hmoved : (s.moveTo i stage').stageOf i = stage' :=
    stageOf_moveTo_self (List.getElem?_eq_some_iff.1 hx).1
  refine ⟨x, ?_⟩
  rw [hsame, hadvance]
  exact congrArg some (Prod.ext hmoved.symm rfl)

/-- An execution that records a failure has no claim afterwards. -/
theorem claim?_eq_none_of_recordsFailure {input : StepInput}
    (h : (system config).step (.advance i input) s = some t)
    (hstage : (s.stageOf i).recordsFailure = true) : (t.stageOf i).claim? = none := by
  obtain ⟨x, hadvance⟩ := advanced_of_step h
  by_contra hne
  obtain ⟨claim, hclaim⟩ := Option.ne_none_iff_exists'.1 hne
  rcases claim?_of_advance hadvance hclaim with ⟨-, hfalse⟩ | ⟨loaded, now, hclaiming, -⟩
  · rw [hstage] at hfalse
    cases hfalse
  · rw [hclaiming] at hstage
    cases hstage

/-- The claim of an execution after a step is the one it had, or the one it just made. -/
theorem claim?_of_step (h : (system config).step event s = some t)
    (hclaim : (t.stageOf i).claim? = some claim) :
    (s.stageOf i).claim? = some claim ∨ ∃ loaded now token, s.stageOf i = .claiming loaded now ∧
      claimEmail s.database loaded.email.id now token = .ok (some claim, t.database) := by
  cases stageStep_of_step h i with
  | same heq => exact Or.inl (heq ▸ hclaim)
  | delivered _ _ _ heq => rw [heq] at hclaim; cases hclaim
  | crashed _ heq => rw [heq] at hclaim; cases hclaim
  | advanced input hevent _ hadvance =>
      rcases claim?_of_advance hadvance hclaim with ⟨hbefore, -⟩ | ⟨loaded, now, hstage, hok⟩
      · exact Or.inl hbefore
      · exact Or.inr ⟨loaded, now, input.token, hstage, hok⟩
  | returned d receipt hstage heq hevent =>
      rw [heq, claim?_afterSend] at hclaim
      rw [hstage]
      exact Or.inl hclaim
  | threw d error hstage heq hevent =>
      rw [heq] at hclaim
      rw [hstage]
      exact Or.inl hclaim

/-- Two executions with a claim under one token are the same execution. -/
theorem eq_of_token_eq (hreach : (system config).Reachable P s) {j : Nat} {claim' : ClaimedEmail}
    (hclaim : (s.stageOf i).claim? = some claim) (hclaim' : (s.stageOf j).claim? = some claim')
    (htoken : claim.processingToken = claim'.processingToken) : i = j := by
  have hinv := LeaseState.inv_of_reachable (lease_reachable hreach)
  refine hinv.worker_unique i j claim.processingToken (token?_of_claim? hclaim) ?_
  rw [htoken]
  exact token?_of_claim? hclaim'

/-! ## The claim and its account -/

/-- The claim holds its row, or the row is terminal; and its attempt is the latest one. -/
structure OwnedBy (claim : ClaimedEmail) (c : Account) : Prop where
  id : c.email.id = claim.id
  held : heldBy claim c.email = true ∨ c.email.status.isTerminal = true
  latest : ∃ a ∈ c.attempts, a.attemptToken = claim.processingToken ∧
    a.attemptNumber = c.email.attemptCount

/-- Such a row is neither deferred nor claimed. -/
theorem OwnedBy.not_isOpen {c : Account} (h : OwnedBy claim c) : c.email.status.isOpen = false := by
  rcases h.held with hheld | hterminal
  · rw [status_of_heldBy hheld]
    rfl
  · by_contra hopen
    rw [Bool.not_eq_false] at hopen
    rw [ScheduledEmailStatus.not_isTerminal_of_isOpen hopen] at hterminal
    cases hterminal

/-- The rewriting of attempts keeps their tokens and numbers. -/
theorem exists_updateAttempt {attempts : List SendAttempt} {a : SendAttempt} (ha : a ∈ attempts)
    (token : Uuid) (data : SendAttempt → SendAttempt)
    (htoken : ∀ a, (data a).attemptToken = a.attemptToken)
    (hnumber : ∀ a, (data a).attemptNumber = a.attemptNumber) :
    ∃ b ∈ updateAttempt token data attempts,
      b.attemptToken = a.attemptToken ∧ b.attemptNumber = a.attemptNumber := by
  refine ⟨_, mem_updateMany.2 ⟨a, ha, rfl⟩, ?_⟩
  split
  · exact ⟨htoken a, hnumber a⟩
  · exact ⟨rfl, rfl⟩

/-- **A claim keeps its account** while its execution goes on. -/
theorem OwnedBy.step (hreach : (system config).Reachable P s)
    (hstep : (system config).step event s = some t) (hbefore : (s.stageOf i).claim? = some claim)
    (hafter : (t.stageOf i).claim? = some claim) {c c' : Account}
    (h : AccountStep config s event c c') (howned : OwnedBy claim c) : OwnedBy claim c' := by
  have hclosed := howned.not_isOpen
  obtain ⟨a, ha, htoken, hnumber⟩ := howned.latest
  cases h with
  | keep => exact howned
  | deferred _ _ _ hopen =>
      rw [hclosed] at hopen
      cases hopen
  | claimed _ _ _ hopen _ _ =>
      rw [hclosed] at hopen
      cases hopen
  | @accepted j input d receipt _ _ hheld =>
      obtain ⟨b, hb, hbtoken, hbnumber⟩ := exists_updateAttempt ha d.claim.processingToken
        (acceptAttempt receipt input.now) (fun _ => rfl) (fun _ => rfl)
      exact ⟨howned.id, Or.inr rfl, b, hb, hbtoken.trans htoken, hbnumber.trans hnumber⟩
  | @failed j input x d error result hevent _ hstage _ _ hheld =>
      -- The execution that fails holds the row, so it is the one with this claim.
      exfalso
      subst hevent
      rcases howned.held with hown | hterminal
      · have hsame : claim.processingToken = d.claim.processingToken :=
          Option.some.inj ((heldBy_iff.1 hown).2.2.symm.trans (heldBy_iff.1 hheld).2.2)
        have hi : i = j := eq_of_token_eq hreach hbefore (by rw [hstage]; rfl) hsame
        subst hi
        rw [claim?_eq_none_of_recordsFailure hstep (by rw [hstage]; rfl)] at hafter
        cases hafter
      · rw [status_of_heldBy hheld] at hterminal
        cases hterminal
  | @failedLate j input d error result _ _ _ _ _ =>
      obtain ⟨b, hb, hbtoken, hbnumber⟩ := exists_updateAttempt ha d.claim.processingToken
        (failAttempt result (safeError (classifyDeliveryError error) error) input.now)
        (fun _ => rfl) (fun _ => rfl)
      exact ⟨howned.id, howned.held, b, hb, hbtoken.trans htoken, hbnumber.trans hnumber⟩
  | abandoned _ _ => exact ⟨howned.id, Or.inr rfl, a, ha, htoken, hnumber⟩

/-- A claim that was just made holds its row. -/
theorem ownedBy_of_claimed {loaded : LoadedEmail} {now : Int} {token : Uuid}
    (hok : claimEmail s.database loaded.email.id now token = .ok (some claim, t.database)) :
    ∃ e ∈ t.database.emails, OwnedBy claim (t.database.account e) := by
  obtain ⟨row, hrow, hmatch, rfl, -, hdb⟩ := claimEmail_eq_ok_some hok
  refine ⟨claimRow token now row, ?_, rfl, Or.inl ?_,
    claimAttempt (claimRow token now row) now token,
    ?_, rfl, rfl⟩
  · rw [hdb]
    exact mem_updateMany.2 ⟨row, hrow, by rw [hmatch]; rfl⟩
  · exact heldBy_iff.2 ⟨rfl, rfl, rfl⟩
  · refine mem_attemptsOf.2 ⟨?_, rfl⟩
    rw [hdb]
    exact List.mem_append_right _ (List.mem_singleton_self _)

/-- Every claim under which something may still be recorded has its account. -/
theorem ownedBy_of_reachable (hreach : (system config).Reachable P s) :
    ∀ i claim, (s.stageOf i).claim? = some claim →
      ∃ e ∈ s.database.emails, OwnedBy claim (s.database.account e) := by
  apply hreach.invariant_of_reachable (I := fun s => ∀ i claim, (s.stageOf i).claim? = some claim →
    ∃ e ∈ s.database.emails, OwnedBy claim (s.database.account e))
  · rintro s ⟨-, -, -, -, -, -, hexecutions⟩ i claim hclaim
    rw [stageOf, hexecutions] at hclaim
    cases hclaim
  · intro s event t hreach _ hstep hinv i claim hafter
    rcases claim?_of_step hstep hafter with hbefore | ⟨loaded, now, token, -, hok⟩
    · obtain ⟨e, he, howned⟩ := hinv i claim hbefore
      obtain ⟨e', he', -, hchange⟩ := accountStep_of_mem hreach hstep he
      exact ⟨e', he', howned.step hreach hstep hbefore hafter hchange⟩
    · exact ownedBy_of_claimed hok

/-! ## The history of an account -/

end Delivery

/-- The latest attempt of a row with a status can end so. What a terminal row shows is its claim,
which may have been rewritten afterwards. -/
def ScheduledEmailStatus.allowsLatest : ScheduledEmailStatus → SendAttemptOutcome → Bool
  | .scheduled, _ => false
  | .rateLimited, outcome => decide (outcome = .rateLimited)
  | .processing, outcome => decide (outcome = .claimed)
  | .retryable, outcome => decide (outcome = .transientFailure)
  | _, outcome => decide (outcome ≠ .rateLimited)

/-- The email may be attempted again after such an attempt. -/
def SendAttemptOutcome.isRepeatable (outcome : SendAttemptOutcome) : Bool :=
  decide (outcome = .rateLimited) || decide (outcome = .transientFailure)

/-- **The history of attempts.** Every attempt but the latest was deferred or failed transiently,
the latest one agrees with the status of a row that is not terminal, a row that waits for a retry
shows its error, and a row that is no longer `SCHEDULED` has been attempted. -/
structure AttemptHistory (c : Account) : Prop where
  earlier : ∀ a ∈ c.attempts, a.attemptNumber < c.email.attemptCount →
    a.outcome.isRepeatable = true
  latest : ∀ a ∈ c.attempts, a.attemptNumber = c.email.attemptCount →
    c.email.status.allowsLatest a.outcome = true
  error : c.email.status = .retryable → ∀ a ∈ c.attempts,
    a.attemptNumber = c.email.attemptCount →
      a.errorCode = c.email.lastErrorCode ∧ a.errorMessage = c.email.lastErrorMessage
  attempted : c.email.status ≠ .scheduled → 0 < c.email.attemptCount

theorem ScheduledEmailStatus.isRepeatable_of_isOpen {status : ScheduledEmailStatus}
    {outcome : SendAttemptOutcome} (hopen : status.isOpen = true)
    (h : status.allowsLatest outcome = true) : outcome.isRepeatable = true := by
  cases status <;> simp_all [isOpen, allowsLatest, SendAttemptOutcome.isRepeatable]

/-- On a terminal row every outcome of a claim is possible. -/
theorem ScheduledEmailStatus.allowsLatest_of_isTerminal {status : ScheduledEmailStatus}
    {outcome : SendAttemptOutcome} (hterminal : status.isTerminal = true)
    (h : outcome ≠ .rateLimited) : status.allowsLatest outcome = true := by
  cases status <;> simp_all [isTerminal, allowsLatest]

theorem FailureResult.allowsLatest (result : FailureResult) :
    result.status.allowsLatest result.outcome = true := by
  cases result <;> rfl

theorem FailureResult.outcome_ne_rateLimited (result : FailureResult) :
    result.outcome ≠ .rateLimited := by
  cases result <;> simp [FailureResult.outcome]

namespace AttemptHistory

variable {c : Account}

/-- No attempt after the latest one. -/
theorem le_of_mem (h : RowLedger c) {a : SendAttempt} (ha : a ∈ c.attempts) :
    a.attemptNumber < c.email.attemptCount ∨ a.attemptNumber = c.email.attemptCount :=
  Nat.lt_or_eq_of_le (h.number_le ha)

/-- Two attempts of a row with one number are the same attempt. -/
theorem eq_of_number_eq (h : RowLedger c) {a b : SendAttempt} (ha : a ∈ c.attempts)
    (hb : b ∈ c.attempts) (hnumber : a.attemptNumber = b.attemptNumber) : a = b := by
  have hkey : PrimaryKey SendAttempt.attemptNumber c.attempts := by
    rw [PrimaryKey, h.numbers]
    exact List.nodup_range'
  exact hkey.eq_of_key_eq ha hb hnumber

/-- A new attempt of an open row. -/
theorem append (hinv : AttemptHistory c) (hledger : RowLedger c)
    (hopen : c.email.status.isOpen = true) {e : ScheduledEmail} {a : SendAttempt}
    (hcount : e.attemptCount = c.email.attemptCount + 1)
    (hnumber : a.attemptNumber = e.attemptCount)
    (hstatus : e.status.allowsLatest a.outcome = true) (hretry : e.status ≠ .retryable) :
    AttemptHistory ⟨e, c.attempts ++ [a]⟩ := by
  refine ⟨?_, ?_, fun heq => absurd heq hretry, fun _ => ?_⟩
  · intro b hb hlt
    rcases List.mem_append.1 hb with hb | hb
    · -- What was the latest attempt is now an earlier one.
      rcases le_of_mem hledger hb with hearlier | hlatest
      · exact hinv.earlier b hb hearlier
      · exact ScheduledEmailStatus.isRepeatable_of_isOpen hopen (hinv.latest b hb hlatest)
    · rw [List.mem_singleton.1 hb, hnumber] at hlt
      exact absurd hlt (Nat.lt_irrefl _)
  · intro b hb heq
    rcases List.mem_append.1 hb with hb | hb
    · have hle := hledger.number_le hb
      change b.attemptNumber = e.attemptCount at heq
      omega
    · rw [List.mem_singleton.1 hb]
      exact hstatus
  · rw [hcount]
    exact Nat.succ_pos _

/-- The latest attempt is rewritten, and the row with it. -/
theorem rewrite (hinv : AttemptHistory c) (hledger : RowLedger c) {e : ScheduledEmail}
    {token : Uuid}
    {data : SendAttempt → SendAttempt} (hnumber : ∀ a, (data a).attemptNumber = a.attemptNumber)
    (hlatest : ∀ a ∈ c.attempts,
      a.attemptToken = token ↔ a.attemptNumber = c.email.attemptCount)
    (hcount : e.attemptCount = c.email.attemptCount)
    (hstatus : ∀ a, e.status.allowsLatest (data a).outcome = true)
    (herror : e.status = .retryable → ∀ a, (data a).errorCode = e.lastErrorCode ∧
      (data a).errorMessage = e.lastErrorMessage) (hattempted : c.email.status ≠ .scheduled) :
    AttemptHistory ⟨e, updateAttempt token data c.attempts⟩ := by
  -- An attempt afterwards is the rewritten latest one, or an earlier one that stays.
  have hcases : ∀ b ∈ updateAttempt token data c.attempts,
      (b ∈ c.attempts ∧ b.attemptNumber < c.email.attemptCount) ∨
        ∃ a, b = data a ∧ b.attemptNumber = c.email.attemptCount := by
    intro b hb
    rcases mem_updateAttempt hb with ⟨hmem, hne⟩ | ⟨a, ha, htoken, rfl⟩
    · refine Or.inl ⟨hmem, (le_of_mem hledger hmem).resolve_right ?_⟩
      exact fun heq => hne ((hlatest b hmem).2 heq)
    · exact Or.inr ⟨a, rfl, (hnumber a).trans ((hlatest a ha).1 htoken)⟩
  refine ⟨?_, ?_, ?_, fun _ => hcount ▸ hinv.attempted hattempted⟩
  · intro b hb hlt
    rcases hcases b hb with ⟨hmem, hearlier⟩ | ⟨a, -, heq⟩
    · exact hinv.earlier b hmem hearlier
    · change b.attemptNumber < e.attemptCount at hlt
      omega
  · intro b hb heq
    rcases hcases b hb with ⟨-, hearlier⟩ | ⟨a, rfl, -⟩
    · change b.attemptNumber = e.attemptCount at heq
      omega
    · exact hstatus a
  · intro hretry b hb heq
    rcases hcases b hb with ⟨-, hearlier⟩ | ⟨a, rfl, -⟩
    · change b.attemptNumber = e.attemptCount at heq
      omega
    · exact herror hretry a

/-- The rows without an attempt are the `SCHEDULED` ones. -/
theorem scheduled_iff (hinv : AttemptHistory c) (hledger : RowLedger c) :
    c.email.status = .scheduled ↔ c.attempts = [] := by
  have hlength : c.attempts.length = c.email.attemptCount := by
    have hnumbers := congrArg List.length hledger.numbers
    rwa [List.length_map, List.length_range'] at hnumbers
  constructor
  · intro hscheduled
    by_contra hne
    -- The latest attempt would agree with the status.
    have hpos : 0 < c.email.attemptCount := hlength ▸ List.length_pos_iff.2 hne
    have hmem : c.email.attemptCount ∈ c.attempts.map SendAttempt.attemptNumber := by
      rw [hledger.numbers, List.mem_range'_1]
      omega
    obtain ⟨a, ha, hnumber⟩ := List.mem_map.1 hmem
    have hallowed := hinv.latest a ha hnumber
    rw [hscheduled] at hallowed
    cases hallowed
  · intro hempty
    by_contra hne
    have hpos := hinv.attempted hne
    rw [hempty] at hlength
    rw [← hlength] at hpos
    exact absurd hpos (Nat.lt_irrefl 0)

end AttemptHistory

namespace Delivery

variable {config : AppConfig} {P : Delivery → DeliveryEvent → Prop} {s t : Delivery}
  {event : DeliveryEvent} {i : Nat} {claim : ClaimedEmail}

/-- The attempt of a claim is the latest one, and no other. -/
theorem OwnedBy.latest_iff {c : Account} (h : OwnedBy claim c) (hledger : RowLedger c)
    (htokens : PrimaryKey SendAttempt.attemptToken c.attempts) {a : SendAttempt}
    (ha : a ∈ c.attempts) :
    a.attemptToken = claim.processingToken ↔ a.attemptNumber = c.email.attemptCount := by
  obtain ⟨b, hb, htoken, hnumber⟩ := h.latest
  constructor
  · intro heq
    rw [htokens.eq_of_key_eq ha hb (heq.trans htoken.symm)]
    exact hnumber
  · intro heq
    rw [AttemptHistory.eq_of_number_eq hledger ha hb (heq.trans hnumber.symm)]
    exact htoken

theorem attemptHistory_step (hreach : (system config).Reachable P s) {e : ScheduledEmail}
    (he : e ∈ s.database.emails) {c : Account}
    (h : AccountStep config s event (s.database.account e) c)
    (hinv : AttemptHistory (s.database.account e)) : AttemptHistory c := by
  have hledger := rowLedger_of_mem hreach e he
  have htokens : PrimaryKey SendAttempt.attemptToken (s.database.account e).attempts :=
    List.Nodup.sublist (List.filter_sublist.map _) (logInv_of_reachable hreach).tokens
  -- A claim under which something is recorded has this account.
  have howned : ∀ {i : Nat} {d : Sending}, (s.stageOf i).claim? = some d.claim →
      d.claim.id = e.id → OwnedBy d.claim (s.database.account e) := by
    intro i d hclaim hid
    obtain ⟨e', he', hown⟩ := ownedBy_of_reachable hreach i d.claim hclaim
    rw [(primaryKey_emails hreach).eq_of_key_eq he he' (hid.symm.trans hown.id.symm)]
    exact hown
  cases h with
  | keep => exact hinv
  | deferred _ _ _ hopen =>
      exact hinv.append hledger hopen rfl rfl rfl (by simp [deferRow])
  | claimed _ _ _ hopen _ _ =>
      exact hinv.append hledger hopen rfl rfl rfl (by simp [claimRow])
  | @accepted i input d receipt _ hstage hheld =>
      have hown := howned (i := i) (by rw [hstage]; rfl) (heldBy_iff.1 hheld).1.symm
      exact hinv.rewrite hledger (fun _ => rfl) (fun a ha => hown.latest_iff hledger htokens ha) rfl
        (fun _ => rfl) (by simp [acceptRow]) (by rw [status_of_heldBy hheld]; decide)
  | @failed i input x d error result _ _ hstage _ _ hheld =>
      have hown := howned (i := i) (by rw [hstage]; rfl) (heldBy_iff.1 hheld).1.symm
      exact hinv.rewrite hledger (fun _ => rfl) (fun a ha => hown.latest_iff hledger htokens ha) rfl
        (fun _ => result.allowsLatest) (fun _ _ => ⟨rfl, rfl⟩)
        (by rw [status_of_heldBy hheld]; decide)
  | @failedLate i input d error result _ hstage _ hid hfree =>
      -- The row is no longer held, so it is terminal.
      have hown := howned (i := i) (by rw [hstage]; rfl) hid
      have hterminal : e.status.isTerminal = true := by
        rcases hown.held with hheld | hterminal
        · rw [hfree] at hheld
          cases hheld
        · exact hterminal
      refine hinv.rewrite hledger (fun _ => rfl)
        (fun a ha => hown.latest_iff hledger htokens ha) rfl
        (fun _ => ?_) ?_ ?_
      · exact ScheduledEmailStatus.allowsLatest_of_isTerminal hterminal
          result.outcome_ne_rateLimited
      · intro hretry
        change e.status = .retryable at hretry
        rw [hretry] at hterminal
        cases hterminal
      · intro hscheduled
        change e.status = .scheduled at hscheduled
        rw [hscheduled] at hterminal
        cases hterminal
  | abandoned _ hstale =>
      have hprocessing : (s.database.account e).email.status = .processing :=
        (isStale_iff.1 hstale).1
      have hattempted := hinv.attempted (by rw [hprocessing]; decide)
      refine ⟨hinv.earlier, fun a ha hnumber => ?_, fun hretry => ?_, fun _ => hattempted⟩
      · have hclaimed := hinv.latest a ha hnumber
        rw [hprocessing] at hclaimed
        rw [show a.outcome = .claimed from of_decide_eq_true hclaimed]
        rfl
      · cases hretry

/-- **Nothing is attempted again after an attempt that may have been delivered.** In every state
reached, every attempt of an email but the latest was deferred by the limiter or failed transiently;
the latest attempt of a row that is not terminal is the one its status names; and a row has no
attempt if and only if it is `SCHEDULED`. -/
theorem attemptHistory_of_reachable (h : (system config).Reachable P s) :
    ∀ e ∈ s.database.emails, AttemptHistory (s.database.account e) ∧
      (e.status = .scheduled ↔ s.database.attemptsOf e.id = []) := by
  have hhistory : ∀ e ∈ s.database.emails, AttemptHistory (s.database.account e) := by
    apply account_invariant (I := AttemptHistory) h
    · intro input batchId newId e he
      obtain ⟨n, hn, rfl⟩ := List.mem_mapIdx.1 he
      exact ⟨by simp, by simp, by simp, by simp [emailRow]⟩
    · intro s event c hreach _ e he hchange hinv
      exact attemptHistory_step hreach he hchange hinv
  intro e he
  exact ⟨hhistory e he, (hhistory e he).scheduled_iff (rowLedger_of_mem h e he)⟩

theorem attemptHistory_after_failedThenAccepted : ∃ s,
    (system validConfig).run KeepsAcceptance failedThenAccepted oneSenderStart = some s ∧
      s.database.attempts.map SendAttempt.outcome = [.transientFailure, .smtpAccepted] ∧
      ∀ e ∈ s.database.emails, AttemptHistory (s.database.account e) := by
  have hhistory : ∀ s, (system validConfig).run KeepsAcceptance failedThenAccepted
      oneSenderStart = some s → ∀ e ∈ s.database.emails, AttemptHistory (s.database.account e) := by
    intro s hs e he
    exact (attemptHistory_of_reachable (reachable_from_oneSender failedThenAccepted hs) e he).1
  exact ⟨_, rfl, by decide, hhistory _ rfl⟩

end Delivery

end EmailScheduler
