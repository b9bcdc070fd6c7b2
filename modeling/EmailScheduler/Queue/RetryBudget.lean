import EmailScheduler.Queue.JobRun

/-!
# The retry budget

The processor decides by `finalRetry` whether a failed row may be retried, BullMQ by the same
counter whether the job is run again. Here the two are shown to agree: after a failure that was
recorded the row is `RETRYABLE` only if the job is run again, and `mailer.send` is called at most
once for each attempt of the job.

Two facts about the current execution carry the proof: which send states are possible in its stage
(`Stage.fits`), and what its stage says about the row (`rowFact`).
-/

set_option autoImplicit false

namespace EmailScheduler

open Foundation

/-- `FAILED` or `DELIVERY_UNKNOWN`. -/
def GivenUp (e : ScheduledEmail) : Prop := e.status = .failed ∨ e.status = .deliveryUnknown

/-- The claim holds the row, or the sweep has given the row up. -/
def HeldOrLost (claim : ClaimedEmail) (e : ScheduledEmail) : Prop :=
  heldBy claim e = true ∨ e.status = .deliveryUnknown

/-- The send states that are possible in a stage. -/
def Stage.fits (n : SendState) : Stage → Prop
  | .sending _ => n = .sent
  | .recordingAccepted _ _ => n = .sent
  | .recordingFailure _ _ => n = .sent ∨ n = .threw
  | .countingRemaining _ recorded => n = .sent ∨ n = .recorded ∧ recorded ≠ .accepted
  | .countingUnsuccessful _ recorded => n = .sent ∨ n = .recorded ∧ recorded ≠ .accepted
  | .labelling _ recorded _ => n = .sent ∨ n = .recorded ∧ recorded ≠ .accepted
  | .finished (.delayed _) => n = .unsent
  | .finished _ => True
  | .crashed => True
  | _ => n = .unsent

/-- What a stage says about the row: it is held from the claim until a failed send is recorded, and
then it is given up, or `RETRYABLE` with an outcome after which the job is run again. -/
def rowFact (job : Job) (n : SendState) : Stage → ScheduledEmail → Prop
  | .claimed _ claim _, e => HeldOrLost claim e
  | .sending d, e => HeldOrLost d.claim e
  | .recordingFailure d _, e => n = .threw → HeldOrLost d.claim e
  | .countingRemaining _ _, e => n = .recorded → GivenUp e
  | .countingUnsuccessful _ _, e => n = .recorded → GivenUp e
  | .labelling _ _ _, e => n = .recorded → GivenUp e
  | .finished outcome, e => n = .recorded →
      GivenUp e ∨ e.status = .retryable ∧ job.verdict outcome = .retried
  | _, _ => True

/-! ## Send states -/

section SendStates

variable {config : AppConfig} {job : Job} {input : StepInput} {w w' : World}
  {stage stage' : Stage} {n : SendState} {i : Nat}

/-- Every call of `mailer.send` is counted in the send state. -/
theorem count_next (hfits : stage.fits n) (event : DeliveryEvent) :
    n.count + stage.sendCalls event ≤ (n.next stage event).count := by
  have hle : ∀ m : SendState, m.count ≤ 1 := by
    intro m
    cases m <;> decide
  cases event with
  | advance i input =>
      cases stage with
      | claimed loaded claim now =>
          have hunsent : n = .unsent := hfits
          rw [hunsent]
          exact Nat.le_refl 1
      | recordingFailure d error =>
          simp only [SendState.next, Stage.sendCalls]
          split
          · exact hle n
          · exact Nat.le_refl _
      | _ => exact Nat.le_refl _
  | sendThrows i error => exact hle n
  | sendReturns i receipt =>
      simp only [SendState.next, Stage.sendCalls]
      split
      · exact hle n
      · exact Nat.le_refl _
  | _ => exact Nat.le_refl _

/-- An execution that goes on counting has committed its failure. -/
theorem commits_of_recorded {d d' : Sending} {error : ThrownValue} {recorded : Recorded}
    (h : advance config job input w (.recordingFailure d error) =
      some (.countingRemaining d' recorded, w')) : input.reply.commits = true := by
  cases hreply : input.reply with
  | done => rfl
  | lost e => rfl
  | refused e =>
      simp only [advance, hreply, Reply.deliver, afterFailure, Option.some.injEq,
        Prod.mk.injEq] at h
      exact Stage.noConfusion h.1

theorem fits_outcome (recorded : Recorded) : (Stage.finished recorded.outcome).fits n := by
  cases recorded <;> exact trivial

/-- **Send states follow the stages.** -/
theorem fits_of_advance (h : advance config job input w stage = some (stage', w'))
    (hfits : stage.fits n) : stage'.fits (n.next stage (.advance i input)) := by
  cases advanceCase_of_advance h with
  | threw _ => exact trivial
  | missing _ => exact trivial
  | skipped _ _ => exact trivial
  | notDue _ _ _ => exact hfits
  | due _ _ _ => exact hfits
  | delayed => exact hfits
  | delayLost => exact trivial
  | denied _ => exact hfits
  | admitted _ => exact hfits
  | deferred _ => exact hfits
  | unclaimed _ => exact trivial
  | claimed _ => exact hfits
  | sent => exact rfl
  | accepted _ => exact Or.inl hfits
  | notAccepted _ => exact Or.inl hfits
  | retried _ => exact trivial
  | failed _ _ =>
      rcases hfits with rfl | rfl
      · exact Or.inl rfl
      · refine Or.inr ⟨?_, Recorded.noConfusion⟩
        rw [SendState.next, if_pos ⟨rfl, commits_of_recorded h⟩]
  | unfinished => exact fits_outcome _
  | countedRemaining _ => exact hfits
  | countedUnsuccessful => exact hfits
  | labelled _ => exact fits_outcome _
  -- An error is caught only after an acceptance.
  | caughtRemaining => exact Or.inl (hfits.resolve_right fun h => h.2 rfl)
  | caughtUnsuccessful => exact Or.inl (hfits.resolve_right fun h => h.2 rfl)
  | caughtLabel _ => exact Or.inl (hfits.resolve_right fun h => h.2 rfl)

theorem fits_afterSend (d : Sending) (receipt : DeliveryReceipt) :
    (afterSend d receipt).fits (SendState.sent.next (.sending d) (.sendReturns i receipt)) := by
  simp only [afterSend, SendState.next]
  split
  · exact Or.inr rfl
  · exact rfl

end SendStates

/-! ## The row after a failed send -/

/-- A sweep can only give the row up, which every stage expects. -/
theorem rowFact_abandonRow {job : Job} {n : SendState} {stage : Stage} {e : ScheduledEmail}
    : rowFact job n stage (abandonRow e) := by
  have hlost : (abandonRow e).status = .deliveryUnknown := rfl
  cases stage with
  | claimed _ _ _ => exact Or.inr hlost
  | sending _ => exact Or.inr hlost
  | recordingFailure _ _ => exact fun _ => Or.inr hlost
  | countingRemaining _ _ => exact fun _ => Or.inr hlost
  | countingUnsuccessful _ _ => exact fun _ => Or.inr hlost
  | labelling _ _ _ => exact fun _ => Or.inr hlost
  | finished _ => exact fun _ => Or.inl (Or.inr hlost)
  | _ => exact trivial

/-- The status of a row after `recordFailure`, which may come too late. -/
theorem status_of_recordFailure {config : AppConfig} {db db' : Database} {claim : ClaimedEmail}
    {classification : DeliveryClassification} {finalRetry : Bool} {error : ThrownValue} {now : Int}
    {result : FailureResult}
    (h : recordFailure config db claim classification finalRetry error now = .ok (result, db'))
    {e : ScheduledEmail} (he : e ∈ db.emails) (hheld : HeldOrLost claim e) :
    ∃ e' ∈ db'.emails, e'.id = e.id ∧
      (e'.status = result.status ∨ e'.status = .deliveryUnknown) := by
  rw [(recordFailure_eq_ok h).2]
  refine ⟨_, mem_updateMany.2 ⟨e, he, rfl⟩, ?_⟩
  split
  next hmatch => exact ⟨rfl, Or.inl rfl⟩
  next hmatch => exact ⟨rfl, Or.inr (hheld.resolve_left hmatch)⟩

/-- **The two decisions agree**: a failure is recorded as retryable only while BullMQ reruns a job
that threw. -/
theorem failure_agrees {job : Job} {classification : DeliveryClassification} {e : ScheduledEmail}
    (h : e.status = (failureResult classification job.finalRetry).status ∨
      e.status = .deliveryUnknown) :
    GivenUp e ∨ e.status = .retryable ∧ job.afterThrow = .retried := by
  rcases h with h | h
  · cases hresult : failureResult classification job.finalRetry with
    | failed =>
        rw [hresult] at h
        exact Or.inl (Or.inl h)
    | unknown =>
        rw [hresult] at h
        exact Or.inl (Or.inr h)
    | retryable =>
        rw [hresult] at h
        have hretry := finalRetry_of_retryable hresult
        refine Or.inr ⟨h, ?_⟩
        simp only [Job.finalRetry, decide_eq_false_iff_not] at hretry
        exact Verdict.afterThrow_eq_retried_iff.2 (by unfold Job.maxAttempts; omega)
  · exact Or.inl (Or.inr h)

section RowFacts

variable {config : AppConfig} {job : Job} {input : StepInput} {w w' : World}
  {stage stage' : Stage} {n : SendState} {i : Nat} {emailId : Uuid}

/-- Nothing is said about the row while no failed send is recorded. -/
theorem rowFact_finished {outcome : Outcome} (hn : n ≠ .recorded) (e : ScheduledEmail) :
    rowFact job n (.finished outcome) e := fun h => absurd h hn

/-- An execution that has not claimed its row has recorded nothing. -/
theorem next_ne_recorded (hfits : stage.fits n) (hrunning : stage.isRunning = true)
    (hnone : stage.delivery? = none) : n.next stage (.advance i input) ≠ .recorded := by
  have hunsent : n = .unsent := by
    cases stage with
    | finished outcome => cases hrunning
    | crashed => cases hrunning
    | _ => first | exact hfits | cases hnone
  subst hunsent
  cases stage with
  | claimed loaded claim now => cases hnone
  | recordingFailure d error => cases hnone
  | _ => exact SendState.noConfusion

/-- A row that was just claimed is held. -/
theorem rowHas_of_claimEmail {db db' : Database} {now : Int} {token : Uuid} {claim : ClaimedEmail}
    (hok : claimEmail db emailId now token = .ok (some claim, db')) :
    db'.RowHas emailId fun e => heldBy claim e = true := by
  obtain ⟨row, hrow, hmatch, rfl, -, rfl⟩ := claimEmail_eq_ok_some hok
  refine ⟨claimRow token now row, mem_updateMany.2 ⟨row, hrow, if_pos hmatch⟩, ?_, ?_⟩
  · exact (claimable_iff.1 hmatch).1
  · exact heldBy_iff.2 ⟨rfl, rfl, rfl⟩

theorem world_of_countingRemaining {d : Sending} {recorded : Recorded}
    (h : advance config job input w (.countingRemaining d recorded) = some (stage', w')) :
    w' = w := by
  cases h
  rfl

theorem world_of_countingUnsuccessful {d : Sending} {recorded : Recorded}
    (h : advance config job input w (.countingUnsuccessful d recorded) = some (stage', w')) :
    w' = w := by
  cases h
  rfl

theorem database_of_committed {d : Sending} {error : ThrownValue} {result : FailureResult}
    {db : Database}
    (h : advance config job input w (.recordingFailure d error) = some (stage', w'))
    (hcommits : input.reply.commits = true)
    (hok : recordFailure config w.database d.claim (classifyDeliveryError error) job.finalRetry
      error input.now = .ok (result, db)) : w'.database = db := by
  cases h
  rw [hok]
  exact Reply.deliver_of_commits hcommits w.database result db

theorem emails_of_labelling {d : Sending} {recorded : Recorded} {unsuccessful : Nat}
    (h : advance config job input w (.labelling d recorded unsuccessful) = some (stage', w')) :
    w'.database.emails = w.database.emails := by
  cases h
  apply Reply.deliver_snd _ _ _ (R := fun db => db.emails = w.database.emails) rfl
  intro value db hok
  rw [labelBatch_eq_ok hok]

/-- A committed `recordFailure` leaves what BullMQ expects, also when its reply is lost. -/
theorem rowHas_of_committed {d : Sending} {error : ThrownValue} {result : FailureResult}
    {db : Database}
    (hrow : w.database.RowHas emailId (HeldOrLost d.claim))
    (hok : recordFailure config w.database d.claim (classifyDeliveryError error) job.finalRetry
      error input.now = .ok (result, db)) :
    db.RowHas emailId fun e => GivenUp e ∨ e.status = .retryable ∧ result = .retryable ∧
      job.afterThrow = .retried := by
  obtain ⟨e, he, hid, hheld⟩ := hrow
  obtain ⟨e', he', hid', hstatus⟩ := status_of_recordFailure hok he hheld
  refine ⟨e', he', hid'.trans hid, ?_⟩
  have hresult := (recordFailure_eq_ok hok).1
  rw [hresult] at hstatus
  rcases failure_agrees hstatus with hgiven | ⟨hretryable, hverdict⟩
  · exact Or.inl hgiven
  · refine Or.inr ⟨hretryable, ?_, hverdict⟩
    rw [hretryable, ← hresult] at hstatus
    cases hcase : result with
    | retryable => rfl
    | failed => rw [hcase] at hstatus; rcases hstatus with h | h <;> cases h
    | unknown => rw [hcase] at hstatus; rcases hstatus with h | h <;> cases h

/-- **The row follows the stages.** -/
theorem rowFact_of_advance (h : advance config job input w stage = some (stage', w'))
    (hloaded : ∀ loaded, stage.loaded? = some loaded → loaded.email.id = emailId)
    (hcommit : ∀ d error, stage = .recordingFailure d error → ∃ result db,
      recordFailure config w.database d.claim (classifyDeliveryError error) job.finalRetry error
        input.now = .ok (result, db))
    (hfits : stage.fits n) (hrow : w.database.RowHas emailId (rowFact job n stage)) :
    w'.database.RowHas emailId (rowFact job (n.next stage (.advance i input)) stage') := by
  -- Where nothing is said about the row, it is enough that rows are never removed.
  have hany : ∀ {q : ScheduledEmail → Prop}, (∀ e, q e) → w'.database.RowHas emailId q := by
    intro q hq
    obtain ⟨e, he, hid, -⟩ := hrow
    obtain ⟨f, new, hrows⟩ := emailsStep_of_databaseStep (databaseStep_of_advance h)
    exact ⟨f e, hrows.mem_map he, (hrows.rows e he).id_eq.trans hid, hq _⟩
  have hquiet : ∀ {outcome : Outcome} {m : SendState}, m ≠ .recorded →
      w'.database.RowHas emailId (rowFact job m (.finished outcome)) := by
    intro outcome m hm
    exact hany (rowFact_finished hm)
  cases advanceCase_of_advance h with
  | threw hthrew =>
      cases stage with
      | recordingFailure d error =>
          rcases hfits with rfl | rfl
          · exact hquiet SendState.noConfusion
          · cases hcommits : input.reply.commits with
            | false =>
                rw [SendState.next, if_neg (by rw [hcommits]; simp)]
                exact hquiet SendState.noConfusion
            | true =>
                obtain ⟨result, db, hok⟩ := hcommit d error rfl
                rw [database_of_committed hthrew hcommits hok]
                refine (rowHas_of_committed (hrow.mono fun e h => h rfl) hok).mono ?_
                intro e hfact _
                exact hfact.imp_right fun h => ⟨h.1, h.2.2⟩
      | countingRemaining d recorded =>
          rw [world_of_countingRemaining hthrew]
          exact hrow.mono fun e hfact hn => Or.inl (hfact hn)
      | countingUnsuccessful d recorded =>
          rw [world_of_countingUnsuccessful hthrew]
          exact hrow.mono fun e hfact hn => Or.inl (hfact hn)
      | labelling d recorded unsuccessful =>
          refine (hrow.of_emails_eq (emails_of_labelling hthrew)).mono ?_
          exact fun e hfact hn => Or.inl (hfact hn)
      | recordingAccepted d receipt =>
          have hsent : n = .sent := hfits
          subst hsent
          exact hquiet SendState.noConfusion
      | sending d => cases hthrew
      | finished outcome => cases hthrew
      | crashed => cases hthrew
      | claimed loaded claim now => cases hthrew
      | _ => exact hquiet (next_ne_recorded hfits rfl rfl)
  | missing _ => exact hquiet (next_ne_recorded hfits rfl rfl)
  | skipped _ _ => exact hquiet (next_ne_recorded hfits rfl rfl)
  | delayed => exact hquiet (next_ne_recorded hfits rfl rfl)
  | delayLost => exact hquiet (next_ne_recorded hfits rfl rfl)
  | unclaimed _ => exact hquiet (next_ne_recorded hfits rfl rfl)
  | notDue _ _ _ => exact hany fun _ => trivial
  | due _ _ _ => exact hany fun _ => trivial
  | denied _ => exact hany fun _ => trivial
  | admitted _ => exact hany fun _ => trivial
  | deferred _ => exact hany fun _ => trivial
  | claimed hok =>
      obtain ⟨e, he, hid, hheld⟩ := rowHas_of_claimEmail hok
      exact ⟨e, he, hid.trans (hloaded _ rfl), Or.inl hheld⟩
  | sent => exact hrow
  | accepted _ =>
      have hsent : n = .sent := hfits
      subst hsent
      exact hany fun _ h => SendState.noConfusion h
  | notAccepted _ =>
      have hsent : n = .sent := hfits
      subst hsent
      exact hany fun _ h => SendState.noConfusion h
  | retried hok =>
      rcases hfits with rfl | rfl
      · exact hquiet SendState.noConfusion
      · refine (rowHas_of_committed (hrow.mono fun e h => h rfl) hok).mono ?_
        intro e hfact _
        exact hfact.imp_right fun h => ⟨h.1, h.2.2⟩
  | failed hok hretry =>
      rcases hfits with rfl | rfl
      · exact hany fun _ h => SendState.noConfusion h
      · refine (rowHas_of_committed (hrow.mono fun e h => h rfl) hok).mono ?_
        intro e hfact _
        exact hfact.resolve_right fun h => hretry h.2.1
  | unfinished => exact hrow.mono fun e hfact hn => Or.inl (hfact hn)
  | countedRemaining _ => exact hrow
  | countedUnsuccessful => exact hrow
  | labelled _ =>
      refine (hrow.of_emails_eq (emails_of_labelling h)).mono ?_
      exact fun e hfact hn => Or.inl (hfact hn)
  | caughtRemaining =>
      have hsent : n = .sent := hfits.resolve_right fun h => h.2 rfl
      subst hsent
      exact hany fun _ h => SendState.noConfusion h
  | caughtUnsuccessful =>
      have hsent : n = .sent := hfits.resolve_right fun h => h.2 rfl
      subst hsent
      exact hany fun _ h => SendState.noConfusion h
  | caughtLabel _ =>
      have hsent : n = .sent := hfits.resolve_right fun h => h.2 rfl
      subst hsent
      exact hany fun _ h => SendState.noConfusion h

end RowFacts

/-! ## Runs of the job -/

namespace JobRun

variable {config : AppConfig} {P : JobRun → JobEvent → Prop} {s t : JobRun} {event : JobEvent}

/-- What holds while an execution runs the job. -/
structure ActiveInv (s : JobRun) (stage : Stage) : Prop where
  sends : s.sends ≤ s.job.attemptsMade + s.sendState.count
  fits : stage.fits s.sendState
  row : s.delivery.database.RowHas s.emailId (rowFact s.job s.sendState stage)

/-- **The budget invariant.** Every earlier attempt has called `mailer.send` at most once, the
current one at most as often as its send state counts. -/
structure RetryInv (s : JobRun) : Prop where
  left : s.phase ≠ .ended → s.job.attemptsMade < s.job.maxAttempts
  idle : s.phase = .idle → s.sends ≤ s.job.attemptsMade
  active : ∀ i, s.phase = .active i → ActiveInv s (s.delivery.stageOf i)
  ended : s.phase = .ended → s.sends ≤ s.job.maxAttempts ∧
    (s.sendState = .recorded → s.delivery.database.RowHas s.emailId GivenUp)

theorem retryInv_init (h : (system config).init s) : RetryInv s := by
  obtain ⟨-, -, -, hattempts, hmade, hphase, hsends, -⟩ := h
  constructor
  · intro _
    omega
  · intro _
    omega
  · intro i hactive
    rw [hphase] at hactive
    cases hactive
  · intro hended
    rw [hphase] at hended
    cases hended

/-- A failure of the job's execution can be recorded: its attempt is in the log. -/
theorem Locked.recordFailure_isOk (hlocked : Locked config s) {i : Nat} {d : Sending}
    {error : ThrownValue} (hstage : s.delivery.stageOf i = .recordingFailure d error)
    (finalRetry : Bool) (now : Int) : ∃ result db,
      recordFailure config s.delivery.database d.claim (classifyDeliveryError error) finalRetry
        error now = .ok (result, db) := by
  apply EmailScheduler.recordFailure_isOk
  obtain ⟨a, ha, htoken, -⟩ := (Delivery.logInv_of_reachable hlocked.reachable).claims i
    (d.loaded, d.claim) (by rw [hstage]; rfl)
  exact List.any_eq_true.2 ⟨a, ha, decide_eq_true htoken⟩

theorem after_of_owns {event : DeliveryEvent} {d : Delivery} {i : Nat}
    (hphase : s.phase = .active i) (howns : s.owns event = true) :
    (s.after event d).sendState = s.sendState.next (s.delivery.stageOf i) event ∧
      (s.after event d).sends = s.sends + (s.delivery.stageOf i).sendCalls event := by
  simp only [after, howns, if_true, stage_of_active hphase, and_self]

theorem after_of_other {event : DeliveryEvent} {d : Delivery} (howns : s.owns event = false) :
    (s.after event d).sendState = s.sendState ∧ (s.after event d).sends = s.sends := by
  simp [after, howns]

/-- Without an execution the job has no event of its own. -/
theorem owns_eq_false (event : DeliveryEvent) (hnone : ∀ i, s.phase ≠ .active i) :
    s.owns event = false := by
  unfold owns
  split
  next i hphase => exact absurd hphase (hnone i)
  next => rfl

/-- An event of the job's execution. -/
theorem activeInv_own (hlocked : Locked config s) {i : Nat} (hphase : s.phase = .active i)
    (hinv : ActiveInv s (s.delivery.stageOf i)) {event : DeliveryEvent} {d : Delivery}
    (howns : s.owns event = true) (hallows : s.allows event = true)
    (h : (Delivery.system config).step event s.delivery = some d) :
    ActiveInv (s.after event d) (d.stageOf i) := by
  obtain ⟨hstate, hsends⟩ := after_of_owns (d := d) hphase howns
  refine ⟨?_, ?_, ?_⟩
  · have hcount := count_next hinv.fits event
    have hle := hinv.sends
    rw [hstate, hsends]
    show _ ≤ s.job.attemptsMade + _
    omega
  · rw [hstate]
    have hfits := hinv.fits
    cases hlocked.ownStep hphase howns hallows h with
    | advanced hadvance => exact fits_of_advance hadvance hfits
    | returned hstage heq _ =>
        rw [hstage] at hfits ⊢
        have hsent : s.sendState = .sent := hfits
        rw [heq, hsent]
        exact fits_afterSend _ _
    | threw hstage heq _ =>
        rw [heq]
        exact Or.inr rfl
  · rw [hstate]
    have hrow := hinv.row
    have hfits := hinv.fits
    show d.database.RowHas s.emailId _
    cases hlocked.ownStep hphase howns hallows h with
    | advanced hadvance =>
        refine rowFact_of_advance hadvance ?_ ?_ hfits hrow
        · intro loaded hloaded
          exact Delivery.loaded_id_eq hlocked.reachable (hlocked.own i hphase).1 hloaded
        · intro failing error hstage
          exact hlocked.recordFailure_isOk hstage _ _
    | @returned sending receipt hstage heq hdb =>
        rw [hstage] at hrow ⊢
        rw [heq, hdb]
        -- The row is held as before; a receipt without recipients is a failed send.
        unfold afterSend
        split
        · exact hrow.mono fun e hheld _ => hheld
        · exact hrow.mono fun _ _ => trivial
    | threw hstage heq hdb =>
        rw [hstage] at hrow
        rw [heq, hdb]
        exact hrow.mono fun e hheld _ => hheld

/-- An event of another party. -/
theorem activeInv_other (hlocked : Locked config s) {i : Nat} (hphase : s.phase = .active i)
    (hinv : ActiveInv s (s.delivery.stageOf i)) {event : DeliveryEvent} {d : Delivery}
    (howns : s.owns event = false)
    (h : (Delivery.system config).step event s.delivery = some d) :
    ActiveInv (s.after event d) (d.stageOf i) := by
  obtain ⟨hstate, hsends⟩ := after_of_other (d := d) howns
  rw [stageOf_of_other hphase hlocked howns h]
  refine ⟨?_, ?_, ?_⟩
  · rw [hstate, hsends]
    exact hinv.sends
  · rw [hstate]
    exact hinv.fits
  · rw [hstate]
    refine hlocked.rowHas_of_other howns h hinv.row ?_
    intro now e _ _ _ _ _
    exact rowFact_abandonRow

theorem retryInv_world (hlocked : Locked config s) (hinv : RetryInv s) {event : DeliveryEvent}
    {d : Delivery} (hallows : s.allows event = true)
    (h : (Delivery.system config).step event s.delivery = some d) :
    RetryInv (s.after event d) := by
  refine ⟨hinv.left, ?_, ?_, ?_⟩
  · intro hidle
    have howns := owns_eq_false event fun i hactive => by
      rw [show s.phase = .idle from hidle] at hactive
      cases hactive
    rw [(after_of_other howns).2]
    exact hinv.idle hidle
  · intro i hactive
    cases howns : s.owns event with
    | true => exact activeInv_own hlocked hactive (hinv.active i hactive) howns hallows h
    | false => exact activeInv_other hlocked hactive (hinv.active i hactive) howns h
  · intro hended
    have howns := owns_eq_false event fun i hactive => by
      rw [show s.phase = .ended from hended] at hactive
      cases hactive
    obtain ⟨hsends, hrow⟩ := hinv.ended hended
    obtain ⟨hstate, hsame⟩ := after_of_other (d := d) howns
    rw [hstate, hsame]
    refine ⟨hsends, fun hrecorded => ?_⟩
    refine hlocked.rowHas_of_other howns h (hrow hrecorded) ?_
    intro now e _ _ _ _ _
    exact Or.inr rfl

theorem retryInv_start (hinv : RetryInv s) (hphase : s.phase = .idle)
    (hrow : ∃ e ∈ s.delivery.database.emails, e.id = s.emailId) {d : Delivery}
    (h : (Delivery.system config).step (.deliver s.job) s.delivery = some d) :
    RetryInv { s with
      delivery := d
      phase := .active s.delivery.executions.length
      sendState := .unsent } := by
  constructor
  · intro _
    exact hinv.left (by rw [hphase]; exact JobPhase.noConfusion)
  · intro hidle
    cases hidle
  · intro i hactive
    cases hactive
    show ActiveInv _ (d.stageOf s.delivery.executions.length)
    rw [(start_own h).2]
    obtain ⟨e, he, hid⟩ := Delivery.exists_email_of_step h hrow
    exact ⟨hinv.idle hphase, rfl, e, he, hid, trivial⟩
  · intro hended
    cases hended

/-- After a deferral nothing was sent. -/
theorem unsent_of_delayed {job : Job} {outcome : Outcome} {n : SendState}
    (hverdict : job.verdict outcome = .delayed) (hfits : (Stage.finished outcome).fits n) :
    n = .unsent := by
  cases outcome with
  | delayed availableAt => exact hfits
  | returned => cases hverdict
  | unrecoverable message => cases hverdict
  | _ => exact absurd hverdict (Verdict.afterThrow_ne_delayed _ _)

/-- A job is run again only while attempts remain. -/
theorem lt_of_retried {job : Job} {outcome : Outcome} (hverdict : job.verdict outcome = .retried) :
    job.attemptsMade + 1 < job.maxAttempts := by
  cases outcome with
  | returned => cases hverdict
  | unrecoverable message => cases hverdict
  | delayed availableAt => cases hverdict
  | _ => exact Verdict.afterThrow_eq_retried_iff.1 hverdict

theorem retryInv_settle (hinv : RetryInv s) {i : Nat} {outcome : Outcome}
    (hphase : s.phase = .active i) (hstage : s.delivery.stageOf i = .finished outcome) :
    RetryInv (s.settle (s.job.verdict outcome)) := by
  have hleft := hinv.left (by rw [hphase]; exact JobPhase.noConfusion)
  have hactive := hinv.active i hphase
  rw [hstage] at hactive
  have hsends := hactive.sends
  have hcount : s.sendState.count ≤ 1 := by cases s.sendState <;> decide
  -- A job that is not run again leaves no retryable row.
  have hended : s.job.verdict outcome ≠ .retried →
      s.sends ≤ s.job.maxAttempts ∧
        (s.sendState = .recorded → s.delivery.database.RowHas s.emailId GivenUp) := by
    intro hverdict
    refine ⟨by omega, fun hrecorded => hactive.row.mono fun e hfact => ?_⟩
    exact (hfact hrecorded).resolve_right fun h => hverdict h.2
  cases hverdict : s.job.verdict outcome with
  | completed =>
      refine ⟨fun hne => absurd rfl hne, ?_, ?_, fun _ => hended (by rw [hverdict]; simp)⟩
      · intro hidle
        cases hidle
      · intro j hj
        cases hj
  | failed =>
      refine ⟨fun hne => absurd rfl hne, ?_, ?_, fun _ => hended (by rw [hverdict]; simp)⟩
      · intro hidle
        cases hidle
      · intro j hj
        cases hj
  | delayed =>
      have hunsent := unsent_of_delayed hverdict hactive.fits
      rw [hunsent] at hsends
      refine ⟨fun _ => hleft, fun _ => hsends, ?_, ?_⟩
      · intro j hj
        cases hj
      · intro h
        cases h
  | retried =>
      refine ⟨fun _ => lt_of_retried hverdict, fun _ => ?_, ?_, ?_⟩
      · show s.sends ≤ s.job.attemptsMade + 1
        omega
      · intro j hj
        cases hj
      · intro h
        cases h

theorem retryInv_step (hlocked : Locked config s) (hinv : RetryInv s)
    (h : (system config).step event s = some t) : RetryInv t := by
  cases stepCase_of_step h with
  | start hphase hd => exact retryInv_start hinv hphase hlocked.row hd
  | world hallows hd => exact retryInv_world hlocked hinv hallows hd
  | settle hphase hstage => exact retryInv_settle hinv hphase hstage

theorem retryInv_of_reachable (h : (system config).Reachable P s) :
    Locked config s ∧ RetryInv s := by
  apply h.invariant (I := fun s => Locked config s ∧ RetryInv s)
  · intro s hs
    exact ⟨locked_init hs, retryInv_init hs⟩
  · intro s event t _ hstep hinv
    exact ⟨locked_step hinv.1 hstep, retryInv_step hinv.1 hinv.2 hstep⟩

end JobRun

end EmailScheduler
