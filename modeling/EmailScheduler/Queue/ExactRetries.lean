import EmailScheduler.Queue.RetryBudget
import EmailScheduler.Delivery.RowLedger

/-!
# Exactly as many sends as attempts

A job whose sends all fail transiently, with no error of the database or of Redis, calls
`mailer.send` once in every attempt and ends with its row `FAILED`, however often it is deferred.
`exactRow` says what each stage of such an execution knows about the row.

The lock of the job is not enough for this: a reconcile pass that finds the claimed row past its
processing lease gives the row up, and then the job ends early. The runs below are those without
such a pass.
-/

set_option autoImplicit false

namespace EmailScheduler

open Foundation

/-! ## Operations that succeed -/

/-- The transaction of a stage can commit. -/
def Stage.CanCommit (config : AppConfig) (job : Job) (input : StepInput) (db : Database) :
    Stage → Prop
  | .recordingRateLimit loaded nextAvailableAt now => ∃ db',
      recordRateLimit db loaded.email.id nextAvailableAt now input.token = .ok ((), db')
  | .claiming loaded now => ∃ claim db',
      claimEmail db loaded.email.id now input.token = .ok (claim, db')
  | .recordingFailure d error => ∃ result db',
      recordFailure config db d.claim (classifyDeliveryError error) job.finalRetry error input.now =
        .ok (result, db')
  | .labelling d _ unsuccessful => ∃ db', labelBatch db d.claim.batchId unsuccessful = .ok ((), db')
  | _ => True

/-- The calls of `mailer.send` in the current attempt, up to a stage. -/
def Stage.sent : Stage → Nat
  | .sending _ => 1
  | .recordingAccepted _ _ => 1
  | .recordingFailure _ _ => 1
  | .countingRemaining _ _ => 1
  | .countingUnsuccessful _ _ => 1
  | .labelling _ _ _ => 1
  | .finished (.failed _) => 1
  | .finished (.unrecoverable _) => 1
  | _ => 0

/-- How far a stage is from the end of the execution. -/
def Stage.rank : Stage → Nat
  | .loading => 10
  | .reserving _ _ => 9
  | .recordingRateLimit _ _ _ => 8
  | .delaying _ => 7
  | .claiming _ _ => 8
  | .claimed _ _ _ => 7
  | .sending _ => 6
  | .recordingAccepted _ _ => 5
  | .recordingFailure _ _ => 5
  | .countingRemaining _ _ => 4
  | .countingUnsuccessful _ _ => 3
  | .labelling _ _ _ => 2
  | .finished _ => 1
  | .crashed => 0

/-- The row in a stage of an execution without errors whose send fails transiently. -/
def exactRow (job : Job) : Stage → ScheduledEmail → Prop
  | .claimed _ claim _, e => heldBy claim e = true
  | .sending d, e => heldBy d.claim e = true
  | .recordingFailure d error, e =>
      heldBy d.claim e = true ∧ classifyDeliveryError error = .transient
  | .countingRemaining _ recorded, e =>
      recorded = .failed .failed ∧ job.finalRetry = true ∧ e.status = .failed
  | .countingUnsuccessful _ recorded, e =>
      recorded = .failed .failed ∧ job.finalRetry = true ∧ e.status = .failed
  | .labelling _ recorded _, e =>
      recorded = .failed .failed ∧ job.finalRetry = true ∧ e.status = .failed
  | .finished (.failed _), e => job.finalRetry = false ∧ e.status = .retryable
  | .finished (.unrecoverable _), e => job.finalRetry = true ∧ e.status = .failed
  | .finished (.delayed _), e => e.status.isOpen = true
  | .recordingAccepted _ _, _ => False
  | .finished _, _ => False
  | .crashed, _ => False
  | _, e => e.status.isOpen = true

section Advance

variable {config : AppConfig} {job : Job} {input : StepInput} {w w' : World}
  {stage stage' : Stage} {emailId : Uuid} {i : Nat}

/-- An operation that is answered and can commit does not throw. -/
theorem ne_threw_of_done (hreply : input.reply = .done)
    (hcommit : stage.CanCommit config job input w.database)
    (h : advance config job input w stage = some (stage', w')) (e : InfrastructureError) :
    stage' ≠ .finished (.threw e) := by
  -- One case for each operation: with its answer at hand, the next stage is no throw.
  cases stage with
  | loading =>
      cases h
      rw [hreply]
      show afterLoad input.now (.ok _) ≠ _
      cases w.database.findScheduledEmail job.scheduledEmailId with
      | none => simp [afterLoad]
      | some loaded =>
          simp only [afterLoad]
          split_ifs <;> simp
  | delaying availableAt =>
      cases h
      rw [hreply]
      simp [afterDelay]
  | reserving loaded now =>
      cases h
      rw [hreply]
      simp only [Reply.deliver, afterReserve]
      split_ifs <;> simp
  | recordingRateLimit loaded nextAvailableAt now =>
      obtain ⟨db, hok⟩ := hcommit
      cases h
      rw [hreply, hok]
      simp [Reply.deliver, afterRateLimit]
  | claiming loaded now =>
      obtain ⟨claim, db, hok⟩ := hcommit
      cases h
      rw [hreply, hok]
      cases claim <;> simp [Reply.deliver, afterClaim]
  | recordingFailure d error =>
      obtain ⟨result, db, hok⟩ := hcommit
      cases h
      rw [hreply, hok]
      simp only [Reply.deliver, afterFailure]
      split_ifs <;> simp
  | labelling d recorded unsuccessful =>
      obtain ⟨db, hok⟩ := hcommit
      cases h
      rw [hreply, hok]
      cases recorded <;> simp [Reply.deliver, afterLabel, Recorded.outcome]
  | recordingAccepted d receipt =>
      cases h
      cases (input.reply.deliver w.database
        (recordAccepted w.database d.claim receipt input.now)).1 <;> simp [afterAccepted]
  | countingRemaining d recorded =>
      cases h
      rw [hreply]
      simp only [Reply.read, afterRemaining]
      split_ifs <;> cases recorded <;> simp [Recorded.outcome]
  | countingUnsuccessful d recorded =>
      cases h
      rw [hreply]
      simp [Reply.read, afterUnsuccessful]
  | claimed loaded claim now =>
      cases h
      simp
  | sending d => cases h
  | finished outcome => cases h
  | crashed => cases h

/-- A deferral leaves an open row open. -/
theorem rowHas_of_recordRateLimit {db db' : Database} {id token : Uuid} {nextAvailableAt now : Int}
    (hrow : db.RowHas emailId fun e => e.status.isOpen = true)
    (hok : recordRateLimit db id nextAvailableAt now token = .ok ((), db')) :
    db'.RowHas emailId fun e => e.status.isOpen = true := by
  rcases recordRateLimit_eq_ok hok with rfl | ⟨row, -, -, -, rfl⟩
  · exact hrow
  · obtain ⟨e, he, hid, hopen⟩ := hrow
    refine ⟨_, mem_updateMany.2 ⟨e, he, rfl⟩, ?_, ?_⟩
    · split
      · exact hid
      · exact hid
    · split
      · rfl
      · exact hopen

/-- A failure recorded in time gives the row its status. -/
theorem rowHas_of_recordFailure {db db' : Database} {claim : ClaimedEmail}
    {classification : DeliveryClassification} {finalRetry : Bool} {error : ThrownValue} {now : Int}
    {result : FailureResult} (hrow : db.RowHas emailId fun e => heldBy claim e = true)
    (hok : recordFailure config db claim classification finalRetry error now = .ok (result, db')) :
    db'.RowHas emailId fun e => e.status = result.status := by
  obtain ⟨e, he, hid, hheld⟩ := hrow
  rw [(recordFailure_eq_ok hok).2]
  exact ⟨_, mem_updateMany.2 ⟨e, he, if_pos hheld⟩, hid, rfl⟩

/-- A transient failure is recorded as `RETRYABLE` or, on the last attempt, as `FAILED`. -/
theorem failureResult_transient (finalRetry : Bool) :
    failureResult .transient finalRetry = if finalRetry then .failed else .retryable := by
  cases finalRetry <;> rfl

/-- **One step of an execution without errors.** -/
theorem exactRow_of_advance (hreply : input.reply = .done)
    (hcommit : stage.CanCommit config job input w.database)
    (h : advance config job input w stage = some (stage', w'))
    (hkey : PrimaryKey ScheduledEmail.id w.database.emails)
    (hvalid : ∀ e ∈ w.database.emails, RowValid e)
    (hfind : (w.database.findScheduledEmail job.scheduledEmailId).isSome)
    (hloaded : ∀ loaded, stage.loaded? = some loaded → loaded.email.id = job.scheduledEmailId)
    (hrow : w.database.RowHas job.scheduledEmailId (exactRow job stage)) :
    w'.database.RowHas job.scheduledEmailId (exactRow job stage') := by
  have hnothrow := ne_threw_of_done hreply hcommit h
  cases advanceCase_of_advance h with
  | @threw _ e _ _ => exact absurd rfl (hnothrow e)
  | missing hnone =>
      rw [hnone] at hfind
      cases hfind
  | skipped hsome hclosed =>
      -- The row found is the row of the job, which is open.
      obtain ⟨hmem, hid, -⟩ := Database.findScheduledEmail_eq_some _ hsome
      obtain ⟨e, he, heid, hopen⟩ := hrow
      rw [hkey.eq_of_key_eq hmem he (hid.trans heid.symm)] at hclosed
      change e.status.isOpen = true at hopen
      rw [hclosed] at hopen
      cases hopen
  | notDue _ _ _ => exact hrow
  | due _ _ _ => exact hrow
  | delayed => exact hrow
  | delayLost =>
      simp [advance, hreply, afterDelay] at h
  | denied _ => exact hrow
  | admitted _ => exact hrow
  | deferred hok => exact rowHas_of_recordRateLimit hrow hok
  | unclaimed hok =>
      rw [hloaded _ rfl] at hok
      obtain ⟨e, he, heid, hopen⟩ := hrow
      have hclosed := closed_of_not_claimed hvalid ⟨e, he, heid⟩ hok
      have hunchanged := (claimEmail_eq_ok_none hok).1
      rw [hunchanged] at hclosed
      change e.status.isOpen = true at hopen
      rw [hclosed.isOpen_eq_false hkey he heid] at hopen
      cases hopen
  | claimed hok =>
      rw [hloaded _ rfl] at hok
      exact rowHas_of_claimEmail hok
  | sent => exact hrow
  | accepted _ =>
      obtain ⟨e, -, -, hfalse⟩ := hrow
      exact hfalse.elim
  | notAccepted _ =>
      obtain ⟨e, -, -, hfalse⟩ := hrow
      exact hfalse.elim
  | retried hok =>
      have hretry := finalRetry_of_retryable (recordFailure_eq_ok hok).1.symm
      refine (rowHas_of_recordFailure (hrow.mono fun e he => he.1) hok).mono ?_
      exact fun e hstatus => ⟨hretry, hstatus⟩
  | @failed d error result db hok hretry =>
      obtain ⟨e, -, -, -, htransient⟩ := id hrow
      have hresult := (recordFailure_eq_ok hok).1
      rw [htransient, failureResult_transient] at hresult
      cases hfinal : job.finalRetry with
      | false =>
          rw [hfinal] at hresult
          exact absurd hresult hretry
      | true =>
          rw [hfinal] at hresult
          subst hresult
          refine (rowHas_of_recordFailure (hrow.mono fun e he => he.1) hok).mono ?_
          exact fun e hstatus => ⟨rfl, hfinal, hstatus⟩
  | unfinished =>
      refine hrow.mono ?_
      rintro e ⟨rfl, hfact⟩
      exact hfact
  | countedRemaining _ => exact hrow
  | countedUnsuccessful => exact hrow
  | labelled _ =>
      refine (hrow.of_emails_eq (emails_of_labelling h)).mono ?_
      rintro e ⟨rfl, hfact⟩
      exact hfact
  -- Nothing is caught, because nothing was accepted.
  | caughtRemaining =>
      obtain ⟨e, -, -, hrecorded, -⟩ := hrow
      cases hrecorded
  | caughtUnsuccessful =>
      obtain ⟨e, -, -, hrecorded, -⟩ := hrow
      cases hrecorded
  | caughtLabel _ =>
      obtain ⟨e, -, -, hrecorded, -⟩ := hrow
      cases hrecorded

/-- `mailer.send` is called between `claimed` and `sending`. -/
theorem sent_of_advance (hreply : input.reply = .done)
    (hcommit : stage.CanCommit config job input w.database)
    (h : advance config job input w stage = some (stage', w'))
    (hrow : w.database.RowHas emailId (exactRow job stage)) :
    stage'.sent = stage.sent + stage.sendCalls (.advance i input) := by
  have hnothrow := ne_threw_of_done hreply hcommit h
  have hfinished : ∀ {recorded : Recorded}, recorded = .failed .failed →
      (Stage.finished recorded.outcome).sent = 1 := by
    rintro recorded rfl
    rfl
  cases advanceCase_of_advance h with
  | @threw _ e _ _ => exact absurd rfl (hnothrow e)
  | unfinished =>
      obtain ⟨e, -, -, hrecorded, -⟩ := hrow
      exact hfinished hrecorded
  | labelled _ =>
      obtain ⟨e, -, -, hrecorded, -⟩ := hrow
      exact hfinished hrecorded
  | _ => rfl

/-- An execution without errors goes forward. -/
theorem rank_of_advance (h : advance config job input w stage = some (stage', w'))
    (hrow : w.database.RowHas emailId (exactRow job stage)) : stage'.rank < stage.rank := by
  cases advanceCase_of_advance h with
  | threw hthrew =>
      cases stage with
      | sending d => cases hthrew
      | finished outcome => cases hthrew
      | crashed => cases hthrew
      | _ => simp [Stage.rank]
  | notAccepted _ =>
      obtain ⟨e, -, -, hfalse⟩ := hrow
      exact hfalse.elim
  | caughtRemaining =>
      obtain ⟨e, -, -, hrecorded, -⟩ := hrow
      cases hrecorded
  | caughtUnsuccessful =>
      obtain ⟨e, -, -, hrecorded, -⟩ := hrow
      cases hrecorded
  | caughtLabel _ =>
      obtain ⟨e, -, -, hrecorded, -⟩ := hrow
      cases hrecorded
  | _ => simp [Stage.rank]

end Advance

/-! ## Runs without errors -/

namespace JobRun

/-- Every send of the job fails transiently, and the operations of its execution are answered and
draw fresh tokens. -/
def TransientOnly (s : JobRun) : JobEvent → Prop
  | .world (.advance i input) => s.phase ≠ .active i ∨
      input.reply = .done ∧ ∀ a ∈ s.delivery.database.attempts, a.attemptToken ≠ input.token
  | .world (.sendReturns i _) => s.phase ≠ .active i
  | .world (.sendThrows i error) =>
      s.phase ≠ .active i ∨ classifyDeliveryError error = .transient
  | _ => True

/-- No reconcile pass finds the row of the job past its processing lease. -/
def KeepsLease (config : AppConfig) (s : JobRun) : JobEvent → Prop
  | .world (.sweep now) => ∀ e ∈ s.delivery.database.emails,
      e.id ≠ s.emailId ∨ isStale config now e = false
  | _ => True

/-- The steps of the runs considered here. -/
def Undisturbed (config : AppConfig) (s : JobRun) (event : JobEvent) : Prop :=
  TransientOnly s event ∧ KeepsLease config s event

instance (s : JobRun) (event : JobEvent) : Decidable (TransientOnly s event) :=
  match event with
  | .world (.advance i input) => inferInstanceAs (Decidable (s.phase ≠ .active i ∨
      input.reply = .done ∧ ∀ a ∈ s.delivery.database.attempts, a.attemptToken ≠ input.token))
  | .world (.sendReturns i _) => inferInstanceAs (Decidable (s.phase ≠ .active i))
  | .world (.sendThrows i error) => inferInstanceAs (Decidable
      (s.phase ≠ .active i ∨ classifyDeliveryError error = .transient))
  | .world (.sweep _) => .isTrue trivial
  | .world (.deliver _) => .isTrue trivial
  | .world (.smtpAccepts _) => .isTrue trivial
  | .world (.crash _) => .isTrue trivial
  | .world (.createBatch _ _ _) => .isTrue trivial
  | .world (.updateSender _) => .isTrue trivial
  | .world (.seed _ _ _ _) => .isTrue trivial
  | .world (.tick _) => .isTrue trivial
  | .start => .isTrue trivial
  | .settle => .isTrue trivial

instance (config : AppConfig) (s : JobRun) (event : JobEvent) :
    Decidable (KeepsLease config s event) :=
  match event with
  | .world (.sweep now) => inferInstanceAs (Decidable (∀ e ∈ s.delivery.database.emails,
      e.id ≠ s.emailId ∨ isStale config now e = false))
  | .world (.advance _ _) => .isTrue trivial
  | .world (.sendReturns _ _) => .isTrue trivial
  | .world (.sendThrows _ _) => .isTrue trivial
  | .world (.deliver _) => .isTrue trivial
  | .world (.smtpAccepts _) => .isTrue trivial
  | .world (.crash _) => .isTrue trivial
  | .world (.createBatch _ _ _) => .isTrue trivial
  | .world (.updateSender _) => .isTrue trivial
  | .world (.seed _ _ _ _) => .isTrue trivial
  | .world (.tick _) => .isTrue trivial
  | .start => .isTrue trivial
  | .settle => .isTrue trivial

instance (config : AppConfig) (s : JobRun) (event : JobEvent) :
    Decidable (Undisturbed config s event) :=
  inferInstanceAs (Decidable (TransientOnly s event ∧ KeepsLease config s event))

variable {config : AppConfig} {P : JobRun → JobEvent → Prop} {s t : JobRun} {event : JobEvent}

/-- The row of the job is open. -/
def OpenRow (s : JobRun) : Prop :=
  s.delivery.database.RowHas s.emailId fun e => e.status.isOpen = true

/-- The row of the job is `FAILED`. -/
def FailedRow (s : JobRun) : Prop :=
  s.delivery.database.RowHas s.emailId fun e => e.status = .failed

/-- **The exact count.** Every earlier attempt has called `mailer.send` once. -/
structure ExactInv (s : JobRun) : Prop where
  idle : s.phase = .idle → s.sends = s.job.attemptsMade ∧ s.OpenRow
  active : ∀ i, s.phase = .active i →
    s.sends = s.job.attemptsMade + (s.delivery.stageOf i).sent ∧
      s.delivery.database.RowHas s.emailId (exactRow s.job (s.delivery.stageOf i))
  ended : s.phase = .ended → s.sends = s.job.maxAttempts ∧ s.FailedRow

theorem exactInv_init (h : (system config).init s) (hopen : s.OpenRow) : ExactInv s := by
  obtain ⟨-, -, -, -, hmade, hphase, hsends, -⟩ := h
  constructor
  · intro _
    exact ⟨hsends.trans hmade.symm, hopen⟩
  · intro i hactive
    rw [hphase] at hactive
    cases hactive
  · intro hended
    rw [hphase] at hended
    cases hended

/-- Every transaction of the job's execution can commit. -/
theorem Locked.canCommit (hlocked : Locked config s) {i : Nat} {input : StepInput}
    (hfresh : ∀ a ∈ s.delivery.database.attempts, a.attemptToken ≠ input.token) :
    (s.delivery.stageOf i).CanCommit config s.job input s.delivery.database := by
  have hreach := hlocked.reachable
  cases hstage : s.delivery.stageOf i with
  | recordingRateLimit loaded nextAvailableAt now =>
      exact Delivery.recordRateLimit_isOk hreach hfresh _ _ _
  | claiming loaded now => exact Delivery.claimEmail_isOk hreach hfresh _ _
  | recordingFailure d error => exact hlocked.recordFailure_isOk hstage _ _
  | labelling d recorded unsuccessful =>
      obtain ⟨b, hb, hid⟩ := (Delivery.batchInv_of_reachable hreach).batch_of_claim (i := i)
        (p := (d.loaded, d.claim)) (by rw [hstage]; rfl)
      refine ⟨_, if_pos ?_⟩
      exact List.any_eq_true.2 ⟨b, hb, decide_eq_true hid⟩
  | _ => exact trivial

theorem exactInv_own (hlocked : Locked config s) (hinv : ExactInv s) {i : Nat}
    (hphase : s.phase = .active i) {event : DeliveryEvent} {d : Delivery}
    (hexact : TransientOnly s (.world event)) (howns : s.owns event = true)
    (hallows : s.allows event = true)
    (h : (Delivery.system config).step event s.delivery = some d) :
    (s.after event d).sends = s.job.attemptsMade + (d.stageOf i).sent ∧
      d.database.RowHas s.emailId (exactRow s.job (d.stageOf i)) := by
  obtain ⟨hsends, hrow⟩ := hinv.active i hphase
  rw [(after_of_owns (d := d) hphase howns).2, hsends]
  have hreach := hlocked.reachable
  cases hlocked.ownStep hphase howns hallows h with
  | @advanced input hadvance =>
      -- The operation is answered, and its token is new.
      have hcond : s.phase ≠ .active i ∨ input.reply = .done ∧
        ∀ a ∈ s.delivery.database.attempts, a.attemptToken ≠ input.token := hexact
      obtain ⟨hreply, hfresh⟩ := hcond.resolve_left fun hne => hne hphase
      have hcommit := hlocked.canCommit (i := i) hfresh
      constructor
      · rw [sent_of_advance (i := i) hreply hcommit hadvance hrow]
        omega
      · apply exactRow_of_advance hreply hcommit hadvance (Delivery.primaryKey_emails hreach)
          (Delivery.rowValid_of_reachable hreach)
          (Delivery.findScheduledEmail_isSome hreach hlocked.row) ?_ hrow
        intro loaded hloaded
        exact Delivery.loaded_id_eq hreach (hlocked.own i hphase).1 hloaded
  | returned => exact absurd hphase hexact
  | @threw sending error hstage heq hdb =>
      -- The send is refused for a reason that can pass.
      have hcond : s.phase ≠ .active i ∨ classifyDeliveryError error = .transient := hexact
      have htransient := hcond.resolve_left fun hne => hne hphase
      rw [hstage] at hrow ⊢
      rw [heq, hdb]
      refine ⟨rfl, hrow.mono fun e hheld => ⟨hheld, htransient⟩⟩

/-- An event of another party keeps what is said about the row, as it cannot give the row up. -/
theorem rowHas_of_keepsLease (hlocked : Locked config s) {event : DeliveryEvent} {d : Delivery}
    (hlease : KeepsLease config s (.world event)) (howns : s.owns event = false)
    (h : (Delivery.system config).step event s.delivery = some d) {p : ScheduledEmail → Prop}
    (hrow : s.delivery.database.RowHas s.emailId p) : d.database.RowHas s.emailId p := by
  apply hlocked.rowHas_of_other howns h hrow
  intro now e hevent he hid hstale _
  subst hevent
  rcases hlease e he with hne | hfresh
  · exact absurd hid hne
  · rw [hfresh] at hstale
    cases hstale

theorem exactInv_world (hlocked : Locked config s) (hinv : ExactInv s) {event : DeliveryEvent}
    {d : Delivery} (hexact : Undisturbed config s (.world event))
    (hallows : s.allows event = true)
    (h : (Delivery.system config).step event s.delivery = some d) :
    ExactInv (s.after event d) := by
  refine ⟨?_, ?_, ?_⟩
  · intro hidle
    have howns := owns_eq_false event fun i hactive => by
      rw [show s.phase = .idle from hidle] at hactive
      cases hactive
    obtain ⟨hsends, hrow⟩ := hinv.idle hidle
    rw [(after_of_other howns).2]
    exact ⟨hsends, rowHas_of_keepsLease hlocked hexact.2 howns h hrow⟩
  · intro i hactive
    change s.phase = .active i at hactive
    cases howns : s.owns event with
    | true => exact exactInv_own hlocked hinv hactive hexact.1 howns hallows h
    | false =>
        obtain ⟨hsends, hrow⟩ := hinv.active i hactive
        rw [(after_of_other howns).2]
        show s.sends = s.job.attemptsMade + (d.stageOf i).sent ∧
          d.database.RowHas s.emailId (exactRow s.job (d.stageOf i))
        rw [stageOf_of_other hactive hlocked howns h]
        exact ⟨hsends, rowHas_of_keepsLease hlocked hexact.2 howns h hrow⟩
  · intro hended
    have howns := owns_eq_false event fun i hactive => by
      rw [show s.phase = .ended from hended] at hactive
      cases hactive
    obtain ⟨hsends, hrow⟩ := hinv.ended hended
    rw [(after_of_other howns).2]
    exact ⟨hsends, rowHas_of_keepsLease hlocked hexact.2 howns h hrow⟩

theorem exactInv_start (hinv : ExactInv s) (hphase : s.phase = .idle)
    {d : Delivery} (h : (Delivery.system config).step (.deliver s.job) s.delivery = some d) :
    ExactInv { s with
      delivery := d
      phase := .active s.delivery.executions.length
      sendState := .unsent } := by
  obtain ⟨hsends, hrow⟩ := hinv.idle hphase
  constructor
  · intro hidle
    cases hidle
  · intro i hactive
    cases hactive
    show s.sends = s.job.attemptsMade + (d.stageOf s.delivery.executions.length).sent ∧
      d.database.RowHas s.emailId (exactRow s.job (d.stageOf s.delivery.executions.length))
    rw [(start_own h).2]
    cases h
    exact ⟨hsends, hrow⟩
  · intro hended
    cases hended

/-- The processor's last retry is BullMQ's last attempt. -/
theorem maxAttempts_of_finalRetry (hleft : s.job.attemptsMade < s.job.maxAttempts)
    (hfinal : s.job.finalRetry = true) : s.job.attemptsMade + 1 = s.job.maxAttempts := by
  have hge := of_decide_eq_true hfinal
  unfold Job.maxAttempts at hleft ⊢
  omega

theorem exactInv_settle (hretry : RetryInv s) (hinv : ExactInv s) {i : Nat} {outcome : Outcome}
    (hphase : s.phase = .active i) (hstage : s.delivery.stageOf i = .finished outcome) :
    ExactInv (s.settle (s.job.verdict outcome)) := by
  have hleft := hretry.left (by rw [hphase]; exact JobPhase.noConfusion)
  obtain ⟨hsends, hrow⟩ := hinv.active i hphase
  rw [hstage] at hsends hrow
  have hfalse : ∀ {p : ScheduledEmail → Prop}, s.delivery.database.RowHas s.emailId p →
      (∀ e, ¬ p e) → False := by
    rintro p ⟨e, -, -, hp⟩ hnot
    exact hnot e hp
  cases outcome with
  | delayed availableAt =>
      refine ⟨fun _ => ⟨hsends, hrow⟩, ?_, ?_⟩
      · intro j hj
        cases hj
      · intro h
        cases h
  | failed message =>
      -- The row is retryable and the job is run again, both because this was not the last retry.
      obtain ⟨e, he, hid, hfinal, hstatus⟩ := hrow
      have hverdict : s.job.verdict (.failed message) = .retried := by
        refine Verdict.afterThrow_eq_retried_iff.2 ?_
        have hlt := of_decide_eq_false hfinal
        unfold Job.maxAttempts
        omega
      rw [hverdict]
      have hopen : e.status.isOpen = true := by
        rw [hstatus]
        rfl
      refine ⟨fun _ => ⟨hsends, e, he, hid, hopen⟩, ?_, ?_⟩
      · intro j hj
        cases hj
      · intro h
        cases h
  | unrecoverable message =>
      obtain ⟨e, he, hid, hfinal, hstatus⟩ := hrow
      refine ⟨?_, ?_, fun _ => ⟨?_, e, he, hid, hstatus⟩⟩
      · intro h
        cases h
      · intro j hj
        cases hj
      · exact hsends.trans (maxAttempts_of_finalRetry hleft hfinal)
  | returned => exact (hfalse hrow fun _ => not_false).elim
  | delayLost availableAt e => exact (hfalse hrow fun _ => not_false).elim
  | threw e => exact (hfalse hrow fun _ => not_false).elim

theorem exactInv_step (hlocked : Locked config s) (hretry : RetryInv s) (hinv : ExactInv s)
    (hexact : Undisturbed config s event) (h : (system config).step event s = some t) :
    ExactInv t := by
  cases stepCase_of_step h with
  | start hphase hd => exact exactInv_start hinv hphase hd
  | world hallows hd => exact exactInv_world hlocked hinv hexact hallows hd
  | settle hphase hstage => exact exactInv_settle hretry hinv hphase hstage

/-! ## The end of the job -/

/-- The job is not stuck: it can be started or settled, its execution can perform its next operation
whatever the reply, or waits for `mailer.send`. -/
def CanProceed (config : AppConfig) (s : JobRun) : Prop :=
  match s.phase with
  | .idle => (step config .start s).isSome
  | .active i => match s.delivery.stageOf i with
      | .sending _ => True
      | .finished _ => (step config .settle s).isSome
      | _ => ∀ input, (step config (.world (.advance i input)) s).isSome
  | .ended => True

theorem canProceed (hlocked : Locked config s) : s.CanProceed config := by
  unfold CanProceed
  split
  next hphase => simp [step, hphase, Delivery.step]
  next i hphase =>
    obtain ⟨x, hx, hstage⟩ := Delivery.exists_of_stageOf_ne_crashed (hlocked.own i hphase).2
    split
    next => trivial
    next outcome hfinished => simp [step, hphase, hfinished]
    next hsending hfinished =>
      intro input
      have hadvance : (advance config x.job input s.delivery.world x.stage).isSome := by
        rw [hstage]
        cases hcase : s.delivery.stageOf i with
        | sending d => exact absurd hcase (hsending d)
        | finished outcome => exact absurd hcase (hfinished outcome)
        | crashed => exact absurd hcase (hlocked.own i hphase).2
        | _ => rfl
      simp [step, allows, Delivery.step, hx, hadvance]
  next => trivial

/-- An upper bound on the steps that the job still takes itself if it is not deferred again. -/
def rank (s : JobRun) : Nat :=
  12 * (s.job.maxAttempts - s.job.attemptsMade) +
    match s.phase with
    | .idle => 11
    | .active i => (s.delivery.stageOf i).rank
    | .ended => 0

/-- The job takes this step itself. -/
def drives (s : JobRun) : JobEvent → Bool
  | .world event => s.owns event
  | _ => true

/-- BullMQ settles the job as deferred. -/
def defers (s : JobRun) : JobEvent → Bool
  | .settle => match s.stage with
      | .finished (.delayed _) => true
      | _ => false
  | _ => false

theorem rank_settle (hleft : s.job.attemptsMade < s.job.maxAttempts) {i : Nat} {outcome : Outcome}
    (hphase : s.phase = .active i) (hstage : s.delivery.stageOf i = .finished outcome)
    (hne : s.job.verdict outcome ≠ .delayed) :
    (s.settle (s.job.verdict outcome)).rank < s.rank := by
  have hrank : s.rank = 12 * (s.job.maxAttempts - s.job.attemptsMade) + 1 := by
    simp [rank, hphase, hstage, Stage.rank]
  rw [hrank]
  cases hverdict : s.job.verdict outcome with
  | delayed => exact absurd hverdict hne
  | completed => simp [settle, rank]
  | failed => simp [settle, rank]
  | retried =>
      have hmax : ({ s.job with attemptsMade := s.job.attemptsMade + 1 } : Job).maxAttempts =
          s.job.maxAttempts := rfl
      simp only [settle, rank, hmax]
      omega

/-- **Only deferrals prolong the job.** -/
theorem rank_lt_of_step (hlocked : Locked config s) (hretry : RetryInv s) (hinv : ExactInv s)
    (hexact : Undisturbed config s event) (h : (system config).step event s = some t)
    (hdrives : s.drives event = true) : t.rank < s.rank ∨ s.defers event = true := by
  cases stepCase_of_step h with
  | @start d hphase hd =>
      left
      have hloading := (start_own hd).2
      simp only [rank, hphase, hloading, Stage.rank]
      omega
  | @world event d hallows hd =>
      left
      obtain ⟨i, hphase⟩ : ∃ i, s.phase = .active i := by
        cases hcase : s.phase with
        | active i => exact ⟨i, rfl⟩
        | idle =>
            rw [drives, owns, hcase] at hdrives
            cases hdrives
        | ended =>
            rw [drives, owns, hcase] at hdrives
            cases hdrives
      have hlt : (d.stageOf i).rank < (s.delivery.stageOf i).rank := by
        cases hlocked.ownStep hphase hdrives hallows hd with
        | advanced hadvance => exact rank_of_advance hadvance (hinv.active i hphase).2
        | returned => exact absurd hphase hexact.1
        | threw hstage heq _ =>
            rw [hstage, heq]
            simp [Stage.rank]
      have hphase' : (s.after event d).phase = .active i := hphase
      simp only [rank, hphase, hphase']
      exact Nat.add_lt_add_left hlt _
  | @settle i outcome hphase hstage =>
      -- A deferral gives the job another run without using up an attempt.
      by_cases hdelayed : s.job.verdict outcome = .delayed
      · right
        have hown := (stage_of_active hphase).trans hstage
        cases outcome with
        | delayed availableAt => simp [defers, hown]
        | returned => cases hdelayed
        | unrecoverable message => cases hdelayed
        | _ => exact absurd hdelayed (Verdict.afterThrow_ne_delayed _ _)
      · left
        exact rank_settle (hretry.left (by rw [hphase]; exact JobPhase.noConfusion)) hphase hstage
          hdelayed

/-! ## The budget -/

/-- BullMQ will run the job again: it is queued, or will be when the execution that has ended is
settled. -/
def reruns (s : JobRun) : Bool :=
  match s.phase with
  | .idle => true
  | .active _ => match s.stage with
      | .finished outcome =>
          decide (s.job.verdict outcome = .retried) || decide (s.job.verdict outcome = .delayed)
      | _ => false
  | .ended => false

/-- Row and queue agree after a failed send was recorded, and the budget is kept. -/
structure RetriesAgree (s : JobRun) : Prop where
  budget : s.sends ≤ s.job.maxAttempts
  retryable : s.sendState = .recorded → ∀ e ∈ s.delivery.database.emails, e.id = s.emailId →
    e.status = .retryable → s.reruns = true
  givenUp : s.sendState = .recorded → s.reruns = false →
    ∀ e ∈ s.delivery.database.emails, e.id = s.emailId → GivenUp e

/-- Once the job has ended it has called `mailer.send` in every attempt and its row is `FAILED`;
until then it can go on, and only deferrals keep it from ending. -/
structure ExactRetries (config : AppConfig) (s : JobRun) : Prop where
  ended : s.phase = .ended → s.sends = s.job.maxAttempts ∧ s.FailedRow
  proceeds : s.CanProceed config
  progress : ∀ event t, Undisturbed config s event → (system config).step event s = some t →
    s.drives event = true → t.rank < s.rank ∨ s.defers event = true

/-- What is known of the row once a failed send was recorded. -/
theorem rowHas_of_recorded (hlocked : Locked config s) (hinv : RetryInv s)
    (hrecorded : s.sendState = .recorded) : s.phase = .idle ∨
      s.delivery.database.RowHas s.emailId fun e =>
        GivenUp e ∨ e.status = .retryable ∧ s.reruns = true := by
  cases hphase : s.phase with
  | idle => exact Or.inl rfl
  | ended =>
      right
      exact ((hinv.ended hphase).2 hrecorded).mono fun e hgiven => Or.inl hgiven
  | active i =>
      right
      have hactive := hinv.active i hphase
      have hfits := hactive.fits
      have hrow := hactive.row
      rw [hrecorded] at hfits hrow
      cases hcase : s.delivery.stageOf i with
      | finished outcome =>
          rw [hcase] at hrow
          refine hrow.mono fun e hfact => (hfact rfl).imp_right fun h => ⟨h.1, ?_⟩
          simp [reruns, hphase, (stage_of_active hphase).trans hcase, h.2]
      | countingRemaining d recorded =>
          rw [hcase] at hrow
          exact hrow.mono fun e hfact => Or.inl (hfact rfl)
      | countingUnsuccessful d recorded =>
          rw [hcase] at hrow
          exact hrow.mono fun e hfact => Or.inl (hfact rfl)
      | labelling d recorded unsuccessful =>
          rw [hcase] at hrow
          exact hrow.mono fun e hfact => Or.inl (hfact rfl)
      | crashed => exact absurd hcase (hlocked.own i hphase).2
      -- In the other stages no failure has been recorded.
      | recordingFailure d error =>
          rw [hcase] at hfits
          rcases hfits with h | h <;> cases h
      | _ =>
          rw [hcase] at hfits
          cases hfits

theorem retriesAgree_of_inv (hlocked : Locked config s) (hinv : RetryInv s) : RetriesAgree s := by
  have hkey := Delivery.primaryKey_emails hlocked.reachable
  constructor
  · cases hphase : s.phase with
    | idle =>
        have hle := hinv.idle hphase
        have hleft := hinv.left (by rw [hphase]; exact JobPhase.noConfusion)
        omega
    | active i =>
        have hle := (hinv.active i hphase).sends
        have hleft := hinv.left (by rw [hphase]; exact JobPhase.noConfusion)
        have hcount : s.sendState.count ≤ 1 := by cases s.sendState <;> decide
        omega
    | ended => exact (hinv.ended hphase).1
  · -- A row that waits for a retry has a job that runs again.
    intro hrecorded e he hid hretryable
    rcases rowHas_of_recorded hlocked hinv hrecorded with hidle | ⟨row, hrow, hrowid, hfact⟩
    · simp [reruns, hidle]
    · rw [hkey.eq_of_key_eq hrow he (hrowid.trans hid.symm)] at hfact
      rcases hfact with (hfailed | hunknown) | ⟨-, hreruns⟩
      · rw [hretryable] at hfailed
        cases hfailed
      · rw [hretryable] at hunknown
        cases hunknown
      · exact hreruns
  · -- A job that does not run again leaves its row failed or unknown.
    intro hrecorded hreruns e he hid
    rcases rowHas_of_recorded hlocked hinv hrecorded with hidle | ⟨row, hrow, hrowid, hfact⟩
    · simp [reruns, hidle] at hreruns
    · rw [hkey.eq_of_key_eq hrow he (hrowid.trans hid.symm)] at hfact
      refine hfact.resolve_right fun h => ?_
      rw [hreruns] at h
      cases h.2

theorem exactInv_of_steps {s₀ : JobRun} (hinit : (system config).init s₀) (hopen : s₀.OpenRow)
    (h : (system config).Steps (Undisturbed config) s₀ s) :
    Locked config s ∧ RetryInv s ∧ ExactInv s := by
  apply h.invariant (I := fun s => Locked config s ∧ RetryInv s ∧ ExactInv s)
  · exact ⟨locked_init hinit, retryInv_init hinit, exactInv_init hinit hopen⟩
  · intro s event t hexact hstep hinv
    obtain ⟨hlocked, hretry, hinv⟩ := hinv
    exact ⟨locked_step hlocked hstep, retryInv_step hlocked hretry hstep,
      exactInv_step hlocked hretry hinv hexact hstep⟩

/-- **The retry budget.** In every run of a job that keeps its lock, row and queue agree on every
recorded failure and `mailer.send` is called at most once for each attempt. If the row was open and
every send fails transiently, without errors and without a reconcile pass past the lease, it is
called exactly once for each attempt, and the row ends `FAILED`. -/
theorem retryBudget_of_runs (config : AppConfig) :
    (∀ s, (system config).Reachable TransitionSystem.anyStep s → RetriesAgree s) ∧
      ∀ s₀ s, (system config).init s₀ → s₀.OpenRow →
        (system config).Steps (Undisturbed config) s₀ s → ExactRetries config s := by
  constructor
  · intro s h
    obtain ⟨hlocked, hinv⟩ := retryInv_of_reachable h
    exact retriesAgree_of_inv hlocked hinv
  · intro s₀ s hinit hopen h
    obtain ⟨hlocked, hretry, hinv⟩ := exactInv_of_steps hinit hopen h
    constructor
    · exact hinv.ended
    · exact canProceed hlocked
    · intro event t hexact hstep hdrives
      exact rank_lt_of_step hlocked hretry hinv hexact hstep hdrives

/-- A batch of two emails; the second one is due at 1000. -/
def twoEmails : List DeliveryEvent :=
  [.createBatch (Delivery.requestFor ["a@test.invalid", "b@test.invalid"]) 10 fun i => 100 + i]

def scheduledBatch : Delivery :=
  ((Delivery.system validConfig).run TransitionSystem.anyStep twoEmails
    Delivery.oneSenderStart).getD Delivery.oneSenderStart

/-- A new job for the second email. -/
def newJob (attempts : Nat) : JobRun := ⟨scheduledBatch, ⟨101, 0, some attempts⟩, .idle, 0, .unsent⟩

theorem newJob_init {attempts : Nat} (h : 1 ≤ attempts) :
    (system validConfig).init (newJob attempts) := by
  have hrun : (Delivery.system validConfig).run TransitionSystem.anyStep twoEmails
      Delivery.oneSenderStart = some scheduledBatch := rfl
  refine ⟨?_, ?_, ?_, h, rfl, rfl, rfl, rfl⟩
  · exact Delivery.reachable_from_oneSender twoEmails hrun
  · show ∃ e ∈ scheduledBatch.database.emails, e.id = 101
    decide
  · intro j job hjob
    cases hjob

theorem newJob_openRow (attempts : Nat) : (newJob attempts).OpenRow := by
  show ∃ e ∈ scheduledBatch.database.emails, e.id = 101 ∧ e.status.isOpen = true
  decide

/-- The events of an attempt whose send fails transiently. -/
def failingAttempt (i : Nat) (now : Int) (token : Uuid) : List JobEvent :=
  [.start, .world (.advance i ⟨now, 0, .done⟩), .world (.advance i ⟨now, 0, .done⟩),
    .world (.advance i ⟨now, token, .done⟩), .world (.advance i ⟨now, 0, .done⟩),
    .world (.sendThrows i (.object (.string "ECONNECTION") .other)),
    .world (.advance i ⟨now, 0, .done⟩)]

/-- A job with two attempts: it is deferred once, because it runs early, and then fails twice. -/
def deferredThenFailed : List JobEvent :=
  [.start, .world (.advance 0 ⟨500, 0, .done⟩), .world (.advance 0 ⟨500, 0, .done⟩), .settle] ++
    failingAttempt 1 1000 70 ++ [.settle] ++ failingAttempt 2 100000 71 ++
    [.world (.advance 2 ⟨100000, 0, .done⟩), .settle]

theorem retryBudget_after_deferredThenFailed : ∃ s,
    (system validConfig).run (Undisturbed validConfig) deferredThenFailed (newJob 2) = some s ∧
      s.phase = .ended ∧ s.sends = 2 ∧ RetriesAgree s ∧ ExactRetries validConfig s := by
  have hagree : ∀ s, (system validConfig).run (Undisturbed validConfig) deferredThenFailed
      (newJob 2) = some s → RetriesAgree s := by
    intro s hs
    exact (retryBudget_of_runs validConfig).1 s ⟨newJob 2, newJob_init (by decide),
      (TransitionSystem.steps_of_run deferredThenFailed hs).mono fun _ _ _ => trivial⟩
  have hexact : ∀ s, (system validConfig).run (Undisturbed validConfig) deferredThenFailed
      (newJob 2) = some s → ExactRetries validConfig s := by
    intro s hs
    exact (retryBudget_of_runs validConfig).2 (newJob 2) s (newJob_init (by decide))
      (newJob_openRow 2) (TransitionSystem.steps_of_run deferredThenFailed hs)
  exact ⟨_, rfl, rfl, by decide, hagree _ rfl, hexact _ rfl⟩

/-- A job with three attempts whose first send takes longer than the lease: a reconcile pass gives
the row up, and the second execution finds it terminal. -/
def sweptWhileSending : List JobEvent :=
  [.start, .world (.advance 0 ⟨1000, 0, .done⟩), .world (.advance 0 ⟨1000, 0, .done⟩),
    .world (.advance 0 ⟨1000, 70, .done⟩), .world (.advance 0 ⟨1000, 0, .done⟩),
    .world (.sweep 100000),
    .world (.sendThrows 0 (.object (.string "ECONNECTION") .other)),
    .world (.advance 0 ⟨100001, 0, .done⟩), .settle,
    .start, .world (.advance 1 ⟨110000, 0, .done⟩), .settle]

theorem not_exactRetries_after_sweptWhileSending : ∃ s₀ s, (system validConfig).init s₀ ∧
    s₀.OpenRow ∧ (system validConfig).Steps TransientOnly s₀ s ∧ s.phase = .ended ∧
      s.job.maxAttempts = 3 ∧ s.sends = 1 ∧ ¬ s.FailedRow := by
  have hsteps : ∀ s, (system validConfig).run TransientOnly sweptWhileSending (newJob 3) = some s →
      (system validConfig).Steps TransientOnly (newJob 3) s := by
    intro s hs
    exact TransitionSystem.steps_of_run sweptWhileSending hs
  refine ⟨newJob 3, _, newJob_init (by decide), newJob_openRow 3, hsteps _ rfl, rfl, rfl, rfl, ?_⟩
  unfold FailedRow Database.RowHas
  decide

end JobRun

end EmailScheduler
