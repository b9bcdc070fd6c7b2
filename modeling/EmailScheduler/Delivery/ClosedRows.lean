import EmailScheduler.Delivery.Executions

/-!
# Closed rows

A row is *closed* when its status is not open: nothing will claim or defer it. A row is reopened in
one place only, by a `recordFailure` that records a transient failure (`closed_of_step`). An
execution that has claimed its row finds it closed until then, and so does one that ends without
asking for another run (`closed_of_advance`).
-/

set_option autoImplicit false

namespace EmailScheduler

open Foundation

/-- The row with an id is there and not open. -/
def Closed (db : Database) (id : Uuid) : Prop :=
  ∃ e ∈ db.emails, e.id = id ∧ e.status.isOpen = false

section Transactions

variable {config : AppConfig} {db db' : Database} {id : Uuid}

theorem Closed.isOpen_eq_false (hkey : PrimaryKey ScheduledEmail.id db.emails) (h : Closed db id)
    {e : ScheduledEmail} (he : e ∈ db.emails) (hid : e.id = id) : e.status.isOpen = false := by
  obtain ⟨row, hrow, hrowid, hclosed⟩ := h
  rw [hkey.eq_of_key_eq he hrow (hid.trans hrowid.symm)]
  exact hclosed

theorem Closed.of_emails_eq (h : Closed db id) (hemails : db'.emails = db.emails) :
    Closed db' id := by
  obtain ⟨e, he, hid, hclosed⟩ := h
  exact ⟨e, by rw [hemails]; exact he, hid, hclosed⟩

/-- An update keeps a row closed if what it does to closed rows does. -/
theorem Closed.of_update {p : ScheduledEmail → Bool} {f : ScheduledEmail → ScheduledEmail}
    (h : Closed db id) (hemails : db'.emails = updateMany p f db.emails)
    (hkeep : ∀ r, (f r).id = r.id)
    (hf : ∀ r, r.id = id → p r = true → r.status.isOpen = false → (f r).status.isOpen = false) :
    Closed db' id := by
  obtain ⟨e, he, hid, hclosed⟩ := h
  refine ⟨if p e then f e else e, ?_, ?_, ?_⟩
  · rw [hemails]
    exact mem_updateMany.2 ⟨e, he, rfl⟩
  · split
    · exact (hkeep e).trans hid
    · exact hid
  · split
    next hp => exact hf e hid hp hclosed
    next => exact hclosed

theorem Closed.recordRateLimit {emailId : Uuid} {nextAvailableAt now : Int} {token : Uuid}
    (h : Closed db id)
    (hok : EmailScheduler.recordRateLimit db emailId nextAvailableAt now token = .ok ((), db')) :
    Closed db' id := by
  rcases recordRateLimit_eq_ok hok with rfl | ⟨row, -, -, -, rfl⟩
  · exact h
  · refine h.of_update (f := deferRow nextAvailableAt) rfl (fun _ => rfl) ?_
    -- Only open rows are deferred.
    intro r _ hp hclosed
    rw [(deferrable_iff.1 hp).2] at hclosed
    cases hclosed

theorem Closed.claimEmail {emailId : Uuid} {now : Int} {token : Uuid}
    {claim : Option ClaimedEmail} (h : Closed db id)
    (hok : EmailScheduler.claimEmail db emailId now token = .ok (claim, db')) : Closed db' id := by
  cases claim with
  | none =>
      rw [(claimEmail_eq_ok_none hok).1]
      exact h
  | some claim =>
      obtain ⟨row, -, -, -, -, rfl⟩ := claimEmail_eq_ok_some hok
      refine h.of_update (f := claimRow token now) rfl (fun _ => rfl) ?_
      intro r _ _ _
      rfl

theorem Closed.recordAccepted {claim : ClaimedEmail} {receipt : DeliveryReceipt} {now : Int}
    (h : Closed db id)
    (hok : EmailScheduler.recordAccepted db claim receipt now = .ok ((), db')) :
    Closed db' id := by
  refine h.of_update (f := acceptRow receipt now)
    (congrArg Database.emails (recordAccepted_eq_ok hok).2) (fun _ => rfl) ?_
  intro r _ _ _
  rfl

/-- A recorded failure keeps a row closed, unless it is a transient failure of this row. -/
theorem Closed.recordFailure {claim : ClaimedEmail} {classification : DeliveryClassification}
    {finalRetry : Bool} {error : ThrownValue} {now : Int} {result : FailureResult}
    (h : Closed db id)
    (hok : EmailScheduler.recordFailure config db claim classification finalRetry error now =
      .ok (result, db'))
    (hcase : result ≠ .retryable ∨ claim.id ≠ id) : Closed db' id := by
  refine h.of_update (f := failRow config result (safeError classification error) now)
    (congrArg Database.emails (recordFailure_eq_ok hok).2) (fun _ => rfl) ?_
  intro r hid hp _
  rcases hcase with hresult | hne
  · cases result with
    | retryable => exact absurd rfl hresult
    | failed => rfl
    | unknown => rfl
  · exact absurd ((heldBy_iff.1 hp).1.symm.trans hid) hne

theorem Closed.labelBatch {batchId : Uuid} {unsuccessful : Nat} (h : Closed db id)
    (hok : EmailScheduler.labelBatch db batchId unsuccessful = .ok ((), db')) : Closed db' id := by
  rw [labelBatch_eq_ok hok]
  exact h

theorem Closed.sweepStaleLeases (h : Closed db id) (now : Int) :
    Closed (EmailScheduler.sweepStaleLeases config db now).2 id := by
  refine h.of_update (p := isStale config now) (f := abandonRow) rfl (fun _ => rfl) ?_
  intro r _ _ _
  rfl

theorem Closed.createBatchTransaction {input : CreateBatchInput} {batchId : Uuid}
    {newId : Nat → Uuid} {batch : EmailBatch} (h : Closed db id)
    (hok : EmailScheduler.createBatchTransaction db input batchId newId = .ok (batch, db')) :
    Closed db' id := by
  obtain ⟨e, he, hid, hclosed⟩ := h
  obtain ⟨-, -, -, -, -, rfl⟩ := createBatchTransaction_eq_ok hok
  exact ⟨e, List.mem_append_left _ he, hid, hclosed⟩

/-- A row that was just claimed is closed. -/
theorem closed_of_claimed {emailId : Uuid} {now : Int} {token : Uuid} {claim : ClaimedEmail}
    (hok : EmailScheduler.claimEmail db emailId now token = .ok (some claim, db')) :
    Closed db' emailId := by
  obtain ⟨row, hrow, hmatch, -, -, rfl⟩ := claimEmail_eq_ok_some hok
  refine ⟨claimRow token now row, mem_updateMany.2 ⟨row, hrow, if_pos hmatch⟩, ?_, rfl⟩
  exact (claimable_iff.1 hmatch).1

/-- A row that nobody holds and that could not be claimed is closed. -/
theorem closed_of_not_claimed {emailId : Uuid} {now : Int} {token : Uuid}
    (hvalid : ∀ e ∈ db.emails, RowValid e) (hrow : ∃ e ∈ db.emails, e.id = emailId)
    (hok : EmailScheduler.claimEmail db emailId now token = .ok (none, db')) :
    Closed db' emailId := by
  obtain ⟨rfl, hnone⟩ := claimEmail_eq_ok_none hok
  obtain ⟨e, he, hid⟩ := hrow
  refine ⟨e, he, hid, ?_⟩
  have hclaimable := hnone e he
  -- An open row carries no token, so the claim would have matched it.
  by_contra hopen
  rw [Bool.not_eq_false] at hopen
  rw [claimable_iff.2 ⟨hid, (hvalid e he).unclaimed hopen, hopen⟩] at hclaimable
  cases hclaimable

end Transactions

/-! ## Steps of the system -/

namespace Delivery

variable {config : AppConfig} {s t : Delivery} {event : DeliveryEvent} {id : Uuid}

/-- **Only a recorded failure reopens a row**, and only the row of its claim. -/
theorem closed_of_step (h : (system config).step event s = some t) (hclosed : Closed s.database id)
    (hother : ∀ i input d error, event = .advance i input →
      s.stageOf i = .recordingFailure d error → d.claim.id ≠ id) : Closed t.database id := by
  cases stepCase_of_step h with
  | @advance i input x stage' w hx hstage hadvance =>
      have hother := hother i input
      -- Each transaction keeps closed rows closed; a recorded failure does so for other rows.
      rw [hstage] at hother
      show Closed w.database id
      cases hst : x.stage with
      | recordingRateLimit loaded nextAvailableAt now =>
          rw [hst] at hadvance
          cases hadvance
          exact Reply.deliver_snd _ _ _ (R := fun db => Closed db id) hclosed
            fun _ _ hok => hclosed.recordRateLimit hok
      | claiming loaded now =>
          rw [hst] at hadvance
          cases hadvance
          exact Reply.deliver_snd _ _ _ (R := fun db => Closed db id) hclosed
            fun _ _ hok => hclosed.claimEmail hok
      | recordingAccepted d receipt =>
          rw [hst] at hadvance
          cases hadvance
          exact Reply.deliver_snd _ _ _ (R := fun db => Closed db id) hclosed
            fun _ _ hok => hclosed.recordAccepted hok
      | recordingFailure d error =>
          rw [hst] at hadvance
          cases hadvance
          exact Reply.deliver_snd _ _ _ (R := fun db => Closed db id) hclosed
            fun _ _ hok => hclosed.recordFailure hok (Or.inr (hother d error rfl hst))
      | labelling d recorded unsuccessful =>
          rw [hst] at hadvance
          cases hadvance
          exact Reply.deliver_snd _ _ _ (R := fun db => Closed db id) hclosed
            fun _ _ hok => hclosed.labelBatch hok
      | loading => rw [hst] at hadvance; cases hadvance; exact hclosed
      | delaying => rw [hst] at hadvance; cases hadvance; exact hclosed
      | reserving => rw [hst] at hadvance; cases hadvance; exact hclosed
      | claimed => rw [hst] at hadvance; cases hadvance; exact hclosed
      | countingRemaining => rw [hst] at hadvance; cases hadvance; exact hclosed
      | countingUnsuccessful => rw [hst] at hadvance; cases hadvance; exact hclosed
      | sending => rw [hst] at hadvance; cases hadvance
      | finished => rw [hst] at hadvance; cases hadvance
      | crashed => rw [hst] at hadvance; cases hadvance
  | sweep now => exact hclosed.sweepStaleLeases now
  | createBatch hleads hok => exact hclosed.createBatchTransaction hok
  | updateSender sender => exact hclosed.of_emails_eq rfl
  | deliver job => exact hclosed
  | sendReturns hstage hreceipt => exact hclosed
  | sendRefused hstage htransient hpending => exact hclosed
  | sendThrows hstage htransient => exact hclosed
  | smtpAccepts hpending => exact hclosed
  | crash hrunning => exact hclosed
  | seed => exact hclosed
  | tick hclock => exact hclosed

/-- In every state reached the query finds the row of an id that exists. -/
theorem findScheduledEmail_isSome {P : Delivery → DeliveryEvent → Prop}
    (h : (system config).Reachable P s) (hrow : ∃ e ∈ s.database.emails, e.id = id) :
    (s.database.findScheduledEmail id).isSome := by
  obtain ⟨e, he, hid⟩ := hrow
  obtain ⟨b, hb, hbid⟩ := (batchInv_of_reachable h).batch_of_email e he
  -- The query joins the batch and the sender, and both are there.
  obtain ⟨x, hx, hxid⟩ := sender_of_email h e he
  have hemail := (primaryKey_emails h).find?_eq he hid
  have hbatch : (s.database.batches.find? fun b => decide (b.id = e.batchId)).isSome := by
    rw [List.find?_isSome]
    exact ⟨b, hb, decide_eq_true hbid⟩
  have hsender : (s.database.senders.find? fun x => decide (x.id = e.senderId)).isSome := by
    rw [List.find?_isSome]
    exact ⟨x, hx, decide_eq_true hxid⟩
  obtain ⟨b', hb'⟩ := Option.isSome_iff_exists.1 hbatch
  obtain ⟨x', hx'⟩ := Option.isSome_iff_exists.1 hsender
  simp [Database.findScheduledEmail, hemail, hb', hx']

end Delivery

/-! ## The steps of an execution -/

/-- The execution has claimed its row, or it has ended and does not ask for another run. -/
def Stage.isSettled : Stage → Bool
  | .claimed .. => true
  | .sending .. => true
  | .recordingAccepted .. => true
  | .recordingFailure .. => true
  | .countingRemaining .. => true
  | .countingUnsuccessful .. => true
  | .labelling .. => true
  | .finished .returned => true
  | .finished (.unrecoverable _) => true
  | _ => false

section Advance

variable {config : AppConfig} {job : Job} {input : StepInput} {w w' : World}
  {stage stage' : Stage}

/-- **An execution settles only on a closed row.** -/
theorem closed_of_advance (h : advance config job input w stage = some (stage', w'))
    (hrow : ∃ e ∈ w.database.emails, e.id = job.scheduledEmailId)
    (hvalid : ∀ e ∈ w.database.emails, RowValid e)
    (hfind : (w.database.findScheduledEmail job.scheduledEmailId).isSome)
    (hloaded : ∀ loaded, stage.loaded? = some loaded → loaded.email.id = job.scheduledEmailId)
    (hsettled : stage.isSettled = true → Closed w.database job.scheduledEmailId)
    (hsettled' : stage'.isSettled = true) : Closed w'.database job.scheduledEmailId := by
  cases advanceCase_of_advance h with
  | missing hnone =>
      rw [hnone] at hfind
      cases hfind
  | skipped hsome hclosed =>
      obtain ⟨hmem, hid, -⟩ := Database.findScheduledEmail_eq_some _ hsome
      exact ⟨_, hmem, hid, hclosed⟩
  -- Claimed or not, the row is not open after `claimEmail`.
  | unclaimed hok =>
      rw [hloaded _ rfl] at hok
      exact closed_of_not_claimed hvalid hrow hok
  | claimed hok =>
      rw [hloaded _ rfl] at hok
      exact closed_of_claimed hok
  | sent => exact hsettled rfl
  | accepted hok => exact (hsettled rfl).recordAccepted hok
  | notAccepted hdb =>
      rcases hdb with rfl | hok
      · exact hsettled rfl
      · exact (hsettled rfl).recordAccepted hok
  | failed hok hretry => exact (hsettled rfl).recordFailure hok (Or.inl hretry)
  | unfinished => exact hsettled rfl
  | countedRemaining _ => exact hsettled rfl
  | countedUnsuccessful => exact hsettled rfl
  | labelled hok => exact (hsettled rfl).labelBatch hok
  | caughtRemaining => exact hsettled rfl
  | caughtUnsuccessful => exact hsettled rfl
  | caughtLabel hdb =>
      rcases hdb with rfl | hok
      · exact hsettled rfl
      · exact (hsettled rfl).labelBatch hok
  -- The other cases do not settle.
  | _ => cases hsettled'

theorem finalRetry_of_retryable {classification : DeliveryClassification} {finalRetry : Bool}
    (h : failureResult classification finalRetry = .retryable) : finalRetry = false := by
  unfold failureResult at h
  split at h
  next hcond => exact hcond.2
  next => split at h <;> cases h

/-- The outcome of an execution that recorded a transient failure. -/
def Stage.asksRetry : Stage → Bool
  | .finished (.failed _) => true
  | _ => false

/-- **A transient failure is recorded only while attempts remain.** -/
theorem finalRetry_of_asksRetry (h : advance config job input w stage = some (stage', w'))
    (hretry : stage'.asksRetry = true) : job.finalRetry = false := by
  have houtcome : ∀ recorded : Recorded, (Stage.finished recorded.outcome).asksRetry = false := by
    intro recorded
    cases recorded <;> rfl
  cases advanceCase_of_advance h with
  | retried hok => exact finalRetry_of_retryable (recordFailure_eq_ok hok).1.symm
  | unfinished =>
      rw [houtcome] at hretry
      cases hretry
  | labelled _ =>
      rw [houtcome] at hretry
      cases hretry
  | _ => cases hretry

end Advance

end EmailScheduler
