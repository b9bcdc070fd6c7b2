import EmailScheduler.Delivery.Rows
import EmailScheduler.Foundation.UniqueIndex

/-!
# At-most-once delivery

The delivery system is an instance of the lease protocol: an open row is a free key, a row in
`PROCESSING` is held under its token, a terminal row is closed, executions are the workers and
submissions the messages. Every step of the system is a run of protocol actions (`lease_simulates`),
so the safety of the protocol is the safety of delivery.

What makes the simulation go through is the error classification: only a transient error leads back
to an open row, and a database error is never transient, so an execution that reopens a row has been
told that the server refused its message.
-/

set_option autoImplicit false

namespace EmailScheduler

open Foundation

/-! ## The protocol state -/

/-- The state of a row as a key of the protocol. -/
def ScheduledEmail.hold (e : ScheduledEmail) : Hold Uuid :=
  if e.status.isOpen then .free
  else
    match e.status, e.processingToken with
    | .processing, some token => .held token
    | _, _ => .closed

/-- The state of an email; an id without a row is free. -/
def holdOf (db : Database) (emailId : Uuid) : Hold Uuid :=
  ((db.emails.find? fun e => e.id = emailId).map ScheduledEmail.hold).getD .free

namespace Sending

/-- A claim whose message was sent. -/
def sent (d : Sending) : Holder Uuid Uuid :=
  .sent d.claim.id d.claim.processingToken d.submission

/-- A claim whose message is known to be refused. -/
def refused (d : Sending) : Holder Uuid Uuid :=
  .refused d.claim.id d.claim.processingToken d.submission

end Sending

/-- What an execution still holds after it recorded an outcome. -/
def Recorded.holder (d : Sending) : Recorded → Holder Uuid Uuid
  | .accepted => d.sent
  | .failed _ => .idle

/-- What an execution holds. -/
def Stage.holder : Stage → Holder Uuid Uuid
  | .claimed _ claim _ => .claimed claim.id claim.processingToken
  | .sending d => d.sent
  | .recordingAccepted d _ => d.sent
  | .recordingFailure d error =>
      if classifyDeliveryError error = .transient then d.refused else d.sent
  | .countingRemaining d recorded => recorded.holder d
  | .countingUnsuccessful d recorded => recorded.holder d
  | .labelling d recorded _ => recorded.holder d
  | _ => .idle

/-- A submission as a message of the protocol. -/
def Submission.leaseMessage (x : Submission) : Message Uuid Uuid :=
  ⟨x.message.scheduledEmailId, x.token, x.status⟩

/-- The tokens that were issued. -/
def issuedTokens (db : Database) : List Uuid := db.attempts.map SendAttempt.attemptToken

/-- The protocol state of the system. -/
def Delivery.lease (s : Delivery) : LeaseState Uuid Uuid Nat where
  hold := holdOf s.database
  issued := issuedTokens s.database
  worker i := (s.stageOf i).holder
  messages := s.submissions.map Submission.leaseMessage

/-! ## Continuations -/

section Continuations

variable (d : Sending) (loaded : LoadedEmail) (now : Int)

@[simp] theorem holder_afterLoad (r : Except InfrastructureError (Option LoadedEmail)) :
    (afterLoad now r).holder = .idle := by
  unfold afterLoad
  split
  · rfl
  · rfl
  · split_ifs <;> rfl

@[simp] theorem holder_afterDelay (r : Reply) : (afterDelay now r).holder = .idle := by
  cases r <;> rfl

@[simp] theorem holder_afterReserve (r : Except InfrastructureError RateLimitDecision) :
    (afterReserve loaded now r).holder = .idle := by
  unfold afterReserve
  split
  · rfl
  · split_ifs <;> rfl

@[simp] theorem holder_afterRateLimit (r : Except InfrastructureError Unit) :
    (afterRateLimit now r).holder = .idle := by
  cases r <;> rfl

/-- A receipt without an accepted recipient is a permanent failure, so the message still counts. -/
@[simp] theorem holder_afterSend (receipt : DeliveryReceipt) :
    (afterSend d receipt).holder = d.sent := by
  unfold afterSend
  split_ifs
  · rfl
  · rfl

/-- A database error caught after the send is not transient, so the message still counts. -/
theorem holder_recordingFailure_infrastructure (e : InfrastructureError) :
    (Stage.recordingFailure d e.value).holder = d.sent := by
  simp [Stage.holder, e.classify_eq_unknown]

@[simp] theorem holder_afterAccepted (r : Except InfrastructureError Unit) :
    (afterAccepted d r).holder = d.sent := by
  cases r with
  | error e => exact holder_recordingFailure_infrastructure d e
  | ok => rfl

@[simp] theorem holder_afterFailure (r : Except InfrastructureError FailureResult) :
    (afterFailure d r).holder = .idle := by
  unfold afterFailure
  split
  · rfl
  · split_ifs <;> rfl

/-- An execution that updates the batch keeps what it holds, or ends. -/
theorem holder_afterRemaining (recorded : Recorded) (r : Except InfrastructureError Nat) :
    (afterRemaining d recorded r).holder = recorded.holder d ∨
      (afterRemaining d recorded r).holder = .idle := by
  unfold afterRemaining
  split
  next e =>
    cases recorded with
    | accepted => exact Or.inl (holder_recordingFailure_infrastructure d e)
    | failed => exact Or.inr rfl
  next => split_ifs <;> [exact Or.inr rfl; exact Or.inl rfl]

theorem holder_afterUnsuccessful (recorded : Recorded) (r : Except InfrastructureError Nat) :
    (afterUnsuccessful d recorded r).holder = recorded.holder d ∨
      (afterUnsuccessful d recorded r).holder = .idle := by
  cases r with
  | error e =>
      cases recorded with
      | accepted => exact Or.inl (holder_recordingFailure_infrastructure d e)
      | failed => exact Or.inr rfl
  | ok => exact Or.inl rfl

theorem holder_afterLabel (recorded : Recorded) (r : Except InfrastructureError Unit) :
    (afterLabel d recorded r).holder = recorded.holder d ∨
      (afterLabel d recorded r).holder = .idle := by
  cases r with
  | error e =>
      cases recorded with
      | accepted => exact Or.inl (holder_recordingFailure_infrastructure d e)
      | failed => exact Or.inr rfl
  | ok => exact Or.inr rfl

end Continuations

/-! ## How the operations change the state of the keys -/

section Holds

variable {db db' : Database} {claim : ClaimedEmail} {k : Uuid}

theorem holdOf_congr (h : db'.emails = db.emails) : holdOf db' = holdOf db := by
  funext k
  rw [holdOf, holdOf, h]

theorem holdOf_eq_of_find? {e : ScheduledEmail}
    (h : db.emails.find? (fun e => e.id = k) = some e) : holdOf db k = e.hold := by
  rw [holdOf, h]
  rfl

/-- After an update, an id is in the state of the updated row. -/
theorem holdOf_updateMany {p : ScheduledEmail → Bool} {f : ScheduledEmail → ScheduledEmail}
    (hemails : db'.emails = updateMany p f db.emails) (hf : ∀ r, (f r).id = r.id) :
    holdOf db' k = ((db.emails.find? fun e => e.id = k).map fun r =>
      if p r then (f r).hold else r.hold).getD .free := by
  rw [holdOf, hemails, find?_updateMany (fun r => by rw [hf])]
  cases db.emails.find? fun e => e.id = k with
  | none => rfl
  | some r => simp only [Option.map_some, Option.getD_some, apply_ite ScheduledEmail.hold]

/-- An update that keeps the state of every row keeps the state of every id. -/
theorem holdOf_updateMany_of_same {p : ScheduledEmail → Bool}
    {f : ScheduledEmail → ScheduledEmail} (hemails : db'.emails = updateMany p f db.emails)
    (hf : ∀ r, (f r).id = r.id) (hsame : ∀ r, p r = true → (f r).hold = r.hold) :
    holdOf db' = holdOf db := by
  funext k
  rw [holdOf_updateMany hemails hf, holdOf]
  cases db.emails.find? fun e => e.id = k with
  | none => rfl
  | some r =>
      simp only [Option.map_some, Option.getD_some]
      split
      next hp => exact hsame r hp
      next => rfl

/-- An update that closes the rows it matches closes their ids. -/
theorem holdOf_updateMany_close {p : ScheduledEmail → Bool} {f : ScheduledEmail → ScheduledEmail}
    (hemails : db'.emails = updateMany p f db.emails) (hf : ∀ r, (f r).id = r.id)
    (hclose : ∀ r, p r = true → (f r).hold = r.hold.close) :
    holdOf db' = fun k =>
      if (db.emails.find? fun e => e.id = k).any p then (holdOf db k).close else holdOf db k := by
  funext k
  rw [holdOf_updateMany hemails hf, holdOf]
  cases db.emails.find? fun e => e.id = k with
  | none => rfl
  | some r =>
      simp only [Option.map_some, Option.getD_some, Option.any_some]
      split
      next hp => exact hclose r hp
      next => rfl

theorem hold_of_isOpen {e : ScheduledEmail} (h : e.status.isOpen = true) : e.hold = .free := by
  simp [ScheduledEmail.hold, h]

/-- A row held by a claim is held under its token. -/
theorem hold_of_heldBy {e : ScheduledEmail} (h : heldBy claim e = true) :
    e.id = claim.id ∧ e.hold = .held claim.processingToken := by
  obtain ⟨hid, hstatus, htoken⟩ := heldBy_iff.1 h
  refine ⟨hid, ?_⟩
  simp [ScheduledEmail.hold, hstatus, htoken, ScheduledEmailStatus.isOpen]

/-- A claim turns a free key into a held one. -/
theorem holdOf_claimed (hkey : PrimaryKey ScheduledEmail.id db.emails) {id token : Uuid} {now : Int}
    {row : ScheduledEmail} (hrow : row ∈ db.emails) (hmatch : claimable id row = true)
    (hemails : db'.emails = updateMany (claimable id) (claimRow token now) db.emails) :
    holdOf db id = .free ∧ holdOf db' = Function.update (holdOf db) id (.held token) := by
  obtain ⟨hid, -, hopen⟩ := claimable_iff.1 hmatch
  have hfind := hkey.find?_eq hrow hid
  refine ⟨(holdOf_eq_of_find? hfind).trans (hold_of_isOpen hopen), ?_⟩
  funext k
  rw [holdOf_updateMany hemails fun r => rfl, Function.update_apply]
  by_cases hk : k = id
  · subst hk
    rw [if_pos rfl, hfind]
    simp only [Option.map_some, Option.getD_some, hmatch, if_true]
    simp [ScheduledEmail.hold, claimRow, ScheduledEmailStatus.isOpen]
  · rw [if_neg hk, holdOf]
    cases hother : db.emails.find? fun e => e.id = k with
    | none => rfl
    | some r =>
        have hr := List.find?_some hother
        rw [decide_eq_true_eq] at hr
        have hno : claimable id r = false := by simp [claimable, hr, hk]
        simp [hno]

/-- Reopening the row of a claim frees its key, if the claim still holds it. -/
theorem holdOf_released {f : ScheduledEmail → ScheduledEmail} (hf : ∀ r, (f r).id = r.id)
    (hopen : ∀ r, (f r).status.isOpen = true)
    (hemails : db'.emails = updateMany (heldBy claim) f db.emails) :
    (holdOf db claim.id = .held claim.processingToken ∧
        holdOf db' = Function.update (holdOf db) claim.id .free) ∨
      holdOf db' = holdOf db := by
  have hother : ∀ k r, db.emails.find? (fun e => e.id = k) = some r →
      k ≠ claim.id → heldBy claim r = false := by
    intro k r hfind hk
    have hr := List.find?_some hfind
    rw [decide_eq_true_eq] at hr
    simp [heldBy, hr, hk]
  by_cases hheld : (db.emails.find? fun e => e.id = claim.id).any (heldBy claim) = true
  · -- The row is held under the claim's token, and becomes free.
    left
    obtain ⟨e, hfind, he⟩ := (Option.any_eq_true _ _).1 hheld
    refine ⟨(holdOf_eq_of_find? hfind).trans (hold_of_heldBy he).2, ?_⟩
    funext k
    rw [holdOf_updateMany hemails hf, Function.update_apply]
    by_cases hk : k = claim.id
    · subst hk
      rw [if_pos rfl, hfind]
      simp only [Option.map_some, Option.getD_some, he, if_true]
      exact hold_of_isOpen (hopen e)
    · rw [if_neg hk, holdOf]
      cases hfind' : db.emails.find? fun e => e.id = k with
      | none => rfl
      | some r => simp [hother k r hfind' hk]
  · right
    funext k
    rw [holdOf_updateMany hemails hf, holdOf]
    cases hfind : db.emails.find? fun e => e.id = k with
    | none => rfl
    | some r =>
        have hno : heldBy claim r = false := by
          by_cases hk : k = claim.id
          · subst hk
            simpa [hfind] using hheld
          · exact hother k r hfind hk
        simp [hno]

/-- New rows are free, like ids without a row. -/
theorem holdOf_append {new : List ScheduledEmail} (hemails : db'.emails = db.emails ++ new)
    (hnew : ∀ r ∈ new, NewRow db r) : holdOf db' = holdOf db := by
  funext k
  rw [holdOf, holdOf, hemails, List.find?_append]
  cases db.emails.find? fun e => e.id = k with
  | some r => rfl
  | none =>
      rw [Option.none_or]
      cases hfind : new.find? fun e => e.id = k with
      | none => rfl
      | some r =>
          refine hold_of_isOpen ?_
          rw [(hnew r (List.mem_of_find?_eq_some hfind)).scheduled]
          rfl

end Holds

/-! ## The simulation -/

namespace Delivery

/-- Runs of protocol actions. -/
abbrev LeaseSteps (L L' : LeaseState Uuid Uuid Nat) : Prop :=
  LeaseState.system.Steps TransitionSystem.anyStep L L'

variable {config : AppConfig} {s t : Delivery} {i : Nat} {stage : Stage}

theorem leaseStep {a : LeaseAction Uuid Uuid Nat} {L L' : LeaseState Uuid Uuid Nat}
    (h : LeaseState.step a L = some L') : LeaseSteps L L' :=
  .single trivial h

theorem lease_moveTo (hi : i < s.executions.length) :
    (s.moveTo i stage).lease =
      { s.lease with worker := Function.update s.lease.worker i stage.holder } := by
  have hworker : (s.moveTo i stage).lease.worker =
      Function.update s.lease.worker i stage.holder := by
    funext j
    rw [Function.update_apply]
    split
    next hj =>
      subst hj
      exact congrArg Stage.holder (stageOf_moveTo_self hi)
    next hj => exact congrArg Stage.holder (stageOf_moveTo_of_ne _ hj)
  rw [← hworker]
  rfl

theorem lease_withSubmission (x : Submission) : (s.withSubmission x).lease =
    { s.lease with messages := s.lease.messages ++ [x.leaseMessage] } := by
  have hmessages : (s.submissions ++ [x]).map Submission.leaseMessage =
      s.lease.messages ++ [x.leaseMessage] := by
    rw [List.map_append]
    rfl
  rw [← hmessages]
  rfl

theorem length_lease_messages : s.lease.messages.length = s.submissions.length :=
  List.length_map _

/-- An execution that moves on without letting go, or that lets go. -/
theorem steps_moveTo (hi : i < s.executions.length)
    (hholder : stage.holder = (s.stageOf i).holder ∨ stage.holder = .idle) :
    LeaseSteps s.lease (s.moveTo i stage).lease := by
  rw [lease_moveTo hi]
  rcases hholder with heq | heq
  · rw [heq]
    have hself : Function.update s.lease.worker i (s.stageOf i).holder = s.lease.worker :=
      Function.update_eq_self i s.lease.worker
    rw [hself]
    exact .refl
  · rw [heq]
    exact leaseStep (a := .leave i) rfl

/-- A change of the database that keeps the state of every row and issues no token. -/
theorem lease_withDatabase_of_same {db : Database} (hhold : holdOf db = holdOf s.database)
    (hissued : issuedTokens db = issuedTokens s.database) :
    (s.withDatabase db).lease = s.lease := by
  show { s.lease with hold := holdOf db, issued := issuedTokens db } = s.lease
  rw [hhold, hissued]
  rfl

theorem issuedTokens_congr {db db' : Database} (h : db'.attempts = db.attempts) :
    issuedTokens db' = issuedTokens db :=
  congrArg (List.map SendAttempt.attemptToken) h

theorem issuedTokens_updateMany {db db' : Database} {p : SendAttempt → Bool}
    {f : SendAttempt → SendAttempt} (h : db'.attempts = updateMany p f db.attempts)
    (hf : ∀ a, (f a).attemptToken = a.attemptToken) : issuedTokens db' = issuedTokens db := by
  rw [issuedTokens, h, map_updateMany _ hf]
  rfl

theorem steps_deferred {id token : Uuid} {nextAvailableAt now : Int} {db : Database}
    (h : recordRateLimit s.database id nextAvailableAt now token = .ok ((), db)) :
    LeaseSteps s.lease (s.withDatabase db).lease := by
  rcases recordRateLimit_eq_ok h with rfl | ⟨row, -, -, -, hdb⟩
  · exact .refl
  · have hhold : holdOf db = holdOf s.database := by
      -- A deferred row is open before and after; the attempt it gets is never claimed.
      refine holdOf_updateMany_of_same (congrArg Database.emails hdb) (fun r => rfl) fun r hr => ?_
      rw [hold_of_isOpen (deferrable_iff.1 hr).2]
      exact hold_of_isOpen rfl
    have hissued : issuedTokens db = issuedTokens s.database ++ [token] := by
      rw [hdb, issuedTokens, issuedTokens, List.map_append]
      rfl
    have hlease : (s.withDatabase db).lease =
      { s.lease with issued := s.lease.issued ++ [token] } := by
      show { s.lease with hold := holdOf db, issued := issuedTokens db } = _
      rw [hhold, hissued]
      rfl
    rw [hlease]
    exact leaseStep (a := .issue token) rfl

/-- A committed claim is a claim of the protocol. -/
theorem steps_claimed (hkey : PrimaryKey ScheduledEmail.id s.database.emails)
    (hi : i < s.executions.length) (hidle : (s.stageOf i).holder = .idle) {id token : Uuid}
    {now : Int} {claim : ClaimedEmail} {db : Database}
    (h : claimEmail s.database id now token = .ok (some claim, db))
    (hstage : stage.holder = .claimed claim.id claim.processingToken) :
    LeaseSteps s.lease ((s.withDatabase db).moveTo i stage).lease := by
  obtain ⟨row, hrow, hmatch, rfl, hfresh, hdb⟩ := claimEmail_eq_ok_some h
  have hid : row.id = id := (claimable_iff.1 hmatch).1
  obtain ⟨hfree, hhold⟩ := holdOf_claimed hkey hrow hmatch (congrArg Database.emails hdb)
  have hissued : issuedTokens db = issuedTokens s.database ++ [token] := by
    rw [hdb, issuedTokens, issuedTokens, List.map_append]
    rfl
  have hnew : token ∉ issuedTokens s.database := by
    intro hmem
    obtain ⟨a, ha, heq⟩ := List.mem_map.1 hmem
    exact hfresh a ha heq
  rw [lease_moveTo (s := s.withDatabase db) hi, hstage]
  refine leaseStep (a := .claim i id token) ?_
  simp only [LeaseState.step]
  -- The row was free, the execution idle, and the token is in no attempt.
  rw [if_pos ⟨hfree, hidle, hnew⟩]
  show some { s.lease with
    hold := Function.update (holdOf s.database) id (.held token)
    issued := issuedTokens s.database ++ [token]
    worker := Function.update s.lease.worker i (.claimed id token) } = some { s.lease with
      hold := holdOf db
      issued := issuedTokens db
      worker := Function.update s.lease.worker i (.claimed row.id token) }
  rw [hhold, hissued, hid]

/-- An update that closes rows is a closing of the protocol. -/
theorem steps_closed {db : Database} {p : ScheduledEmail → Bool}
    {f : ScheduledEmail → ScheduledEmail} (hemails : db.emails = updateMany p f s.database.emails)
    (hf : ∀ r, (f r).id = r.id) (hclose : ∀ r, p r = true → (f r).hold = r.hold.close)
    (hissued : issuedTokens db = issuedTokens s.database) :
    LeaseSteps s.lease (s.withDatabase db).lease := by
  refine leaseStep (a := .close fun k => (s.database.emails.find? fun e => e.id = k).any p) ?_
  show some _ = some { s.lease with hold := holdOf db, issued := issuedTokens db }
  rw [holdOf_updateMany_close hemails hf hclose, hissued]
  rfl

theorem steps_accepted {claim : ClaimedEmail} {receipt : DeliveryReceipt} {now : Int}
    {db : Database} (h : recordAccepted s.database claim receipt now = .ok ((), db)) :
    LeaseSteps s.lease (s.withDatabase db).lease := by
  obtain ⟨-, rfl⟩ := recordAccepted_eq_ok h
  refine steps_closed rfl (fun r => rfl) (fun r hr => ?_)
    (issuedTokens_updateMany rfl fun a => rfl)
  rw [(hold_of_heldBy hr).2]
  rfl

/-- A recorded failure closes the row, or frees it when the execution knows that its message was
refused; either way the execution lets go. -/
theorem steps_failed (hi : i < s.executions.length) {d : Sending} {error : ThrownValue}
    (hholder : (s.stageOf i).holder = (Stage.recordingFailure d error).holder)
    {finalRetry : Bool} {now : Int} {result : FailureResult} {db : Database}
    (h : recordFailure config s.database d.claim (classifyDeliveryError error) finalRetry error
      now = .ok (result, db))
    (hstage : stage.holder = .idle) :
    LeaseSteps s.lease ((s.withDatabase db).moveTo i stage).lease := by
  obtain ⟨hresult, hdb⟩ := recordFailure_eq_ok h
  have hissued : issuedTokens db = issuedTokens s.database :=
    issuedTokens_updateMany (congrArg Database.attempts hdb) fun a => rfl
  by_cases hretry : result = .retryable
  · -- The error was transient, so the execution holds a refused message.
    subst hretry
    have htransient : classifyDeliveryError error = .transient := by
      unfold failureResult at hresult
      split at hresult
      next hcond => exact hcond.1
      next => split at hresult <;> cases hresult
    have hrefused : s.lease.worker i = d.refused := by
      show (s.stageOf i).holder = _
      rw [hholder, Stage.holder, if_pos htransient]
    -- The row may have been swept meanwhile; then nothing is released.
    have hrelease : (holdOf s.database d.claim.id = .held d.claim.processingToken ∧
        holdOf db = Function.update (holdOf s.database) d.claim.id .free) ∨
          holdOf db = holdOf s.database :=
      holdOf_released
        (f := failRow config .retryable (safeError (classifyDeliveryError error) error) now)
        (fun r => rfl) (fun r => rfl) (congrArg Database.emails hdb)
    rcases hrelease with ⟨hheld, hhold⟩ | hhold
    -- The row is still held under the token of the execution: this is the release.
    · rw [lease_moveTo (s := s.withDatabase db) hi, hstage]
      refine leaseStep (a := .release i) ?_
      simp only [LeaseState.step, hrefused, Sending.refused]
      refine (if_pos hheld).trans ?_
      show some { s.lease with
        hold := Function.update (holdOf s.database) d.claim.id .free
        worker := Function.update s.lease.worker i .idle } = some { s.lease with
          hold := holdOf db
          issued := issuedTokens db
          worker := Function.update s.lease.worker i .idle }
      rw [hhold, hissued]
      rfl
    -- The row is someone else's or closed: the execution just lets go.
    · have hsame := lease_withDatabase_of_same (s := s) hhold hissued
      rw [← hsame]
      exact steps_moveTo (s := s.withDatabase db) hi (Or.inr hstage)
  -- The row becomes `FAILED` or `DELIVERY_UNKNOWN`, and the execution lets go after that.
  · have hclose : LeaseSteps s.lease (s.withDatabase db).lease := by
      refine steps_closed (congrArg Database.emails hdb) (fun r => rfl) (fun r hr => ?_) hissued
      rw [(hold_of_heldBy hr).2]
      cases result with
      | retryable => exact absurd rfl hretry
      | failed => rfl
      | unknown => rfl
    exact hclose.trans (steps_moveTo (s := s.withDatabase db) hi (Or.inr hstage))

theorem steps_labelled {batchId : Uuid} {unsuccessful : Nat} {db : Database}
    (h : labelBatch s.database batchId unsuccessful = .ok ((), db)) :
    LeaseSteps s.lease (s.withDatabase db).lease := by
  have hdb := labelBatch_eq_ok h
  rw [lease_withDatabase_of_same (holdOf_congr (by subst hdb; rfl))
    (issuedTokens_congr (by subst hdb; rfl))]
  exact .refl

theorem steps_swept (now : Int) :
    LeaseSteps s.lease (s.withDatabase (sweepStaleLeases config s.database now).2).lease := by
  refine steps_closed rfl (fun r => rfl) (fun r hr => ?_) rfl
  have hclosed : (abandonRow r).hold = .closed := rfl
  rw [hclosed, ScheduledEmail.hold, (isStale_iff.1 hr).1]
  cases r.processingToken <;> rfl

theorem steps_created {input : CreateBatchInput} {batchId : Uuid} {newId : Nat → Uuid}
    {batch : EmailBatch} {db : Database}
    (h : createBatchTransaction s.database input batchId newId = .ok (batch, db)) :
    LeaseSteps s.lease (s.withDatabase db).lease := by
  obtain ⟨-, rfl, hbatch, -, hnew, hdb⟩ := createBatchTransaction_eq_ok h
  rw [lease_withDatabase_of_same
    (holdOf_append (congrArg Database.emails hdb) (emailRows_newRow hbatch hnew))
    (issuedTokens_congr (by subst hdb; rfl))]
  exact .refl

/-! ## Every step is a run of the protocol -/

/-- An operation of an execution on the database, with its stage afterwards: if the commit is a run
of the protocol, then so is the step, with or without the commit. -/
theorem steps_deliver {β : Type} (hi : i < s.executions.length) {reply : Reply}
    {outcome : Transaction β} (next : Except InfrastructureError β → Stage)
    (hcommit : ∀ value db, outcome = .ok (value, db) → LeaseSteps s.lease (s.withDatabase db).lease)
    (hnext : ∀ r, (next r).holder = (s.stageOf i).holder ∨ (next r).holder = .idle) :
    LeaseSteps s.lease ((s.withDatabase (reply.deliver s.database outcome).2).moveTo i
      (next (reply.deliver s.database outcome).1)).lease := by
  have hdatabase : LeaseSteps s.lease
      (s.withDatabase (reply.deliver s.database outcome).2).lease :=
    Reply.deliver_snd reply s.database outcome (R := fun db =>
      LeaseSteps s.lease (s.withDatabase db).lease) .refl hcommit
  exact hdatabase.trans (steps_moveTo (s := s.withDatabase _) hi (hnext _))

theorem steps_advance (hkey : PrimaryKey ScheduledEmail.id s.database.emails)
    (hclaim : ∀ p, (s.stageOf i).delivery? = some p → p.2.id = p.1.email.id) {input : StepInput}
    (h : (system config).step (.advance i input) s = some t) : LeaseSteps s.lease t.lease := by
  obtain ⟨x, stage', w, hx, hstage, hadvance, rfl⟩ := step_advance config h
  have hi : i < s.executions.length := (List.getElem?_eq_some_iff.1 hx).1
  rw [← hstage] at hadvance
  cases hst : s.stageOf i with
  | loading =>
      rw [hst] at hadvance
      cases hadvance
      exact steps_moveTo hi (Or.inr (holder_afterLoad _ _))
  | delaying availableAt =>
      rw [hst] at hadvance
      cases hadvance
      exact steps_moveTo hi (Or.inr (holder_afterDelay _ _))
  | reserving loaded now =>
      rw [hst] at hadvance
      cases hadvance
      exact steps_moveTo (s := s.withLimiter _) hi (Or.inr (holder_afterReserve _ _ _))
  | recordingRateLimit loaded nextAvailableAt now =>
      rw [hst] at hadvance
      cases hadvance
      exact steps_deliver hi (afterRateLimit nextAvailableAt) (fun _ _ hok => steps_deferred hok)
        fun r => Or.inr (holder_afterRateLimit _ r)
  | claiming loaded now =>
      rw [hst] at hadvance
      cases hadvance
      have hidle : (s.stageOf i).holder = .idle := by rw [hst]; rfl
      -- The commit and the reply may come apart: done, failed without effect, or lost.
      rcases input.reply.deliver_cases s.database
          (claimEmail s.database loaded.email.id now input.token) with
        ⟨claim, db, hok, heq⟩ | ⟨e, heq⟩ | ⟨e, claim, db, hok, heq⟩
      · rw [heq]
        cases claim with
        | none =>
            rw [(claimEmail_eq_ok_none hok).1]
            exact steps_moveTo hi (Or.inr rfl)
        | some claim => exact steps_claimed hkey hi hidle hok rfl
      · rw [heq]
        exact steps_moveTo hi (Or.inr rfl)
      · rw [heq]
        cases claim with
        | none =>
            rw [(claimEmail_eq_ok_none hok).1]
            exact steps_moveTo hi (Or.inr rfl)
        | some claim =>
            -- The claim took effect and its reply was lost: the row stays held by nobody.
            have hclaimed : LeaseSteps s.lease
                ((s.withDatabase db).moveTo i (.claimed loaded claim now)).lease :=
              steps_claimed hkey hi hidle hok rfl
            have hleave : LeaseSteps
              ((s.withDatabase db).moveTo i (.claimed loaded claim now)).lease
                (((s.withDatabase db).moveTo i (.claimed loaded claim now)).moveTo i
                  (afterClaim loaded now (.error e))).lease :=
              steps_moveTo (by simpa [moveTo, withDatabase] using hi) (Or.inr rfl)
            rw [moveTo_moveTo] at hleave
            exact hclaimed.trans hleave
  | claimed loaded claim now =>
      rw [hst] at hadvance
      cases hadvance
      have hid : claim.id = loaded.email.id := hclaim (loaded, claim) (by rw [hst]; rfl)
      have hworker : s.lease.worker i = .claimed claim.id claim.processingToken := by
        show (s.stageOf i).holder = _
        rw [hst]
        rfl
      refine leaseStep (a := .send i) ?_
      -- The call of `mailer.send` is the sending of the protocol, for the row that was claimed.
      have hlease : ((s.withSubmission ⟨loaded.message, loaded.email.senderId,
          claim.processingToken, now, input.now, .pending⟩).moveTo i
            (.sending ⟨loaded, claim, now, s.submissions.length⟩)).lease = _ := lease_moveTo hi
      refine Eq.trans ?_ (congrArg some hlease.symm)
      rw [lease_withSubmission]
      simp [LeaseState.step, hworker, Stage.holder, Sending.sent, Submission.leaseMessage,
        LoadedEmail.message, hid, length_lease_messages]
  | sending d =>
      rw [hst] at hadvance
      cases hadvance
  | recordingAccepted d receipt =>
      rw [hst] at hadvance
      cases hadvance
      exact steps_deliver hi (afterAccepted d) (fun _ _ hok => steps_accepted hok)
        fun r => Or.inl (by rw [hst]; exact holder_afterAccepted d r)
  | recordingFailure d error =>
      rw [hst] at hadvance
      cases hadvance
      have hholder : (s.stageOf i).holder = (Stage.recordingFailure d error).holder := by rw [hst]
      -- A failure that was recorded ends the claim even if its reply is lost.
      rcases input.reply.deliver_cases s.database (recordFailure config s.database d.claim
          (classifyDeliveryError error) x.job.finalRetry error input.now) with
        ⟨result, db, hok, heq⟩ | ⟨e, heq⟩ | ⟨e, result, db, hok, heq⟩
      · rw [heq]
        exact steps_failed hi hholder hok (holder_afterFailure d _)
      · rw [heq]
        exact steps_moveTo hi (Or.inr rfl)
      · rw [heq]
        exact steps_failed hi hholder hok rfl
  | countingRemaining d recorded =>
      rw [hst] at hadvance
      cases hadvance
      exact steps_moveTo hi (by rw [hst]; exact holder_afterRemaining d recorded _)
  | countingUnsuccessful d recorded =>
      rw [hst] at hadvance
      cases hadvance
      exact steps_moveTo hi (by rw [hst]; exact holder_afterUnsuccessful d recorded _)
  | labelling d recorded unsuccessful =>
      rw [hst] at hadvance
      cases hadvance
      exact steps_deliver hi (afterLabel d recorded) (fun _ _ hok => steps_labelled hok)
        fun r => by rw [hst]; exact holder_afterLabel d recorded r
  | finished outcome =>
      rw [hst] at hadvance
      cases hadvance
  | crashed =>
      rw [hst] at hadvance
      cases hadvance

/-- Settling a submission settles its message. -/
theorem lease_settle {m : Nat} {x : Submission} (hx : s.submissions[m]? = some x) (status : Fate) :
    (s.settle m status).lease = { s.lease with
      messages := s.lease.messages.set m ⟨x.message.scheduledEmailId, x.token, status⟩ } := by
  have hmessages : (s.submissions.modify m fun x => { x with status := status }).map
      Submission.leaseMessage =
        s.lease.messages.set m ⟨x.message.scheduledEmailId, x.token, status⟩ := by
    rw [List.modify_eq_set_getElem?, hx]
    exact List.map_set
  rw [← hmessages]
  rfl

/-- A pending submission is a pending message. -/
theorem message_of_pending {m : Nat} (h : s.statusOf m = .pending) :
    ∃ x, s.submissions[m]? = some x ∧
      s.lease.messages[m]? = some ⟨x.message.scheduledEmailId, x.token, .pending⟩ := by
  unfold statusOf at h
  cases hx : s.submissions[m]? with
  | none =>
      rw [hx] at h
      cases h
  | some x =>
      rw [hx] at h
      refine ⟨x, rfl, ?_⟩
      show (s.submissions.map Submission.leaseMessage)[m]? = _
      rw [List.getElem?_map, hx]
      exact congrArg (fun status => some (⟨_, _, status⟩ : Message Uuid Uuid)) h

theorem lt_length_of_sending {d : Sending} (h : s.stageOf i = .sending d) :
    i < s.executions.length := by
  apply lt_length_of_stageOf
  rw [h]
  simp

/-- **Simulation.** Every step from a reachable state is a run of protocol actions. -/
theorem lease_simulates (hkey : PrimaryKey ScheduledEmail.id s.database.emails)
    (hclaim : ∀ i p, (s.stageOf i).delivery? = some p → p.2.id = p.1.email.id)
    {event : DeliveryEvent} (h : (system config).step event s = some t) :
    LeaseSteps s.lease t.lease := by
  cases stepCase_of_step h with
  | deliver job =>
      have hworker : (fun i => ({ s with
          -- A new execution holds nothing, like an execution that does not exist.
          executions := s.executions ++ [⟨job, .loading⟩] } : Delivery).lease.worker i) =
            s.lease.worker := by
        funext i
        show (stageOf _ i).holder = (s.stageOf i).holder
        rw [stageOf_append]
        split
        next hi =>
          have hnone : s.stageOf i = .crashed := by
            rw [stageOf, List.getElem?_eq_none (by omega)]
            rfl
          rw [hnone]
          rfl
        next => rfl
      have hsame : ({ s with executions := s.executions ++ [⟨job, .loading⟩] } : Delivery).lease =
          { s.lease with worker := s.lease.worker } := by
        rw [← hworker]
        rfl
      rw [hsame]
      exact .refl
  | @advance i => exact steps_advance hkey (hclaim i) h
  | @sendReturns i receipt d hstage hreceipt =>
      apply steps_moveTo (lt_length_of_sending hstage)
      rw [hstage]
      exact Or.inl (holder_afterSend d receipt)
  | @sendRefused i error d hstage htransient hpending =>
      -- A transient error settles the message as refused in the same step.
      obtain ⟨x, hx, hmessage⟩ := message_of_pending hpending
      have hworker : s.lease.worker i = d.sent := by
        show (s.stageOf i).holder = _
        rw [hstage]
        rfl
      have hrefused : (Stage.recordingFailure d error).holder = d.refused := if_pos htransient
      refine leaseStep (a := .refuse i) ?_
      rw [lease_moveTo (s := s.settle d.submission .refused) (lt_length_of_sending hstage),
        lease_settle hx, hrefused]
      simp only [LeaseState.step, hworker, Sending.sent, hmessage]
      rfl
  | @sendThrows i error d hstage htransient =>
      apply steps_moveTo (lt_length_of_sending hstage)
      rw [hstage]
      exact Or.inl (if_neg htransient)
  | @smtpAccepts m hpending =>
      obtain ⟨x, hx, hmessage⟩ := message_of_pending hpending
      refine leaseStep (a := .accept m) ?_
      rw [lease_settle hx]
      simp only [LeaseState.step, hmessage]
  | @crash i hrunning =>
      exact steps_moveTo (lt_length_of_stageOf (ne_crashed_of_isRunning hrunning)) (Or.inr rfl)
  | sweep now => exact steps_swept now
  | createBatch hleads hok => exact steps_created hok
  | updateSender sender => exact .refl
  | seed => exact .refl
  | tick hclock => exact .refl

/-- The protocol state of a reachable state is reachable in the protocol. -/
theorem lease_reachable {P : Delivery → DeliveryEvent → Prop} (h : (system config).Reachable P s) :
    LeaseState.system.Reachable TransitionSystem.anyStep s.lease := by
  refine h.map lease ?_ fun s event t hs _ hstep =>
    lease_simulates (primaryKey_emails hs) (fun i p hp => claim_id_eq hs hp) hstep
  rintro s ⟨-, hemails, -, -, -, hsubmissions, hexecutions⟩
  -- At the start there are no rows, no messages and no executions.
  refine ⟨fun k token => ?_, fun i => ?_, ?_⟩
  · show holdOf s.database k ≠ _
    rw [holdOf, hemails]
    simp
  · show (s.stageOf i).holder = _
    rw [stageOf, hexecutions]
    rfl
  · show s.submissions.map _ = []
    rw [hsubmissions]
    rfl

/-! ## Safety -/

/-- The claim is current: the row is in `PROCESSING` under its token. -/
def Current (db : Database) (claim : ClaimedEmail) : Prop :=
  ∃ e ∈ db.emails, heldBy claim e = true

/-- The statuses that a delivery ends with. -/
def Settled (status : ScheduledEmailStatus) : Prop :=
  status = .sent ∨ status = .failed ∨ status = .deliveryUnknown

/-- What at-most-once delivery says about a state: the server accepted at most one message for each
email, two sends in flight for one email do not both hold a current claim, and a settled row keeps
its status in every run from here. -/
structure AtMostOnce (config : AppConfig) (s : Delivery) : Prop where
  accepted_once : ∀ emailId, (s.submissions.filter fun x =>
    decide (x.message.scheduledEmailId = emailId ∧ x.status = .accepted)).length ≤ 1
  in_flight : ∀ i j d d', s.stageOf i = .sending d → s.stageOf j = .sending d' →
    d.loaded.email.id = d'.loaded.email.id → Current s.database d.claim →
    Current s.database d'.claim → i = j
  final : ∀ t, (system config).Steps TransitionSystem.anyStep s t → ∀ e ∈ s.database.emails,
    Settled e.status → ∃ e' ∈ t.database.emails, e'.id = e.id ∧ e'.status = e.status ∧
      ∀ e'' ∈ t.database.emails, e''.id = e.id → e'' = e'

theorem holdOf_of_current (hkey : PrimaryKey ScheduledEmail.id s.database.emails)
    {claim : ClaimedEmail} (h : Current s.database claim) :
    holdOf s.database claim.id = .held claim.processingToken := by
  obtain ⟨e, he, hheld⟩ := h
  obtain ⟨hid, hhold⟩ := hold_of_heldBy hheld
  exact (holdOf_eq_of_find? (hkey.find?_eq he hid)).trans hhold

theorem isTerminal_of_settled {status : ScheduledEmailStatus} (h : Settled status) :
    status.isTerminal = true := by
  rcases h with rfl | rfl | rfl <;> rfl

/-- **At-most-once delivery.** It holds in every state reached, whatever is delivered, crashes,
fails or is swept on the way. -/
theorem atMostOnce_of_reachable (h : (system config).Reachable TransitionSystem.anyStep s) :
    AtMostOnce config s := by
  have hinv := LeaseState.inv_of_reachable (lease_reachable h)
  have hkey := primaryKey_emails h
  refine ⟨fun emailId => ?_, ?_, ?_⟩
  -- Two accepted submissions for one email are one message of the protocol.
  · refine length_filter_le_one fun m n x y hx hy hpx hpy => ?_
    rw [decide_eq_true_eq] at hpx hpy
    have hm : s.lease.messages[m]? = some ⟨emailId, x.token, .accepted⟩ := by
      show (s.submissions.map Submission.leaseMessage)[m]? = _
      rw [List.getElem?_map, hx, ← hpx.1, ← hpx.2]
      rfl
    have hn : s.lease.messages[n]? = some ⟨emailId, y.token, .accepted⟩ := by
      show (s.submissions.map Submission.leaseMessage)[n]? = _
      rw [List.getElem?_map, hy, ← hpy.1, ← hpy.2]
      rfl
    exact LeaseState.accepted_unique hinv hm hn
  · intro i j d d' hi hj hemail hcur hcur'
    have hid := claim_id_eq h (i := i) (p := (d.loaded, d.claim)) (by rw [hi]; rfl)
    have hid' := claim_id_eq h (i := j) (p := (d'.loaded, d'.claim)) (by rw [hj]; rfl)
    have hhold := holdOf_of_current hkey hcur
    -- Both claims are of one row, so their tokens are both current for one key.
    have hhold' := holdOf_of_current hkey hcur'
    have hsame : d'.claim.id = d.claim.id := by rw [hid', hid, hemail]
    rw [hsame] at hhold'
    have hwi : (s.lease.worker i).token? = some d.claim.processingToken := by
      show (s.stageOf i).holder.token? = _
      rw [hi]
      rfl
    have hwj : (s.lease.worker j).token? = some d'.claim.processingToken := by
      show (s.stageOf j).holder.token? = _
      rw [hj]
      rfl
    exact LeaseState.current_unique hinv hwi hwj hhold hhold'
  · intro t hst e he hsettled
    obtain ⟨e', he', hid, -, hstatus⟩ := terminal_of_steps hst he (isTerminal_of_settled hsettled)
    refine ⟨e', he', hid, hstatus, fun e'' he'' hid'' => ?_⟩
    exact (primaryKey_emails (h.trans hst)).eq_of_key_eq he'' he' (hid''.trans hid.symm)

/-- One email, delivered twice: the second execution claims nothing. -/
def twoDeliveries : List DeliveryEvent :=
  [.createBatch (requestFor ["lead@test.invalid"]) 10 (fun i => 100 + i),
    .deliver ⟨100, 0, some 3⟩, .deliver ⟨100, 0, some 3⟩,
    .advance 0 ⟨0, 0, .done⟩, .advance 1 ⟨0, 0, .done⟩, .advance 0 ⟨0, 0, .done⟩,
    .advance 0 ⟨0, 70, .done⟩, .advance 0 ⟨0, 0, .done⟩, .smtpAccepts 0,
    .tick 1000, .advance 1 ⟨1000, 0, .done⟩, .sendReturns 0 ⟨"message", none, 1, 0⟩,
    .advance 0 ⟨2000, 0, .done⟩]

theorem atMostOnce_after_twoDeliveries : ∃ s,
    (system validConfig).run TransitionSystem.anyStep twoDeliveries oneSenderStart = some s ∧
      s.database.emails.map ScheduledEmail.status = [.sent] ∧
      s.submissions.map Submission.status = [.accepted] ∧ AtMostOnce validConfig s :=
  ⟨_, rfl, by decide, by decide,
    atMostOnce_of_reachable (reachable_from_oneSender twoDeliveries rfl)⟩

end Delivery

end EmailScheduler
