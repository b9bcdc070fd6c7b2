import EmailScheduler.Config
import EmailScheduler.Schema
import EmailScheduler.Delivery.DeliveryError

/-!
# The database operations of delivery

The transactions of `worker/email-processor.ts` and the sweep of `queue/reconcile.ts`, each as a
function from the database to its result and the database after the commit. A transaction that meets
a violated constraint or a missing record returns the error and changes nothing.

Ids and tokens drawn by `randomUUID` and times read by `new Date()` are arguments.
-/

set_option autoImplicit false

namespace EmailScheduler

open Foundation

/-- The result of a transaction: an error without effects, or a value and the committed database. -/
abbrev Transaction (β : Type) := Except InfrastructureError (β × Database)

/-- `sendAttempt.create`; the token, and the number within an email, are unique. -/
def Database.createSendAttempt (db : Database) (attempt : SendAttempt) :
    Except InfrastructureError Database :=
  if db.attempts.any fun a => decide (a.attemptToken = attempt.attemptToken) ||
      (decide (a.scheduledEmailId = attempt.scheduledEmailId) &&
        decide (a.attemptNumber = attempt.attemptNumber)) then
    .error uniqueConstraintError
  else .ok { db with attempts := db.attempts ++ [attempt] }

/-- `sendAttempt.update` of the attempt with a token. -/
def Database.updateSendAttempt (db : Database) (attemptToken : Uuid)
    (data : SendAttempt → SendAttempt) : Except InfrastructureError Database :=
  if db.attempts.any fun a => decide (a.attemptToken = attemptToken) then
    .ok { db with
      attempts := updateMany (fun a => decide (a.attemptToken = attemptToken)) data db.attempts }
  else .error recordNotFoundError

/-! ## Deferral -/

/-- The rows that `recordRateLimit` updates. -/
def deferrable (scheduledEmailId : Uuid) (e : ScheduledEmail) : Bool :=
  decide (e.id = scheduledEmailId) && e.status.isOpen

theorem deferrable_iff {id : Uuid} {e : ScheduledEmail} :
    deferrable id e = true ↔ e.id = id ∧ e.status.isOpen = true := by
  simp [deferrable]

/-- The update of `recordRateLimit`. -/
def deferRow (nextAvailableAt : Int) (e : ScheduledEmail) : ScheduledEmail :=
  { e with
    status := .rateLimited
    nextAttemptAt := nextAvailableAt
    rateLimitedUntil := some nextAvailableAt
    attemptCount := e.attemptCount + 1 }

/-- The attempt that `recordRateLimit` logs for the updated row. -/
def deferAttempt (email : ScheduledEmail) (now : Int) (attemptToken : Uuid) : SendAttempt where
  scheduledEmailId := email.id
  attemptNumber := email.attemptCount
  attemptToken := attemptToken
  startedAt := now
  finishedAt := some now
  outcome := .rateLimited

/-- `recordRateLimit`. -/
def recordRateLimit (db : Database) (scheduledEmailId : Uuid) (nextAvailableAt now : Int)
    (attemptToken : Uuid) : Transaction Unit :=
  let (updated, emails) :=
    updateManyAndReturn (deferrable scheduledEmailId) (deferRow nextAvailableAt) db.emails
  match updated.head? with
  | none => .ok ((), { db with emails := emails })
  | some email =>
      (Database.createSendAttempt { db with emails := emails }
        (deferAttempt email now attemptToken)).map fun db => ((), db)

/-! ## Claiming -/

/-- What `claimEmail` returns. -/
structure ClaimedEmail where
  id : Uuid
  batchId : Uuid
  attemptCount : Nat
  processingToken : Uuid
deriving DecidableEq, Repr

/-- The rows that `claimEmail` updates. -/
def claimable (scheduledEmailId : Uuid) (e : ScheduledEmail) : Bool :=
  decide (e.id = scheduledEmailId) && decide (e.processingToken = none) && e.status.isOpen

theorem claimable_iff {id : Uuid} {e : ScheduledEmail} :
    claimable id e = true ↔ e.id = id ∧ e.processingToken = none ∧ e.status.isOpen = true := by
  simp [claimable, and_assoc]

/-- The update of `claimEmail`. -/
def claimRow (processingToken : Uuid) (now : Int) (e : ScheduledEmail) : ScheduledEmail :=
  { e with
    status := .processing
    processingToken := some processingToken
    processingStartedAt := some now
    rateLimitedUntil := none
    attemptCount := e.attemptCount + 1 }

/-- The attempt that `claimEmail` logs for the updated row. -/
def claimAttempt (email : ScheduledEmail) (now : Int) (processingToken : Uuid) : SendAttempt where
  scheduledEmailId := email.id
  attemptNumber := email.attemptCount
  attemptToken := processingToken
  startedAt := now
  outcome := .claimed

/-- `claimEmail`. -/
def claimEmail (db : Database) (scheduledEmailId : Uuid) (now : Int) (processingToken : Uuid) :
    Transaction (Option ClaimedEmail) :=
  let (updated, emails) :=
    updateManyAndReturn (claimable scheduledEmailId) (claimRow processingToken now) db.emails
  match updated.head? with
  | none => .ok (none, { db with emails := emails })
  | some email =>
      if db.emails.any fun e => decide (e.processingToken = some processingToken) then
        .error uniqueConstraintError
      else
        (Database.createSendAttempt { db with emails := emails }
          (claimAttempt email now processingToken)).map fun db =>
          (some ⟨email.id, email.batchId, email.attemptCount, processingToken⟩, db)

/-! ## Recording an outcome -/

/-- `DeliveryReceipt`. -/
structure DeliveryReceipt where
  messageId : String
  previewUrl : Option String
  acceptedCount : Nat
  rejectedCount : Nat
deriving DecidableEq, Repr

/-- The row that a claim holds: `PROCESSING` under the claim's token. -/
def heldBy (claim : ClaimedEmail) (e : ScheduledEmail) : Bool :=
  decide (e.id = claim.id) && decide (e.status = .processing) &&
    decide (e.processingToken = some claim.processingToken)

theorem heldBy_iff {claim : ClaimedEmail} {e : ScheduledEmail} :
    heldBy claim e = true ↔ e.id = claim.id ∧ e.status = .processing ∧
      e.processingToken = some claim.processingToken := by
  simp [heldBy, and_assoc]

/-- The update of `recordAccepted`. -/
def acceptRow (receipt : DeliveryReceipt) (now : Int) (e : ScheduledEmail) : ScheduledEmail :=
  { e with
    status := .sent
    sentAt := some now
    nextAttemptAt := now
    processingToken := none
    processingStartedAt := none
    smtpMessageId := some receipt.messageId
    etherealPreviewUrl := receipt.previewUrl
    lastErrorCode := none
    lastErrorMessage := none }

/-- The log entry of an accepted message. -/
def acceptAttempt (receipt : DeliveryReceipt) (now : Int) (a : SendAttempt) : SendAttempt :=
  { a with
    finishedAt := some now
    outcome := .smtpAccepted
    responseMetadata := some ⟨receipt.acceptedCount, receipt.rejectedCount⟩ }

/-- The transaction of `recordAccepted`. -/
def recordAccepted (db : Database) (claim : ClaimedEmail) (receipt : DeliveryReceipt) (now : Int) :
    Transaction Unit :=
  let (updated, emails) := updateManyAndReturn (heldBy claim) (acceptRow receipt now) db.emails
  if updated.length ≠ 1 then .error notFinalizedError
  else
    (Database.updateSendAttempt { db with emails := emails } claim.processingToken
      (acceptAttempt receipt now)).map fun db => ((), db)

/-- The three results of `recordFailure`. -/
inductive FailureResult where
  | failed
  | retryable
  | unknown
deriving DecidableEq, Repr

/-- `result` of `recordFailure`. -/
def failureResult (classification : DeliveryClassification) (finalRetry : Bool) : FailureResult :=
  if classification = .transient ∧ finalRetry = false then .retryable
  else if classification = .unknown then .unknown
  else .failed

namespace FailureResult

/-- `status` of `recordFailure`. -/
def status : FailureResult → ScheduledEmailStatus
  | .retryable => .retryable
  | .unknown => .deliveryUnknown
  | .failed => .failed

/-- `outcome` of `recordFailure`. -/
def outcome : FailureResult → SendAttemptOutcome
  | .retryable => .transientFailure
  | .unknown => .deliveryUnknown
  | .failed => .definiteFailure

/-- The word in the message of the `UnrecoverableError`. -/
def text : FailureResult → String
  | .retryable => "retryable"
  | .unknown => "unknown"
  | .failed => "failed"

end FailureResult

/-- The update of `recordFailure`. -/
def failRow (config : AppConfig) (result : FailureResult) (sanitized : SafeError) (now : Int)
    (e : ScheduledEmail) : ScheduledEmail :=
  { e with
    status := result.status
    nextAttemptAt := if result = .retryable then now + config.smtpBackoffMs else now
    processingToken := none
    processingStartedAt := none
    lastErrorCode := some sanitized.code
    lastErrorMessage := some sanitized.message }

/-- The log entry of a failed send. -/
def failAttempt (result : FailureResult) (sanitized : SafeError) (now : Int) (a : SendAttempt) :
    SendAttempt :=
  { a with
    finishedAt := some now
    outcome := result.outcome
    errorCode := some sanitized.code
    errorMessage := some sanitized.message }

/-- The transaction of `recordFailure`, with the result it records. -/
def recordFailure (config : AppConfig) (db : Database) (claim : ClaimedEmail)
    (classification : DeliveryClassification) (finalRetry : Bool) (error : ThrownValue)
    (now : Int) : Transaction FailureResult :=
  let sanitized := safeError classification error
  let result := failureResult classification finalRetry
  let emails := updateMany (heldBy claim) (failRow config result sanitized now) db.emails
  (Database.updateSendAttempt { db with emails := emails } claim.processingToken
    (failAttempt result sanitized now)).map fun db => (result, db)

/-! ## The batch label -/

/-- The first count of `updateBatchCompletion`. -/
def countRemaining (db : Database) (batchId : Uuid) : Nat :=
  db.countEmails batchId ScheduledEmailStatus.isRemaining

/-- The second count of `updateBatchCompletion`. -/
def countUnsuccessful (db : Database) (batchId : Uuid) : Nat :=
  db.countEmails batchId ScheduledEmailStatus.isUnsuccessful

/-- The status that `updateBatchCompletion` writes. -/
def completionStatus (unsuccessful : Nat) : EmailBatchStatus :=
  if unsuccessful = 0 then .completed else .partiallyFailed

/-- The last statement of `updateBatchCompletion`. -/
def labelBatch (db : Database) (batchId : Uuid) (unsuccessful : Nat) : Transaction Unit :=
  if db.batches.any fun b => decide (b.id = batchId) then
    .ok ((), { db with
      batches := updateMany (fun b => decide (b.id = batchId))
        (fun b => { b with status := completionStatus unsuccessful }) db.batches })
  else .error recordNotFoundError

/-! ## The stale sweep -/

/-- The rows that `reconcileEmailQueue` gives up: `PROCESSING` since before the lease. -/
def isStale (config : AppConfig) (now : Int) (e : ScheduledEmail) : Bool :=
  decide (e.status = .processing) &&
    e.processingStartedAt.any fun startedAt => decide (startedAt < now - config.processingLeaseMs)

theorem isStale_iff {config : AppConfig} {now : Int} {e : ScheduledEmail} :
    isStale config now e = true ↔ e.status = .processing ∧
      ∃ startedAt, e.processingStartedAt = some startedAt ∧
        startedAt < now - config.processingLeaseMs := by
  simp [isStale, Option.any_eq_true]

/-- The update of the sweep. -/
def abandonRow (e : ScheduledEmail) : ScheduledEmail :=
  { e with
    status := .deliveryUnknown
    processingToken := none
    lastErrorCode := some "STALE_PROCESSING_LEASE"
    lastErrorMessage := some "Delivery outcome is unknown after worker interruption" }

/-- The first statement of `reconcileEmailQueue`, with the number of rows it updates. -/
def sweepStaleLeases (config : AppConfig) (db : Database) (now : Int) : Nat × Database :=
  (db.emails.countP (isStale config now),
    { db with emails := updateMany (isStale config now) abandonRow db.emails })

/-! ## What a commit leaves behind -/

private theorem map_eq_ok {β γ : Type} {x : Except InfrastructureError β} {f : β → γ} {c : γ}
    (h : x.map f = .ok c) : ∃ b, x = .ok b ∧ f b = c := by
  cases x with
  | error => cases h
  | ok b => exact ⟨b, rfl, Except.ok.inj h⟩

theorem Database.createSendAttempt_eq_ok {db db' : Database} {attempt : SendAttempt}
    (h : db.createSendAttempt attempt = .ok db') :
    (∀ a ∈ db.attempts, a.attemptToken ≠ attempt.attemptToken) ∧
      db' = { db with attempts := db.attempts ++ [attempt] } := by
  unfold createSendAttempt at h
  split at h
  next => cases h
  next hfresh =>
    cases h
    refine ⟨fun a ha heq => hfresh ?_, rfl⟩
    rw [List.any_eq_true]
    exact ⟨a, ha, by simp [heq]⟩

theorem Database.updateSendAttempt_eq_ok {db db' : Database} {attemptToken : Uuid}
    {data : SendAttempt → SendAttempt} (h : db.updateSendAttempt attemptToken data = .ok db') :
    db' = { db with
      attempts := updateMany (fun a => decide (a.attemptToken = attemptToken)) data
        db.attempts } := by
  unfold updateSendAttempt at h
  split at h
  · cases h
    rfl
  · cases h

/-- A deferral finds no open row and changes nothing, or defers an open row and logs an attempt. -/
theorem recordRateLimit_eq_ok {db db' : Database} {id : Uuid} {nextAvailableAt now : Int}
    {attemptToken : Uuid}
    (h : recordRateLimit db id nextAvailableAt now attemptToken = .ok ((), db')) :
    db' = db ∨ ∃ row ∈ db.emails, deferrable id row = true ∧
      (∀ a ∈ db.attempts, a.attemptToken ≠ attemptToken) ∧
      db' = { db with
        emails := updateMany (deferrable id) (deferRow nextAvailableAt) db.emails
        attempts := db.attempts ++
          [deferAttempt (deferRow nextAvailableAt row) now attemptToken] } := by
  unfold recordRateLimit at h
  dsimp only at h
  split at h
  next hnone =>
    obtain ⟨-, hsame⟩ := updateManyAndReturn_of_head?_none hnone
    rw [hsame] at h
    cases h
    exact Or.inl rfl
  next email hsome =>
    obtain ⟨row, hrow, hmatch, rfl⟩ := mem_of_head?_updateManyAndReturn hsome
    obtain ⟨db₁, hcreate, heq⟩ := map_eq_ok h
    obtain ⟨hfresh, rfl⟩ := Database.createSendAttempt_eq_ok hcreate
    cases heq
    exact Or.inr ⟨row, hrow, hmatch, hfresh, rfl⟩

/-- A claim that returns nothing found no open row and changed nothing. -/
theorem claimEmail_eq_ok_none {db db' : Database} {id : Uuid} {now : Int} {processingToken : Uuid}
    (h : claimEmail db id now processingToken = .ok (none, db')) :
    db' = db ∧ ∀ row ∈ db.emails, claimable id row = false := by
  unfold claimEmail at h
  dsimp only at h
  split at h
  next hnone =>
    obtain ⟨hall, hsame⟩ := updateManyAndReturn_of_head?_none hnone
    rw [hsame] at h
    cases h
    exact ⟨rfl, hall⟩
  next email hsome =>
    split at h
    · cases h
    · obtain ⟨db₁, -, heq⟩ := map_eq_ok h
      cases heq

/-- A claim takes an open row under a token that no attempt carries, and logs an attempt. -/
theorem claimEmail_eq_ok_some {db db' : Database} {id : Uuid} {now : Int} {processingToken : Uuid}
    {claim : ClaimedEmail} (h : claimEmail db id now processingToken = .ok (some claim, db')) :
    ∃ row ∈ db.emails, claimable id row = true ∧
      claim = ⟨row.id, row.batchId, row.attemptCount + 1, processingToken⟩ ∧
      (∀ a ∈ db.attempts, a.attemptToken ≠ processingToken) ∧
      db' = { db with
        emails := updateMany (claimable id) (claimRow processingToken now) db.emails
        attempts := db.attempts ++
          [claimAttempt (claimRow processingToken now row) now processingToken] } := by
  unfold claimEmail at h
  dsimp only at h
  split at h
  next hnone => cases h
  next email hsome =>
    obtain ⟨row, hrow, hmatch, rfl⟩ := mem_of_head?_updateManyAndReturn hsome
    split at h
    · cases h
    · obtain ⟨db₁, hcreate, heq⟩ := map_eq_ok h
      obtain ⟨hfresh, rfl⟩ := Database.createSendAttempt_eq_ok hcreate
      cases heq
      exact ⟨row, hrow, hmatch, rfl, hfresh, rfl⟩

/-- An acceptance is recorded on the row that the claim holds. -/
theorem recordAccepted_eq_ok {db db' : Database} {claim : ClaimedEmail} {receipt : DeliveryReceipt}
    {now : Int} (h : recordAccepted db claim receipt now = .ok ((), db')) :
    (∃ row ∈ db.emails, heldBy claim row = true) ∧
      db' = { db with
        emails := updateMany (heldBy claim) (acceptRow receipt now) db.emails
        attempts := updateMany (fun a => decide (a.attemptToken = claim.processingToken))
          (acceptAttempt receipt now) db.attempts } := by
  unfold recordAccepted at h
  dsimp only at h
  split at h
  · cases h
  next hcount =>
    obtain ⟨db₁, hupdate, heq⟩ := map_eq_ok h
    have hdb := Database.updateSendAttempt_eq_ok hupdate
    cases heq
    refine ⟨?_, hdb⟩
    simp only [updateManyAndReturn, List.length_map, ne_eq, not_not] at hcount
    have hpos : 0 < (db.emails.filter (heldBy claim)).length := by omega
    obtain ⟨row, hrow⟩ := List.exists_mem_of_length_pos hpos
    exact ⟨row, List.mem_filter.1 hrow⟩

/-- A failure is recorded on the row that the claim holds, if it still holds it. -/
theorem recordFailure_eq_ok {config : AppConfig} {db db' : Database} {claim : ClaimedEmail}
    {classification : DeliveryClassification} {finalRetry : Bool} {error : ThrownValue} {now : Int}
    {result : FailureResult}
    (h : recordFailure config db claim classification finalRetry error now = .ok (result, db')) :
    result = failureResult classification finalRetry ∧
      db' = { db with
        emails := updateMany (heldBy claim)
          (failRow config result (safeError classification error) now) db.emails
        attempts := updateMany (fun a => decide (a.attemptToken = claim.processingToken))
          (failAttempt result (safeError classification error) now) db.attempts } := by
  obtain ⟨db₁, hupdate, heq⟩ := map_eq_ok h
  have hdb := Database.updateSendAttempt_eq_ok hupdate
  cases heq
  exact ⟨rfl, hdb⟩

/-- A failure is recorded whenever the attempt of the claim is there, held or not. -/
theorem recordFailure_isOk (config : AppConfig) {db : Database} {claim : ClaimedEmail}
    (h : db.attempts.any (fun a => decide (a.attemptToken = claim.processingToken)) = true)
    (classification : DeliveryClassification) (finalRetry : Bool) (error : ThrownValue)
    (now : Int) : ∃ result db',
      recordFailure config db claim classification finalRetry error now = .ok (result, db') := by
  unfold recordFailure Database.updateSendAttempt
  dsimp only
  rw [if_pos h]
  exact ⟨_, _, rfl⟩

/-- The label is written on the batch. -/
theorem labelBatch_eq_ok {db db' : Database} {batchId : Uuid} {unsuccessful : Nat}
    (h : labelBatch db batchId unsuccessful = .ok ((), db')) :
    db' = { db with
      batches := updateMany (fun b => decide (b.id = batchId))
        (fun b => { b with status := completionStatus unsuccessful }) db.batches } := by
  unfold labelBatch at h
  split at h
  · cases h
    rfl
  · cases h

end EmailScheduler
