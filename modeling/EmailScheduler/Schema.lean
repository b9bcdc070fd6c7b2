import EmailScheduler.Foundation.Table

/-!
# The database schema

The tables of `schema.prisma` that scheduling and delivery use, with the columns that some operation
reads or writes. `createdAt` and `updatedAt` are written by Prisma and read by no operation here.

A `Uuid` is the 128-bit number that its text denotes; PostgreSQL orders `uuid` columns by that
number. Times are integers: milliseconds since the epoch, as `Date.getTime`
returns them.
-/

set_option autoImplicit false

namespace EmailScheduler

open Foundation

/-- A UUID, as the number it denotes. -/
abbrev Uuid := Nat

inductive EmailBatchStatus where
  | creating
  | scheduled
  | partiallyFailed
  | completed
deriving DecidableEq, Repr

inductive ScheduledEmailStatus where
  | scheduled
  | rateLimited
  | processing
  | retryable
  | sent
  | failed
  | deliveryUnknown
  | cancelled
deriving DecidableEq, Repr

inductive SendAttemptOutcome where
  | claimed
  | rateLimited
  | smtpAccepted
  | definiteFailure
  | transientFailure
  | deliveryUnknown
deriving DecidableEq, Repr

namespace ScheduledEmailStatus

/-- `status: { in: ["SCHEDULED", "RATE_LIMITED", "RETRYABLE"] }`: the row may be enqueued, deferred
or claimed. -/
def isOpen : ScheduledEmailStatus → Bool
  | .scheduled | .rateLimited | .retryable => true
  | _ => false

/-- `terminalStatuses` of the processor. -/
def isTerminal : ScheduledEmailStatus → Bool
  | .sent | .failed | .deliveryUnknown | .cancelled => true
  | _ => false

/-- `status: { in: ["SCHEDULED", "RATE_LIMITED", "PROCESSING", "RETRYABLE"] }` of
`updateBatchCompletion`. -/
def isRemaining : ScheduledEmailStatus → Bool
  | .scheduled | .rateLimited | .processing | .retryable => true
  | _ => false

/-- `status: { in: ["FAILED", "DELIVERY_UNKNOWN", "CANCELLED"] }` of `updateBatchCompletion`. -/
def isUnsuccessful : ScheduledEmailStatus → Bool
  | .failed | .deliveryUnknown | .cancelled => true
  | _ => false

/-- Nothing remains exactly when the status is terminal. -/
theorem isRemaining_eq_not_isTerminal (s : ScheduledEmailStatus) :
    s.isRemaining = !s.isTerminal := by
  cases s <;> rfl

theorem not_isTerminal_of_isOpen {s : ScheduledEmailStatus} (h : s.isOpen = true) :
    s.isTerminal = false := by
  cases s <;> simp_all [isOpen, isTerminal]

/-- A terminal status is `SENT` or counts as unsuccessful. -/
theorem isUnsuccessful_eq_of_isTerminal {s : ScheduledEmailStatus} (h : s.isTerminal = true) :
    s.isUnsuccessful = !decide (s = .sent) := by
  cases s <;> simp_all [isTerminal, isUnsuccessful]

end ScheduledEmailStatus

/-- A BullMQ job id, as the constant part and the id it is built from; `email_<id>` is the only
form the source builds. -/
structure BullJobId where
  text : String
  emailId : Uuid
deriving DecidableEq, Repr

/-- `createBullJobId`. -/
def createBullJobId (scheduledEmailId : Uuid) : BullJobId := ⟨"email_", scheduledEmailId⟩

theorem createBullJobId_injective {a b : Uuid} (h : createBullJobId a = createBullJobId b) :
    a = b :=
  congrArg BullJobId.emailId h

/-- The key `recipient_<digest>`. The SHA-256 digest is represented by what it is computed from: the
batch id and the normalized address, which the source separates by a zero byte. -/
structure RecipientKey where
  batchId : Uuid
  normalizedRecipientEmail : String
deriving DecidableEq, Repr

/-- `createRecipientIdempotencyKey`. -/
def createRecipientIdempotencyKey (batchId : Uuid) (normalizedRecipientEmail : String) :
    RecipientKey :=
  ⟨batchId, normalizedRecipientEmail⟩

structure EmailSender where
  id : Uuid
  userId : Uuid
  displayName : String
  email : String
  normalizedEmail : String
  isDefault : Bool
  isActive : Bool
  hourlyLimit : Int
  minimumDelayMs : Int
deriving DecidableEq, Repr

structure EmailBatch where
  id : Uuid
  userId : Uuid
  senderId : Uuid
  idempotencyKey : String
  subject : String
  bodyText : String
  startAt : Int
  requestedHourlyLimit : Int
  requestedMinimumDelayMs : Int
  sourceFilename : String
  totalRows : Nat
  validRecipientCount : Nat
  invalidRecipientCount : Nat
  duplicateRecipientCount : Nat
  status : EmailBatchStatus
deriving DecidableEq, Repr

structure ScheduledEmail where
  id : Uuid
  batchId : Uuid
  senderId : Uuid
  recipientEmail : String
  normalizedRecipientEmail : String
  sequenceNumber : Nat
  scheduledAt : Int
  nextAttemptAt : Int
  sentAt : Option Int := none
  status : ScheduledEmailStatus := .scheduled
  bullJobId : BullJobId
  idempotencyKey : RecipientKey
  attemptCount : Nat := 0
  processingToken : Option Uuid := none
  processingStartedAt : Option Int := none
  smtpMessageId : Option String := none
  etherealPreviewUrl : Option String := none
  lastErrorCode : Option String := none
  lastErrorMessage : Option String := none
  rateLimitedUntil : Option Int := none
deriving DecidableEq, Repr

/-- The `responseMetadata` of an accepted attempt. -/
structure ResponseMetadata where
  acceptedCount : Nat
  rejectedCount : Nat
deriving DecidableEq, Repr

structure SendAttempt where
  scheduledEmailId : Uuid
  attemptNumber : Nat
  attemptToken : Uuid
  startedAt : Int
  finishedAt : Option Int := none
  outcome : SendAttemptOutcome
  responseMetadata : Option ResponseMetadata := none
  errorCode : Option String := none
  errorMessage : Option String := none
deriving DecidableEq, Repr

/-- The tables. -/
structure Database where
  senders : List EmailSender
  batches : List EmailBatch
  emails : List ScheduledEmail
  attempts : List SendAttempt
deriving DecidableEq, Repr

/-- A scheduled email with its batch and its sender: `include: { batch: true, sender: true }`. -/
structure LoadedEmail where
  email : ScheduledEmail
  batch : EmailBatch
  sender : EmailSender
deriving DecidableEq, Repr

namespace Database

variable (db : Database)

/-- `scheduledEmail.findUnique` with batch and sender. Foreign keys make both present for every
row. -/
def findScheduledEmail (id : Uuid) : Option LoadedEmail := do
  let email ← db.emails.find? fun e => e.id = id
  let batch ← db.batches.find? fun b => b.id = email.batchId
  let sender ← db.senders.find? fun s => s.id = email.senderId
  return ⟨email, batch, sender⟩

/-- The emails of a batch. -/
def emailsOf (batchId : Uuid) : List ScheduledEmail := db.emails.filter fun e => e.batchId = batchId

/-- `scheduledEmail.count({ where: { batchId, status: … } })`. -/
def countEmails (batchId : Uuid) (status : ScheduledEmailStatus → Bool) : Nat :=
  db.emails.countP fun e => decide (e.batchId = batchId) && status e.status

theorem mem_emailsOf {batchId : Uuid} {e : ScheduledEmail} :
    e ∈ db.emailsOf batchId ↔ e ∈ db.emails ∧ e.batchId = batchId := by
  simp [emailsOf]

theorem countEmails_eq_zero_iff {batchId : Uuid} {status : ScheduledEmailStatus → Bool} :
    db.countEmails batchId status = 0 ↔ ∀ e ∈ db.emailsOf batchId, status e.status = false := by
  simp only [countEmails, List.countP_eq_zero, mem_emailsOf, Bool.and_eq_true, decide_eq_true_eq,
    not_and, Bool.not_eq_true, and_imp]

/-- What `findScheduledEmail` returns is a row with its own batch and sender. -/
theorem findScheduledEmail_eq_some {id : Uuid} {loaded : LoadedEmail}
    (h : db.findScheduledEmail id = some loaded) :
    loaded.email ∈ db.emails ∧ loaded.email.id = id ∧
      loaded.batch ∈ db.batches ∧ loaded.batch.id = loaded.email.batchId ∧
      loaded.sender ∈ db.senders ∧ loaded.sender.id = loaded.email.senderId := by
  simp only [findScheduledEmail, Option.bind_eq_bind, Option.bind_eq_some_iff, Option.pure_def,
    Option.some.injEq] at h
  obtain ⟨email, hemail, batch, hbatch, sender, hsender, rfl⟩ := h
  have hid := List.find?_some hemail
  have hbid := List.find?_some hbatch
  have hsid := List.find?_some hsender
  simp only [decide_eq_true_eq] at hid hbid hsid
  exact ⟨List.mem_of_find?_eq_some hemail, hid, List.mem_of_find?_eq_some hbatch, hbid,
    List.mem_of_find?_eq_some hsender, hsid⟩

end Database

end EmailScheduler
