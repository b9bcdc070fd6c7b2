import EmailScheduler.Api.Senders

/-!
# Batches

The routes `POST /email-batches` and `GET /email-batches/:batchId` of `email/router.ts`, and
`createEmailBatch` as these routes call it: one request at a time.

The transaction of `createEmailBatch` is `createBatchTransaction`, run on the columns that it knows.
The tables keep its rows with the time at which they were written (`batchTransaction_database`).

Besides the tables, the state has the ids of the batches that were handed to `enqueueBatch`.
-/

set_option autoImplicit false

namespace EmailScheduler

open Foundation

/-- What a request draws from the process: times, ids, and whether the queue can be reached. -/
structure RequestContext where
  /-- `new Date()` of the handler. -/
  now : Int
  /-- The time of the rows that are written. -/
  writtenAt : Int
  newId : Uuid
  newEmailId : Nat → Uuid
  queueAvailable : Bool

structure ApiState where
  tables : Tables
  enqueued : List Uuid := []
deriving DecidableEq, Repr

abbrev Route (α : Type) : Type := Action ApiState RequestError α

/-- A statement or a transaction of a route. -/
def onTables {α : Type} (x : Statement α) : Route α := fun s =>
  ((x s.tables).1, { s with tables := (x s.tables).2 })

/-- `enqueueBatch`, with the `catch` around it. -/
def enqueueBatch (ctx : RequestContext) (batchId : Uuid) : Route Unit := fun s =>
  (if ctx.queueAvailable then .ok ()
    else .error (httpError 503 "QUEUE_UNAVAILABLE"
      "The batch is saved but could not be queued; retry with the same idempotency key"),
    { s with enqueued := s.enqueued ++ [batchId] })

/-! ## The request -/

/-- The text fields of the multipart body. -/
structure ScheduleBody where
  senderId : Field Uuid
  subject : Field String
  body : Field String
  startAt : Field Int
  hourlyLimit : Field Int
  minimumDelayMs : Field Int
  hasUnknownKeys : Bool := false
deriving DecidableEq, Repr

structure ScheduleInput where
  senderId : Uuid
  subject : String
  body : String
  startAt : Int
  hourlyLimit : Int
  minimumDelayMs : Int
deriving DecidableEq, Repr

/-- What `upload.single("leadsFile")` leaves of a request that it accepts. -/
structure Upload where
  body : Option ScheduleBody
  file : Option LeadFile

variable (config : AppConfig) (lib : Libraries)

/-- `z.string().min(1).max(limit)`. -/
def boundedText (limit : Int) (text : String) : Option String :=
  if 1 ≤ utf16Length text ∧ (utf16Length text : Int) ≤ limit then some text else none

def scheduleSchema : Option ScheduleBody → Except RequestError ScheduleInput
  | none => .error (.invalidRequest [""])
  | some fields =>
      let senderId := fields.senderId.required some
      let subject := fields.subject.required (trimmedText config.maxSubjectLength)
      let body := fields.body.required (boundedText config.maxBodyLength)
      let startAt := fields.startAt.required some
      let hourlyLimit := fields.hourlyLimit.required (hourlyLimitField config)
      let minimumDelayMs := fields.minimumDelayMs.required (minimumDelayField config)
      match senderId, subject, body, startAt, hourlyLimit, minimumDelayMs,
        fields.hasUnknownKeys with
      | some senderId, some subject, some body, some startAt, some hourlyLimit,
          some minimumDelayMs, false =>
          .ok ⟨senderId, subject, body, startAt, hourlyLimit, minimumDelayMs⟩
      | _, _, _, _, _, _, unknown =>
          .error (.invalidRequest (issue "senderId" senderId ++ issue "subject" subject ++
            issue "body" body ++ issue "startAt" startAt ++ issue "hourlyLimit" hourlyLimit ++
            issue "minimumDelayMs" minimumDelayMs ++ if unknown then [""] else []))

/-- `/^[A-Za-z0-9._~-]+$/`. -/
def isKeyCharacter (c : Char) : Bool := c.isAlphanum || ['.', '_', '~', '-'].contains c

/-- `idempotencyKeySchema`, on the header. -/
def idempotencyKeySchema : Option String → Except RequestError String
  | none => .error (.invalidRequest [""])
  | some key =>
      if 8 ≤ utf16Length key ∧ utf16Length key ≤ 255 ∧ key.toList.all isKeyCharacter then .ok key
      else .error (.invalidRequest [""])

def parseFileOrThrow : Option LeadFile → Except RequestError LeadParseResult
  | none => .error (httpError 400 "LEADS_FILE_REQUIRED" "A leadsFile upload is required")
  | some file =>
      match parseLeadFile lib file config.maxLeadsPerBatch with
      | .ok result => .ok result
      | .error e =>
          .error (httpError (if e.code = "TOO_MANY_LEADS" then 413 else 422) e.code e.message)

/-- The checks of `POST /email-batches` for a new key, and the input that they leave. -/
def batchInput (user : Uuid) (idempotencyKey : String) (upload : Upload) (now : Int) :
    Except RequestError CreateBatchInput := do
  let input ← scheduleSchema config upload.body
  let horizon := now + config.maxScheduleHorizonDays * 24 * 60 * 60 * 1000
  if input.startAt < now ∨ horizon < input.startAt then
    throw (httpError 422 "INVALID_START_TIME"
      "The start time must be in the future and within the configured schedule horizon")
  let parsedLeads ← parseFileOrThrow config lib upload.file
  let lastScheduledAt :=
    input.startAt + max 0 ((parsedLeads.leads.length : Int) - 1) * input.minimumDelayMs
  if horizon < lastScheduledAt then
    throw (httpError 422 "SCHEDULE_EXCEEDS_HORIZON"
      "The staggered batch extends beyond the configured schedule horizon")
  return {
    userId := user
    senderId := input.senderId
    idempotencyKey := idempotencyKey
    subject := input.subject
    bodyText := input.body
    startAt := input.startAt
    hourlyLimit := input.hourlyLimit
    minimumDelayMs := input.minimumDelayMs
    sourceFilename := basename ((upload.file.map LeadFile.originalname).getD "leads.txt")
    parsedLeads := parsedLeads }

/-! ## `createEmailBatch` -/

/-- The errors of `createEmailBatch`, as the router sees them. -/
def CreateBatchError.toRequestError : CreateBatchError → RequestError
  | .http error => .http error
  | .prisma code => .prisma code
  | .other => .other

/-- `findExistingBatch`. -/
def findBatchByKey (userId : Uuid) (idempotencyKey : String) (t : Tables) : Option StoredBatch :=
  t.batches.find? fun b =>
    decide (b.userId = userId) && decide (b.idempotencyKey = idempotencyKey)

variable (input : CreateBatchInput) (ctx : RequestContext)

/-- The row of the batch. -/
def storedBatch : StoredBatch where
  toEmailBatch := createdBatch input ctx.newId
  createdAt := ctx.writtenAt

/-- The rows of its emails. -/
def storedEmails : List StoredEmail :=
  (emailRows input ctx.newId ctx.newEmailId).map fun row => ⟨row, ctx.writtenAt⟩

/-- The policy of a request, which becomes the sender's. -/
def policyData : SenderData where
  hourlyLimit := some input.hourlyLimit
  minimumDelayMs := some input.minimumDelayMs

/-- What the transaction writes. -/
def writeBatch (t : Tables) : Tables :=
  { t with
    senders := updateMany (fun s => decide (s.id = input.senderId))
      ((policyData input).apply ctx.writtenAt) t.senders
    batches := t.batches ++ [storedBatch input ctx]
    emails := t.emails ++ storedEmails input ctx }

/-- The columns of a new batch. -/
def checkBatch (batch : EmailBatch) : Except RequestError Unit := do
  checkText 255 batch.idempotencyKey
  checkText 998 batch.subject
  checkUnboundedText batch.bodyText
  checkInteger batch.requestedHourlyLimit
  checkInteger batch.requestedMinimumDelayMs
  checkText 255 batch.sourceFilename
  checkInteger batch.totalRows
  checkInteger batch.validRecipientCount
  checkInteger batch.invalidRecipientCount
  checkInteger batch.duplicateRecipientCount

/-- The columns of a new email. -/
def checkEmail (row : ScheduledEmail) : Except RequestError Unit := do
  checkText 320 row.recipientEmail
  checkText 320 row.normalizedRecipientEmail
  checkInteger row.sequenceNumber

/-- The columns that the transaction writes, in the order of its statements. -/
def checkColumns : Except RequestError Unit := do
  (policyData input).check
  checkBatch (createdBatch input ctx.newId)
  (emailRows input ctx.newId ctx.newEmailId).forM checkEmail

/-- The transaction on columns that hold what it writes. -/
def insertCreated : Statement StoredBatch := fun t =>
  match createBatchTransaction t.database input ctx.newId ctx.newEmailId with
  | .error e => (.error e.toRequestError, t)
  | .ok _ => (.ok (storedBatch input ctx), writeBatch input ctx t)

/-- The transaction. A column that does not hold its value and a unique index that does not let a
row in throw different errors, but the error handler answers both alike, so the columns are checked
first. -/
def batchTransaction : Statement StoredBatch := do
  .throwIf (fun t => (findActiveSender t.database input.senderId input.userId).isNone)
    senderNotFound.toRequestError
  .ofExcept (checkColumns input ctx)
  insertCreated input ctx

/-- The `catch` of `createEmailBatch`. -/
def rereadBatch : RequestError → Statement (StoredBatch × Bool)
  | .prisma "P2002" => do
      let raced ← .read (findBatchByKey input.userId input.idempotencyKey)
      match raced with
      | some batch => return (batch, true)
      | none => .throw (.prisma "P2002")
  | error => .throw error

def createEmailBatch : Statement (StoredBatch × Bool) := do
  let existing ← .read (findBatchByKey input.userId input.idempotencyKey)
  match existing with
  | some batch => return (batch, true)
  | none =>
      if input.parsedLeads.leads = [] then .throw (noValidRecipients input).toRequestError
      else
        Action.catchError (do
          let batch ← batchTransaction input ctx
          return (batch, false)) (rereadBatch input)

/-! ## The routes -/

structure BatchCreationResponse where
  replayed : Bool
  id : Uuid
  status : EmailBatchStatus
  startAt : Int
  totalRows : Nat
  validRecipientCount : Nat
  invalidRecipientCount : Nat
  duplicateRecipientCount : Nat
  invalidRows : List InvalidLead
deriving DecidableEq, Repr

def batchCreationResponse (batch : StoredBatch) (replayed : Bool) (invalidRows : List InvalidLead) :
    BatchCreationResponse where
  replayed := replayed
  id := batch.id
  status := batch.status
  startAt := batch.startAt
  totalRows := batch.totalRows
  validRecipientCount := batch.validRecipientCount
  invalidRecipientCount := batch.invalidRecipientCount
  duplicateRecipientCount := batch.duplicateRecipientCount
  invalidRows := invalidRows

variable (user : Uuid)

/-- `POST /email-batches`: the status and the body of the response. -/
def postEmailBatches (upload : Except String Upload) (header : Option String) :
    Route (Nat × BatchCreationResponse) := do
  let upload ← .ofExcept (upload.mapError RequestError.multer)
  let idempotencyKey ← .ofExcept (idempotencyKeySchema header)
  let existing ← onTables (.read (findBatchByKey user idempotencyKey))
  match existing with
  | some batch => do
      enqueueBatch ctx batch.id
      return (200, batchCreationResponse batch true [])
  | none => do
      let input ← .ofExcept (batchInput config lib user idempotencyKey upload ctx.now)
      let (batch, replayed) ← onTables (createEmailBatch input ctx)
      enqueueBatch ctx batch.id
      return (if replayed then 200 else 201, batchCreationResponse batch replayed
        (if replayed then [] else input.parsedLeads.invalidRows))

/-- `select: { id, displayName, email }` of a sender. -/
structure SenderSummary where
  id : Uuid
  displayName : String
  email : String
deriving DecidableEq, Repr

def senderSummary (s : StoredSender) : SenderSummary := ⟨s.id, s.displayName, s.email⟩

structure BatchResponse where
  id : Uuid
  status : EmailBatchStatus
  subject : String
  startAt : Int
  totalRows : Nat
  valid : Nat
  invalid : Nat
  duplicate : Nat
  byStatus : List (ScheduledEmailStatus × Nat)
  sender : Option SenderSummary
  createdAt : Int
deriving DecidableEq, Repr

/-- All statuses, as the enumeration of the schema lists them. -/
def allStatuses : List ScheduledEmailStatus :=
  [.scheduled, .rateLimited, .processing, .retryable, .sent, .failed, .deliveryUnknown, .cancelled]

/-- `scheduledEmail.groupBy({ by: ["status"] })` of a batch: the statuses that occur. -/
def statusCounts (batchId : Uuid) (t : Tables) : List (ScheduledEmailStatus × Nat) :=
  (allStatuses.map fun status => (status, t.emails.countP fun e =>
    decide (e.batchId = batchId) && decide (e.status = status))).filter fun entry => 0 < entry.2

/-- `emailSender` of a row, by its reference. -/
def senderOf (senderId : Uuid) (t : Tables) : Option StoredSender :=
  t.senders.find? fun s => decide (s.id = senderId)

def batchResponse (batch : StoredBatch) (t : Tables) : BatchResponse where
  id := batch.id
  status := batch.status
  subject := batch.subject
  startAt := batch.startAt
  totalRows := batch.totalRows
  valid := batch.validRecipientCount
  invalid := batch.invalidRecipientCount
  duplicate := batch.duplicateRecipientCount
  byStatus := statusCounts batch.id t
  sender := (senderOf batch.senderId t).map senderSummary
  createdAt := batch.createdAt

/-- `emailBatch.findFirst({ where: { id, userId } })`. -/
def findOwnBatch (batchId : Uuid) (t : Tables) : Option StoredBatch :=
  t.batches.find? fun b => decide (b.id = batchId) && decide (b.userId = user)

/-- `GET /email-batches/:batchId`. -/
def getBatch (batchId : Option Uuid) : Statement BatchResponse := do
  let batchId ← .ofExcept (uuidParameter batchId)
  let found ← .read (findOwnBatch user batchId)
  match found with
  | none => .throw (httpError 404 "BATCH_NOT_FOUND" "The email batch was not found")
  | some batch => .read (batchResponse batch)

variable {config lib input ctx user}

theorem readOnly_getBatch (batchId : Option Uuid) : (getBatch user batchId).ReadOnly := by
  apply Action.ReadOnly.bind (Action.readOnly_ofExcept _)
  intro id
  apply Action.ReadOnly.bind (Action.readOnly_read _)
  intro found
  cases found with
  | none => exact fun _ => rfl
  | some batch => exact Action.readOnly_read _

/-- A batch that is found by its id is the user's own. -/
theorem findOwnBatch_eq_some {batchId : Uuid} {t : Tables} {batch : StoredBatch}
    (h : findOwnBatch user batchId t = some batch) : batch ∈ t.batches ∧ batch.userId = user := by
  have hown := List.find?_some h
  simp only [Bool.and_eq_true, decide_eq_true_eq] at hown
  exact ⟨List.mem_of_find?_eq_some h, hown.2⟩

theorem findOwnBatch_id {batchId : Uuid} {t : Tables} {batch : StoredBatch}
    (h : findOwnBatch user batchId t = some batch) : batch.id = batchId := by
  have hown := List.find?_some h
  simp only [Bool.and_eq_true, decide_eq_true_eq] at hown
  exact hown.1

/-- So is one that is found by an idempotency key. -/
theorem findBatchByKey_eq_some {key : String} {t : Tables} {batch : StoredBatch}
    (h : findBatchByKey user key t = some batch) : batch ∈ t.batches ∧ batch.userId = user := by
  have hown := List.find?_some h
  simp only [Bool.and_eq_true, decide_eq_true_eq] at hown
  exact ⟨List.mem_of_find?_eq_some h, hown.1⟩

/-! ## The transaction -/

/-- A transaction that commits has found its sender and fits the columns. -/
theorem batchTransaction_insertCreated {t t' : Tables} {batch : StoredBatch}
    (h : batchTransaction input ctx t = (.ok batch, t')) :
    checkColumns input ctx = .ok () ∧ insertCreated input ctx t = (.ok batch, t') := by
  obtain ⟨_, t₁, hsender, hrest⟩ := Action.bind_eq_ok h
  obtain ⟨-, rfl⟩ := Action.throwIf_eq_ok hsender
  obtain ⟨_, t₂, hcolumns, hinsert⟩ := Action.bind_eq_ok hrest
  obtain ⟨hfits, rfl⟩ := Action.ofExcept_eq_ok hcolumns
  exact ⟨hfits, hinsert⟩

/-- **The transaction is `createBatchTransaction`** on the columns that it knows. -/
theorem batchTransaction_database {t t' : Tables} {batch : StoredBatch}
    (h : batchTransaction input ctx t = (.ok batch, t')) :
    ∃ db, createBatchTransaction t.database input ctx.newId ctx.newEmailId =
        .ok (batch.toEmailBatch, db) ∧ t'.database.senders = db.senders ∧
      t'.database.batches = db.batches ∧ t'.database.emails = db.emails := by
  have hinsert := (batchTransaction_insertCreated h).2
  unfold insertCreated at hinsert
  split at hinsert
  next => cases hinsert
  next created heq =>
    obtain ⟨created, db⟩ := created
    cases hinsert
    obtain ⟨-, rfl, -, -, -, rfl⟩ := createBatchTransaction_eq_ok heq
    refine ⟨_, heq, ?_, ?_, ?_⟩
    · -- The update of a stored sender is the update of its columns.
      simp only [Tables.database, writeBatch, updateSenderPolicy, updateMany, List.map_map]
      apply List.map_congr_left
      intro s _
      simp only [Function.comp_apply]
      split <;> rfl
    · simp [Tables.database, writeBatch, storedBatch]
    · simp [Tables.database, writeBatch, storedEmails, Function.comp_def]

theorem rollsBack_batchTransaction (input : CreateBatchInput) (ctx : RequestContext) :
    (batchTransaction input ctx).RollsBack := by
  apply Action.RollsBack.bind (Action.readOnly_throwIf _ _)
  intro _
  apply Action.RollsBack.bind (Action.readOnly_ofExcept _)
  intro _ t e t' herror
  unfold insertCreated at herror
  split at herror
  · cases herror
    rfl
  · cases herror

/-- **A batch that is created** is the user's, of an active sender of the user, and its id is
new. -/
theorem batchTransaction_eq_ok {t t' : Tables} {batch : StoredBatch}
    (h : batchTransaction input ctx t = (.ok batch, t')) :
    batch = storedBatch input ctx ∧ t' = writeBatch input ctx t ∧
      (∃ s ∈ t.senders, s.id = input.senderId ∧ s.userId = input.userId) ∧
      ∀ b ∈ t.batches, b.id ≠ ctx.newId := by
  have hinsert := (batchTransaction_insertCreated h).2
  unfold insertCreated at hinsert
  split at hinsert
  next => cases hinsert
  next created heq =>
    obtain ⟨created, db⟩ := created
    cases hinsert
    obtain ⟨⟨sender, hsender⟩, rfl, hnew, -, -, -⟩ := createBatchTransaction_eq_ok heq
    refine ⟨rfl, rfl, ?_, ?_⟩
    · obtain ⟨hmem, hid, howner⟩ := findActiveSender_eq_some hsender
      obtain ⟨s, hs, rfl⟩ := List.mem_map.1 hmem
      exact ⟨s, hs, hid, howner⟩
    · intro b hb hid
      exact id_ne_of_batchConflict (hnew b.toEmailBatch (List.mem_map_of_mem hb)) hid.symm

/-- The batch that `createEmailBatch` returns is one of the user's, or the transaction has just
created it. -/
theorem createEmailBatch_eq_ok {t t' : Tables} {result : StoredBatch × Bool}
    (h : createEmailBatch input ctx t = (.ok result, t')) :
    (t' = t ∧ result.1 ∈ t.batches ∧ result.1.userId = input.userId) ∨
      (input.parsedLeads.leads ≠ [] ∧ batchTransaction input ctx t = (.ok result.1, t')) := by
  obtain ⟨existing, t₁, hread, hrest⟩ := Action.bind_eq_ok h
  obtain ⟨hexisting, rfl⟩ := Action.read_eq_ok hread
  cases existing with
  | some batch =>
      cases hrest
      exact Or.inl ⟨rfl, findBatchByKey_eq_some hexisting⟩
  | none =>
      dsimp only at hrest
      split_ifs at hrest with hleads
      · cases hrest
      · unfold Action.catchError at hrest
        split at hrest
        next created t₂ hcreate =>
          cases hrest
          obtain ⟨batch, t₃, htransaction, hreturn⟩ := Action.bind_eq_ok hcreate
          cases hreturn
          exact Or.inr ⟨hleads, htransaction⟩
        next error t₂ hcreate =>
          -- The transaction has rolled back, and the batch of another request is read.
          obtain rfl := (rollsBack_batchTransaction input ctx).bind_pure _ _ _ _ hcreate
          unfold rereadBatch at hrest
          split at hrest
          · obtain ⟨raced, t₃, hreread, hrest⟩ := Action.bind_eq_ok hrest
            obtain ⟨hraced, rfl⟩ := Action.read_eq_ok hreread
            cases raced with
            | none => cases hrest
            | some batch =>
                cases hrest
                exact Or.inl ⟨rfl, findBatchByKey_eq_some hraced⟩
          · cases hrest

theorem rollsBack_createEmailBatch (input : CreateBatchInput) (ctx : RequestContext) :
    (createEmailBatch input ctx).RollsBack := by
  apply Action.RollsBack.bind (Action.readOnly_read _)
  intro existing
  cases existing with
  | some batch => exact .of_readOnly fun _ => rfl
  | none =>
      dsimp only
      split_ifs
      · exact .of_readOnly fun _ => rfl
      · apply Action.RollsBack.catchError
        · exact (rollsBack_batchTransaction input ctx).bind_pure _
        · intro error
          unfold rereadBatch
          split
          · apply Action.RollsBack.bind (Action.readOnly_read _)
            intro raced
            cases raced with
            | none => exact .of_readOnly fun _ => rfl
            | some batch => exact .of_readOnly fun _ => rfl
          · exact .of_readOnly fun _ => rfl

/-- **A schedule request that the schema accepts** has the start time that was sent, and a policy in
the range of the configuration. -/
theorem scheduleSchema_eq_ok {body : Option ScheduleBody} {request : ScheduleInput}
    (h : scheduleSchema config body = .ok request) :
    ∃ fields, body = some fields ∧ fields.startAt = .value request.startAt ∧
      fields.hourlyLimit = .value request.hourlyLimit ∧
      fields.minimumDelayMs = .value request.minimumDelayMs ∧
      1 ≤ request.hourlyLimit ∧ request.hourlyLimit ≤ config.maxEmailsPerHour ∧
      config.minSendDelayMs ≤ request.minimumDelayMs ∧
      request.minimumDelayMs ≤ config.maxSendDelayMs := by
  cases body with
  | none => cases h
  | some fields =>
      unfold scheduleSchema at h
      dsimp only at h
      split at h
      next senderId subject body startAt hourlyLimit minimumDelayMs hsender hsubject hbody hstart
          hlimit hdelay hunknown =>
        cases h
        obtain ⟨sent, hsent, hcheck⟩ := Field.required_eq_some hstart
        cases hcheck
        obtain ⟨limit, hlimitSent, hcheck⟩ := Field.required_eq_some hlimit
        obtain ⟨rfl, hlow, hhigh⟩ := integerWithin_eq_some hcheck
        obtain ⟨delay, hdelaySent, hcheck⟩ := Field.required_eq_some hdelay
        obtain ⟨rfl, hlow', hhigh'⟩ := integerWithin_eq_some hcheck
        exact ⟨fields, rfl, hsent, hlimitSent, hdelaySent, hlow, hhigh, hlow', hhigh'⟩
      next => cases h

/-- The end of the time in which batches can be scheduled. -/
def scheduleHorizon (config : AppConfig) (now : Int) : Int :=
  now + config.maxScheduleHorizonDays * 24 * 60 * 60 * 1000

/-- **A request that passes the checks** has a valid body and a lead file, and its first and its
last email are due between the time of the request and the horizon. -/
theorem batchInput_eq_ok {key : String} {upload : Upload} {now : Int} {input : CreateBatchInput}
    (h : batchInput config lib user key upload now = .ok input) :
    ∃ request leads, scheduleSchema config upload.body = .ok request ∧
      parseFileOrThrow config lib upload.file = .ok leads ∧
      now ≤ request.startAt ∧ request.startAt ≤ scheduleHorizon config now ∧
      request.startAt + max 0 ((leads.leads.length : Int) - 1) * request.minimumDelayMs ≤
        scheduleHorizon config now ∧
      input = {
        userId := user
        senderId := request.senderId
        idempotencyKey := key
        subject := request.subject
        bodyText := request.body
        startAt := request.startAt
        hourlyLimit := request.hourlyLimit
        minimumDelayMs := request.minimumDelayMs
        sourceFilename := basename ((upload.file.map LeadFile.originalname).getD "leads.txt")
        parsedLeads := leads } := by
  unfold batchInput at h
  cases hschedule : scheduleSchema config upload.body with
  | error e =>
      rw [hschedule] at h
      cases h
  | ok request =>
      rw [hschedule] at h
      -- The checks come in this order: the start, the file, and then the last email.
      change (if request.startAt < now ∨ scheduleHorizon config now < request.startAt
        then _ else _) = _ at h
      split_ifs at h with hstart
      · cases h
      · cases hleads : parseFileOrThrow config lib upload.file with
        | error e =>
            rw [hleads] at h
            cases h
        | ok leads =>
            rw [hleads] at h
            change (if scheduleHorizon config now < request.startAt +
              max 0 ((leads.leads.length : Int) - 1) * request.minimumDelayMs then _ else _) =
                _ at h
            split_ifs at h with hlast
            · cases h
            · cases h
              exact ⟨request, leads, rfl, rfl, by omega, by omega, by omega, rfl⟩

/-- A batch is created for the user of the request. -/
theorem batchInput_userId {key : String} {upload : Upload} {now : Int} {input : CreateBatchInput}
    (h : batchInput config lib user key upload now = .ok input) : input.userId = user := by
  obtain ⟨request, leads, -, -, -, -, -, rfl⟩ := batchInput_eq_ok h
  rfl

/-! ## The tables after `POST /email-batches` -/

/-- How the route ends: nothing has happened, or a batch of the user has been handed to the queue,
found by its key or made by the transaction of a request that passed the checks and has a lead. -/
inductive PostedBatch (config : AppConfig) (lib : Libraries) (ctx : RequestContext) (user : Uuid)
    (upload : Except String Upload) (t : Tables) : ApiState → Prop where
  | rejected : PostedBatch config lib ctx user upload t { tables := t }
  | found {batch : StoredBatch} : batch ∈ t.batches → batch.userId = user →
      PostedBatch config lib ctx user upload t (enqueueBatch ctx batch.id { tables := t }).2
  | created {form : Upload} {key : String} {input : CreateBatchInput} {batch : StoredBatch}
      {t' : Tables} :
      upload = .ok form → batchInput config lib user key form ctx.now = .ok input →
      input.parsedLeads.leads ≠ [] → batchTransaction input ctx t = (.ok batch, t') →
      PostedBatch config lib ctx user upload t (enqueueBatch ctx batch.id { tables := t' }).2

theorem postedBatch_postEmailBatches (upload : Except String Upload) (header : Option String)
    (t : Tables) : PostedBatch config lib ctx user upload t
      (postEmailBatches config lib ctx user upload header { tables := t }).2 := by
  unfold postEmailBatches
  apply Action.ReadOnly.snd_bind (Action.readOnly_ofExcept _) .rejected
  intro form hform
  apply Action.ReadOnly.snd_bind (Action.readOnly_ofExcept _) .rejected
  intro key _
  apply Action.ReadOnly.snd_bind (fun _ => rfl) .rejected
  intro existing hread
  cases existing with
  | some batch =>
      have hfound : findBatchByKey user key t = some batch :=
        Except.ok.inj (congrArg Prod.fst hread)
      obtain ⟨hbatch, hown⟩ := findBatchByKey_eq_some hfound
      dsimp only
      rw [Action.snd_bind_pure]
      exact .found hbatch hown
  | none =>
      apply Action.ReadOnly.snd_bind (Action.readOnly_ofExcept _) .rejected
      intro input hinput
      have hok : batchInput config lib user key form ctx.now = .ok input := congrArg Prod.fst hinput
      rcases hrun : createEmailBatch input ctx t with ⟨error | result, t'⟩
      · have hcreate : onTables (createEmailBatch input ctx) { tables := t } =
            (.error error, { tables := t' }) := by
          dsimp only [onTables]
          rw [hrun]
        rw [Action.bind_apply, hcreate, rollsBack_createEmailBatch input ctx t error t' hrun]
        exact .rejected
      · obtain ⟨batch, replayed⟩ := result
        have hcreate : onTables (createEmailBatch input ctx) { tables := t } =
            (.ok (batch, replayed), { tables := t' }) := by
          dsimp only [onTables]
          rw [hrun]
        rw [Action.bind_of_ok hcreate, Action.snd_bind_pure]
        rcases createEmailBatch_eq_ok hrun with ⟨rfl, hbatch, hown⟩ | ⟨hleads, htransaction⟩
        · -- Another request of the user was first.
          exact .found hbatch (hown.trans (batchInput_userId hok))
        · have hform : upload = .ok form := by
            cases upload with
            | error code => cases hform
            | ok sent =>
                cases hform
                rfl
          exact .created hform hok hleads htransaction

/-- What the route does to the tables: nothing, or the transaction of a request that passed the
checks and has a lead. -/
inductive ScheduleEffect (config : AppConfig) (lib : Libraries) (ctx : RequestContext) (user : Uuid)
    (upload : Except String Upload) (t : Tables) (s : ApiState) : Prop where
  | nothing : s.tables = t → ScheduleEffect config lib ctx user upload t s
  | created {form : Upload} {key : String} {input : CreateBatchInput} {batch : StoredBatch} :
      upload = .ok form → batchInput config lib user key form ctx.now = .ok input →
      input.parsedLeads.leads ≠ [] → batchTransaction input ctx t = (.ok batch, s.tables) →
      ScheduleEffect config lib ctx user upload t s

theorem scheduleEffect_postEmailBatches (upload : Except String Upload) (header : Option String)
    (t : Tables) : ScheduleEffect config lib ctx user upload t
      (postEmailBatches config lib ctx user upload header { tables := t }).2 := by
  have hposted : PostedBatch config lib ctx user upload t
      (postEmailBatches config lib ctx user upload header { tables := t }).2 :=
    postedBatch_postEmailBatches upload header t
  generalize (postEmailBatches config lib ctx user upload header { tables := t }).2 = s at hposted ⊢
  cases hposted with
  | rejected => exact .nothing rfl
  | found hbatch hown => exact .nothing rfl
  | created hform hok hleads htransaction => exact .created hform hok hleads htransaction

end EmailScheduler
