import EmailScheduler.Foundation.JsonSchema
import EmailScheduler.Api.ResponseBody
import EmailScheduler.Api.ListTraversal
import EmailScheduler.Api.TenantIsolation

/-!
# The client of the API

`api/client.ts` of the frontend: the calls that read or schedule emails, the schemas of what they
return, and `apiRequest`, which gives data, or throws an `ApiError`, or throws because the body is
not what the schema says.

In every state of the server that requests and the worker can reach, each of these calls ends with
the data of the server or with the error that the server has answered, under its own status, code
and message (`callAnswered`): no response of the server is refused by the client.

Cookies, headers and the origin of a request are not modelled: the user of a call is the one whom
the server has found.
-/

set_option autoImplicit false

namespace EmailScheduler

open Foundation

namespace Client

/-! ## Types -/

/-- A number of a response, as its text. -/
abbrev Number : Type := String

structure Sender where
  id : String
  displayName : String
  email : String
  isDefault : Bool
  isActive : Bool
  hourlyLimit : Number
  minimumDelayMs : Number
  createdAt : String
  updatedAt : String
deriving DecidableEq, Repr

/-- `{ min, max }`. -/
structure Range where
  min : Number
  max : Number
deriving DecidableEq, Repr

structure Defaults where
  hourlyLimit : Number
  minimumDelayMs : Number
  pageSize : Number
deriving DecidableEq, Repr

structure Limits where
  hourlyLimit : Range
  minimumDelayMs : Range
  maxBodyLength : Number
  maxLeadsPerBatch : Number
  maxScheduleHorizonDays : Number
  maxSubjectLength : Number
  maxUploadBytes : Number
deriving DecidableEq, Repr

structure ComposeConfig where
  defaults : Defaults
  limits : Limits
deriving DecidableEq, Repr

/-- The sender of an email. -/
structure NamedSender where
  displayName : String
  email : String
deriving DecidableEq, Repr

structure ScheduledEmail where
  id : String
  recipientEmail : String
  subject : String
  scheduledAt : String
  nextAttemptAt : String
  status : String
  sender : NamedSender
deriving DecidableEq, Repr

structure SentEmail where
  id : String
  recipientEmail : String
  subject : String
  sentAt : Option String
  completedAt : String
  status : String
  etherealPreviewUrl : Option String
  error : Option String
  sender : NamedSender
deriving DecidableEq, Repr

structure CursorPage (α : Type) where
  items : List α
  nextCursor : Option String
deriving DecidableEq, Repr

structure InvalidRow where
  row : Number
  value : String
  reason : String
deriving DecidableEq, Repr

structure ScheduledBatch where
  id : String
  status : String
  startAt : String
  totalRows : Number
  validRecipientCount : Number
  invalidRecipientCount : Number
  duplicateRecipientCount : Number
  invalidRows : List InvalidRow
deriving DecidableEq, Repr

structure ScheduleBatchResponse where
  replayed : Bool
  batch : ScheduledBatch
deriving DecidableEq, Repr

/-! ## Schemas -/

/-- `code` and `message` of an error, if they are there. -/
structure ErrorText where
  code : Option String
  message : Option String
deriving DecidableEq, Repr

def errorEnvelopeSchema : JsonSchema (Option ErrorText) :=
  .object fun field => JsonSchema.optional (.object fun field => do
    let code ← JsonSchema.string.optional (field "code")
    let message ← JsonSchema.string.optional (field "message")
    return ⟨code, message⟩) (field "error")

def senderSchema : JsonSchema Sender :=
  .object fun field => do
    let id ← JsonSchema.string (field "id")
    let displayName ← JsonSchema.string (field "displayName")
    let email ← JsonSchema.string (field "email")
    let isDefault ← JsonSchema.boolean (field "isDefault")
    let isActive ← JsonSchema.boolean (field "isActive")
    let hourlyLimit ← JsonSchema.number (field "hourlyLimit")
    let minimumDelayMs ← JsonSchema.number (field "minimumDelayMs")
    let createdAt ← JsonSchema.string (field "createdAt")
    let updatedAt ← JsonSchema.string (field "updatedAt")
    return ⟨id, displayName, email, isDefault, isActive, hourlyLimit, minimumDelayMs, createdAt,
      updatedAt⟩

def rangeSchema : JsonSchema Range :=
  .object fun field => do
    let min ← JsonSchema.number (field "min")
    let max ← JsonSchema.number (field "max")
    return ⟨min, max⟩

def composeConfigSchema : JsonSchema ComposeConfig :=
  .object fun field => do
    let defaults ← JsonSchema.object (fun field => do
      let hourlyLimit ← JsonSchema.number (field "hourlyLimit")
      let minimumDelayMs ← JsonSchema.number (field "minimumDelayMs")
      let pageSize ← JsonSchema.number (field "pageSize")
      return (⟨hourlyLimit, minimumDelayMs, pageSize⟩ : Defaults)) (field "defaults")
    let limits ← JsonSchema.object (fun field => do
      let hourlyLimit ← rangeSchema (field "hourlyLimit")
      let minimumDelayMs ← rangeSchema (field "minimumDelayMs")
      let maxBodyLength ← JsonSchema.number (field "maxBodyLength")
      let maxLeadsPerBatch ← JsonSchema.number (field "maxLeadsPerBatch")
      let maxScheduleHorizonDays ← JsonSchema.number (field "maxScheduleHorizonDays")
      let maxSubjectLength ← JsonSchema.number (field "maxSubjectLength")
      let maxUploadBytes ← JsonSchema.number (field "maxUploadBytes")
      return (⟨hourlyLimit, minimumDelayMs, maxBodyLength, maxLeadsPerBatch,
        maxScheduleHorizonDays, maxSubjectLength, maxUploadBytes⟩ : Limits)) (field "limits")
    return ⟨defaults, limits⟩

def namedSenderSchema : JsonSchema NamedSender :=
  .object fun field => do
    let displayName ← JsonSchema.string (field "displayName")
    let email ← JsonSchema.string (field "email")
    return ⟨displayName, email⟩

def scheduledEmailSchema : JsonSchema ScheduledEmail :=
  .object fun field => do
    let id ← JsonSchema.string (field "id")
    let recipientEmail ← JsonSchema.string (field "recipientEmail")
    let subject ← JsonSchema.string (field "subject")
    let scheduledAt ← JsonSchema.string (field "scheduledAt")
    let nextAttemptAt ← JsonSchema.string (field "nextAttemptAt")
    let status ← JsonSchema.enum ["scheduled", "rate_limited", "processing", "retryable"]
      (field "status")
    let sender ← namedSenderSchema (field "sender")
    return ⟨id, recipientEmail, subject, scheduledAt, nextAttemptAt, status, sender⟩

def sentEmailSchema : JsonSchema SentEmail :=
  .object fun field => do
    let id ← JsonSchema.string (field "id")
    let recipientEmail ← JsonSchema.string (field "recipientEmail")
    let subject ← JsonSchema.string (field "subject")
    let sentAt ← JsonSchema.string.nullable (field "sentAt")
    let completedAt ← JsonSchema.string (field "completedAt")
    let status ← JsonSchema.enum ["sent", "failed", "delivery_unknown"] (field "status")
    let etherealPreviewUrl ← JsonSchema.string.nullable (field "etherealPreviewUrl")
    let error ← JsonSchema.string.nullable (field "error")
    let sender ← namedSenderSchema (field "sender")
    return ⟨id, recipientEmail, subject, sentAt, completedAt, status, etherealPreviewUrl,
      error, sender⟩

def invalidRowSchema : JsonSchema InvalidRow :=
  .object fun field => do
    let row ← JsonSchema.number (field "row")
    let value ← JsonSchema.string (field "value")
    let reason ← JsonSchema.string (field "reason")
    return ⟨row, value, reason⟩

def scheduleBatchSchema : JsonSchema ScheduleBatchResponse :=
  .object fun field => do
    let replayed ← JsonSchema.boolean (field "replayed")
    let batch ← JsonSchema.object (fun field => do
      let id ← JsonSchema.string (field "id")
      let status ← JsonSchema.string (field "status")
      let startAt ← JsonSchema.string (field "startAt")
      let totalRows ← JsonSchema.number (field "totalRows")
      let validRecipientCount ← JsonSchema.number (field "validRecipientCount")
      let invalidRecipientCount ← JsonSchema.number (field "invalidRecipientCount")
      let duplicateRecipientCount ← JsonSchema.number (field "duplicateRecipientCount")
      let invalidRows ← invalidRowSchema.array (field "invalidRows")
      return (⟨id, status, startAt, totalRows, validRecipientCount, invalidRecipientCount,
        duplicateRecipientCount, invalidRows⟩ : ScheduledBatch)) (field "batch")
    return ⟨replayed, batch⟩

def cursorPageSchema {α : Type} (itemSchema : JsonSchema α) : JsonSchema (CursorPage α) :=
  .object fun field => do
    let items ← itemSchema.array (field "items")
    let nextCursor ← JsonSchema.string.nullable (field "nextCursor")
    return ⟨items, nextCursor⟩

/-! ## Requests -/

/-- How a call ends. -/
inductive Outcome (α : Type) where
  | data (a : α)
  /-- An `ApiError`. -/
  | apiError (status : Nat) (code message : String)
  /-- The body is no JSON, or the schema does not accept it. -/
  | unreadable
deriving DecidableEq, Repr

/-- The end of `apiRequest`, with the response that `fetch` has brought. -/
def apiRequest {α : Type} (schema : JsonSchema α) (response : HttpResponse) : Outcome α :=
  if response.status < 200 ∨ 300 ≤ response.status then
    match (parseJson response.body).bind fun body => errorEnvelopeSchema (some body) with
    | none => .apiError response.status "REQUEST_FAILED" "The request could not be completed"
    | some error => .apiError response.status
        ((error.bind ErrorText.code).getD "REQUEST_FAILED")
        ((error.bind ErrorText.message).getD "The request could not be completed")
  else if response.status = 204 then
    match schema none with
    | none => .unreadable
    | some a => .data a
  else
    match (parseJson response.body).bind fun body => schema (some body) with
    | none => .unreadable
    | some a => .data a

/-- The calls of `api`, but for the ones to `/auth`. -/
inductive ApiCall where
  | composeConfig
  | senders
  | scheduled (cursor : Option String)
  | sent (cursor : Option String)
  /-- The form as the server's `multer` takes it, and the key. -/
  | scheduleBatch (formData : Except String Upload) (idempotencyKey : String)

/-- What a call returns. -/
inductive ApiData where
  | composeConfig (config : ComposeConfig)
  | senders (senders : List Sender)
  | scheduled (page : CursorPage ScheduledEmail)
  | sent (page : CursorPage SentEmail)
  | scheduleBatch (response : ScheduleBatchResponse)
deriving DecidableEq, Repr

/-- The schema of a call. -/
def ApiCall.schema : ApiCall → JsonSchema ApiData
  | .composeConfig => fun value => (composeConfigSchema value).map .composeConfig
  | .senders => JsonSchema.object fun field =>
      (senderSchema.array (field "senders")).map .senders
  | .scheduled _ => fun value => (cursorPageSchema scheduledEmailSchema value).map .scheduled
  | .sent _ => fun value => (cursorPageSchema sentEmailSchema value).map .sent
  | .scheduleBatch _ _ => fun value => (scheduleBatchSchema value).map .scheduleBatch

/-- The query of a list: the cursor that was given, if any. -/
def listQuery (schema : CursorSchema) (cursor : Option String) : ListQuery where
  cursor := cursorParameter schema (match cursor with
    | none => .missing
    | some text => .value text)

/-- The request that a call makes. -/
def ApiCall.request (schema : CursorSchema) : ApiCall → EmailRequest
  | .composeConfig => .getCompose
  | .senders => .getSenders
  | .scheduled cursor => .getScheduled (listQuery schema cursor)
  | .sent cursor => .getSent (listQuery schema cursor)
  | .scheduleBatch formData idempotencyKey => .postEmailBatches formData (some idempotencyKey)

/-! ## What the data show -/

/-- The texts of a sender. -/
def Sender.of (sender : SenderResponse) : Sender where
  id := uuidText sender.id
  displayName := sender.displayName
  email := sender.email
  isDefault := sender.isDefault
  isActive := sender.isActive
  hourlyLimit := integerText sender.hourlyLimit
  minimumDelayMs := integerText sender.minimumDelayMs
  createdAt := toISOString sender.createdAt
  updatedAt := toISOString sender.updatedAt

def Range.of (range : Int × Int) : Range := ⟨integerText range.1, integerText range.2⟩

def ComposeConfig.of (config : EmailScheduler.ComposeConfig) : ComposeConfig where
  defaults :=
    { hourlyLimit := integerText config.defaultHourlyLimit
      minimumDelayMs := integerText config.defaultMinimumDelayMs
      pageSize := integerText config.pageSize }
  limits :=
    { hourlyLimit := .of config.hourlyLimit
      minimumDelayMs := .of config.minimumDelayMs
      maxBodyLength := integerText config.maxBodyLength
      maxLeadsPerBatch := integerText config.maxLeadsPerBatch
      maxScheduleHorizonDays := integerText config.maxScheduleHorizonDays
      maxSubjectLength := integerText config.maxSubjectLength
      maxUploadBytes := integerText config.maxUploadBytes }

def InvalidRow.of (row : InvalidLead) : InvalidRow :=
  ⟨integerText row.row, row.value, "invalid_email"⟩

def ScheduleBatchResponse.of (response : BatchCreationResponse) : ScheduleBatchResponse where
  replayed := response.replayed
  batch :=
    { id := uuidText response.id
      status := response.status.text
      startAt := toISOString response.startAt
      totalRows := integerText response.totalRows
      validRecipientCount := integerText response.validRecipientCount
      invalidRecipientCount := integerText response.invalidRecipientCount
      duplicateRecipientCount := integerText response.duplicateRecipientCount
      invalidRows := response.invalidRows.map .of }

/-- The email shows an item of the list; its batch and its sender are there. -/
structure ScheduledEmail.Shows (item : ScheduledItem) (email : ScheduledEmail) : Prop where
  id : email.id = uuidText item.id
  recipientEmail : email.recipientEmail = item.recipientEmail
  subject : item.subject = some email.subject
  scheduledAt : email.scheduledAt = toISOString item.scheduledAt
  nextAttemptAt : email.nextAttemptAt = toISOString item.nextAttemptAt
  status : email.status = item.status.text
  sender : item.sender = some ⟨email.sender.displayName, email.sender.email⟩

structure SentEmail.Shows (item : SentItem) (email : SentEmail) : Prop where
  id : email.id = uuidText item.id
  recipientEmail : email.recipientEmail = item.recipientEmail
  subject : item.subject = some email.subject
  sentAt : email.sentAt = item.sentAt.map toISOString
  completedAt : email.completedAt = toISOString item.completedAt
  status : email.status = item.status.text
  etherealPreviewUrl : email.etherealPreviewUrl = item.etherealPreviewUrl
  error : email.error = item.error
  sender : item.sender = some ⟨email.sender.displayName, email.sender.email⟩

/-- A page shows a page of the server, item for item, with the text of its cursor. -/
structure CursorPage.Shows {α β : Type} (R : α → β → Prop) (page : EmailPage α)
    (shown : CursorPage β) : Prop where
  items : List.Forall₂ R page.items shown.items
  nextCursor : shown.nextCursor = page.nextCursor.map encodeCursor

/-- The end of a call that goes with a response of the server. -/
inductive Answers : ApiCall → EmailResponse → Outcome ApiData → Prop
  | error (call : ApiCall) {status : Nat} (code message : String) (details : ErrorDetails) :
      400 ≤ status → Answers call (.error status code message details)
        (.apiError status code message)
  | composeConfig (config : EmailScheduler.ComposeConfig) :
      Answers .composeConfig (.compose config) (.data (.composeConfig (.of config)))
  | senders (senders : List SenderResponse) :
      Answers .senders (.senders senders) (.data (.senders (senders.map .of)))
  | scheduled (cursor : Option String) {page : EmailPage ScheduledItem}
      {shown : CursorPage ScheduledEmail} : shown.Shows ScheduledEmail.Shows page →
      Answers (.scheduled cursor) (.scheduledEmails page) (.data (.scheduled shown))
  | sent (cursor : Option String) {page : EmailPage SentItem} {shown : CursorPage SentEmail} :
      shown.Shows SentEmail.Shows page →
        Answers (.sent cursor) (.sentEmails page) (.data (.sent shown))
  | scheduleBatch (formData : Except String Upload) (key : String) {status : Nat}
      (response : BatchCreationResponse) : status = 200 ∨ status = 201 →
      Answers (.scheduleBatch formData key) (.batchCreation status response)
        (.data (.scheduleBatch (.of response)))

/-! ## Reading -/

section Reading

variable {issues : List String → List (String × String)} {item : ScheduledItem} {sent : SentItem}

/-- A row of one of the lists: a status of its dashboard, a batch and a sender. -/
theorem scheduledEmailSchema_scheduledItemJson
    (hstatus : scheduledDashboardStatuses.contains item.status = true)
    (hsubject : item.subject.isSome = true) (hsender : item.sender.isSome = true) :
    ∃ email, email.Shows item ∧
      scheduledEmailSchema (some (scheduledItemJson item)) = some email := by
  obtain ⟨id, recipientEmail, subject, scheduledAt, nextAttemptAt, status, sender⟩ := item
  obtain ⟨subject, rfl⟩ := Option.isSome_iff_exists.1 hsubject
  obtain ⟨⟨displayName, email⟩, rfl⟩ := Option.isSome_iff_exists.1 hsender
  refine ⟨⟨uuidText id, recipientEmail, subject, toISOString scheduledAt, toISOString nextAttemptAt,
    status.text, ⟨displayName, email⟩⟩, ⟨rfl, rfl, rfl, rfl, rfl, rfl, rfl⟩, ?_⟩
  cases status with
  | scheduled | rateLimited | processing | retryable => rfl
  | sent | failed | deliveryUnknown | cancelled => cases hstatus

theorem sentEmailSchema_sentItemJson (hstatus : sentDashboardStatuses.contains sent.status = true)
    (hsubject : sent.subject.isSome = true) (hsender : sent.sender.isSome = true) :
    ∃ email, email.Shows sent ∧ sentEmailSchema (some (sentItemJson sent)) = some email := by
  obtain ⟨id, recipientEmail, subject, sentAt, completedAt, status, previewUrl, error, sender⟩ :=
    sent
  obtain ⟨subject, rfl⟩ := Option.isSome_iff_exists.1 hsubject
  obtain ⟨⟨displayName, email⟩, rfl⟩ := Option.isSome_iff_exists.1 hsender
  refine ⟨⟨uuidText id, recipientEmail, subject, sentAt.map toISOString, toISOString completedAt,
    status.text, previewUrl, error, ⟨displayName, email⟩⟩,
    ⟨rfl, rfl, rfl, rfl, rfl, rfl, rfl, rfl, rfl⟩, ?_⟩
  cases status with
  | sent | failed | deliveryUnknown =>
      cases sentAt <;> cases previewUrl <;> cases error <;> rfl
  | scheduled | rateLimited | processing | retryable | cancelled => cases hstatus

/-- A page whose items are read is read. -/
theorem cursorPageSchema_emailPageJson {α β : Type} {itemSchema : JsonSchema β} {json : α → Json}
    {R : α → β → Prop} {page : EmailPage α}
    (h : ∀ item ∈ page.items, ∃ shown, R item shown ∧ itemSchema (some (json item)) = some shown) :
    ∃ shown, CursorPage.Shows R page shown ∧
      cursorPageSchema itemSchema (some (emailPageJson json page)) = some shown := by
  obtain ⟨items, hitems, hread⟩ := JsonSchema.exists_array h
  refine ⟨⟨items, page.nextCursor.map encodeCursor⟩, ⟨hitems, rfl⟩, ?_⟩
  have hfields : cursorPageSchema itemSchema (some (emailPageJson json page)) =
      (itemSchema.array (some (.array (page.items.map json)))).bind fun items =>
        (JsonSchema.string.nullable (some (nullOr (fun cursor => .string (encodeCursor cursor))
          page.nextCursor))).bind fun nextCursor => some ⟨items, nextCursor⟩ := rfl
  rw [hfields, hread]
  cases page.nextCursor <;> rfl

theorem scheduleBatchSchema_batchCreationJson (response : BatchCreationResponse) :
    scheduleBatchSchema (some (batchCreationJson response)) = some (.of response) := by
  have hrow : ∀ row, invalidRowSchema (some (invalidRowJson row)) = some (.of row) := fun _ => rfl
  have hfields : scheduleBatchSchema (some (batchCreationJson response)) =
      ((invalidRowSchema.array (some (.array (response.invalidRows.map invalidRowJson)))).bind
        fun rows => some
          { (ScheduleBatchResponse.of response).batch with invalidRows := rows }).bind
          fun batch => some ⟨response.replayed, batch⟩ := rfl
  rw [hfields, JsonSchema.array_map hrow]
  rfl

theorem errorEnvelopeSchema_errorJson (code message : String) (details : ErrorDetails) :
    errorEnvelopeSchema (some (errorJson issues code message details)) =
      some (some ⟨some code, some message⟩) := by
  cases details <;> rfl

/-- **An error of the server is thrown** with its status, code and message. -/
theorem apiRequest_error {α : Type} (schema : JsonSchema α) {status : Nat} (h : 400 ≤ status)
    (code message : String) (details : ErrorDetails) :
    apiRequest schema ((EmailResponse.error status code message details).http issues) =
      .apiError status code message := by
  unfold apiRequest
  rw [if_pos (Or.inr (by change 300 ≤ status; omega)), EmailResponse.parseJson_http]
  change (match errorEnvelopeSchema (some (errorJson issues code message details)) with
    | none => _ | some error => _) = _
  rw [errorEnvelopeSchema_errorJson]
  rfl

/-- A body that the schema reads is the data of the call. -/
theorem apiRequest_of_read {α : Type} {schema : JsonSchema α} {response : EmailResponse} {a : α}
    (hstatus : response.status = 200 ∨ response.status = 201)
    (h : schema (some (response.json issues)) = some a) :
    apiRequest schema (response.http issues) = .data a := by
  have hok : ¬ ((response.http issues).status < 200 ∨ 300 ≤ (response.http issues).status) := by
    change ¬ (response.status < 200 ∨ 300 ≤ response.status)
    omega
  have hbody : (response.http issues).status ≠ 204 := by
    change response.status ≠ 204
    omega
  unfold apiRequest
  rw [if_neg hok, if_neg hbody, EmailResponse.parseJson_http, Option.bind_some, h]

end Reading

/-! ## Calls -/

section Calls

variable {config : AppConfig} {lib : Libraries} {issues : List String → List (String × String)}
  {schema : CursorSchema} {user : Uuid} {ctx : RequestContext} {t : Tables}

/-- The batch and the sender of a row are there. -/
theorem isSome_of_mem (h : TenantInv t) {e : StoredEmail} (he : e ∈ t.emails) :
    (subjectOf e.batchId t).isSome = true ∧
      ((senderOf e.senderId t).map senderName).isSome = true := by
  obtain ⟨b, hb, hid, hsame⟩ := h.emailBatch e he
  obtain ⟨s, hs, hsender, -⟩ := h.batchSender b hb
  constructor
  · rw [subjectOf, Option.isSome_map, List.find?_isSome]
    exact ⟨b, hb, by simp [hid]⟩
  · rw [Option.isSome_map, senderOf, List.find?_isSome]
    exact ⟨s, hs, by simp [hsender, hsame]⟩

theorem contains_of_mem_page {list : EmailList} {input : ListInput} {e : StoredEmail}
    (h : e ∈ (list.page user input t).1) :
    e ∈ t.emails ∧ list.statuses.contains e.status = true := by
  obtain ⟨hmem, -, hselects⟩ := mem_page h
  unfold EmailList.selects at hselects
  rw [Bool.and_eq_true, Bool.and_eq_true] at hselects
  exact ⟨hmem, hselects.1.1⟩

/-- A batch that is returned comes with one of two statuses. -/
theorem status_of_postEmailBatches {formData : Except String Upload} {header : Option String}
    {s s' : ApiState} {created : Nat × BatchCreationResponse}
    (h : postEmailBatches config lib ctx user formData header s = (.ok created, s')) :
    created.1 = 200 ∨ created.1 = 201 := by
  obtain ⟨upload, s₁, -, h⟩ := Action.bind_eq_ok h
  obtain ⟨key, s₂, -, h⟩ := Action.bind_eq_ok h
  obtain ⟨existing, s₃, -, h⟩ := Action.bind_eq_ok h
  cases existing with
  | some batch =>
      obtain ⟨_, s₄, -, hreturn⟩ := Action.bind_eq_ok h
      cases hreturn
      exact Or.inl rfl
  | none =>
      obtain ⟨input, s₄, -, h⟩ := Action.bind_eq_ok h
      obtain ⟨⟨batch, replayed⟩, s₅, -, h⟩ := Action.bind_eq_ok h
      obtain ⟨_, s₆, -, hreturn⟩ := Action.bind_eq_ok h
      cases hreturn
      cases replayed with
      | true => exact Or.inl rfl
      | false => exact Or.inr rfl

/-- The call ends as the response says. -/
def Answered (issues : List String → List (String × String)) (call : ApiCall)
    (response : EmailResponse) : Prop :=
  Answers call response (apiRequest call.schema (response.http issues))

theorem answered_errorHandler (call : ApiCall) {e : RequestError} (h : e.IsFailure) :
    Answered issues call (errorHandler e) := by
  obtain ⟨status, code, message, details, herror⟩ := errorHandler_eq e
  unfold RequestError.IsFailure at h
  rw [herror] at h ⊢
  change 400 ≤ status at h
  unfold Answered
  rw [apiRequest_error call.schema h]
  exact .error call code message details h

/-- A route that throws failures only, and whose answers the call can read. -/
theorem answered_of_route {α : Type} {x : Route α} {answer : α → EmailResponse} {call : ApiCall}
    (hthrows : x.Throws RequestError.IsFailure)
    (h : ∀ a s', x { tables := t } = (.ok a, s') → Answered issues call (answer a)) :
    Answered issues call
    (Served.of ((x >>= fun a => pure (answer a)) { tables := t })).response := by
  rcases Action.bind_cases x (fun a => pure (answer a)) { tables := t } with
    ⟨e, s', hfirst, hrun⟩ | ⟨a, s', hfirst, hrun⟩
  · rw [hrun]
    exact answered_errorHandler call (hthrows _ e s' hfirst)
  · rw [hrun]
    exact h a s' hfirst

theorem answered_composeConfig :
    Answered issues .composeConfig (.compose (EmailScheduler.composeConfig config)) := by
  have hread : ApiCall.composeConfig.schema
      (some ((EmailResponse.compose (EmailScheduler.composeConfig config)).json issues)) =
        some (.composeConfig (.of (EmailScheduler.composeConfig config))) := rfl
  unfold Answered
  rw [apiRequest_of_read (Or.inl rfl) hread]
  exact .composeConfig _

theorem answered_senders (senders : List SenderResponse) :
    Answered issues .senders (.senders senders) := by
  have hread : ApiCall.senders.schema (some ((EmailResponse.senders senders).json issues)) =
      some (.senders (senders.map .of)) := by
    have hsender : ∀ sender, senderSchema (some (senderJson sender)) = some (.of sender) :=
      fun _ => rfl
    exact congrArg (Option.map ApiData.senders) (JsonSchema.array_map hsender senders)
  unfold Answered
  rw [apiRequest_of_read (Or.inl rfl) hread]
  exact .senders senders

theorem answered_scheduled (h : TenantInv t) (cursor : Option String) (input : ListInput) :
    Answered issues (.scheduled cursor)
      (.scheduledEmails (emailPage user scheduledList scheduledItem input t)) := by
  have hitems : ∀ item ∈ (emailPage user scheduledList scheduledItem input t).items,
      ∃ shown, ScheduledEmail.Shows item shown ∧
        scheduledEmailSchema (some (scheduledItemJson item)) = some shown := by
    intro item hitem
    obtain ⟨e, he, rfl⟩ := List.mem_map.1 hitem
    obtain ⟨hmem, hstatus⟩ := contains_of_mem_page he
    obtain ⟨hsubject, hsender⟩ := isSome_of_mem h hmem
    exact scheduledEmailSchema_scheduledItemJson hstatus hsubject hsender
  obtain ⟨shown, hshown, hread⟩ := cursorPageSchema_emailPageJson hitems
  have hcall : (ApiCall.scheduled cursor).schema (some ((EmailResponse.scheduledEmails
      (emailPage user scheduledList scheduledItem input t)).json issues)) =
        some (.scheduled shown) := congrArg (Option.map ApiData.scheduled) hread
  unfold Answered
  rw [apiRequest_of_read (Or.inl rfl) hcall]
  exact .scheduled cursor hshown

theorem answered_sent (h : TenantInv t) (cursor : Option String) (input : ListInput) :
    Answered issues (.sent cursor) (.sentEmails (emailPage user sentList sentItem input t)) := by
  have hitems : ∀ item ∈ (emailPage user sentList sentItem input t).items,
      ∃ shown, SentEmail.Shows item shown ∧
        sentEmailSchema (some (sentItemJson item)) = some shown := by
    intro item hitem
    obtain ⟨e, he, rfl⟩ := List.mem_map.1 hitem
    obtain ⟨hmem, hstatus⟩ := contains_of_mem_page he
    obtain ⟨hsubject, hsender⟩ := isSome_of_mem h hmem
    exact sentEmailSchema_sentItemJson hstatus hsubject hsender
  obtain ⟨shown, hshown, hread⟩ := cursorPageSchema_emailPageJson hitems
  have hcall : (ApiCall.sent cursor).schema (some ((EmailResponse.sentEmails
      (emailPage user sentList sentItem input t)).json issues)) = some (.sent shown) :=
    congrArg (Option.map ApiData.sent) hread
  unfold Answered
  rw [apiRequest_of_read (Or.inl rfl) hcall]
  exact .sent cursor hshown

theorem answered_scheduleBatch (formData : Except String Upload) (key : String) {status : Nat}
    (hstatus : status = 200 ∨ status = 201) (response : BatchCreationResponse) :
    Answered issues (.scheduleBatch formData key) (.batchCreation status response) := by
  have hread : (ApiCall.scheduleBatch formData key).schema
      (some ((EmailResponse.batchCreation status response).json issues)) =
        some (.scheduleBatch (.of response)) :=
    congrArg (Option.map ApiData.scheduleBatch) (scheduleBatchSchema_batchCreationJson response)
  have hsuccess : (EmailResponse.batchCreation status response).status = 200 ∨
      (EmailResponse.batchCreation status response).status = 201 := hstatus
  unfold Answered
  rw [apiRequest_of_read hsuccess hread]
  exact .scheduleBatch formData key response hstatus

/-- A page that a list route returns is a page of the tables. -/
theorem emailPage_of_read {α : Type} {list : EmailList} {item : Tables → StoredEmail → α}
    {r : Except RequestError ListInput} {page : EmailPage α} {t' : Tables}
    (h : (Action.ofExcept r >>= fun input => Action.read (emailPage user list item input)) t =
      (.ok page, t')) : ∃ input, page = emailPage user list item input t := by
  obtain ⟨input, t₁, hinput, hread⟩ := Action.bind_eq_ok h
  obtain ⟨-, rfl⟩ := Action.ofExcept_eq_ok hinput
  obtain ⟨rfl, -⟩ := Action.read_eq_ok hread
  exact ⟨input, rfl⟩

theorem answered_route (h : TenantInv t) (call : ApiCall) :
    Answered issues call
      (Served.of (route config lib user ctx (call.request schema) { tables := t })).response := by
  cases call with
  | composeConfig => exact answered_composeConfig
  | senders => exact answered_senders _
  | scheduled cursor =>
      refine answered_of_route (throws_onTables (throws_getScheduled _)) fun page s' hpage => ?_
      obtain ⟨hpage, -⟩ := Prod.mk.inj hpage
      obtain ⟨input, rfl⟩ := emailPage_of_read (Prod.ext hpage rfl)
      exact answered_scheduled h cursor input
  | sent cursor =>
      refine answered_of_route (throws_onTables (throws_getSent _)) fun page s' hpage => ?_
      obtain ⟨hpage, -⟩ := Prod.mk.inj hpage
      obtain ⟨input, rfl⟩ := emailPage_of_read (Prod.ext hpage rfl)
      exact answered_sent h cursor input
  | scheduleBatch formData key =>
      refine answered_of_route
        (throws_postEmailBatches formData (some key)) fun created s' hcreated => ?_
      exact answered_scheduleBatch formData key (status_of_postEmailBatches hcreated) created.2

/-- **Every call is answered.** In every state that logins, requests and the worker can reach, a
call of a user ends with the data that the server has answered with, or with an `ApiError` that has
the status, the code and the message of the server's error. -/
theorem callAnswered (h : (apiSystem config lib).Reachable TransitionSystem.anyStep t)
    (call : ApiCall) :
    Answers call (serve config lib user ctx (call.request schema) t).response
      (apiRequest call.schema
        ((serve config lib user ctx (call.request schema) t).response.http issues)) := by
  by_cases huser : ∃ v ∈ t.users, v.id = user
  · rw [serve_of_user huser]
    exact answered_route (tenantInv_of_reachable h) call
  · rw [serve_of_no_user huser]
    exact answered_errorHandler call (isFailure_httpError (by decide) _ _)

theorem callAnswered_of_firstBatch : ∃ t,
    (apiSystem validConfig testLibraries).run TransitionSystem.anyStep
        (twoLogins ++ [.request 2 scheduleWithSecond (contextOf 30)]) {} = some t ∧
      (ownEmails 2 t).length = 1 ∧
      Answers (.scheduled none)
        (serve validConfig testLibraries 2 (contextOf 40)
          ((ApiCall.scheduled none).request plainCursors) t).response
        (apiRequest (ApiCall.scheduled none).schema
        ((serve validConfig testLibraries 2 (contextOf 40)
          ((ApiCall.scheduled none).request plainCursors) t).response.http fun _ => [])) := by
  have hcall : ∀ t, (apiSystem validConfig testLibraries).run TransitionSystem.anyStep
      (twoLogins ++ [.request 2 scheduleWithSecond (contextOf 30)]) {} = some t →
      Answers (.scheduled none)
        (serve validConfig testLibraries 2 (contextOf 40)
          ((ApiCall.scheduled none).request plainCursors) t).response
        (apiRequest (ApiCall.scheduled none).schema
          ((serve validConfig testLibraries 2 (contextOf 40)
          ((ApiCall.scheduled none).request plainCursors) t).response.http fun _ => [])) :=
    fun t hrun => callAnswered (TransitionSystem.reachable_of_run _ rfl hrun) _
  exact ⟨_, rfl, by decide, hcall _ rfl⟩

end Calls

end Client

end EmailScheduler
