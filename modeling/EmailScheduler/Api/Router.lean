import EmailScheduler.Api.GoogleUser
import EmailScheduler.Api.EmailLists

/-!
# The email router

`createEmailRouter`: its eight routes behind `requireAuth`, with the error handler of the
application, as one function from a request to a response.

In responses a time is its number of milliseconds and a status the member of its enumeration; the
texts that stand for them are functions of these.
-/

set_option autoImplicit false

namespace EmailScheduler

open Foundation

/-- A request to a route. -/
inductive EmailRequest where
  | getCompose
  | getSenders
  | postSenders (body : Option CreateSenderBody)
  | patchSender (senderId : Option Uuid) (body : Option UpdateSenderBody)
  | postEmailBatches (upload : Except String Upload) (idempotencyKey : Option String)
  | getBatch (batchId : Option Uuid)
  | getScheduled (query : ListQuery)
  | getSent (query : ListQuery)

/-- `defaults` and `limits` of `GET /config/compose`. -/
structure ComposeConfig where
  defaultHourlyLimit : Int
  defaultMinimumDelayMs : Int
  pageSize : Int
  hourlyLimit : Int × Int
  minimumDelayMs : Int × Int
  maxBodyLength : Int
  maxLeadsPerBatch : Int
  maxScheduleHorizonDays : Int
  maxSubjectLength : Int
  maxUploadBytes : Int
deriving DecidableEq, Repr

structure SenderResponse where
  id : Uuid
  displayName : String
  email : String
  isDefault : Bool
  isActive : Bool
  hourlyLimit : Int
  minimumDelayMs : Int
  createdAt : Int
  updatedAt : Int
deriving DecidableEq, Repr

def senderResponse (s : StoredSender) : SenderResponse where
  id := s.id
  displayName := s.displayName
  email := s.email
  isDefault := s.isDefault
  isActive := s.isActive
  hourlyLimit := s.hourlyLimit
  minimumDelayMs := s.minimumDelayMs
  createdAt := s.createdAt
  updatedAt := s.updatedAt

/-- The `details` of an error response. -/
inductive ErrorDetails where
  | none
  | recipients (details : RecipientDetails)
  | issues (paths : List String)
deriving DecidableEq, Repr

/-- A response: its status and its body. -/
inductive EmailResponse where
  | compose (config : ComposeConfig)
  | senders (senders : List SenderResponse)
  | sender (status : Nat) (sender : SenderResponse)
  | batchCreation (status : Nat) (batch : BatchCreationResponse)
  | batch (batch : BatchResponse)
  | scheduledEmails (page : EmailPage ScheduledItem)
  | sentEmails (page : EmailPage SentItem)
  | error (status : Nat) (code message : String) (details : ErrorDetails)
deriving DecidableEq, Repr

/-- `errorHandler` of the application. -/
def errorHandler : RequestError → EmailResponse
  | .http error =>
      .error error.status error.code error.message
        (match error.details with
          | none => .none
          | some details => .recipients details)
  | .invalidRequest paths =>
      .error 400 "VALIDATION_ERROR" "The request data is invalid" (.issues paths)
  | .multer "LIMIT_FILE_SIZE" =>
      .error 413 "UPLOAD_TOO_LARGE" "The uploaded file exceeds the configured size limit" .none
  | .multer _ => .error 400 "INVALID_UPLOAD" "The multipart upload is invalid" .none
  | .prisma _ | .other => .error 500 "INTERNAL_SERVER_ERROR" "An unexpected error occurred" .none

variable (config : AppConfig) (lib : Libraries)

/-- `GET /config/compose`. -/
def composeConfig : ComposeConfig where
  defaultHourlyLimit := config.defaultEmailsPerHour
  defaultMinimumDelayMs := config.defaultMinSendDelayMs
  pageSize := config.apiPageSize
  hourlyLimit := (1, config.maxEmailsPerHour)
  minimumDelayMs := (config.minSendDelayMs, config.maxSendDelayMs)
  maxBodyLength := config.maxBodyLength
  maxLeadsPerBatch := config.maxLeadsPerBatch
  maxScheduleHorizonDays := config.maxScheduleHorizonDays
  maxSubjectLength := config.maxSubjectLength
  maxUploadBytes := config.maxUploadBytes

variable (user : Uuid) (ctx : RequestContext)

/-- The routes. -/
def route : EmailRequest → Route EmailResponse
  | .getCompose => pure (.compose (composeConfig config))
  | .getSenders => do
      let senders ← onTables (.read (getSenders user))
      return .senders (senders.map senderResponse)
  | .postSenders body => do
      let sender ← onTables (postSenders config lib user body ctx.newId ctx.writtenAt)
      return .sender 201 (senderResponse sender)
  | .patchSender senderId body => do
      let sender ← onTables (patchSender config lib user senderId body ctx.writtenAt)
      return .sender 200 (senderResponse sender)
  | .postEmailBatches upload idempotencyKey => do
      let response ← postEmailBatches config lib ctx user upload idempotencyKey
      return .batchCreation response.1 response.2
  | .getBatch batchId => do
      let response ← onTables (getBatch user batchId)
      return .batch response
  | .getScheduled query => do
      let page ← onTables (getScheduled config user query)
      return .scheduledEmails page
  | .getSent query => do
      let page ← onTables (getSent config user query)
      return .sentEmails page

/-- What the server does with a request of a user: the response, the tables after it, and the ids
that it has handed to `enqueueBatch`. -/
structure Served where
  response : EmailResponse
  tables : Tables
  enqueued : List Uuid
deriving DecidableEq, Repr

/-- The end of a route, with the error handler. -/
def Served.of (result : Except RequestError EmailResponse × ApiState) : Served where
  response := match result.1 with
    | .ok response => response
    | .error e => errorHandler e
  tables := result.2.tables
  enqueued := result.2.enqueued

/-- `requireAuth`, the route, and the error handler. -/
def serve (request : EmailRequest) (t : Tables) : Served :=
  .of ((onTables (authenticated user (pure ())) >>= fun _ => route config lib user ctx request)
    { tables := t })

variable {config lib user ctx}

/-- Every error gets an error response. -/
theorem errorHandler_eq (e : RequestError) :
    ∃ status code message details, errorHandler e = .error status code message details := by
  unfold errorHandler
  split <;> exact ⟨_, _, _, _, rfl⟩

/-- The request of a user whom the database knows reaches its route. -/
theorem serve_of_user {request : EmailRequest} {t : Tables} (h : ∃ v ∈ t.users, v.id = user) :
    serve config lib user ctx request t = .of
    (route config lib user ctx request { tables := t }) := by
  have hcheck : onTables (authenticated user (pure ())) { tables := t } =
    (.ok (), { tables := t }) := by
    dsimp only [onTables]
    rw [authenticated_of_user h]
    rfl
  unfold serve
  rw [Action.bind_of_ok hcheck]

/-- Another request is rejected. -/
theorem serve_of_no_user {request : EmailRequest} {t : Tables}
    (h : ¬ ∃ v ∈ t.users, v.id = user) : serve config lib user ctx request t =
      .of (.error (httpError 401 "AUTHENTICATION_REQUIRED" "Authentication is required"),
        { tables := t }) := by
  have hcheck : onTables (authenticated user (pure ())) { tables := t } =
      (.error (httpError 401 "AUTHENTICATION_REQUIRED" "Authentication is required"),
        { tables := t }) := by
    dsimp only [onTables]
    rw [authenticated_of_no_user h]
  unfold serve
  rw [Action.bind_apply, hcheck]

/-- The response of a statement that returns. -/
theorem response_onTables {α : Type} {x : Statement α} {answer : α → EmailResponse}
    {t : Tables} {a : α}
    (h : (x t).1 = .ok a) :
    (Served.of ((onTables x >>= fun a => pure (answer a)) { tables := t })).response =
      answer a := by
  have hok : onTables x { tables := t } = (.ok a, { tables := (x t).2 }) := Prod.ext h rfl
  rw [Action.bind_of_ok hok]
  rfl

end EmailScheduler
