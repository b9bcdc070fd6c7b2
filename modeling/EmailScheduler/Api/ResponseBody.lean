import EmailScheduler.Foundation.JsonText
import EmailScheduler.Api.CursorCodec
import EmailScheduler.Api.Router

/-!
# Bodies of responses

What the server writes for a response: its status and the JSON of its body, as the routes of
`email/router.ts` and the error handler of `app.ts` build them.

The issues of a request that a schema does not accept are `zod`'s; `issues` gives their paths and
texts.
-/

set_option autoImplicit false

namespace EmailScheduler

open Foundation

/-- `status.toLowerCase()` of a batch. -/
def EmailBatchStatus.text : EmailBatchStatus → String
  | .creating => "creating"
  | .scheduled => "scheduled"
  | .partiallyFailed => "partially_failed"
  | .completed => "completed"

/-- `status.toLowerCase()` of an email. -/
def ScheduledEmailStatus.text : ScheduledEmailStatus → String
  | .scheduled => "scheduled"
  | .rateLimited => "rate_limited"
  | .processing => "processing"
  | .retryable => "retryable"
  | .sent => "sent"
  | .failed => "failed"
  | .deliveryUnknown => "delivery_unknown"
  | .cancelled => "cancelled"

/-- The status line and the body. -/
structure HttpResponse where
  status : Nat
  body : String
deriving DecidableEq, Repr

/-! ## Values -/

def idJson (id : Uuid) : Json := .string (uuidText id)

def timeJson (time : Int) : Json := .string (toISOString time)

/-- A value that may be `null`. -/
def nullOr {α : Type} (json : α → Json) : Option α → Json
  | none => .null
  | some a => json a

def composeConfigJson (config : ComposeConfig) : Json :=
  .object [
    ("defaults", .object [
      ("hourlyLimit", .integer config.defaultHourlyLimit),
      ("minimumDelayMs", .integer config.defaultMinimumDelayMs),
      ("pageSize", .integer config.pageSize)]),
    ("limits", .object [
      ("hourlyLimit", .object [
        ("min", .integer config.hourlyLimit.1), ("max", .integer config.hourlyLimit.2)]),
      ("minimumDelayMs", .object [
        ("min", .integer config.minimumDelayMs.1), ("max", .integer config.minimumDelayMs.2)]),
      ("maxBodyLength", .integer config.maxBodyLength),
      ("maxLeadsPerBatch", .integer config.maxLeadsPerBatch),
      ("maxScheduleHorizonDays", .integer config.maxScheduleHorizonDays),
      ("maxSubjectLength", .integer config.maxSubjectLength),
      ("maxUploadBytes", .integer config.maxUploadBytes)])]

def senderJson (sender : SenderResponse) : Json :=
  .object [
    ("id", idJson sender.id),
    ("displayName", .string sender.displayName),
    ("email", .string sender.email),
    ("isDefault", .bool sender.isDefault),
    ("isActive", .bool sender.isActive),
    ("hourlyLimit", .integer sender.hourlyLimit),
    ("minimumDelayMs", .integer sender.minimumDelayMs),
    ("createdAt", timeJson sender.createdAt),
    ("updatedAt", timeJson sender.updatedAt)]

def invalidRowJson (row : InvalidLead) : Json :=
  .object [("row", .integer row.row), ("value", .string row.value),
    ("reason", .string "invalid_email")]

def batchCreationJson (response : BatchCreationResponse) : Json :=
  .object [
    ("replayed", .bool response.replayed),
    ("batch", .object [
      ("id", idJson response.id),
      ("status", .string response.status.text),
      ("startAt", timeJson response.startAt),
      ("totalRows", .integer response.totalRows),
      ("validRecipientCount", .integer response.validRecipientCount),
      ("invalidRecipientCount", .integer response.invalidRecipientCount),
      ("duplicateRecipientCount", .integer response.duplicateRecipientCount),
      ("invalidRows", .array (response.invalidRows.map invalidRowJson))])]

def senderSummaryJson (sender : SenderSummary) : Json :=
  .object [
    ("id", idJson sender.id), ("displayName", .string sender.displayName),
    ("email", .string sender.email)]

def batchJson (response : BatchResponse) : Json :=
  .object [
    ("id", idJson response.id),
    ("status", .string response.status.text),
    ("subject", .string response.subject),
    ("startAt", timeJson response.startAt),
    ("counts", .object [
      ("totalRows", .integer response.totalRows),
      ("valid", .integer response.valid),
      ("invalid", .integer response.invalid),
      ("duplicate", .integer response.duplicate),
      ("byStatus", .object (response.byStatus.map fun entry => (entry.1.text, .integer entry.2)))]),
    ("sender", nullOr senderSummaryJson response.sender),
    ("createdAt", timeJson response.createdAt)]

def senderNameJson (sender : SenderName) : Json :=
  .object [("displayName", .string sender.displayName), ("email", .string sender.email)]

/-- An item of `GET /emails/scheduled`. -/
def scheduledItemJson (item : ScheduledItem) : Json :=
  .object [
    ("id", idJson item.id),
    ("recipientEmail", .string item.recipientEmail),
    ("subject", nullOr .string item.subject),
    ("scheduledAt", timeJson item.scheduledAt),
    ("nextAttemptAt", timeJson item.nextAttemptAt),
    ("status", .string item.status.text),
    ("sender", nullOr senderNameJson item.sender)]

/-- An item of `GET /emails/sent`. -/
def sentItemJson (item : SentItem) : Json :=
  .object [
    ("id", idJson item.id),
    ("recipientEmail", .string item.recipientEmail),
    ("subject", nullOr .string item.subject),
    ("sentAt", nullOr timeJson item.sentAt),
    ("completedAt", timeJson item.completedAt),
    ("status", .string item.status.text),
    ("etherealPreviewUrl", nullOr .string item.etherealPreviewUrl),
    ("error", nullOr .string item.error),
    ("sender", nullOr senderNameJson item.sender)]

def emailPageJson {α : Type} (item : α → Json) (page : EmailPage α) : Json :=
  .object [
    ("items", .array (page.items.map item)),
    ("nextCursor", nullOr (fun cursor => .string (encodeCursor cursor)) page.nextCursor)]

variable (issues : List String → List (String × String))

/-- The `details` of an error, if there are any. -/
def errorDetailsJson : ErrorDetails → List (String × Json)
  | .none => []
  | .recipients details => [("details", .object [
      ("totalRows", .integer details.totalRows),
      ("invalidCount", .integer details.invalidCount),
      ("duplicateCount", .integer details.duplicateCount),
      ("invalidRows", .array (details.invalidRows.map invalidRowJson))])]
  | .issues paths => [("details", .object [
      ("issues", .array ((issues paths).map fun issue =>
        .object [("path", .string issue.1), ("message", .string issue.2)]))])]

def errorJson (code message : String) (details : ErrorDetails) : Json :=
  .object [("error", .object (
    [("code", .string code), ("message", .string message)] ++ errorDetailsJson issues details))]

/-- The status of a response. -/
def EmailResponse.status : EmailResponse → Nat
  | .compose _ | .senders _ | .batch _ | .scheduledEmails _ | .sentEmails _ => 200
  | .sender status _ | .batchCreation status _ | .error status _ _ _ => status

/-- What is passed to `response.json`. -/
def EmailResponse.json : EmailResponse → Json
  | .compose config => composeConfigJson config
  | .senders list => .object [("senders", .array (list.map senderJson))]
  | .sender _ row => .object [("sender", senderJson row)]
  | .batchCreation _ response => batchCreationJson response
  | .batch response => .object [("batch", batchJson response)]
  | .scheduledEmails page => emailPageJson scheduledItemJson page
  | .sentEmails page => emailPageJson sentItemJson page
  | .error _ code message details => errorJson issues code message details

/-- The response on the wire. -/
def EmailResponse.http (response : EmailResponse) : HttpResponse :=
  ⟨response.status, (response.json issues).text⟩

/-! ## The bodies are JSON -/

theorem writable_nullOr {α : Type} {json : α → Json} (h : ∀ a, (json a).Writable)
    (value : Option α) :
    (nullOr json value).Writable := by
  cases value with
  | none => exact .null
  | some a => exact h a

@[simp] theorem writable_idJson (id : Uuid) : (idJson id).Writable := .string _

@[simp] theorem writable_timeJson (time : Int) : (timeJson time).Writable := .string _

@[simp] theorem writable_senderJson (sender : SenderResponse) : (senderJson sender).Writable := by
  simp [senderJson]

@[simp] theorem writable_invalidRowJson (row : InvalidLead) : (invalidRowJson row).Writable := by
  simp [invalidRowJson]

@[simp] theorem writable_senderNameJson (sender : SenderName) :
    (senderNameJson sender).Writable := by
  simp [senderNameJson]

@[simp] theorem writable_senderSummaryJson (sender : SenderSummary) :
    (senderSummaryJson sender).Writable := by
  simp [senderSummaryJson]

@[simp] theorem writable_scheduledItemJson (item : ScheduledItem) :
    (scheduledItemJson item).Writable := by
  simp [scheduledItemJson, writable_nullOr]

@[simp] theorem writable_sentItemJson (item : SentItem) : (sentItemJson item).Writable := by
  simp [sentItemJson, writable_nullOr]

@[simp] theorem writable_batchJson (response : BatchResponse) : (batchJson response).Writable := by
  have hcounts : (Json.object (response.byStatus.map fun entry =>
      (entry.1.text, .integer entry.2))).Writable := by
    rw [Json.writable_object, List.forall_mem_map]
    exact fun entry _ => Json.writable_integer entry.2
  have hobject : (Json.object [
      ("totalRows", .integer response.totalRows), ("valid", .integer response.valid),
      ("invalid", .integer response.invalid), ("duplicate", .integer response.duplicate),
      ("byStatus", .object (response.byStatus.map fun entry =>
        (entry.1.text, .integer entry.2)))]).Writable := by
    rw [Json.writable_object]
    simp only [List.forall_mem_cons, Json.writable_integer, hcounts]
    simp
  unfold batchJson
  rw [Json.writable_object]
  simp only [List.forall_mem_cons, hobject]
  simp [writable_nullOr]

theorem writable_emailPageJson {α : Type} {item : α → Json} (h : ∀ a, (item a).Writable)
    (page : EmailPage α) : (emailPageJson item page).Writable := by
  simp [emailPageJson, h, writable_nullOr]

theorem writable_errorJson (code message : String) (details : ErrorDetails) :
    (errorJson issues code message details).Writable := by
  cases details with
  | none => simp [errorJson, errorDetailsJson]
  | recipients details => simp [errorJson, errorDetailsJson]
  | issues paths =>
      have hissue : ∀ issue : String × String, (Json.object [("path", .string issue.1),
          ("message", .string issue.2)]).Writable := by simp
      have hlist : (Json.array ((issues paths).map fun issue =>
          .object [("path", .string issue.1), ("message", .string issue.2)])).Writable := by
        rw [Json.writable_array, List.forall_mem_map]
        exact fun issue _ => hissue issue
      simp [errorJson, errorDetailsJson, hlist]

/-- **The body of every response is the text of a JSON value.** -/
theorem EmailResponse.writable_json (response : EmailResponse) :
    (response.json issues).Writable := by
  cases response with
  | compose config => simp [EmailResponse.json, composeConfigJson]
  | senders senders => simp [EmailResponse.json]
  | sender status sender => simp [EmailResponse.json]
  | batchCreation status response => simp [EmailResponse.json, batchCreationJson]
  | batch response => simp [EmailResponse.json]
  | scheduledEmails page => exact writable_emailPageJson writable_scheduledItemJson page
  | sentEmails page => exact writable_emailPageJson writable_sentItemJson page
  | error status code message details => exact writable_errorJson issues code message details

/-- The client reads from the body what was passed to `response.json`. -/
theorem EmailResponse.parseJson_http (response : EmailResponse) :
    parseJson (response.http issues).body = some (response.json issues) :=
  parseJson_text (response.writable_json issues)

/-! ## Errors are no successes -/

/-- The error handler answers with the status of a failure. -/
def RequestError.IsFailure (e : RequestError) : Prop := 400 ≤ (errorHandler e).status

theorem isFailure_httpError {status : Nat} (h : 400 ≤ status) (code message : String) :
    (httpError status code message).IsFailure := h

theorem isFailure_invalidRequest (paths : List String) :
    (RequestError.invalidRequest paths).IsFailure := Nat.le_refl 400

theorem isFailure_prisma (code : String) : (RequestError.prisma code).IsFailure := by
  simp [RequestError.IsFailure, errorHandler, EmailResponse.status]

theorem isFailure_other : RequestError.other.IsFailure := by
  simp [RequestError.IsFailure, errorHandler, EmailResponse.status]

theorem isFailure_multer (code : String) : (RequestError.multer code).IsFailure := by
  unfold RequestError.IsFailure errorHandler
  split <;> simp_all [EmailResponse.status]

section Errors

variable {config : AppConfig} {lib : Libraries} {user : Uuid} {ctx : RequestContext}

theorem throws_onTables {α : Type} {x : Statement α} {Q : RequestError → Prop} (h : x.Throws Q) :
    (onTables x).Throws Q := by
  intro s e s' herror
  have hresult : (x s.tables).1 = .error e := congrArg Prod.fst herror
  exact h s.tables e (x s.tables).2 (Prod.ext hresult rfl)

theorem throws_enqueueBatch (batchId : Uuid) :
    (enqueueBatch ctx batchId).Throws RequestError.IsFailure := by
  intro s e s' herror
  have hresult := congrArg Prod.fst herror
  unfold enqueueBatch at hresult
  dsimp only at hresult
  split_ifs at hresult with havailable
  cases hresult
  exact isFailure_httpError (by decide) _ _

theorem isFailure_of_decodeCursor {cursor : CursorParameter} {e : RequestError}
    (h : decodeCursor cursor = .error e) : e.IsFailure := by
  cases cursor with
  | undecodable =>
      cases h
      exact isFailure_httpError (by decide) _ _
  | _ => cases h

theorem isFailure_of_listInput {query : ListQuery} {e : RequestError}
    (h : listInput config query = .error e) : e.IsFailure := by
  unfold listInput at h
  dsimp only at h
  split at h
  · cases h
    exact isFailure_invalidRequest _
  · cases hcursor : decodeCursor query.cursor with
    | error e' =>
        rw [hcursor] at h
        cases h
        exact isFailure_of_decodeCursor hcursor
    | ok cursor =>
        rw [hcursor] at h
        cases h
  · cases h
    exact isFailure_invalidRequest _

theorem throws_getScheduled (query : ListQuery) :
    (getScheduled config user query).Throws RequestError.IsFailure :=
  .bind (.ofExcept fun _ => isFailure_of_listInput) fun _ => .read _

theorem throws_getSent (query : ListQuery) :
    (getSent config user query).Throws RequestError.IsFailure :=
  .bind (.ofExcept fun _ => isFailure_of_listInput) fun _ => .read _

theorem isFailure_of_scheduleSchema {body : Option ScheduleBody} {e : RequestError}
    (h : scheduleSchema config body = .error e) : e.IsFailure := by
  unfold scheduleSchema at h
  split at h
  · cases h
    exact isFailure_invalidRequest _
  · dsimp only at h
    split at h
    · cases h
    · cases h
      exact isFailure_invalidRequest _

theorem isFailure_of_idempotencyKeySchema {header : Option String} {e : RequestError}
    (h : idempotencyKeySchema header = .error e) : e.IsFailure := by
  unfold idempotencyKeySchema at h
  split at h
  · cases h
    exact isFailure_invalidRequest _
  · split_ifs at h
    cases h
    exact isFailure_invalidRequest _

theorem isFailure_of_parseFileOrThrow {file : Option LeadFile} {e : RequestError}
    (h : parseFileOrThrow config lib file = .error e) : e.IsFailure := by
  unfold parseFileOrThrow at h
  split at h
  · cases h
    exact isFailure_httpError (by decide) _ _
  · split at h
    · cases h
    · cases h
      apply isFailure_httpError
      split <;> decide

/-- Each check of `POST /email-batches` fails with the status of a failure, in the order of the
source. -/
theorem isFailure_of_batchInput {key : String} {upload : Upload} {now : Int} {e : RequestError}
    (h : batchInput config lib user key upload now = .error e) : e.IsFailure := by
  unfold batchInput at h
  cases hschedule : scheduleSchema config upload.body with
  | error e' =>
      rw [hschedule] at h
      cases h
      exact isFailure_of_scheduleSchema hschedule
  | ok request =>
      rw [hschedule] at h
      change (if request.startAt < now ∨ scheduleHorizon config now < request.startAt
        then _ else _) = _ at h
      split_ifs at h with hstart
      · cases h
        exact isFailure_httpError (by decide) _ _
      · cases hleads : parseFileOrThrow config lib upload.file with
        | error e' =>
            rw [hleads] at h
            cases h
            exact isFailure_of_parseFileOrThrow hleads
        | ok leads =>
            rw [hleads] at h
            change (if scheduleHorizon config now < request.startAt +
              max 0 ((leads.leads.length : Int) - 1) * request.minimumDelayMs then _ else _) =
                _ at h
            split_ifs at h with hlast
            · cases h
              exact isFailure_httpError (by decide) _ _
            · cases h

theorem createBatchTransaction_eq_error {db : Database} {input : CreateBatchInput} {batchId : Uuid}
    {newId : Nat → Uuid} {e : CreateBatchError}
    (h : createBatchTransaction db input batchId newId = .error e) :
    e = senderNotFound ∨ e = uniqueViolation := by
  unfold createBatchTransaction at h
  split at h
  · cases h
    exact Or.inl rfl
  · right
    split at h
    next e' hbatch =>
      cases h
      unfold insertBatch at hbatch
      split_ifs at hbatch
      cases hbatch
      rfl
    next db' _ =>
      split at h
      next e' hemails =>
        cases h
        rw [insertEmails_eq] at hemails
        exact foldlM_insertEmail_eq_error hemails
      next => cases h

theorem isFailure_of_checkText {width : Nat} {text : String} {e : RequestError}
    (h : checkText width text = .error e) : e.IsFailure := by
  rw [checkText] at h
  split_ifs at h
  · cases h
    exact isFailure_other
  · cases h
    exact isFailure_prisma _

theorem isFailure_of_checkInteger {n : Int} {e : RequestError} (h : checkInteger n = .error e) :
    e.IsFailure := by
  rw [checkInteger] at h
  split_ifs at h
  cases h
  exact isFailure_other

theorem isFailure_of_checkUnboundedText {text : String} {e : RequestError}
    (h : checkUnboundedText text = .error e) : e.IsFailure := by
  rw [checkUnboundedText] at h
  split_ifs at h
  cases h
  exact isFailure_other

/-- One check after the other. -/
theorem isFailure_of_bind {x : Except RequestError Unit} {f : Unit → Except RequestError Unit}
    (hx : ∀ e, x = .error e → e.IsFailure) (hf : ∀ e, f () = .error e → e.IsFailure) :
    ∀ e, (x >>= f) = .error e → e.IsFailure := by
  intro e h
  cases x with
  | error e' =>
      cases h
      exact hx e rfl
  | ok u => exact hf e h

theorem isFailure_of_forM {α : Type} {check : α → Except RequestError Unit}
    (hcheck : ∀ a e, check a = .error e → e.IsFailure) (values : List α) :
    ∀ e, values.forM check = .error e → e.IsFailure := by
  induction values with
  | nil =>
      intro e h
      cases h
  | cons a values ih => exact isFailure_of_bind (hcheck a) ih

theorem isFailure_of_checkBatch (batch : EmailBatch) :
    ∀ e, checkBatch batch = .error e → e.IsFailure := by
  have htext : ∀ (width : Nat) (text : String) (e : RequestError),
      checkText width text = .error e → e.IsFailure := fun _ _ _ => isFailure_of_checkText
  have hinteger : ∀ (n : Int) (e : RequestError), checkInteger n = .error e → e.IsFailure :=
    fun _ _ => isFailure_of_checkInteger
  apply isFailure_of_bind (htext _ _)
  apply isFailure_of_bind (htext _ _)
  apply isFailure_of_bind fun _ => isFailure_of_checkUnboundedText
  apply isFailure_of_bind (hinteger _)
  apply isFailure_of_bind (hinteger _)
  apply isFailure_of_bind (htext _ _)
  apply isFailure_of_bind (hinteger _)
  apply isFailure_of_bind (hinteger _)
  exact isFailure_of_bind (hinteger _) (hinteger _)

theorem isFailure_of_checkEmail (row : ScheduledEmail) :
    ∀ e, checkEmail row = .error e → e.IsFailure := by
  apply isFailure_of_bind fun _ => isFailure_of_checkText
  exact isFailure_of_bind (fun _ => isFailure_of_checkText) fun _ => isFailure_of_checkInteger

theorem isFailure_of_policy (input : CreateBatchInput) :
    ∀ e, (policyData input).check = .error e → e.IsFailure := by
  intro e h
  -- The other columns are not written.
  have hpolicy : ((checkInteger input.hourlyLimit) >>= fun _ => checkInteger input.minimumDelayMs) =
      .error e := h
  exact isFailure_of_bind (fun _ => isFailure_of_checkInteger)
    (fun _ => isFailure_of_checkInteger) e
    hpolicy

/-- Each column that the transaction writes fails alike. -/
theorem isFailure_of_checkColumns (input : CreateBatchInput) :
    ∀ e, checkColumns input ctx = .error e → e.IsFailure := by
  apply isFailure_of_bind (isFailure_of_policy input)
  exact isFailure_of_bind (isFailure_of_checkBatch _) (isFailure_of_forM isFailure_of_checkEmail _)

theorem throws_insertCreated (input : CreateBatchInput) :
    (insertCreated input ctx).Throws RequestError.IsFailure := by
  intro t e t' herror
  unfold insertCreated at herror
  split at herror
  next e' hcreate =>
    cases herror
    rcases createBatchTransaction_eq_error hcreate with rfl | rfl
    · exact isFailure_httpError (by decide) _ _
    · exact isFailure_prisma _
  next => cases herror

theorem throws_batchTransaction (input : CreateBatchInput) :
    (batchTransaction input ctx).Throws RequestError.IsFailure :=
  .bind (.throwIf (isFailure_httpError (by decide) _ _)) fun _ =>
    .bind (.ofExcept (isFailure_of_checkColumns input)) fun _ => throws_insertCreated input

theorem throws_createEmailBatch (input : CreateBatchInput) :
    (createEmailBatch input ctx).Throws RequestError.IsFailure := by
  refine .bind (.read _) fun existing => ?_
  cases existing with
  | some batch => exact .pure _
  | none =>
      dsimp only
      split
      · have hstatus : 400 ≤ 422 := by decide
        exact .throw hstatus
      · refine .catchError (.bind (throws_batchTransaction input) fun _ => .pure _) fun e he => ?_
        unfold rereadBatch
        split
        · refine .bind (.read _) fun raced => ?_
          cases raced with
          | some batch => exact .pure _
          | none => exact .throw (isFailure_prisma _)
        · exact .throw he

theorem throws_postEmailBatches (upload : Except String Upload) (header : Option String) :
    (postEmailBatches config lib ctx user upload header).Throws RequestError.IsFailure := by
  refine .bind (.ofExcept fun e he => ?_) fun upload => ?_
  · cases upload with
    | error code =>
        cases he
        exact isFailure_multer code
    | ok upload => cases he
  refine .bind (.ofExcept fun _ => isFailure_of_idempotencyKeySchema) fun key => ?_
  refine .bind (throws_onTables (.read _)) fun existing => ?_
  cases existing with
  | some batch => exact .bind (throws_enqueueBatch batch.id) fun _ => .pure _
  | none =>
      refine .bind (.ofExcept fun _ => isFailure_of_batchInput) fun input => ?_
      refine .bind (throws_onTables (throws_createEmailBatch input)) fun created => ?_
      exact .bind (throws_enqueueBatch created.1.id) fun _ => .pure _

end Errors

end EmailScheduler
