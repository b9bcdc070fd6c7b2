import EmailScheduler.Api.BatchRequests
import EmailScheduler.Client.ApiClient
import EmailScheduler.Delivery.NeverEarly
import EmailScheduler.Scheduling.ComposePreview

/-!
# The compose dialog

`ComposeModal.tsx` against the server: files are chosen and read, reads end in any order, clicks on
the button wait for the check of the form, and the requests of a dialog arrive and are answered, or
get lost, at any later time. All of them carry the key that the dialog was opened with.

Whatever happens, a dialog schedules at most one batch, its content is that of one of the forms that
were sent, with the file whose preview was shown, and every success that the dialog reports is about
this batch (`oneBatch`). It need not be the form that was sent last: the server answers a second
request under the key with the batch of the first one.

A number input is the whole number that the schema finds in it, if any; so are ids. Texts of numbers
and times in the form data are read as what they were made from.
-/

set_option autoImplicit false

namespace EmailScheduler

open Foundation

namespace Client

/-! ## The form -/

/-- What the dialog takes from the browser. -/
structure Browser extends PreviewLibraries where
  /-- `new Date(text)` of a local time, if it is one. -/
  localTime : String → Option Int
  /-- The name of an uploaded file, as the server finds it in the form data. -/
  formFilename : String → String

/-- The inputs of the form. -/
structure ComposeInputs where
  senderId : Option Uuid
  subject : String
  body : String
  startAt : String
  minimumDelayMs : Option Int
  hourlyLimit : Option Int
deriving DecidableEq, Repr

/-- The values of a form that the schema accepts. -/
structure ComposeForm where
  senderId : Uuid
  subject : String
  body : String
  startAt : String
  minimumDelayMs : Int
  hourlyLimit : Int
deriving DecidableEq, Repr

/-- The schema of the form, or the fields with errors. -/
def composeSchema (limits : EmailScheduler.ComposeConfig) (inputs : ComposeInputs) :
    Except (List String) ComposeForm :=
  let subject := trimmedText limits.maxSubjectLength inputs.subject
  let body := boundedText limits.maxBodyLength inputs.body
  let startAt := if 1 ≤ utf16Length inputs.startAt then some inputs.startAt else none
  let minimumDelayMs := inputs.minimumDelayMs.bind
    (integerWithin limits.minimumDelayMs.1 limits.minimumDelayMs.2)
  let hourlyLimit := inputs.hourlyLimit.bind
    (integerWithin limits.hourlyLimit.1 limits.hourlyLimit.2)
  match inputs.senderId, subject, body, startAt, minimumDelayMs, hourlyLimit with
  | some senderId, some subject, some body, some startAt, some minimumDelayMs, some hourlyLimit =>
      .ok ⟨senderId, subject, body, startAt, minimumDelayMs, hourlyLimit⟩
  | _, _, _, _, _, _ =>
      .error (issue "senderId" inputs.senderId ++ issue "subject" subject ++ issue "body" body ++
        issue "startAt" startAt ++ issue "minimumDelayMs" minimumDelayMs ++
        issue "hourlyLimit" hourlyLimit)

/-- `defaultValues`. -/
def defaultInputs (limits : EmailScheduler.ComposeConfig) (senders : List SenderResponse) :
    ComposeInputs where
  senderId := ((senders.find? fun sender => sender.isDefault).or senders.head?).map
    SenderResponse.id
  subject := ""
  body := ""
  startAt := ""
  minimumDelayMs := some limits.defaultMinimumDelayMs
  hourlyLimit := some limits.defaultHourlyLimit

/-- The line breaks of a text in form data. -/
def formLines : List Char → List Char
  | [] => []
  | '\r' :: '\n' :: chars => '\r' :: '\n' :: formLines chars
  | c :: chars =>
      if c = '\r' ∨ c = '\n' then '\r' :: '\n' :: formLines chars else c :: formLines chars

/-- A text field of form data. -/
def formText (text : String) : String := .ofList (formLines text.toList)

/-! ## The dialog -/

/-- A request of the dialog: what was sent, with the preview that was shown, the response of the
server, and how the call has ended. -/
structure Submission where
  values : ComposeForm
  leadsFile : LeadFile
  preview : LeadPreview
  response : Option EmailResponse := none
  outcome : Option (Outcome ApiData) := none

/-- A click on the button, with what the dialog shows then. -/
structure Click where
  inputs : ComposeInputs
  file : Option LeadFile
  preview : Option LeadPreview

structure ComposeModal where
  inputs : ComposeInputs
  senders : List SenderResponse
  file : Option LeadFile := none
  preview : Option LeadPreview := none
  fileError : Option String := none
  /-- The fields with errors. -/
  errors : List String := []
  /-- The files that are read. -/
  reading : List LeadFile := []
  /-- The clicks whose form is checked. -/
  clicks : List Click := []
  submissions : List Submission := []
  isOpen : Bool := true

/-- The name of a file after its last dot. -/
def fileExtension (name : String) : Option (List Char) :=
  ((toLowerCase name).toList.splitOn '.').getLast?

/-- The checks of a file before it is read. -/
def fileRefusal (limits : EmailScheduler.ComposeConfig) (file : LeadFile) : Option String :=
  if fileExtension file.originalname ≠ some ['c', 's', 'v'] ∧
      fileExtension file.originalname ≠ some ['t', 'x', 't'] then
    some "Choose a .csv or .txt file"
  else if limits.maxUploadBytes < file.buffer.size then
    some "The file is larger than the configured upload limit"
  else none

namespace Submission

variable (browser : Browser) (sub : Submission)

/-- The form data of the request. A start time that is none throws before there is a request. -/
def formData : Option Upload :=
  (browser.localTime sub.values.startAt).map fun startAt =>
    { body := some {
        senderId := .value sub.values.senderId
        subject := .value (formText sub.values.subject)
        body := .value (formText sub.values.body)
        startAt := .value startAt
        minimumDelayMs := .value sub.values.minimumDelayMs
        hourlyLimit := .value sub.values.hourlyLimit }
      file := some { sub.leadsFile with
        originalname := browser.formFilename sub.leadsFile.originalname } }

end Submission

namespace ComposeModal

variable (modal : ComposeModal)

/-- `schedule.isPending`, of the last call. -/
def isPending : Bool := modal.submissions.getLast?.any fun sub => sub.outcome.isNone

/-- `selectFile`, up to the read. -/
def selectFile (limits : EmailScheduler.ComposeConfig) (selected : Option LeadFile) :
    ComposeModal :=
  let cleared := { modal with fileError := none, preview := none, file := none }
  match selected with
  | none => cleared
  | some file =>
      match fileRefusal limits file with
      | some message => { cleared with fileError := some message }
      | none => { cleared with reading := modal.reading ++ [file] }

/-- The rest of `selectFile`, with the preview or the error of the read. -/
def fileRead (file : LeadFile) (result : Except String LeadPreview) : ComposeModal :=
  match result with
  | .error message => { modal with fileError := some message }
  | .ok preview =>
      if preview.valid = 0 then
        { modal with fileError := some "No valid email addresses were found" }
      else { modal with file := some file, preview := some preview }

/-- `submit`, with what the dialog showed at the click. -/
def submit (limits : EmailScheduler.ComposeConfig) (browser : Browser) (click : Click) :
    ComposeModal :=
  match composeSchema limits click.inputs with
  | .error fields => { modal with errors := fields }
  | .ok values =>
      match click.file, click.preview with
      | some file, some preview =>
          { modal with
            errors := []
            submissions := modal.submissions ++ [{
              values := values
              leadsFile := file
              preview := preview
              outcome := if (browser.localTime values.startAt).isNone then some .unreadable
                else none }] }
      | _, _ => { modal with
          errors := [], fileError := some "Upload a lead file before scheduling" }

def setSubmission (i : Nat) (sub : Submission) : ComposeModal :=
  { modal with submissions := modal.submissions.set i sub }

/-- The end of a call. The dashboard closes the dialog where a batch was scheduled. -/
def ended (i : Nat) (sub : Submission) (outcome : Outcome ApiData) : ComposeModal :=
  { modal.setSubmission i { sub with outcome := some outcome } with
    isOpen := modal.isOpen && match outcome with
      | .data _ => false
      | _ => true }

end ComposeModal

/-! ## The dialog and the server -/

structure Composing where
  server : Application
  modal : ComposeModal

inductive ComposeEvent where
  /-- Another request, a login, or a step of the worker. -/
  | server (event : ApplicationEvent)
  | edit (inputs : ComposeInputs)
  | senders (senders : List SenderResponse)
  | select (selected : Option LeadFile)
  /-- A read ends, or fails with this message. -/
  | fileRead (i : Nat) (failure : Option String)
  | click
  /-- The check of a form ends. -/
  | checked (i : Nat)
  /-- A request arrives; `multer` may refuse the form with a code. -/
  | arrives (i : Nat) (refusal : Option String) (ctx : RequestContext)
  /-- The response of a request comes in. -/
  | answered (i : Nat)
  /-- A call ends without a response. The request may have arrived, or may still arrive. -/
  | lost (i : Nat)
  | close

section System

variable (config : AppConfig) (lib : Libraries) (browser : Browser)
  (issues : List String → List (String × String)) (user : Uuid) (key : String)

namespace Composing

/-- What `multer` makes of form data. -/
def received (refusal : Option String) (form : Upload) : Except String Upload :=
  match refusal with
  | none => .ok form
  | some code => .error code

/-- A request arrives, and the server responds. -/
def arrives (i : Nat) (ctx : RequestContext) (s : Composing) (sub : Submission)
    (upload : Except String Upload) : Composing where
  server := s.server.write
    (serve config lib user ctx (.postEmailBatches upload (some key)) s.server.tables).tables
  modal := s.modal.setSubmission i { sub with
    response := some
      (serve config lib user ctx (.postEmailBatches upload (some key)) s.server.tables).response }

/-- One step. -/
def step : ComposeEvent → Composing → Option Composing
  | .server event, s =>
      ((Application.system config lib).step event s.server).map fun server =>
        { s with server := server }
  | .edit inputs, s => some { s with modal := { s.modal with inputs := inputs } }
  | .senders senders, s => some { s with modal := { s.modal with senders := senders } }
  | .select selected, s =>
      some { s with modal := s.modal.selectFile (composeConfig config) selected }
  | .fileRead i failure, s => s.modal.reading[i]?.map fun file =>
      let result := match failure with
        | some message => .error message
        | none => previewLeadFile browser.toPreviewLibraries lib file config.maxLeadsPerBatch
      { s with modal := { s.modal.fileRead file result with reading := s.modal.reading.eraseIdx i } }
  | .click, s =>
      -- The button is disabled while a call is under way, and without senders.
      if s.modal.isOpen && !s.modal.isPending && !s.modal.senders.isEmpty then some { s with
        modal := { s.modal with
          clicks := s.modal.clicks ++ [⟨s.modal.inputs, s.modal.file, s.modal.preview⟩] } }
      else none
  | .checked i, s => s.modal.clicks[i]?.map fun click => { s with
      modal := { s.modal.submit (composeConfig config) browser click with
        clicks := s.modal.clicks.eraseIdx i } }
  | .arrives i refusal ctx, s => s.modal.submissions[i]?.bind fun sub =>
      if sub.response.isSome then none
      else (sub.formData browser).map fun form =>
        arrives config lib user key i ctx s sub (received refusal form)
  | .answered i, s => s.modal.submissions[i]?.bind fun sub =>
      if sub.outcome.isSome then none
      else sub.response.map fun response => { s with
        modal := s.modal.ended i sub
          (apiRequest (ApiCall.scheduleBatch (.error "") key).schema (response.http issues)) }
  | .lost i, s => s.modal.submissions[i]?.bind fun sub =>
      if sub.outcome.isSome then none else some { s with modal := s.modal.ended i sub .unreadable }
  | .close, s =>
      if s.modal.isPending then none else some { s with modal := { s.modal with isOpen := false } }

/-- A dialog that a user has just opened, in any state of the server that knows the user, with a new
key. -/
def system : TransitionSystem Composing ComposeEvent where
  init s := (Application.system config lib).Reachable TransitionSystem.anyStep s.server ∧
    (∃ v ∈ s.server.tables.users, v.id = user) ∧
    (∀ b ∈ s.server.tables.database.batches, ¬ b.HasKey user key) ∧
    ∃ senders, s.modal =
      { inputs := defaultInputs (composeConfig config) senders, senders := senders }
  step := step config lib browser issues user key

/-- No other request of the user has the key of the dialog. -/
def KeyUnused (user : Uuid) (key : String) (_ : Composing) : ComposeEvent → Prop
  | .server (.request other (.postEmailBatches _ header) _) => ¬ (other = user ∧ header = some key)
  | _ => True

instance (s : Composing) (event : ComposeEvent) : Decidable (KeyUnused user key s event) := by
  unfold KeyUnused
  split <;> infer_instance

end Composing

end System

/-! ## Files and previews -/

section Modal

variable {config : AppConfig} {lib : Libraries} {browser : Browser} {modal : ComposeModal}

/-- A file that the dialog accepts, with its preview. -/
structure Previewed (config : AppConfig) (lib : Libraries) (browser : Browser) (file : LeadFile)
    (preview : LeadPreview) : Prop where
  accepted : fileRefusal (composeConfig config) file = none
  read : previewLeadFile browser.toPreviewLibraries lib file config.maxLeadsPerBatch = .ok preview
  valid : preview.valid ≠ 0

/-- The dialog shows no file, or a file with its preview. -/
inductive Shows (config : AppConfig) (lib : Libraries) (browser : Browser) :
    Option LeadFile → Option LeadPreview → Prop where
  | nothing : Shows config lib browser none none
  | file {file : LeadFile} {preview : LeadPreview} :
      Previewed config lib browser file preview →
        Shows config lib browser (some file) (some preview)

/-- What holds of the dialog on its own. -/
structure ModalInv (config : AppConfig) (lib : Libraries) (browser : Browser)
    (modal : ComposeModal) :
    Prop where
  shown : Shows config lib browser modal.file modal.preview
  reading : ∀ file ∈ modal.reading, fileRefusal (composeConfig config) file = none
  clicks : ∀ click ∈ modal.clicks, Shows config lib browser click.file click.preview
  submissions : ∀ sub ∈ modal.submissions, Previewed config lib browser sub.leadsFile sub.preview

namespace ModalInv

theorem selectFile (h : ModalInv config lib browser modal) (selected : Option LeadFile) :
    ModalInv config lib browser (modal.selectFile (composeConfig config) selected) := by
  unfold ComposeModal.selectFile
  cases selected with
  | none => exact ⟨.nothing, h.reading, h.clicks, h.submissions⟩
  | some file =>
      cases hrefusal : fileRefusal (composeConfig config) file with
      | some message => 
          simp only [hrefusal]
          exact ⟨.nothing, h.reading, h.clicks, h.submissions⟩
      | none =>
          simp only [hrefusal]
          refine ⟨.nothing, fun f hf => ?_, h.clicks, h.submissions⟩
          rcases List.mem_append.1 hf with hf | hf
          · exact h.reading f hf
          · rw [List.mem_singleton.1 hf]
            exact hrefusal

/-- A read ends. -/
theorem fileRead (h : ModalInv config lib browser modal) {i : Nat} {file : LeadFile}
    (hfile : modal.reading[i]? = some file) (failure : Option String) :
    ModalInv config lib browser { modal.fileRead file (match failure with
      | some message => .error message
      | none => previewLeadFile browser.toPreviewLibraries lib file config.maxLeadsPerBatch)
        with reading := modal.reading.eraseIdx i } := by
  have hreading : ∀ f ∈ modal.reading.eraseIdx i, fileRefusal (composeConfig config) f = none :=
    fun f hf => h.reading f (List.mem_of_mem_eraseIdx hf)
  have haccepted := h.reading file (List.mem_of_getElem? hfile)
  have hkept : ∀ message : String, ModalInv config lib browser
      { modal.fileRead file (.error message) with reading := modal.reading.eraseIdx i } :=
    fun _ => ⟨h.shown, hreading, h.clicks, h.submissions⟩
  cases failure with
  | some message => exact hkept message
  | none =>
      dsimp only
      cases hread : previewLeadFile browser.toPreviewLibraries lib file config.maxLeadsPerBatch with
      | error message => exact hkept message
      | ok preview =>
          unfold ComposeModal.fileRead
          dsimp only
          split_ifs with hvalid
          · exact ⟨h.shown, hreading, h.clicks, h.submissions⟩
          · exact ⟨.file ⟨haccepted, hread, hvalid⟩, hreading, h.clicks, h.submissions⟩

/-- The check of a form ends. -/
theorem submit (h : ModalInv config lib browser modal) {i : Nat} {click : Click}
    (hclick : modal.clicks[i]? = some click) :
    ModalInv config lib browser { modal.submit (composeConfig config) browser click with
      clicks := modal.clicks.eraseIdx i } := by
  have hclicks : ∀ c ∈ modal.clicks.eraseIdx i, Shows config lib browser c.file c.preview :=
    fun c hc => h.clicks c (List.mem_of_mem_eraseIdx hc)
  have hshown := h.clicks click (List.mem_of_getElem? hclick)
  unfold ComposeModal.submit
  cases composeSchema (composeConfig config) click.inputs with
  | error fields => exact ⟨h.shown, h.reading, hclicks, h.submissions⟩
  | ok values =>
      obtain ⟨inputs, file, preview⟩ := click
      cases hshown with
      | nothing => exact ⟨h.shown, h.reading, hclicks, h.submissions⟩
      | file hpreviewed =>
          refine ⟨h.shown, h.reading, hclicks, fun sub hsub => ?_⟩
          rcases List.mem_append.1 hsub with hsub | hsub
          · exact h.submissions sub hsub
          · rw [List.mem_singleton.1 hsub]
            exact hpreviewed

/-- A request goes on. -/
theorem set (h : ModalInv config lib browser modal) {i : Nat} {sub sub' : Submission}
    (hsub : modal.submissions[i]? = some sub) (hfile : sub'.leadsFile = sub.leadsFile)
    (hpreview : sub'.preview = sub.preview) :
    ∀ x ∈ modal.submissions.set i sub', Previewed config lib browser x.leadsFile x.preview := by
  intro x hx
  rcases List.mem_or_eq_of_mem_set hx with hx | rfl
  · exact h.submissions x hx
  · rw [hfile, hpreview]
    exact h.submissions sub (List.mem_of_getElem? hsub)

end ModalInv

end Modal

/-! ## Batches and responses -/

section Batch

variable {config : AppConfig} {lib : Libraries} {browser : Browser} {user : Uuid} {key : String}
  {ctx : RequestContext} {sub : Submission} {db db' : Database} {b b' : EmailBatch}

/-- The leads of a file that was sent, as the server reads it. -/
def Submission.leads (config : AppConfig) (lib : Libraries) (browser : Browser) (sub : Submission) :
    Except LeadFileError LeadParseResult :=
  parseLeadFile lib
    { sub.leadsFile with originalname := browser.formFilename sub.leadsFile.originalname }
    config.maxLeadsPerBatch

/-- A batch with the content of a request of the dialog: the texts, the policy and the start of its
form, and an email for each lead of its file, at its time. -/
structure Made (config : AppConfig) (lib : Libraries) (browser : Browser) (sub : Submission)
    (db : Database) (b : EmailBatch) : Prop where
  senderId : b.senderId = sub.values.senderId
  subject : b.subject = trim (formText sub.values.subject)
  bodyText : b.bodyText = formText sub.values.body
  startAt : browser.localTime sub.values.startAt = some b.startAt
  hourlyLimit : b.requestedHourlyLimit = sub.values.hourlyLimit
  minimumDelayMs : b.requestedMinimumDelayMs = sub.values.minimumDelayMs
  emails : ∃ leads, sub.leads config lib browser = .ok leads ∧
    (db.emailsOf b.id).map (fun e => (e.recipientEmail, e.scheduledAt)) =
      leads.leads.mapIdx fun i lead =>
        (lead.email, b.startAt + i * b.requestedMinimumDelayMs)

/-- A response about a batch. -/
structure About (response : BatchCreationResponse) (b : EmailBatch) : Prop where
  id : response.id = b.id
  startAt : response.startAt = b.startAt
  totalRows : response.totalRows = b.totalRows
  counts : response.validRecipientCount = b.validRecipientCount ∧
    response.invalidRecipientCount = b.invalidRecipientCount ∧
    response.duplicateRecipientCount = b.duplicateRecipientCount

theorem about_batchCreationResponse (batch : StoredBatch) (replayed : Bool)
    (rows : List InvalidLead) :
    About (batchCreationResponse batch replayed rows) batch.toEmailBatch :=
  ⟨rfl, rfl, rfl, rfl, rfl, rfl⟩

/-- The label of the batch is no part of it. -/
theorem About.relabel {response : BatchCreationResponse} (h : About response b)
    (hsame : b'.unlabelled = b.unlabelled) : About response b' where
  id := h.id.trans (congrArg EmailBatch.id hsame :).symm
  startAt := h.startAt.trans (congrArg EmailBatch.startAt hsame :).symm
  totalRows := h.totalRows.trans (congrArg EmailBatch.totalRows hsame :).symm
  counts := ⟨h.counts.1.trans (congrArg EmailBatch.validRecipientCount hsame :).symm,
    h.counts.2.1.trans (congrArg EmailBatch.invalidRecipientCount hsame :).symm,
    h.counts.2.2.trans (congrArg EmailBatch.duplicateRecipientCount hsame :).symm⟩

theorem hasKey_relabel (h : b.HasKey user key) (hsame : b'.unlabelled = b.unlabelled) :
    b'.HasKey user key :=
  ⟨(congrArg EmailBatch.userId hsame :).trans h.1,
    (congrArg EmailBatch.idempotencyKey hsame :).trans h.2⟩

/-- A batch keeps its content, and so do its emails. -/
theorem Made.step (h : Made config lib browser sub db b) (hb : b ∈ db.batches)
    (hstep : BatchStep config db db') (hsame : b'.unlabelled = b.unlabelled) :
    Made config lib browser sub db' b' := by
  obtain ⟨leads, hleads, hemails⟩ := h.emails
  have hid : b'.id = b.id := (congrArg EmailBatch.id hsame :)
  have hstart : b'.startAt = b.startAt := (congrArg EmailBatch.startAt hsame :)
  have hdelay : b'.requestedMinimumDelayMs = b.requestedMinimumDelayMs :=
    (congrArg EmailBatch.requestedMinimumDelayMs hsame :)
  refine ⟨(congrArg EmailBatch.senderId hsame :).trans h.senderId,
    (congrArg EmailBatch.subject hsame :).trans h.subject,
    (congrArg EmailBatch.bodyText hsame :).trans h.bodyText, ?_,
    (congrArg EmailBatch.requestedHourlyLimit hsame :).trans h.hourlyLimit,
    hdelay.trans h.minimumDelayMs, leads, hleads, ?_⟩
  · rw [hstart]
    exact h.startAt
  · rw [hid, hstart, hdelay, ← hemails]
    cases hstep with
    | kept f hbatches hrows hstep =>
        rw [emailsOf_map hrows hstep, List.map_map]
        apply List.map_congr_left
        intro e he
        rw [Function.comp_apply, (hstep e (db.mem_emailsOf.1 he).1).recipientEmail_eq,
          (hstep e (db.mem_emailsOf.1 he).1).scheduledAt_eq]
    | created hleads hnew hbatches hrows => rw [emailsOf_append_of_ne hrows (hnew b hb)]

/-- The fields of a request that the server's schema accepts. -/
theorem required_of_scheduleSchema {fields : ScheduleBody} {request : ScheduleInput}
    (h : scheduleSchema config (some fields) = .ok request) :
    fields.senderId.required some = some request.senderId ∧
      fields.subject.required (trimmedText config.maxSubjectLength) = some request.subject ∧
      fields.body.required (boundedText config.maxBodyLength) = some request.body ∧
      fields.startAt.required some = some request.startAt ∧
      fields.hourlyLimit.required (hourlyLimitField config) = some request.hourlyLimit ∧
      fields.minimumDelayMs.required (minimumDelayField config) = some request.minimumDelayMs := by
  unfold scheduleSchema at h
  dsimp only at h
  split at h
  next hsender hsubject hbody hstart hlimit hdelay _ =>
    cases h
    exact ⟨hsender, hsubject, hbody, hstart, hlimit, hdelay⟩
  next => cases h

theorem trimmedText_eq_some {limit : Int} {text text' : String}
    (h : trimmedText limit text = some text') : text' = trim text := by
  unfold trimmedText at h
  split_ifs at h
  cases h
  rfl

theorem boundedText_eq_some {limit : Int} {text text' : String}
    (h : boundedText limit text = some text') : text' = text := by
  unfold boundedText at h
  split_ifs at h
  cases h
  rfl

/-- What the server's schema makes of the form data. -/
theorem scheduleSchema_formData {form : Upload} {request : ScheduleInput}
    (hform : sub.formData browser = some form) (h : scheduleSchema config form.body = .ok request) :
    request.senderId = sub.values.senderId ∧
      request.subject = trim (formText sub.values.subject) ∧
      request.body = formText sub.values.body ∧
      browser.localTime sub.values.startAt = some request.startAt ∧
      request.hourlyLimit = sub.values.hourlyLimit ∧
      request.minimumDelayMs = sub.values.minimumDelayMs := by
  obtain ⟨startAt, hstart, rfl⟩ := Option.map_eq_some_iff.1 hform
  dsimp only at h
  obtain ⟨hsender, hsubject, hbody, hstartAt, hlimit, hdelay⟩ := required_of_scheduleSchema h
  dsimp only [Field.required] at hsubject hbody hlimit hdelay
  refine ⟨(Option.some.inj hsender).symm, trimmedText_eq_some hsubject,
    boundedText_eq_some hbody, ?_,
    (integerWithin_eq_some hlimit).1, (integerWithin_eq_some hdelay).1⟩
  rw [hstart]
  exact hstartAt

/-- **The batch of a request of the dialog** has its content. -/
theorem made_of_batchRequested {form : Upload} {input : CreateBatchInput} {batch : StoredBatch}
    {t t' : Tables} (hform : sub.formData browser = some form)
    (h : BatchRequested config lib ctx user form key input batch t t')
    (hfilled : BatchesFilled t.database) :
    Made config lib browser sub t'.database batch.toEmailBatch := by
  obtain ⟨hbatch, -, hemails, hnew⟩ := h.created
  have hnone : t.database.emailsOf ctx.newId = [] := by
    apply hfilled.emailsOf_eq_nil
    intro b hb hid
    have hne := id_ne_of_batchConflict (hnew b hb)
    rw [hbatch] at hne
    exact hne hid.symm
  have hrows := emailsOf_created hnone hemails
  obtain ⟨request, leads, hrequest, hleads, -, -, -, hinput⟩ := batchInput_eq_ok h.accepted
  obtain ⟨hsender, hsubject, hbody, hstart, hlimit, hdelay⟩ :=
    scheduleSchema_formData hform hrequest
  have hfile : sub.leads config lib browser = .ok leads := by
    obtain ⟨startAt, -, rfl⟩ := Option.map_eq_some_iff.1 hform
    obtain ⟨file, hsent, hparse, -⟩ := leads_of_parseFileOrThrow hleads
    cases hsent
    exact hparse
  rw [hbatch]
  subst hinput
  refine ⟨hsender, hsubject, hbody, hstart, hlimit, hdelay, leads, hfile, ?_⟩
  dsimp only [createdBatch]
  rw [hrows, emailRows]
  apply List.ext_getElem
  · simp
  · intro i _ _
    simp [emailRow, hdelay]

end Batch

/-! ## One batch -/

namespace Composing

variable {config : AppConfig} {lib : Libraries} {browser : Browser}
  {issues : List String → List (String × String)} {user : Uuid} {key : String} {s t : Composing}

/-- What holds of a request of the dialog. -/
structure SubmissionInv (issues : List String → List (String × String)) (user : Uuid) (key : String)
    (db : Database) (sub : Submission) : Prop where
  about : ∀ status response, sub.response = some (.batchCreation status response) →
    ∃ b ∈ db.batches, b.HasKey user key ∧ About response b
  answered : ∀ response, sub.response = some response →
    Answered issues (.scheduleBatch (.error "") key) response
  reported : ∀ data, sub.outcome = some (.data data) → ∃ status response,
    sub.response = some (.batchCreation status response) ∧ data = .scheduleBatch (.of response)

/-- What holds of the dialog and the batches. -/
structure Inv (config : AppConfig) (lib : Libraries) (browser : Browser)
    (issues : List String → List (String × String)) (user : Uuid) (key : String) (s : Composing) :
    Prop where
  reachable : (Application.system config lib).Reachable TransitionSystem.anyStep s.server
  known : ∃ v ∈ s.server.tables.users, v.id = user
  modal : ModalInv config lib browser s.modal
  made : ∀ b ∈ s.server.tables.database.batches, b.HasKey user key →
    ∃ sub ∈ s.modal.submissions, Made config lib browser sub s.server.tables.database b
  submissions : ∀ sub ∈ s.modal.submissions,
    SubmissionInv issues user key s.server.tables.database sub

theorem inv_init (h : (system config lib browser issues user key).init s) :
    Inv config lib browser issues user key s := by
  obtain ⟨hreachable, huser, hnew, senders, hmodal⟩ := h
  refine ⟨hreachable, huser, ?_, fun b hb hkey => absurd hkey (hnew b hb), ?_⟩
  · rw [hmodal]
    exact ⟨.nothing, fun _ h => absurd h List.not_mem_nil, fun _ h => absurd h List.not_mem_nil,
      fun _ h => absurd h List.not_mem_nil⟩
  · rw [hmodal]
    exact fun _ h => absurd h List.not_mem_nil

/-! ### The server -/

section Server

variable {event : ApplicationEvent} {app : Application} {db db' : Database} {sub : Submission}

/-- Every batch of the first database is one of the second, but for its label. -/
def BatchesKept (db db' : Database) : Prop :=
  ∀ b ∈ db.batches, ∃ b' ∈ db'.batches, b'.unlabelled = b.unlabelled

theorem SubmissionInv.later (h : SubmissionInv issues user key db sub)
    (hkept : BatchesKept db db') :
    SubmissionInv issues user key db' sub := by
  refine ⟨fun status response hresponse => ?_, h.answered, h.reported⟩
  obtain ⟨b, hb, hkey, habout⟩ := h.about status response hresponse
  obtain ⟨b', hb', hsame⟩ := hkept b hb
  exact ⟨b', hb', hasKey_relabel hkey hsame, habout.relabel hsame⟩

/-- A batch under the key that was there has the content of a request. -/
theorem Inv.made_of_old (h : Inv config lib browser issues user key s)
    (hstep : (Application.system config lib).step event s.server = some app) {b b' : EmailBatch}
    (hb : b ∈ s.server.tables.database.batches) (hsame : b.unlabelled = b'.unlabelled)
    (hkey : b'.HasKey user key) :
    ∃ sub ∈ s.modal.submissions, Made config lib browser sub app.tables.database b' := by
  have hbatches : BatchStep config s.server.tables.database app.tables.database :=
    Application.batchStep_of_step (Application.synced_of_reachable h.reachable) hstep
  obtain ⟨sub, hsub, hmade⟩ := h.made b hb (hasKey_relabel hkey hsame)
  exact ⟨sub, hsub, hmade.step hb hbatches hsame.symm⟩

/-- A request adds a batch and keeps the others. -/
theorem batchesKept_of_requested {ctx : RequestContext} {other : Uuid} {form : Upload}
    {key' : String}
    {input : CreateBatchInput} {batch : StoredBatch} {t t' : Tables}
    (h : BatchRequested config lib ctx other form key' input batch t t') :
    BatchesKept t.database t'.database ∧
      ∀ b' ∈ t'.database.batches, b' ∈ t.database.batches ∨ b' = batch.toEmailBatch := by
  obtain ⟨-, hbatches, -, -⟩ := h.created
  unfold BatchesKept
  rw [hbatches]
  constructor
  · intro b hb
    exact ⟨b, List.mem_append_left _ hb, rfl⟩
  · intro b' hb'
    rw [List.mem_append, List.mem_singleton] at hb'
    exact hb'

/-- **Another request, a login, or a step of the worker.** -/
theorem Inv.server (h : Inv config lib browser issues user key s)
    (hunused : KeyUnused user key s (.server event))
    (hstep : (Application.system config lib).step event s.server = some app) :
    Inv config lib browser issues user key { s with server := app } := by
  have hreachable := h.reachable.trans (.single trivial hstep)
  have hknown := Application.user_of_step hstep h.known
  rcases Application.batches_of_step (Application.synced_of_reachable h.reachable) hstep with
    hsame | ⟨other, form, key', ctx, input, batch, rfl, hrequested⟩
  · have hkept : BatchesKept s.server.tables.database app.tables.database :=
      fun b hb => exists_of_map_eq hsame.symm hb
    refine ⟨hreachable, hknown, h.modal, fun b' hb' hkey => ?_,
      fun sub hsub => (h.submissions sub hsub).later hkept⟩
    obtain ⟨b, hb, hold⟩ := exists_of_map_eq hsame hb'
    exact h.made_of_old hstep hb hold hkey
  · obtain ⟨hkept, hnew⟩ := batchesKept_of_requested hrequested
    refine ⟨hreachable, hknown, h.modal, fun b' hb' hkey => ?_,
      fun sub hsub => (h.submissions sub hsub).later hkept⟩
    rcases hnew b' hb' with hold | rfl
    · exact h.made_of_old hstep hold rfl hkey
    · -- The new batch is another user's, or has another key.
      have hother := hrequested.hasKey
      have hunused' : ¬ (other = user ∧ some key' = some key) := hunused
      refine absurd ⟨hother.1.symm.trans hkey.1, ?_⟩ hunused'
      rw [← hother.2, hkey.2]

end Server

/-! ### The dialog -/

section Dialog

variable {i : Nat} {sub sub' : Submission} {modal : ComposeModal}

/-- What the dialog does without touching its requests. -/
theorem Inv.keep (h : Inv config lib browser issues user key s)
    (hmodal : ModalInv config lib browser modal) (hsame : modal.submissions = s.modal.submissions) :
    Inv config lib browser issues user key { s with modal := modal } := by
  refine ⟨h.reachable, h.known, hmodal, ?_, ?_⟩
  · dsimp only
    rw [hsame]
    exact h.made
  · dsimp only
    rw [hsame]
    exact h.submissions

/-- A list in which one element has been replaced by one that has its property, too. -/
theorem exists_mem_set {α : Type} {p : α → Prop} {l : List α} {i : Nat} {a a' : α}
    (hi : l[i]? = some a) (hp : p a → p a') (h : ∃ x ∈ l, p x) : ∃ x ∈ l.set i a', p x := by
  obtain ⟨x, hx, hpx⟩ := h
  obtain ⟨j, hj⟩ := List.mem_iff_getElem?.1 hx
  by_cases hij : i = j
  · subst hij
    rw [hi] at hj
    cases hj
    exact ⟨a', List.mem_set (List.getElem?_eq_some_iff.1 hi).1 a', hp hpx⟩
  · refine ⟨x, List.mem_of_getElem? (i := j) ?_, hpx⟩
    rw [List.getElem?_set_ne hij]
    exact hj

/-- The content of a batch is that of the form and the file. -/
theorem made_congr {db : Database} {b : EmailBatch} (hvalues : sub'.values = sub.values)
    (hfile : sub'.leadsFile = sub.leadsFile) (h : Made config lib browser sub db b) :
    Made config lib browser sub' db b := by
  have hleads : sub'.leads config lib browser = sub.leads config lib browser := by
    unfold Submission.leads
    rw [hfile]
  exact ⟨by rw [hvalues]; exact h.senderId, by rw [hvalues]; exact h.subject,
    by rw [hvalues]; exact h.bodyText, by rw [hvalues]; exact h.startAt,
    by rw [hvalues]; exact h.hourlyLimit, by rw [hvalues]; exact h.minimumDelayMs,
    by rw [hleads]; exact h.emails⟩

/-- A call ends. -/
theorem Inv.ended (h : Inv config lib browser issues user key s)
    (hsub : s.modal.submissions[i]? = some sub) {outcome : Outcome ApiData}
    (houtcome : ∀ data, outcome = .data data → ∃ status response,
      sub.response = some (.batchCreation status response) ∧ data = .scheduleBatch (.of response)) :
    Inv config lib browser issues user key { s with modal := s.modal.ended i sub outcome } := by
  have hmem := List.mem_of_getElem? hsub
  refine ⟨h.reachable, h.known, ?_, fun b hb hkey => ?_, fun x hx => ?_⟩
  · exact ⟨h.modal.shown, h.modal.reading, h.modal.clicks, h.modal.set hsub rfl rfl⟩
  · exact exists_mem_set hsub (made_congr rfl rfl) (h.made b hb hkey)
  · rcases List.mem_or_eq_of_mem_set hx with hx | rfl
    · exact h.submissions x hx
    · refine ⟨(h.submissions sub hmem).about,
        (h.submissions sub hmem).answered, fun data hdata => ?_⟩
      exact houtcome data (Option.some.inj hdata)

/-- A request that is made, if the check of a form makes one. -/
theorem submissions_submit (limits : EmailScheduler.ComposeConfig) (browser : Browser)
    (modal : ComposeModal) (click : Click) :
    (modal.submit limits browser click).submissions = modal.submissions ∨
      ∃ sub : Submission, (modal.submit limits browser click).submissions =
        modal.submissions ++ [sub] ∧
        sub.response = none ∧ ∀ data, sub.outcome ≠ some (.data data) := by
  unfold ComposeModal.submit
  cases composeSchema limits click.inputs with
  | error fields => exact Or.inl rfl
  | ok values =>
      dsimp only
      split
      next =>
        refine Or.inr ⟨_, rfl, rfl, fun data hdata => ?_⟩
        dsimp only at hdata
        split_ifs at hdata
        cases hdata
      next => exact Or.inl rfl

/-- The check of a form ends. -/
theorem Inv.checked (h : Inv config lib browser issues user key s) {click : Click}
    (hclick : s.modal.clicks[i]? = some click) :
    Inv config lib browser issues user key { s with
      modal := { s.modal.submit (composeConfig config) browser click with
        clicks := s.modal.clicks.eraseIdx i } } := by
  have hmodal := h.modal.submit hclick
  rcases submissions_submit (composeConfig config) browser s.modal click with
    hsame | ⟨sub, hmore, hresponse, houtcome⟩
  · exact h.keep hmodal hsame
  · refine ⟨h.reachable, h.known, hmodal, fun b hb hkey => ?_, fun x hx => ?_⟩
    · obtain ⟨made, hmem, hmade⟩ := h.made b hb hkey
      refine ⟨made, ?_, hmade⟩
      dsimp only
      rw [hmore]
      exact List.mem_append_left _ hmem
    · dsimp only at hx
      rw [hmore, List.mem_append, List.mem_singleton] at hx
      rcases hx with hx | rfl
      · exact h.submissions x hx
      · refine ⟨fun status response hsome => ?_, fun response hsome => ?_, fun data hdata => ?_⟩
        · rw [hresponse] at hsome
          cases hsome
        · rw [hresponse] at hsome
          cases hsome
        · exact absurd hdata (houtcome data)

/-- The dialog can read every response to a request of its user. -/
theorem answered_postEmailBatches {ctx : RequestContext} {t : Tables}
    (huser : ∃ v ∈ t.users, v.id = user) (upload : Except String Upload) (header : Option String) :
    Answered issues (.scheduleBatch (.error "") key)
      (serve config lib user ctx (.postEmailBatches upload header) t).response := by
  rw [serve_of_user huser]
  refine answered_of_route (throws_postEmailBatches upload header) fun created s' hcreated => ?_
  exact answered_scheduleBatch _ key (status_of_postEmailBatches hcreated) created.2

/-- A request has arrived. -/
theorem Inv.respond (h : Inv config lib browser issues user key s)
    (hsub : s.modal.submissions[i]? = some sub) (hnone : sub.response = none)
    {event : ApplicationEvent} {app : Application} {response : EmailResponse}
    (hstep : (Application.system config lib).step event s.server = some app)
    (hanswered : Answered issues (.scheduleBatch (.error "") key) response)
    (hkept : BatchesKept s.server.tables.database app.tables.database)
    (hmade : ∀ b ∈ app.tables.database.batches, b.HasKey user key →
      b ∈ s.server.tables.database.batches ∨ Made config lib browser sub app.tables.database b)
    (habout : ∀ status created, response = .batchCreation status created →
      ∃ b ∈ app.tables.database.batches, b.HasKey user key ∧ About created b) :
    Inv config lib browser issues user key {
      server := app
      modal := s.modal.setSubmission i { sub with response := some response } } := by
  refine ⟨h.reachable.trans (.single trivial hstep), Application.user_of_step hstep h.known,
    ⟨h.modal.shown, h.modal.reading, h.modal.clicks, h.modal.set hsub rfl rfl⟩,
    fun b hb hkey => ?_, fun x hx => ?_⟩
  · refine exists_mem_set hsub (made_congr rfl rfl) ?_
    rcases hmade b hb hkey with hold | hmade
    · exact h.made_of_old hstep hold rfl hkey
    · exact ⟨sub, List.mem_of_getElem? hsub, hmade⟩
  · rcases List.mem_or_eq_of_mem_set hx with hx | rfl
    · exact (h.submissions x hx).later hkept
    · refine ⟨fun status created hsome => habout status created (Option.some.inj hsome),
        fun r hsome => ?_, fun data hdata => ?_⟩
      · rw [← Option.some.inj hsome]
        exact hanswered
      · -- The call cannot have ended with data before.
        obtain ⟨status, created, hsome, -⟩ :=
          (h.submissions sub (List.mem_of_getElem? hsub)).reported data hdata
        rw [hnone] at hsome
        cases hsome

/-- **A request arrives.** -/
theorem Inv.arrives (h : Inv config lib browser issues user key s)
    (hsub : s.modal.submissions[i]? = some sub) (hnone : sub.response = none) {form : Upload}
    (hform : sub.formData browser = some form) (refusal : Option String) (ctx : RequestContext) :
    Inv config lib browser issues user key
      (Composing.arrives config lib user key i ctx s sub (received refusal form)) := by
  obtain ⟨result, s', hposted, htables, hresult⟩ := posted_serve config lib ctx h.known
    (received refusal form) (some key)
  have hanswered : Answered issues (.scheduleBatch (.error "") key) (serve config lib user ctx
      (.postEmailBatches (received refusal form) (some key)) s.server.tables).response :=
    answered_postEmailBatches h.known _ _
  have hstep : (Application.system config lib).step (.request user
      (.postEmailBatches (received refusal form) (some key)) ctx) s.server =
        some (s.server.write (serve config lib user ctx
          (.postEmailBatches (received refusal form) (some key)) s.server.tables).tables) := rfl
  have hdatabase :
    (s.server.write (serve config lib user ctx (.postEmailBatches (received refusal form)
      (some key)) s.server.tables).tables).tables.database = s'.tables.database :=
    congrArg Tables.database htables
  refine h.respond hsub hnone hstep hanswered ?_ ?_ ?_ <;> rw [hdatabase]
  · cases hposted with
    | rejected error => exact fun b hb => ⟨b, hb, rfl⟩
    | found hheader hbatch hkey hanswer => exact fun b hb => ⟨b, hb, rfl⟩
    | created hreceived hheader hrequested hanswer => exact (batchesKept_of_requested hrequested).1
  · intro b hb hkey
    cases hposted with
    | rejected error => exact Or.inl hb
    | found hheader hbatch hkey hanswer => exact Or.inl hb
    | @created form' _ _ _ _ _ hreceived hheader hrequested hanswer =>
        rcases (batchesKept_of_requested hrequested).2 b hb with hold | rfl
        · exact Or.inl hold
        · -- What the server received is what was sent, or else it was refused before the handler.
          have hsent : sub.formData browser = some form' := by
            cases refusal with
            | none =>
                cases hreceived
                exact hform
            | some code => cases hreceived
          have hfilled : BatchesFilled s.server.tables.database :=
            Application.batchesFilled_of_reachable h.reachable
          exact Or.inr (made_of_batchRequested hsent hrequested hfilled)
  · intro status created hresponse
    have hok := hresult status created hresponse
    cases hposted with
    | rejected error => cases hok
    -- A replay is answered about the batch that has the key already.
    | @found key' batch _ hheader hbatch hkey hanswer =>
        cases hheader
        rw [hanswer status created hok]
        exact ⟨_, List.mem_map_of_mem hbatch, hkey, about_batchCreationResponse batch true []⟩
    | @created _ key' input batch t' _ hreceived hheader hrequested hanswer =>
        cases hheader
        rw [hanswer status created hok]
        refine ⟨_, ?_, hrequested.hasKey, about_batchCreationResponse batch false _⟩
        rw [show (enqueueBatch ctx batch.id { tables := t' }).2.tables = t' from rfl,
          hrequested.created.2.1]
        exact List.mem_append_right _ (List.mem_singleton_self _)

/-- A response comes in. -/
theorem Inv.answered (h : Inv config lib browser issues user key s)
    (hsub : s.modal.submissions[i]? = some sub) {response : EmailResponse}
    (hresponse : sub.response = some response) :
    Inv config lib browser issues user key { s with
      modal := s.modal.ended i sub
        (apiRequest (ApiCall.scheduleBatch (.error "") key).schema (response.http issues)) } := by
  refine h.ended hsub fun data hdata => ?_
  have hanswered := (h.submissions sub (List.mem_of_getElem? hsub)).answered response hresponse
  unfold Answered at hanswered
  rw [hdata] at hanswered
  cases hanswered with
  | scheduleBatch _ _ created _ => exact ⟨_, created, hresponse, rfl⟩

end Dialog

/-- **One step.** -/
theorem Inv.step (h : Inv config lib browser issues user key s) {event : ComposeEvent}
    (hunused : KeyUnused user key s event)
    (hstep : (system config lib browser issues user key).step event s = some t) :
    Inv config lib browser issues user key t := by
  cases event with
  | server event =>
      obtain ⟨app, happ, rfl⟩ := Option.map_eq_some_iff.1 hstep
      exact h.server hunused happ
  | edit inputs =>
      cases hstep
      exact h.keep ⟨h.modal.shown, h.modal.reading, h.modal.clicks, h.modal.submissions⟩ rfl
  | senders senders =>
      cases hstep
      exact h.keep ⟨h.modal.shown, h.modal.reading, h.modal.clicks, h.modal.submissions⟩ rfl
  | select selected =>
      cases hstep
      refine h.keep (h.modal.selectFile selected) ?_
      unfold ComposeModal.selectFile
      cases selected with
      | none => rfl
      | some file =>
          cases hrefusal : fileRefusal (composeConfig config) file <;> simp only [hrefusal]
  | fileRead i failure =>
      obtain ⟨file, hfile, rfl⟩ := Option.map_eq_some_iff.1 hstep
      refine h.keep (h.modal.fileRead hfile failure) ?_
      unfold ComposeModal.fileRead
      split
      · rfl
      · split_ifs <;> rfl
  | click =>
      obtain ⟨-, hrest⟩ := Option.ite_none_right_eq_some.1 hstep
      cases hrest
      refine h.keep ⟨h.modal.shown, h.modal.reading, fun click hclick => ?_,
        h.modal.submissions⟩ rfl
      rcases List.mem_append.1 hclick with hclick | hclick
      · exact h.modal.clicks click hclick
      · rw [List.mem_singleton.1 hclick]
        exact h.modal.shown
  | checked i =>
      obtain ⟨click, hclick, rfl⟩ := Option.map_eq_some_iff.1 hstep
      exact h.checked hclick
  | arrives i refusal ctx =>
      obtain ⟨sub, hsub, hrest⟩ := Option.bind_eq_some_iff.1 hstep
      -- A request arrives once: its submission has no response yet.
      obtain ⟨hnone, hrest⟩ := Option.ite_none_left_eq_some.1 hrest
      obtain ⟨form, hform, rfl⟩ := Option.map_eq_some_iff.1 hrest
      exact h.arrives hsub (Option.not_isSome_iff_eq_none.1 hnone) hform refusal ctx
  | answered i =>
      obtain ⟨sub, hsub, hrest⟩ := Option.bind_eq_some_iff.1 hstep
      obtain ⟨-, hrest⟩ := Option.ite_none_left_eq_some.1 hrest
      obtain ⟨response, hresponse, rfl⟩ := Option.map_eq_some_iff.1 hrest
      exact h.answered hsub hresponse
  | lost i =>
      obtain ⟨sub, hsub, hrest⟩ := Option.bind_eq_some_iff.1 hstep
      obtain ⟨-, hrest⟩ := Option.ite_none_left_eq_some.1 hrest
      cases hrest
      refine h.ended hsub fun data hdata => ?_
      cases hdata
  | close =>
      obtain ⟨-, hrest⟩ := Option.ite_none_left_eq_some.1 hstep
      cases hrest
      exact h.keep ⟨h.modal.shown, h.modal.reading, h.modal.clicks, h.modal.submissions⟩ rfl

theorem inv_of_reachable
    (h : (system config lib browser issues user key).Reachable (KeyUnused user key) s) :
    Inv config lib browser issues user key s := by
  apply h.invariant
  · intro s hs
    exact inv_init hs
  · intro s event t hunused hstep hinv
    exact hinv.step hunused hstep

/-- What a dialog has done. -/
structure OneBatch (config : AppConfig) (lib : Libraries) (browser : Browser) (user : Uuid)
    (key : String) (s : Composing) : Prop where
  previewed : ∀ sub ∈ s.modal.submissions, Previewed config lib browser sub.leadsFile sub.preview
  atMostOne : ∀ b ∈ s.server.tables.database.batches, ∀ b' ∈ s.server.tables.database.batches,
    b.HasKey user key → b'.HasKey user key → b = b'
  submitted : ∀ b ∈ s.server.tables.database.batches, b.HasKey user key →
    ∃ sub ∈ s.modal.submissions, Made config lib browser sub s.server.tables.database b
  reported : ∀ sub ∈ s.modal.submissions, ∀ data, sub.outcome = some (.data data) →
    ∃ b ∈ s.server.tables.database.batches, b.HasKey user key ∧
      ∃ response, data = .scheduleBatch (.of response) ∧ About response b

/-- **A dialog schedules one batch.** Whatever files are chosen, and whichever of them are read
first, however often the form is sent, and whichever of its requests arrive, get lost, or are
answered, and whatever others do meanwhile: every file that was sent is one whose preview was shown;
there is at most one batch under the key of the dialog, with the texts, the times and the leads of
one of the forms that were sent; and if the dialog reports a success, the batch is there, and the
report is about it. -/
theorem oneBatch
    (h : (system config lib browser issues user key).Reachable (KeyUnused user key) s) :
    OneBatch config lib browser user key s := by
  have hinv := inv_of_reachable h
  refine ⟨hinv.modal.submissions, ?_, hinv.made, fun sub hsub data hdata => ?_⟩
  · intro b hb b' hb' hkey hkey'
    exact Application.eq_of_hasKey hinv.reachable hb hb' hkey hkey'
  · obtain ⟨status, response, hresponse, hof⟩ := (hinv.submissions sub hsub).reported data hdata
    obtain ⟨b, hb, hkey, habout⟩ := (hinv.submissions sub hsub).about status response hresponse
    exact ⟨b, hb, hkey, response, hof, habout⟩

/-- A browser in which every local time is one and the same. -/
def testBrowser : Browser where
  toPreviewLibraries := plainBrowser
  localTime _ := some 1000
  formFilename name := name

/-- The dialog of a user who has logged in for the first time. -/
def opened : Composing where
  server := Application.start.write firstLoginTables
  modal := {
    inputs := defaultInputs (composeConfig validConfig)
      (firstLoginTables.senders.map senderResponse)
    senders := firstLoginTables.senders.map senderResponse }

theorem opened_init :
    (system validConfig testLibraries testBrowser (fun _ => []) 1 "first-dialog").init opened := by
  have hlogin : (Application.system validConfig testLibraries).step
      (.login ⟨"subject", "first@test.invalid", "User", none⟩ ⟨1, 10, 0⟩) Application.start =
        some opened.server := rfl
  refine ⟨⟨_, Application.start_init, .single trivial hlogin⟩, by decide, fun b hb => ?_, _, rfl⟩
  cases hb

/-- Two clicks before the first form is checked: both requests arrive, and the first response is
lost. -/
def doubleClick : List ComposeEvent :=
  [.edit ⟨some 10, "Hello", "One\nTwo", "2030-01-01T10:00", some 2000, some 100⟩,
    .select (some (txtFile "a@b.c\nd@b.c")), .fileRead 0 none, .click, .click,
    .checked 0, .checked 0,
    .arrives 1 none ⟨0, 0, 20, fun i => 30 + i, true⟩,
    .arrives 0 none ⟨0, 0, 21, fun i => 40 + i, true⟩,
    .lost 1]

theorem oneBatch_of_doubleClick : ∃ s,
    (system validConfig testLibraries testBrowser (fun _ => []) 1 "first-dialog").run
        (KeyUnused 1 "first-dialog") doubleClick opened = some s ∧
      s.modal.submissions.length = 2 ∧
      s.server.tables.batches.map (fun b => b.bodyText) = ["One\r\nTwo"] ∧
      OneBatch validConfig testLibraries testBrowser 1 "first-dialog" s := by
  have hrun : ((system validConfig testLibraries testBrowser (fun _ => []) 1 "first-dialog").run
      (KeyUnused 1 "first-dialog") doubleClick opened).any (fun s =>
        decide (s.modal.submissions.length = 2 ∧
          s.server.tables.batches.map (fun b => b.bodyText) = ["One\r\nTwo"])) = true := by
    decide +kernel
  obtain ⟨s, hs, hcheck⟩ := (Option.any_eq_true _ _).1 hrun
  obtain ⟨hsubmissions, hbatches⟩ := of_decide_eq_true hcheck
  exact ⟨s, hs, hsubmissions, hbatches,
    oneBatch (TransitionSystem.reachable_of_run doubleClick opened_init hs)⟩

end Composing

end Client

end EmailScheduler
