import EmailScheduler.Progress

/-!
# Requests with an idempotency key

How `POST /email-batches` ends, with its response: without a batch, or with a batch of the user
under the key of the request that has been handed to the queue (`Posted`). No other step of the
application adds a batch (`Application.batches_of_step`), so a user never has two batches under one
key (`Application.keysUnique_of_reachable`).
-/

set_option autoImplicit false

namespace EmailScheduler

open Foundation

/-- A batch of a user under an idempotency key. -/
def EmailBatch.HasKey (b : EmailBatch) (user : Uuid) (key : String) : Prop :=
  b.userId = user ∧ b.idempotencyKey = key

/-- A request that passes the checks and has a lead, and whose transaction makes a batch. -/
structure BatchRequested (config : AppConfig) (lib : Libraries) (ctx : RequestContext) (user : Uuid)
    (form : Upload) (key : String) (input : CreateBatchInput) (batch : StoredBatch)
    (t t' : Tables) :
    Prop where
  accepted : batchInput config lib user key form ctx.now = .ok input
  leads : input.parsedLeads.leads ≠ []
  transaction : batchTransaction input ctx t = (.ok batch, t')

/-- How `POST /email-batches` ends: no batch is found or made; or a batch under the key, which was
there or which the transaction of a request that passed the checks has just made, is handed to the
queue, and a response that is no error is about it. -/
inductive Posted (config : AppConfig) (lib : Libraries) (ctx : RequestContext) (user : Uuid)
    (upload : Except String Upload) (header : Option String) (t : Tables) :
    Except RequestError (Nat × BatchCreationResponse) × ApiState → Prop where
  | rejected (error : RequestError) :
      Posted config lib ctx user upload header t (.error error, { tables := t })
  | found {key : String} {batch : StoredBatch}
      {result : Except RequestError (Nat × BatchCreationResponse)} :
      header = some key → batch ∈ t.batches → batch.HasKey user key →
      (∀ status response, result = .ok (status, response) →
        response = batchCreationResponse batch true []) →
      Posted config lib ctx user upload header t
        (result, (enqueueBatch ctx batch.id { tables := t }).2)
  | created {form : Upload} {key : String} {input : CreateBatchInput} {batch : StoredBatch}
      {t' : Tables} {result : Except RequestError (Nat × BatchCreationResponse)} :
      upload = .ok form → header = some key →
      BatchRequested config lib ctx user form key input batch t t' →
      (∀ status response, result = .ok (status, response) →
        response = batchCreationResponse batch false input.parsedLeads.invalidRows) →
      Posted config lib ctx user upload header t
        (result, (enqueueBatch ctx batch.id { tables := t' }).2)

section Request

variable {config : AppConfig} {lib : Libraries} {ctx : RequestContext} {user : Uuid}
  {upload : Except String Upload} {header : Option String} {key : String} {input : CreateBatchInput}
  {t t' : Tables}

theorem hasKey_of_findBatchByKey {batch : StoredBatch}
    (h : findBatchByKey user key t = some batch) : batch.HasKey user key := by
  have hfound := List.find?_some h
  rwa [Bool.and_eq_true, decide_eq_true_eq, decide_eq_true_eq] at hfound

theorem idempotencyKeySchema_eq_ok (h : idempotencyKeySchema header = .ok key) :
    header = some key := by
  cases header with
  | none => cases h
  | some sent =>
      unfold idempotencyKeySchema at h
      dsimp only at h
      split_ifs at h
      cases h
      rfl

/-- The key of the request becomes the key of the batch. -/
theorem batchInput_idempotencyKey {form : Upload} {now : Int}
    (h : batchInput config lib user key form now = .ok input) : input.idempotencyKey = key := by
  obtain ⟨request, leads, -, -, -, -, -, rfl⟩ := batchInput_eq_ok h
  rfl

/-- Where the key is not taken, a batch that is returned has just been made. -/
theorem createEmailBatch_of_none (hnone : findBatchByKey input.userId input.idempotencyKey t = none)
    {result : StoredBatch × Bool} (h : createEmailBatch input ctx t = (.ok result, t')) :
    input.parsedLeads.leads ≠ [] ∧ batchTransaction input ctx t = (.ok result.1, t') ∧
      result.2 = false := by
  obtain ⟨existing, t₁, hread, hrest⟩ := Action.bind_eq_ok h
  obtain ⟨rfl, rfl⟩ := Action.read_eq_ok hread
  rw [hnone] at hrest
  dsimp only at hrest
  split_ifs at hrest with hleads
  · cases hrest
  · unfold Action.catchError at hrest
    split at hrest
    next created t₂ hcreate =>
      cases hrest
      obtain ⟨batch, t₃, htransaction, hreturn⟩ := Action.bind_eq_ok hcreate
      cases hreturn
      exact ⟨hleads, htransaction, rfl⟩
    next error t₂ hcreate =>
      -- The transaction has rolled back, so the key is still not taken.
      obtain rfl := (rollsBack_batchTransaction input ctx).bind_pure _ _ _ _ hcreate
      unfold rereadBatch at hrest
      split at hrest
      · obtain ⟨raced, t₃, hreread, hrest⟩ := Action.bind_eq_ok hrest
        obtain ⟨rfl, rfl⟩ := Action.read_eq_ok hreread
        rw [hnone] at hrest
        cases hrest
      · cases hrest

/-- The last part of the route. -/
theorem enqueueBatch_bind (ctx : RequestContext) (batchId : Uuid)
    (response : Nat × BatchCreationResponse) (s : ApiState) :
    ∃ result, (enqueueBatch ctx batchId >>= fun _ => pure response) s =
        (result, (enqueueBatch ctx batchId s).2) ∧
      ∀ answer, result = .ok answer → answer = response := by
  rcases Action.bind_cases (enqueueBatch ctx batchId) (fun _ => pure response) s with
    ⟨e, s', hfirst, hrun⟩ | ⟨_, s', hfirst, hrun⟩
  · refine ⟨.error e, ?_, fun answer h => ?_⟩
    · rw [hrun, hfirst]
    · cases h
  · refine ⟨.ok response, ?_, fun answer h => ?_⟩
    · rw [hrun, hfirst]
      rfl
    · cases h
      rfl

/-- The route of a new key, after the checks. -/
theorem posted_createEmailBatch {form : Upload} (hheader : header = some key)
    (hinput : batchInput config lib user key form ctx.now = .ok input)
    (hexisting : findBatchByKey user key t = none) :
    Posted config lib ctx user (.ok form) header t
      ((onTables (createEmailBatch input ctx) >>= fun created =>
        enqueueBatch ctx created.1.id >>= fun _ =>
          pure (if created.2 then 200 else 201, batchCreationResponse created.1 created.2
            (if created.2 then [] else input.parsedLeads.invalidRows))) { tables := t }) := by
  rcases hcreate : createEmailBatch input ctx t with ⟨error | created, t'⟩
  · have hfailed : onTables (createEmailBatch input ctx) { tables := t } =
        (.error error, { tables := t' }) := by
      dsimp only [onTables]
      rw [hcreate]
    rw [Action.bind_apply, hfailed, rollsBack_createEmailBatch input ctx t error t' hcreate]
    exact .rejected error
  · have hcreated : onTables (createEmailBatch input ctx) { tables := t } =
        (.ok created, { tables := t' }) := by
      dsimp only [onTables]
      rw [hcreate]
    have hnone : findBatchByKey input.userId input.idempotencyKey t = none := by
      rw [batchInput_userId hinput, batchInput_idempotencyKey hinput]
      exact hexisting
    obtain ⟨hleads, htransaction, hnew⟩ := createEmailBatch_of_none hnone hcreate
    obtain ⟨result, hresult, hanswer⟩ := enqueueBatch_bind ctx created.1.id
      (201, batchCreationResponse created.1 false input.parsedLeads.invalidRows) { tables := t' }
    rw [Action.bind_of_ok hcreated, hnew]
    refine hresult ▸ .created rfl hheader
      ⟨hinput, hleads, htransaction⟩ fun status response hok => ?_
    exact congrArg Prod.snd (hanswer _ hok)

/-- **`POST /email-batches`.** -/
theorem posted_postEmailBatches (upload : Except String Upload) (header : Option String)
    (t : Tables) :
    Posted config lib ctx user upload header t
      (postEmailBatches config lib ctx user upload header { tables := t }) := by
  unfold postEmailBatches
  cases upload with
  | error code => exact .rejected (.multer code)
  | ok form =>
      cases hkey : idempotencyKeySchema header with
      | error e => exact .rejected e
      | ok key =>
          have hheader := idempotencyKeySchema_eq_ok hkey
          have hform : Action.ofExcept ((Except.ok form).mapError RequestError.multer)
              ({ tables := t } : ApiState) = (.ok form, { tables := t }) := rfl
          have hkeyRead : (Action.ofExcept (.ok key) : Route String) { tables := t } =
              (.ok key, { tables := t }) := rfl
          have hread : onTables (.read (findBatchByKey user key)) { tables := t } =
              (.ok (findBatchByKey user key t), { tables := t }) := rfl
          rw [Action.bind_of_ok hform, Action.bind_of_ok hkeyRead, Action.bind_of_ok hread]
          -- A replay is answered before the form is checked.
          cases hexisting : findBatchByKey user key t with
          | some batch =>
              obtain ⟨result, hresult, hanswer⟩ := enqueueBatch_bind ctx batch.id
                (200, batchCreationResponse batch true []) { tables := t }
              dsimp only
              rw [hresult]
              refine .found hheader (findBatchByKey_eq_some hexisting).1
                (hasKey_of_findBatchByKey hexisting) fun status response hok => ?_
              exact congrArg Prod.snd (hanswer _ hok)
          | none =>
              cases hinput : batchInput config lib user key form ctx.now with
              | error e => exact .rejected e
              | ok input =>
                  have hchecked : (Action.ofExcept (.ok input) : Route CreateBatchInput)
                      { tables := t } = (.ok input, { tables := t }) := rfl
                  dsimp only
                  rw [Action.bind_of_ok hchecked]
                  exact posted_createEmailBatch hheader hinput hexisting

namespace BatchRequested

variable {form : Upload} {batch : StoredBatch}

theorem hasKey (h : BatchRequested config lib ctx user form key input batch t t') :
    batch.HasKey user key := by
  obtain ⟨hbatch, -, -, -⟩ := batchTransaction_eq_ok h.transaction
  rw [hbatch]
  exact ⟨batchInput_userId h.accepted, batchInput_idempotencyKey h.accepted⟩

/-- The rows that the request adds. -/
theorem created (h : BatchRequested config lib ctx user form key input batch t t') :
    batch.toEmailBatch = createdBatch input ctx.newId ∧
      t'.database.batches = t.database.batches ++ [batch.toEmailBatch] ∧
      t'.database.emails = t.database.emails ++ emailRows input ctx.newId ctx.newEmailId ∧
      ∀ b ∈ t.database.batches, batchConflict batch.toEmailBatch b = false := by
  obtain ⟨db, hok, -, hbatches, hemails⟩ := batchTransaction_database h.transaction
  obtain ⟨-, hbatch, hnew, -, -, rfl⟩ := createBatchTransaction_eq_ok hok
  exact ⟨hbatch, hbatches, hemails, hnew⟩

end BatchRequested

/-- The response and the tables are those of the route. -/
theorem posted_serve (config : AppConfig) (lib : Libraries) (ctx : RequestContext)
    (huser : ∃ v ∈ t.users, v.id = user) (upload : Except String Upload) (header : Option String) :
    ∃ result s', Posted config lib ctx user upload header t (result, s') ∧
      (serve config lib user ctx (.postEmailBatches upload header) t).tables = s'.tables ∧
      ∀ status response,
        (serve config lib user ctx (.postEmailBatches upload header) t).response =
          .batchCreation status response → result = .ok (status, response) := by
  have hposted : Posted config lib ctx user upload header t
      (postEmailBatches config lib ctx user upload header { tables := t }) :=
    posted_postEmailBatches upload header t
  rw [serve_of_user huser]
  unfold route Served.of
  dsimp only
  rw [Action.bind_apply]
  generalize postEmailBatches config lib ctx user upload header { tables := t } =
    result at hposted ⊢
  obtain ⟨error | created, s'⟩ := result
  · refine ⟨_, _, hposted, rfl, fun status response h => ?_⟩
    have hresponse : errorHandler error = .batchCreation status response := h
    obtain ⟨_, _, _, _, herror⟩ := errorHandler_eq error
    rw [herror] at hresponse
    cases hresponse
  · refine ⟨_, _, hposted, rfl, fun status response h => ?_⟩
    cases h
    rfl

/-- Another request neither adds a batch nor changes one. -/
theorem batches_route {request : EmailRequest}
    (h : ∀ upload header, request ≠ .postEmailBatches upload header) :
    (route config lib user ctx request { tables := t }).2.tables.batches = t.batches := by
  have hreadOnly : ∀ {α β : Type} {x : Statement α}, x.ReadOnly → ∀ response : α → β,
      ((onTables x >>= fun a => pure (response a)) { tables := t }).2.tables.batches =
        t.batches := by
    intro α β x hx response
    rw [tables_onTables, hx t]
  cases request with
  | getCompose => rfl
  | getSenders => exact hreadOnly (Action.readOnly_read _) _
  | postSenders body =>
      unfold route
      rw [tables_onTables]
      apply (rollsBack_postSenders body ctx.newId ctx.writtenAt).snd
        (R := fun t t' : Tables => t'.batches = t.batches) rfl
      intro sender t' hok
      obtain ⟨-, -, -, -, -, rfl⟩ := postSenders_eq_ok hok
      rfl
  | patchSender senderId body =>
      unfold route
      rw [tables_onTables]
      apply (rollsBack_patchSender senderId body ctx.writtenAt).snd
        (R := fun t t' : Tables => t'.batches = t.batches) rfl
      intro sender t' hok
      obtain ⟨-, -, -, -, -, -, -, -, -, -, rfl⟩ := patchSender_eq_ok hok
      rfl
  | postEmailBatches upload header => exact absurd rfl (h upload header)
  | getBatch batchId => exact hreadOnly (readOnly_getBatch batchId) _
  | getScheduled query => exact hreadOnly (readOnly_getScheduled query) _
  | getSent query => exact hreadOnly (readOnly_getSent query) _

theorem batches_serve {request : EmailRequest}
    (h : ∀ upload header, request ≠ .postEmailBatches upload header) :
    (serve config lib user ctx request t).tables.batches = t.batches := by
  by_cases huser : ∃ v ∈ t.users, v.id = user
  · rw [serve_of_user huser]
    exact batches_route h
  · rw [serve_of_no_user huser]
    rfl

end Request

/-! ## The application -/

namespace Application

variable {config : AppConfig} {lib : Libraries} {s t : Application} {event : ApplicationEvent}
  {P : Application → ApplicationEvent → Prop}

/-- The step is a request that adds a batch. -/
def Adds (config : AppConfig) (lib : Libraries) (event : ApplicationEvent)
    (s t : Application) : Prop :=
  ∃ user form key ctx input batch,
    event = .request user (.postEmailBatches (.ok form) (some key)) ctx ∧
      BatchRequested config lib ctx user form key input batch s.tables t.tables

/-- A request. -/
theorem batches_of_request {user : Uuid} {request : EmailRequest} {ctx : RequestContext}
    {t' : Tables}
    (h : t' = (serve config lib user ctx request s.tables).tables) :
    t'.batches = s.tables.batches ∨ Adds config lib (.request user request ctx) s (s.write t') := by
  by_cases hother : ∀ upload header, request ≠ .postEmailBatches upload header
  · left
    rw [h]
    exact batches_serve hother
  · rw [not_forall] at hother
    obtain ⟨upload, hother⟩ := hother
    obtain ⟨header, hpost⟩ := not_forall_not.1 hother
    subst hpost
    by_cases huser : ∃ v ∈ s.tables.users, v.id = user
    · obtain ⟨result, s', hposted, htables, -⟩ := posted_serve config lib ctx huser upload
        header
      rw [htables] at h
      cases hposted with
      | rejected error => exact Or.inl (congrArg Tables.batches h)
      | found hheader hbatch hkey hanswer => exact Or.inl (congrArg Tables.batches h)
      | created hform hheader hrequested hanswer =>
          subst hform hheader h
          exact Or.inr ⟨user, _, _, ctx, _, _, rfl, hrequested⟩
    · left
      rw [h, serve_of_no_user huser]
      rfl

/-- **A step** keeps the batches but for their labels, or it is a request that adds one. -/
theorem batches_of_step (hsynced : s.Synced) (h : (system config lib).step event s = some t) :
    t.tables.database.batches.map EmailBatch.unlabelled =
      s.tables.database.batches.map EmailBatch.unlabelled ∨ Adds config lib event s t := by
  cases event with
  | login identity loginCtx =>
      cases h
      left
      apply (rollsBack_upsertGoogleUser config identity loginCtx).snd (R := fun t t' : Tables =>
        t'.database.batches.map EmailBatch.unlabelled =
          t.database.batches.map EmailBatch.unlabelled) rfl
      intro saved t' hok
      obtain ⟨-, -, -, -, hbatches, -⟩ := upsertGoogleUser_eq_ok hok
      rw [Tables.database, Tables.database, hbatches]
  | request user request ctx =>
      cases h
      have hrequest : (serve config lib user ctx request s.tables).tables.batches =
        s.tables.batches ∨
          Adds config lib (.request user request ctx) s
            (s.write (serve config lib user ctx request s.tables).tables) := batches_of_request rfl
      rcases hrequest with hsame | hadds
      · left
        change ((serve config lib user ctx request s.tables).tables.batches.map _).map _ = _
        rw [hsame]
        rfl
      · exact Or.inr hadds
  | work event tables =>
      obtain ⟨hwork, hstep, rfl, -, hdatabase⟩ := work_eq_some h
      rw [hsynced, hdatabase]
      rcases Delivery.batches_of_step hstep with hkept | ⟨input, batchId, newId, batch, hevent, -⟩
      · exact Or.inl hkept
      · rw [hevent] at hwork
        cases hwork

/-- The unique index of batches by their user and key. -/
def KeysUnique (db : Database) : Prop :=
  PrimaryKey (fun b : EmailBatch => (b.userId, b.idempotencyKey)) db.batches

theorem keysUnique_of_reachable (h : (system config lib).Reachable P s) :
    KeysUnique s.tables.database := by
  apply h.invariant_of_reachable (I := fun s => KeysUnique s.tables.database)
  · rintro s ⟨htables, -, -⟩
    rw [htables]
    exact List.nodup_nil
  · intro s event t hreach _ hstep hunique
    rcases batches_of_step (synced_of_reachable hreach) hstep with
      hkept | ⟨user, form, key, ctx, input, batch, -, hrequested⟩
    · have hkeys := congrArg (List.map fun b : EmailBatch => (b.userId, b.idempotencyKey)) hkept
      rw [List.map_map, List.map_map] at hkeys
      exact (congrArg List.Nodup hkeys).mpr hunique
    · obtain ⟨-, hbatches, -, hnew⟩ := hrequested.created
      unfold KeysUnique
      rw [hbatches]
      apply hunique.append (.singleton _ _)
      intro old hold b hb hsame
      rw [List.mem_singleton.1 hb, Prod.mk.injEq] at hsame
      have hconflict : batchConflict batch.toEmailBatch old = true :=
        batchConflict_iff.2 (Or.inr ⟨hsame.1.symm, hsame.2.symm⟩)
      rw [hnew old hold] at hconflict
      cases hconflict

/-- **One batch a key.** -/
theorem eq_of_hasKey (h : (system config lib).Reachable P s) {user : Uuid} {key : String}
    {b b' : EmailBatch} (hb : b ∈ s.tables.database.batches) (hb' : b' ∈ s.tables.database.batches)
    (hkey : b.HasKey user key) (hkey' : b'.HasKey user key) : b = b' :=
  (keysUnique_of_reachable h).eq_of_key_eq hb hb'
    (Prod.ext (hkey.1.trans hkey'.1.symm) (hkey.2.trans hkey'.2.symm))

end Application

end EmailScheduler
