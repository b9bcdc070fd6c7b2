import EmailScheduler.Api.DefaultSender
import EmailScheduler.Api.Router

/-!
# The layout of a schedule

What `POST /email-batches` inserts when it creates a batch. The rows are the leads of the file, in
their order: row `i` has sequence number `i` and is due `i` delays after the start. The router
checks the horizon with the time of the last lead, which it computes by itself; `le_lastScheduledAt`
puts every row before it. The unique index on the batch and the normalized address meets no
conflict, because the parser drops duplicates by the same key and the id of the batch is new.
-/

set_option autoImplicit false

namespace EmailScheduler

open Foundation

/-- Two emails of one batch with the same normalized address. -/
def recipientConflict (a b : ScheduledEmail) : Bool :=
  decide (a.batchId = b.batchId) &&
    decide (a.normalizedRecipientEmail = b.normalizedRecipientEmail)

/-- The rows of a batch for the leads of a file. -/
structure ScheduleLayout (request : ScheduleInput) (leads : LeadParseResult)
    (earliest latest : Int) (batch : StoredBatch) (rows : List StoredEmail) : Prop where
  leadsInOrder : rows.map (fun row => ParsedLead.mk row.recipientEmail
    row.normalizedRecipientEmail) = leads.leads
  sequence : rows.map (fun row => row.sequenceNumber) = List.range leads.leads.length
  batchId : ∀ row ∈ rows, row.batchId = batch.id
  scheduledAt : ∀ row ∈ rows,
    row.scheduledAt = request.startAt + row.sequenceNumber * request.minimumDelayMs
  nextAttemptAt : ∀ row ∈ rows, row.nextAttemptAt = row.scheduledAt
  withinHorizon : ∀ row ∈ rows, earliest ≤ row.scheduledAt ∧ row.scheduledAt ≤ latest
  validCount : batch.validRecipientCount = leads.leads.length
  totalRows : batch.totalRows =
    batch.validRecipientCount + batch.invalidRecipientCount + batch.duplicateRecipientCount
  distinct : rows.Pairwise fun a b =>
    recipientConflict a.toScheduledEmail b.toScheduledEmail = false

variable {config : AppConfig} {lib : Libraries} {user : Uuid} {ctx : RequestContext}
  {input : CreateBatchInput}

/-! ## Leads -/

/-- Both fields of every lead of a file hold the normalized address, and no two leads share it. -/
theorem leads_of_parseFileOrThrow {file : Option LeadFile} {leads : LeadParseResult}
    (h : parseFileOrThrow config lib file = .ok leads) :
    ∃ sent, file = some sent ∧ parseLeadFile lib sent config.maxLeadsPerBatch = .ok leads ∧
      leads.leads.length + leads.invalidCount + leads.duplicateCount = leads.totalRows ∧
      (leads.leads.map ParsedLead.normalizedEmail).Nodup := by
  cases file with
  | none => cases h
  | some sent =>
      unfold parseFileOrThrow at h
      dsimp only at h
      split at h
      next result hparse =>
        cases h
        obtain ⟨content, candidates, -, -, -, rfl⟩ := parseLeadFile_eq_ok hparse
        obtain ⟨htotal, hdistinct, -⟩ := parseCandidates_partition lib candidates
        exact ⟨sent, rfl, hparse, htotal, hdistinct⟩
      next => cases h

/-! ## Rows -/

section Rows

variable {rows : List StoredEmail}

/-- A row is that of the lead at its sequence number. -/
theorem exists_emailRow
    (hrows : rows.map StoredEmail.toScheduledEmail = emailRows input ctx.newId ctx.newEmailId)
    {row : StoredEmail} (h : row ∈ rows) :
    ∃ i, ∃ hi : i < input.parsedLeads.leads.length,
      row.toScheduledEmail =
        emailRow input ctx.newId ctx.newEmailId i input.parsedLeads.leads[i] := by
  have hmem : row.toScheduledEmail ∈ emailRows input ctx.newId ctx.newEmailId := by
    rw [← hrows]
    exact List.mem_map_of_mem h
  obtain ⟨i, hi, heq⟩ := List.mem_mapIdx.1 hmem
  exact ⟨i, hi, heq.symm⟩

/-- A column of the rows. -/
theorem map_column {β : Type}
    (hrows : rows.map StoredEmail.toScheduledEmail = emailRows input ctx.newId ctx.newEmailId)
    (column : ScheduledEmail → β) : rows.map (fun row => column row.toScheduledEmail) =
      (emailRows input ctx.newId ctx.newEmailId).map column := by
  rw [← hrows, List.map_map]
  rfl

/-- The leads, read back from the rows. -/
theorem leads_of_rows
    (hrows : rows.map StoredEmail.toScheduledEmail = emailRows input ctx.newId ctx.newEmailId) :
    rows.map (fun row => ParsedLead.mk row.recipientEmail row.normalizedRecipientEmail) =
      input.parsedLeads.leads := by
  rw [map_column hrows fun row => ParsedLead.mk row.recipientEmail row.normalizedRecipientEmail]
  apply List.ext_getElem
  · simp [emailRows]
  · intro i hi hi'
    simp [emailRows, emailRow]

/-- The sequence numbers, in order. -/
theorem sequence_of_rows
    (hrows : rows.map StoredEmail.toScheduledEmail = emailRows input ctx.newId ctx.newEmailId) :
    rows.map (fun row => row.sequenceNumber) = List.range input.parsedLeads.leads.length := by
  rw [map_column hrows ScheduledEmail.sequenceNumber]
  apply List.ext_getElem
  · simp [emailRows]
  · intro i hi hi'
    simp [emailRows, emailRow]

/-- The rows that the transaction stores are those that its chunks insert. -/
theorem rows_of_batchTransaction {t t' : Tables} {batch : StoredBatch}
    (h : batchTransaction input ctx t = (.ok batch, t')) (hemails : t'.emails = t.emails ++ rows) :
    rows.map StoredEmail.toScheduledEmail = emailRows input ctx.newId ctx.newEmailId := by
  obtain ⟨db, hchunks, -, -, hinserted⟩ := batchTransaction_database h
  obtain ⟨-, -, -, -, -, rfl⟩ := createBatchTransaction_eq_ok hchunks
  have happended : (t.emails ++ rows).map StoredEmail.toScheduledEmail =
      t.emails.map StoredEmail.toScheduledEmail ++ emailRows input ctx.newId ctx.newEmailId := by
    rw [← hemails]
    exact hinserted
  rw [List.map_append] at happended
  exact List.append_cancel_left happended

end Rows

/-- The time of a row lies between the start and the time that the router checks. -/
theorem le_lastScheduledAt {i n : Nat} (hi : i < n) {delay : Int} (hdelay : 0 ≤ delay)
    (startAt : Int) :
    startAt ≤ startAt + i * delay ∧
      startAt + i * delay ≤ startAt + max 0 ((n : Int) - 1) * delay := by
  have hlast : (i : Int) ≤ max 0 ((n : Int) - 1) := by omega
  have hmul := Int.mul_le_mul_of_nonneg_right hlast hdelay
  have hnonneg := Int.mul_nonneg (Int.natCast_nonneg i) hdelay
  omega

/-- Leads with different addresses make rows that do not conflict. -/
theorem recipients_distinct (hleads : (input.parsedLeads.leads.map
    ParsedLead.normalizedEmail).Nodup) (batchId : Uuid) (newId : Nat → Uuid) :
    (emailRows input batchId newId).Pairwise fun a b => recipientConflict a b = false := by
  have haddresses : (emailRows input batchId newId).map (fun row => row.normalizedRecipientEmail) =
      input.parsedLeads.leads.map ParsedLead.normalizedEmail := by
    apply List.ext_getElem
    · simp [emailRows]
    · intro i hi hi'
      simp [emailRows, emailRow]
  rw [← haddresses] at hleads
  refine (List.pairwise_map.1 hleads).imp ?_
  intro a b hne
  simp [recipientConflict, hne]

/-- A row that a batch with a new id inserts conflicts with no email of another batch. -/
theorem recipientConflict_of_batchId_ne {a b : ScheduledEmail} (h : a.batchId ≠ b.batchId) :
    recipientConflict a b = false := by
  simp [recipientConflict, h]

/-! ## The request -/

/-- A request that passes the checks: its rows have the layout, whatever ids they get. -/
theorem scheduleLayout_of_batchInput {key : String} {form : Upload}
    (h : batchInput config lib user key form ctx.now = .ok input) {batch : StoredBatch}
    (hbatch : batch.toEmailBatch = createdBatch input ctx.newId) {rows : List StoredEmail}
    (hrows : rows.map StoredEmail.toScheduledEmail = emailRows input ctx.newId ctx.newEmailId) :
    ∃ file request, form.file = some file ∧ scheduleSchema config form.body = .ok request ∧
      parseLeadFile lib file config.maxLeadsPerBatch = .ok input.parsedLeads ∧
      ScheduleLayout request input.parsedLeads ctx.now
      (scheduleHorizon config ctx.now) batch rows := by
  have hleads := leads_of_rows hrows
  have hsequence := sequence_of_rows hrows
  have hrow : ∀ row ∈ rows, _ := fun _ => exists_emailRow hrows
  obtain ⟨request, leads, hrequest, hfile, hstart, -, hlast, rfl⟩ := batchInput_eq_ok h
  obtain ⟨file, hsome, hparse, htotal, hdistinct⟩ := leads_of_parseFileOrThrow hfile
  obtain ⟨-, -, -, -, -, -, -, hdelay, -⟩ := scheduleSchema_eq_ok hrequest
  have hnonneg := Int.le_trans config.zero_le_minSendDelayMs hdelay
  refine ⟨file, request, hsome, hrequest, hparse, ?_⟩
  constructor
  · exact hleads
  · exact hsequence
  · intro row hmem
    obtain ⟨i, hi, hemail⟩ := hrow row hmem
    rw [hemail, hbatch]
    rfl
  · intro row hmem
    obtain ⟨i, hi, hemail⟩ := hrow row hmem
    rw [hemail]
    rfl
  · intro row hmem
    obtain ⟨i, hi, hemail⟩ := hrow row hmem
    rw [hemail]
    rfl
  · intro row hmem
    obtain ⟨i, hi, hemail⟩ := hrow row hmem
    obtain ⟨hafter, hbefore⟩ := le_lastScheduledAt hi hnonneg request.startAt
    rw [hemail]
    exact ⟨Int.le_trans hstart hafter, Int.le_trans hbefore hlast⟩
  · rw [hbatch]
    rfl
  · rw [hbatch]
    exact htotal.symm
  · have hdistinctRows : (rows.map StoredEmail.toScheduledEmail).Pairwise
        fun a b => recipientConflict a b = false := by
      rw [hrows]
      exact recipients_distinct hdistinct _ _
    exact List.pairwise_map.1 hdistinctRows

/-- What a request does to the tables, with its authentication. -/
theorem scheduleEffect_serve (config : AppConfig) (lib : Libraries) (user : Uuid)
    (ctx : RequestContext) (upload : Except String Upload) (header : Option String) (t : Tables) :
    (serve config lib user ctx (.postEmailBatches upload header) t).tables = t ∨
      ∃ form key input, upload = .ok form ∧
        batchInput config lib user key form ctx.now = .ok input ∧ input.parsedLeads.leads ≠ [] ∧
        ∃ batch, batchTransaction input ctx t =
          (.ok batch, (serve config lib user ctx (.postEmailBatches upload header) t).tables) := by
  by_cases huser : ∃ v ∈ t.users, v.id = user
  · rw [serve_of_user huser]
    unfold route Served.of
    dsimp only
    rw [Action.snd_bind_pure]
    have heffect : ScheduleEffect config lib ctx user upload t
        (postEmailBatches config lib ctx user upload header { tables := t }).2 :=
      scheduleEffect_postEmailBatches upload header t
    cases heffect with
    | nothing hsame => exact Or.inl hsame
    | created hform hinput hleads htransaction =>
        exact Or.inr ⟨_, _, _, hform, hinput, hleads, _, htransaction⟩
  · rw [serve_of_no_user huser]
    exact Or.inl rfl

/-- **Schedule layout.** A request that passes the checks never makes two rows with one address in a
batch, nor a row with the batch and the address of a row that is there, whatever becomes of the
request. A request that creates a batch appends it and one row for each lead of the file, at least
one, in the layout of the schedule. -/
theorem scheduleLayout (config : AppConfig) (lib : Libraries) (user : Uuid) (ctx : RequestContext)
    (upload : Except String Upload) (header : Option String) (t : Tables) :
    (∀ form key input, upload = .ok form →
      batchInput config lib user key form ctx.now = .ok input →
      (emailRows input ctx.newId ctx.newEmailId).Pairwise
          (fun a b => recipientConflict a b = false) ∧
        ((∀ e ∈ t.emails, ∃ b ∈ t.batches, b.id = e.batchId) →
          (∀ b ∈ t.batches, b.id ≠ ctx.newId) →
          ∀ row ∈ emailRows input ctx.newId ctx.newEmailId, ∀ e ∈ t.emails,
            recipientConflict row e.toScheduledEmail = false)) ∧
    ((serve config lib user ctx (.postEmailBatches upload header) t).tables.batches ≠ t.batches →
      ∃ form file request leads batch rows, upload = .ok form ∧ form.file = some file ∧
        scheduleSchema config form.body = .ok request ∧
        parseLeadFile lib file config.maxLeadsPerBatch = .ok leads ∧ 1 ≤ leads.leads.length ∧
        (serve config lib user ctx (.postEmailBatches upload header) t).tables.batches =
          t.batches ++ [batch] ∧
        (serve config lib user ctx (.postEmailBatches upload header) t).tables.emails =
          t.emails ++ rows ∧
        ScheduleLayout request leads ctx.now (scheduleHorizon config ctx.now) batch rows) := by
  constructor
  · intro form key input _ hinput
    obtain ⟨request, leads, -, hfile, -, -, -, rfl⟩ := batchInput_eq_ok hinput
    obtain ⟨file, -, -, -, hdistinct⟩ := leads_of_parseFileOrThrow hfile
    refine ⟨recipients_distinct hdistinct _ _, ?_⟩
    intro hbatch hnew row hrow e he
    obtain ⟨i, hi, rfl⟩ := List.mem_mapIdx.1 hrow
    obtain ⟨b, hb, hid⟩ := hbatch e he
    -- The row is of the new batch, the email of one that was there.
    apply recipientConflict_of_batchId_ne
    rw [← hid]
    exact (hnew b hb).symm
  · intro hcreates
    rcases scheduleEffect_serve config lib user ctx upload header t with
      hsame | ⟨form, key, input, hform, hinput, hleads, batch, htransaction⟩
    · rw [hsame] at hcreates
      exact absurd rfl hcreates
    · obtain ⟨rfl, htables, -, -⟩ := batchTransaction_eq_ok htransaction
      rw [htables] at htransaction ⊢
      -- The layout is that of the rows which the chunks of the transaction insert.
      have hrows := rows_of_batchTransaction htransaction rfl
      have hbatch : (storedBatch input ctx).toEmailBatch = createdBatch input ctx.newId := rfl
      obtain ⟨file, request, hfile, hrequest, hparse, hlayout⟩ :=
        scheduleLayout_of_batchInput hinput hbatch hrows
      exact ⟨form, file, request, input.parsedLeads, storedBatch input ctx, storedEmails input ctx,
        hform, hfile, hrequest, hparse, List.length_pos_iff.2 hleads, rfl, rfl, hlayout⟩

/-- The tables after the first login of a user. -/
def firstLoginTables : Tables :=
  (upsertGoogleUser validConfig ⟨"subject", "first@test.invalid", "User", none⟩ ⟨1, 10, 0⟩ {}).2

/-- A file with the lines `a@b.c`, `d@b.c` and `a@B.c`. -/
def threeLines : Upload where
  body := some {
    senderId := .value 10
    subject := .value "Hello"
    body := .value "Text"
    startAt := .value 1000
    hourlyLimit := .value 100
    minimumDelayMs := .value 2000 }
  file := some ⟨⟨#[97, 64, 98, 46, 99, 10, 100, 64, 98, 46, 99, 10, 97, 64, 66, 46, 99]⟩,
    "leads.txt", "text/plain"⟩

/-- The batch of that file. -/
def threeLinesServed : Served :=
  serve validConfig testLibraries 1 ⟨0, 0, 20, fun i => 30 + i, true⟩
    (.postEmailBatches (.ok threeLines) (some "first-batch")) firstLoginTables

/-- Two leads and a duplicate: two rows, two seconds apart. -/
theorem scheduleLayout_of_threeLines :
    (threeLinesServed.tables.emails.map fun row => (row.recipientEmail, row.scheduledAt)) =
        [("a@b.c", 1000), ("d@b.c", 3000)] ∧
      ∃ request leads batch rows,
        scheduleSchema validConfig threeLines.body = .ok request ∧ 1 ≤ leads.leads.length ∧
        threeLinesServed.tables.batches = firstLoginTables.batches ++ [batch] ∧
        threeLinesServed.tables.emails = firstLoginTables.emails ++ rows ∧
        ScheduleLayout request leads 0 (scheduleHorizon validConfig 0) batch rows := by
  have hcreates : threeLinesServed.tables.batches ≠ firstLoginTables.batches := by decide +kernel
  obtain ⟨form, file, request, leads, batch, rows, hform, -, hrequest, -, hsome, hbatches, hemails,
    hlayout⟩ := (scheduleLayout validConfig testLibraries 1 ⟨0, 0, 20, fun i => 30 + i, true⟩
      (.ok threeLines) (some "first-batch") firstLoginTables).2 hcreates
  cases hform
  exact ⟨by decide +kernel, request, leads, batch, rows, hrequest, hsome, hbatches,
    hemails, hlayout⟩

end EmailScheduler
