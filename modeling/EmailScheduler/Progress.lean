import Mathlib.Algebra.GroupWithZero.Nat
import EmailScheduler.Api.TenantIsolation
import EmailScheduler.Application
import EmailScheduler.Delivery.Provenance

/-!
# The progress of a batch

What `GET /email-batches/:batchId` shows over a run of the application. A batch gets all its rows
from the request that creates it, one for each valid lead and numbered in their order (`BatchRows`),
no row is ever removed, moved or cancelled, and a terminal status is final. So every response
accounts for each lead of the file, later responses show the same batch, their terminal counts only
grow, and a batch whose rows are all terminal shows the same counts for ever (`batchProgress`).
-/

set_option autoImplicit false

namespace EmailScheduler

open Foundation

/-! ## What a step does to the batches -/

/-- The leads of a request that passed the checks. -/
structure LeadsAccounted (input : CreateBatchInput) : Prop where
  nonempty : input.parsedLeads.leads ≠ []
  total : input.parsedLeads.leads.length + input.parsedLeads.invalidCount +
    input.parsedLeads.duplicateCount = input.parsedLeads.totalRows

/-- A step on batches and emails: every row goes its way and no batch is added, or a batch with a
new id is added with all its rows. -/
inductive BatchStep (config : AppConfig) (db db' : Database) : Prop where
  | kept (f : ScheduledEmail → ScheduledEmail) :
      db'.batches.map EmailBatch.unlabelled = db.batches.map EmailBatch.unlabelled →
      db'.emails = db.emails.map f → (∀ e ∈ db.emails, RowStep config e (f e)) →
      BatchStep config db db'
  | created {input : CreateBatchInput} {batchId : Uuid} {newId : Nat → Uuid} :
      LeadsAccounted input → (∀ b ∈ db.batches, b.id ≠ batchId) →
      db'.batches = db.batches ++ [createdBatch input batchId] →
      db'.emails = db.emails ++ emailRows input batchId newId → BatchStep config db db'

variable {config : AppConfig} {lib : Libraries} {user : Uuid} {ctx : RequestContext}
  {db db' db'' : Database} {b b' : EmailBatch} {batchId : Uuid}

theorem BatchStep.of_same (hbatches : db'.batches = db.batches) (hemails : db'.emails = db.emails) :
    BatchStep config db db' := by
  refine .kept id ?_ ?_ fun e _ => .keep
  · rw [hbatches]
  · rw [hemails, List.map_id]

theorem RowStep.sequenceNumber_eq {e e' : ScheduledEmail} (h : RowStep config e e') :
    e'.sequenceNumber = e.sequenceNumber := by
  cases h <;> rfl

theorem RowStep.recipientEmail_eq {e e' : ScheduledEmail} (h : RowStep config e e') :
    e'.recipientEmail = e.recipientEmail := by
  cases h <;> rfl

/-- No step cancels a row. -/
theorem RowStep.ne_cancelled {e e' : ScheduledEmail} (h : RowStep config e e')
    (he : e.status ≠ .cancelled) : e'.status ≠ .cancelled := by
  cases h with
  | keep => exact he
  | failed result => cases result <;> simp [failRow, FailureResult.status]
  | _ => simp [deferRow, claimRow, acceptRow, abandonRow]

/-- The rows of a batch, each one step further. -/
theorem emailsOf_map {f : ScheduledEmail → ScheduledEmail} (hemails : db'.emails = db.emails.map f)
    (hrows : ∀ e ∈ db.emails, RowStep config e (f e)) (batchId : Uuid) :
    db'.emailsOf batchId = (db.emailsOf batchId).map f := by
  unfold Database.emailsOf
  rw [hemails, List.filter_map]
  congr 1
  apply List.filter_congr
  intro e he
  simp only [Function.comp_apply, (hrows e he).batchId_eq]

/-- The rows of a batch that was there before another one was added. -/
theorem emailsOf_append_of_ne {input : CreateBatchInput} {newBatch : Uuid} {newId : Nat → Uuid}
    (hemails : db'.emails = db.emails ++ emailRows input newBatch newId)
    (hne : batchId ≠ newBatch) :
    db'.emailsOf batchId = db.emailsOf batchId := by
  have hnone : (emailRows input newBatch newId).filter
    (fun e => decide (e.batchId = batchId)) = [] := by
    rw [List.filter_eq_nil_iff]
    intro row hrow
    rw [batchId_of_mem_emailRows hrow, decide_eq_true_eq]
    exact hne.symm
  unfold Database.emailsOf
  rw [hemails, List.filter_append, hnone, List.append_nil]

/-! ## The rows of a batch -/

/-- All rows of a batch: one for each valid lead, in their order, none cancelled. -/
structure BatchRows (db : Database) (b : EmailBatch) : Prop where
  sequence : (db.emailsOf b.id).map (fun e => e.sequenceNumber) = List.range b.validRecipientCount
  notCancelled : ∀ e ∈ db.emailsOf b.id, e.status ≠ .cancelled
  total : b.totalRows = b.validRecipientCount + b.invalidRecipientCount + b.duplicateRecipientCount
  recipients : 1 ≤ b.validRecipientCount

/-- The ids of batches do not repeat; every batch has its rows, and every row its batch. -/
structure BatchesFilled (db : Database) : Prop where
  ids : PrimaryKey EmailBatch.id db.batches
  rows : ∀ b ∈ db.batches, BatchRows db b
  emailBatch : ∀ e ∈ db.emails, ∃ b ∈ db.batches, b.id = e.batchId

theorem BatchRows.length (h : BatchRows db b) :
    (db.emailsOf b.id).length = b.validRecipientCount := by
  have hlength := congrArg List.length h.sequence
  rwa [List.length_map, List.length_range] at hlength

/-- The label is no part of it. -/
theorem BatchRows.relabel (h : BatchRows db b) (hsame : b'.unlabelled = b.unlabelled) :
    BatchRows db b' := by
  have hid : b'.id = b.id := by simpa using congrArg EmailBatch.id hsame
  have hvalid : b'.validRecipientCount = b.validRecipientCount :=
    (congrArg EmailBatch.validRecipientCount hsame :)
  have hinvalid : b'.invalidRecipientCount = b.invalidRecipientCount :=
    (congrArg EmailBatch.invalidRecipientCount hsame :)
  have hduplicate : b'.duplicateRecipientCount = b.duplicateRecipientCount :=
    (congrArg EmailBatch.duplicateRecipientCount hsame :)
  have htotal : b'.totalRows = b.totalRows := (congrArg EmailBatch.totalRows hsame :)
  refine ⟨?_, ?_, ?_, ?_⟩
  · rw [hid, hvalid]
    exact h.sequence
  · rw [hid]
    exact h.notCancelled
  · rw [htotal, hvalid, hinvalid, hduplicate]
    exact h.total
  · rw [hvalid]
    exact h.recipients

theorem BatchRows.map (h : BatchRows db b) {f : ScheduledEmail → ScheduledEmail}
    (hemails : db'.emails = db.emails.map f) (hrows : ∀ e ∈ db.emails, RowStep config e (f e)) :
    BatchRows db' b where
  sequence := by
    rw [emailsOf_map hemails hrows, List.map_map, ← h.sequence]
    apply List.map_congr_left
    intro e he
    exact (hrows e (db.mem_emailsOf.1 he).1).sequenceNumber_eq
  notCancelled e' he' := by
    rw [emailsOf_map hemails hrows] at he'
    obtain ⟨e, he, rfl⟩ := List.mem_map.1 he'
    exact (hrows e (db.mem_emailsOf.1 he).1).ne_cancelled (h.notCancelled e he)
  total := h.total
  recipients := h.recipients

/-- The rows of a new batch are the ones that come with it. -/
theorem emailsOf_created {input : CreateBatchInput} {newId : Nat → Uuid}
    (hnone : db.emailsOf batchId = [])
    (hemails : db'.emails = db.emails ++ emailRows input batchId newId) :
    db'.emailsOf batchId = emailRows input batchId newId := by
  unfold Database.emailsOf at hnone ⊢
  rw [hemails, List.filter_append, hnone, List.nil_append, List.filter_eq_self]
  intro row hrow
  exact decide_eq_true (batchId_of_mem_emailRows hrow)

theorem batchRows_createdBatch {input : CreateBatchInput} {newId : Nat → Uuid}
    (hleads : LeadsAccounted input) (hnone : db.emailsOf batchId = [])
    (hemails : db'.emails = db.emails ++ emailRows input batchId newId) :
    BatchRows db' (createdBatch input batchId) := by
  have hrows := emailsOf_created hnone hemails
  constructor
  · rw [show (createdBatch input batchId).id = batchId from rfl, hrows]
    apply List.ext_getElem
    · simp [emailRows, createdBatch]
    · intro i hi hi'
      simp [emailRows, emailRow]
  · intro e he
    rw [show (createdBatch input batchId).id = batchId from rfl, hrows] at he
    obtain ⟨i, hi, rfl⟩ := List.mem_mapIdx.1 he
    simp [emailRow]
  · exact hleads.total.symm
  · exact List.length_pos_iff.2 hleads.nonempty

/-- No row belongs to a batch that is not there. -/
theorem BatchesFilled.emailsOf_eq_nil (h : BatchesFilled db)
    (hnew : ∀ b ∈ db.batches, b.id ≠ batchId) :
    db.emailsOf batchId = [] := by
  rw [List.eq_nil_iff_forall_not_mem]
  intro e he
  obtain ⟨hmem, hbatch⟩ := db.mem_emailsOf.1 he
  obtain ⟨b, hb, hid⟩ := h.emailBatch e hmem
  exact hnew b hb (hid.trans hbatch)

/-- **A step keeps the rows of every batch.** -/
theorem BatchesFilled.step (h : BatchesFilled db) (hstep : BatchStep config db db') :
    BatchesFilled db' := by
  cases hstep with
  | kept f hbatches hemails hrows =>
      -- Only labels are written, and no row leaves its batch.
      refine ⟨?_, ?_, ?_⟩
      · have hids := congrArg (List.map EmailBatch.id) hbatches
        rw [List.map_map, List.map_map] at hids
        exact (congrArg List.Nodup hids).mpr h.ids
      · intro b' hb'
        obtain ⟨b, hb, hsame⟩ := exists_of_map_eq hbatches hb'
        exact ((h.rows b hb).map hemails hrows).relabel hsame.symm
      · intro e' he'
        rw [hemails] at he'
        obtain ⟨e, he, rfl⟩ := List.mem_map.1 he'
        obtain ⟨b, hb, hid⟩ := h.emailBatch e he
        obtain ⟨b', hb', hsame⟩ := exists_of_map_eq hbatches.symm hb
        have hid' : b'.id = b.id := by simpa using congrArg EmailBatch.id hsame
        exact ⟨b', hb', hid'.trans (hid.trans (hrows e he).batchId_eq.symm)⟩
  | @created input batchId newId hleads hnew hbatches hemails =>
      have hnone := h.emailsOf_eq_nil hnew
      refine ⟨?_, ?_, ?_⟩
      · rw [hbatches]
        apply h.ids.append (.singleton _ _)
        intro b hb b' hb'
        rw [List.mem_singleton.1 hb']
        exact hnew b hb
      · intro b hb
        rw [hbatches] at hb
        rcases List.mem_append.1 hb with hb | hb
        · have hsame := emailsOf_append_of_ne hemails (hnew b hb)
          obtain ⟨hsequence, hcancelled, htotal, hrecipients⟩ := h.rows b hb
          exact ⟨by rw [hsame]; exact hsequence, by rw [hsame]; exact hcancelled,
            htotal, hrecipients⟩
        · rw [List.mem_singleton.1 hb]
          exact batchRows_createdBatch hleads hnone hemails
      · intro e he
        rw [hbatches]
        rw [hemails] at he
        rcases List.mem_append.1 he with he | he
        · obtain ⟨b, hb, hid⟩ := h.emailBatch e he
          exact ⟨b, List.mem_append_left _ hb, hid⟩
        · exact ⟨_, List.mem_append_right _ (List.mem_singleton_self _),
            (batchId_of_mem_emailRows he).symm⟩

/-! ## Later databases -/

/-- The rows of a batch are the same ones, and terminal statuses have stayed. -/
def RowsLater (rows rows' : List ScheduledEmail) : Prop :=
  List.Forall₂ (fun e e' => e.status.isTerminal = true → e'.status = e.status) rows rows'

/-- What a run keeps of the batches. -/
structure Later (db db' : Database) : Prop where
  batches : ∃ more, db'.batches.map EmailBatch.unlabelled =
    db.batches.map EmailBatch.unlabelled ++ more
  rows : ∀ b ∈ db.batches, RowsLater (db.emailsOf b.id) (db'.emailsOf b.id)

theorem RowsLater.refl (rows : List ScheduledEmail) : RowsLater rows rows :=
  List.forall₂_same.2 fun _ _ _ => rfl

theorem RowsLater.trans {rows rows' rows'' : List ScheduledEmail} (h : RowsLater rows rows')
    (h' : RowsLater rows' rows'') : RowsLater rows rows'' := by
  induction h generalizing rows'' with
  | nil => exact h'
  | cons hhead htail ih =>
      cases h' with
      | cons hhead' htail' =>
          refine .cons (fun hterminal => ?_) (ih htail')
          have hsame := hhead hterminal
          rw [hhead' (by rw [hsame]; exact hterminal), hsame]

theorem Later.refl (db : Database) : Later db db :=
  ⟨⟨[], (List.append_nil _).symm⟩, fun _ _ => .refl _⟩

theorem Later.step (hstep : BatchStep config db db') : Later db db' := by
  cases hstep with
  | kept f hbatches hemails hrows =>
      refine ⟨⟨[], by rw [hbatches, List.append_nil]⟩, fun b _ => ?_⟩
      rw [emailsOf_map hemails hrows, RowsLater, List.forall₂_map_right_iff, List.forall₂_same]
      intro e he hterminal
      exact (hrows e (db.mem_emailsOf.1 he).1).status_eq_of_isTerminal hterminal
  | created hleads hnew hbatches hemails =>
      refine ⟨⟨_, by rw [hbatches, List.map_append]⟩, fun b hb => ?_⟩
      rw [emailsOf_append_of_ne hemails (hnew b hb)]
      exact .refl _

theorem Later.trans (h : Later db db') (h' : Later db' db'') : Later db db'' := by
  obtain ⟨more, hmore⟩ := h.batches
  obtain ⟨more', hmore'⟩ := h'.batches
  refine ⟨⟨more ++ more', by rw [hmore', hmore, List.append_assoc]⟩, fun b hb => ?_⟩
  refine (h.rows b hb).trans ?_
  -- The batch is still there, under its id.
  have hmem : b.unlabelled ∈ db'.batches.map EmailBatch.unlabelled := by
    rw [hmore]
    exact List.mem_append_left _ (List.mem_map_of_mem hb)
  obtain ⟨b', hb', hsame⟩ := List.mem_map.1 hmem
  have hid : b'.id = b.id := by simpa using congrArg EmailBatch.id hsame
  rw [← hid]
  exact h'.rows b' hb'

/-- A status that is terminal only gains rows. -/
theorem RowsLater.countP_le {rows rows' : List ScheduledEmail} (h : RowsLater rows rows')
    {status : ScheduledEmailStatus} (hterminal : status.isTerminal = true) :
    (rows.countP fun e => decide (e.status = status)) ≤
      rows'.countP fun e => decide (e.status = status) := by
  induction h with
  | nil => exact Nat.le_refl 0
  | @cons e e' rows rows' hhead htail ih =>
      rw [List.countP_cons, List.countP_cons]
      by_cases he : e.status = status
      · have he' : e'.status = status := (hhead (by rw [he]; exact hterminal)).trans he
        simp only [he, he', decide_true]
        omega
      · simp only [he, decide_false, Bool.false_eq_true, if_false]
        omega

/-- When all rows are terminal, none changes its status any more. -/
theorem RowsLater.map_status_eq {rows rows' : List ScheduledEmail} (h : RowsLater rows rows')
    (hterminal : ∀ e ∈ rows, e.status.isTerminal = true) :
    rows'.map (fun e => e.status) = rows.map fun e => e.status := by
  induction h with
  | nil => rfl
  | @cons e e' rows rows' hhead htail ih =>
      rw [List.map_cons, List.map_cons, hhead (hterminal e List.mem_cons_self),
        ih fun x hx => hterminal x (List.mem_cons_of_mem _ hx)]

/-! ## The steps of the application -/

/-- A request that passed the checks accounts for every line of its file. -/
theorem leadsAccounted_of_batchInput {key : String} {form : Upload} {input : CreateBatchInput}
    (h : batchInput config lib user key form ctx.now = .ok input)
    (hleads : input.parsedLeads.leads ≠ []) : LeadsAccounted input := by
  obtain ⟨request, leads, -, hfile, -, -, -, rfl⟩ := batchInput_eq_ok h
  obtain ⟨file, -, -, htotal, -⟩ := leads_of_parseFileOrThrow hfile
  exact ⟨hleads, htotal⟩

/-- A step of the API: senders are updated and added, or a batch is created. -/
inductive RequestStep (db db' : Database) : Prop where
  | senders (kept added : List EmailSender) :
      kept.map EmailSender.key = db.senders.map EmailSender.key →
      db'.senders = kept ++ added → db'.batches = db.batches → db'.emails = db.emails →
        RequestStep db db'
  | created {input : CreateBatchInput} {batchId : Uuid} {newId : Nat → Uuid} {batch : EmailBatch} :
      LeadsAccounted input → createBatchTransaction db input batchId newId = .ok (batch, db') →
      RequestStep db db'

theorem RequestStep.refl (db : Database) : RequestStep db db :=
  .senders db.senders [] rfl (List.append_nil _).symm rfl rfl

/-- What a request does to the batches. -/
theorem RequestStep.batchStep (h : RequestStep db db') : BatchStep config db db' := by
  cases h with
  | senders kept added hkeys hsenders hbatches hemails => exact .of_same hbatches hemails
  | created hleads hok =>
      obtain ⟨-, rfl, hnew, -, -, rfl⟩ := createBatchTransaction_eq_ok hok
      exact .created hleads (fun b hb heq => id_ne_of_batchConflict (hnew b hb) heq.symm) rfl rfl

/-- Stored senders with the same ids and owners. -/
theorem map_key_toEmailSender {senders senders' : List StoredSender}
    (h : senders'.map (fun s => (s.id, s.userId)) = senders.map fun s => (s.id, s.userId)) :
    (senders'.map StoredSender.toEmailSender).map EmailSender.key =
      (senders.map StoredSender.toEmailSender).map EmailSender.key := by
  simp only [List.map_map]
  exact h

/-- Senders of the tables are updated, and one may be added. -/
theorem requestStep_senders {t t' : Tables} (kept added : List StoredSender)
    (hkeys : kept.map (fun s => (s.id, s.userId)) = t.senders.map fun s => (s.id, s.userId))
    (hsenders : t'.senders = kept ++ added) (hbatches : t'.batches = t.batches)
    (hemails : t'.emails = t.emails) : RequestStep t.database t'.database :=
  .senders (kept.map StoredSender.toEmailSender) (added.map StoredSender.toEmailSender)
    (map_key_toEmailSender hkeys)
    ((congrArg (List.map StoredSender.toEmailSender) hsenders).trans List.map_append)
    (congrArg (List.map StoredBatch.toEmailBatch) hbatches)
    (congrArg (List.map StoredEmail.toScheduledEmail) hemails)

theorem requestStep_login (identity : GoogleIdentity) (loginCtx : LoginContext) (t : Tables) :
    RequestStep t.database (upsertGoogleUser config identity loginCtx t).2.database := by
  apply (rollsBack_upsertGoogleUser config identity loginCtx).snd (R := fun t t' : Tables =>
    RequestStep t.database t'.database) (.refl _)
  intro saved t' hok
  obtain ⟨saver, -, -, hsender, hbatches, hemails⟩ := upsertGoogleUser_eq_ok hok
  rcases hsender with ⟨-, -, hsenders⟩ | ⟨sender, -, -, -, hsenders⟩
  · exact requestStep_senders t.senders _ rfl hsenders hbatches hemails
  · exact requestStep_senders _ [] (map_updateMany_apply _ _ _ _)
      (hsenders.trans (List.append_nil _).symm) hbatches hemails

theorem requestStep_route {t : Tables} (request : EmailRequest) :
    RequestStep t.database
    (route config lib user ctx request { tables := t }).2.tables.database := by
  have hreadOnly : ∀ {α β : Type} {x : Statement α}, x.ReadOnly → ∀ response : α → β,
      RequestStep t.database
        ((onTables x >>= fun a => pure (response a)) { tables := t }).2.tables.database := by
    intro α β x hx response
    rw [tables_onTables, hx t]
    exact .refl _
  cases request with
  | getCompose => exact .refl _
  | getSenders => exact hreadOnly (Action.readOnly_read _) _
  | postSenders body =>
      unfold route
      rw [tables_onTables]
      apply (rollsBack_postSenders body ctx.newId ctx.writtenAt).snd (R := fun t t' : Tables =>
        RequestStep t.database t'.database) (.refl _)
      intro sender t' hok
      obtain ⟨-, -, -, -, -, rfl⟩ := postSenders_eq_ok hok
      exact requestStep_senders _ [sender] (map_undefault _ _ _ _) rfl rfl rfl
  | patchSender senderId body =>
      unfold route
      rw [tables_onTables]
      apply (rollsBack_patchSender senderId body ctx.writtenAt).snd (R := fun t t' : Tables =>
        RequestStep t.database t'.database) (.refl _)
      intro sender t' hok
      obtain ⟨-, -, -, -, -, -, -, -, -, -, rfl⟩ := patchSender_eq_ok hok
      exact requestStep_senders _ [] ((map_updateMany_apply _ _ _ _).trans (map_undefault _ _ _ _))
        (List.append_nil _).symm rfl rfl
  | postEmailBatches upload header =>
      unfold route
      rw [Action.snd_bind_pure]
      have heffect : ScheduleEffect config lib ctx user upload t
          (postEmailBatches config lib ctx user upload header { tables := t }).2 :=
        scheduleEffect_postEmailBatches upload header t
      cases heffect with
      | nothing hsame =>
          rw [hsame]
          exact .refl _
      | created _ hinput hleads htransaction =>
          obtain ⟨db, hok, hsenders, hbatches, hemails⟩ := batchTransaction_database htransaction
          -- The tables have no attempts, and the transaction adds none.
          have hattempts : db.attempts = [] := by
            obtain ⟨-, -, -, -, -, rfl⟩ := createBatchTransaction_eq_ok hok
            rfl
          generalize (postEmailBatches config lib ctx user upload header { tables := t }).2.tables =
            t' at *
          obtain rfl : t'.database = db := by
            obtain ⟨senders, batches, emails, attempts⟩ := db
            dsimp only at hsenders hbatches hemails hattempts
            rw [← hsenders, ← hbatches, ← hemails, hattempts]
            rfl
          exact .created (leadsAccounted_of_batchInput hinput hleads) hok
  | getBatch batchId => exact hreadOnly (readOnly_getBatch batchId) _
  | getScheduled query => exact hreadOnly (readOnly_getScheduled query) _
  | getSent query => exact hreadOnly (readOnly_getSent query) _

/-- **What a request writes** is a step of the API. -/
theorem requestStep_serve (t : Tables) (request : EmailRequest) :
    RequestStep t.database (serve config lib user ctx request t).tables.database := by
  by_cases huser : ∃ v ∈ t.users, v.id = user
  · rw [serve_of_user huser]
    exact requestStep_route request
  · rw [serve_of_no_user huser]
    exact .refl _

/-- What the worker does to the batches: it adds none. -/
theorem rows_of_work {s t : Delivery} {event : DeliveryEvent} (hwork : event.isRequest = false)
    (h : (Delivery.system config).step event s = some t) :
    t.database.batches.map EmailBatch.unlabelled = s.database.batches.map EmailBatch.unlabelled ∧
      ∃ f, t.database.emails = s.database.emails.map f ∧
        ∀ e ∈ s.database.emails, RowStep config e (f e) := by
  obtain ⟨f, new, hrows⟩ := Delivery.emailsStep h
  rcases Delivery.batches_of_step h with hkept | ⟨input, batchId, newId, batch, hevent, -⟩
  · have hnil : new = [] := by
      rw [List.eq_nil_iff_forall_not_mem]
      intro r hr
      -- A new row would belong to a new batch.
      obtain ⟨b', hb', hid⟩ := hrows.new_batches r hr
      obtain ⟨b, hb, hsame⟩ := exists_of_map_eq hkept hb'
      have hid' : b'.id = b.id := by simpa using congrArg EmailBatch.id hsame.symm
      exact (hrows.new_rows r hr).fresh_batch b hb (hid.symm.trans hid')
    subst hnil
    exact ⟨hkept, f, by rw [hrows.emails, List.append_nil], hrows.rows⟩
  · rw [hevent] at hwork
    cases hwork

namespace Application

variable {s t : Application} {event : ApplicationEvent}
  {P : Application → ApplicationEvent → Prop}

/-- The tables and the delivery system have the same rows. -/
def Synced (s : Application) : Prop :=
  s.tables.database = { s.delivery.database with attempts := [] }

theorem synced_of_reachable (h : (system config lib).Reachable P s) : s.Synced := by
  apply h.invariant
  · rintro s ⟨htables, ⟨hbatches, hemails, -⟩, hsenders⟩
    rw [Synced, htables]
    dsimp only
    rw [hsenders, hbatches, hemails]
    rfl
  · intro s event t _ hstep _
    cases event with
    | login identity loginCtx =>
        cases hstep
        rfl
    | request user request ctx =>
        cases hstep
        rfl
    | work event tables =>
        obtain ⟨-, -, rfl, -, hdatabase⟩ := work_eq_some hstep
        exact hdatabase

/-- **A step of the application** is one on its batches. -/
theorem batchStep_of_step (hsynced : s.Synced) (h : (system config lib).step event s = some t) :
    BatchStep config s.tables.database t.tables.database := by
  cases event with
  | login identity loginCtx =>
      cases h
      exact (requestStep_login identity loginCtx s.tables).batchStep
  | request user request ctx =>
      cases h
      exact (requestStep_serve s.tables request).batchStep
  | work event tables =>
      obtain ⟨hwork, hstep, rfl, -, hdatabase⟩ := work_eq_some h
      rw [hsynced, hdatabase]
      obtain ⟨hbatches, f, hemails, hrows⟩ := rows_of_work hwork hstep
      exact .kept f hbatches hemails hrows

theorem batchesFilled_of_reachable (h : (system config lib).Reachable P s) :
    BatchesFilled s.tables.database := by
  apply h.invariant_of_reachable (I := fun s => BatchesFilled s.tables.database)
  · rintro s ⟨htables, -, -⟩
    rw [htables]
    exact ⟨List.nodup_nil, fun b hb => (nomatch hb), fun e he => (nomatch he)⟩
  · intro s event t hreach _ hstep hfilled
    exact hfilled.step (batchStep_of_step (synced_of_reachable hreach) hstep)

theorem later_of_steps (h : (system config lib).Reachable P s)
    (hst : (system config lib).Steps P s t) : Later s.tables.database t.tables.database := by
  induction hst with
  | refl => exact .refl _
  | tail event hbefore hP hstep ih =>
      exact ih.trans (.step (batchStep_of_step (synced_of_reachable (h.trans hbefore)) hstep))

/-- Users are never removed. -/
theorem user_of_step (h : (system config lib).step event s = some t)
    (huser : ∃ v ∈ s.tables.users, v.id = user) : ∃ v ∈ t.tables.users, v.id = user := by
  cases event with
  | login identity loginCtx =>
      cases h
      have hstep : (apiSystem config lib).step (.login identity loginCtx) s.tables =
        some (upsertGoogleUser config identity loginCtx s.tables).2 := rfl
      exact EmailScheduler.user_of_step hstep huser
  | request other request ctx =>
      cases h
      have hstep : (apiSystem config lib).step (.request other request ctx) s.tables =
        some (serve config lib other ctx request s.tables).tables := rfl
      exact EmailScheduler.user_of_step hstep huser
  | work event tables =>
      obtain ⟨-, -, rfl, husers, -⟩ := work_eq_some h
      rw [husers]
      exact huser

theorem user_of_steps (hst : (system config lib).Steps P s t)
    (huser : ∃ v ∈ s.tables.users, v.id = user) : ∃ v ∈ t.tables.users, v.id = user := by
  induction hst with
  | refl => exact huser
  | tail event _ _ hstep ih => exact user_of_step hstep ih

end Application

/-! ## Responses -/

/-- The entry of a status in `byStatus`. -/
def BatchResponse.count (r : BatchResponse) (status : ScheduledEmailStatus) : Nat :=
  (r.byStatus.lookup status).getD 0

/-- The emails of a batch that have come to an end. -/
def BatchResponse.finished (r : BatchResponse) : Nat :=
  r.count .sent + r.count .failed + r.count .deliveryUnknown

/-- A response accounts for every line of the file, and for every lead. -/
structure BatchAccounted (r : BatchResponse) : Prop where
  totalRows : r.totalRows = r.valid + r.invalid + r.duplicate
  recipients : 1 ≤ r.valid
  byStatus : (r.byStatus.map Prod.snd).sum = r.valid
  notCancelled : r.count .cancelled = 0

/-- What a later response about the same batch says. -/
structure BatchProgress (r r' : BatchResponse) : Prop where
  sameBatch : r'.id = r.id ∧ r'.subject = r.subject ∧ r'.startAt = r.startAt
  sameCounts : r'.totalRows = r.totalRows ∧ r'.valid = r.valid ∧ r'.invalid = r.invalid ∧
    r'.duplicate = r.duplicate
  terminal : ∀ status : ScheduledEmailStatus, status.isTerminal = true →
    r.count status ≤ r'.count status
  final : r.finished = r.valid → r'.byStatus = r.byStatus

/-- How many rows of a batch have a status. -/
def statusCount (db : Database) (batchId : Uuid) (status : ScheduledEmailStatus) : Nat :=
  (db.emailsOf batchId).countP fun e => decide (e.status = status)

section Response

variable {t : Tables} {batch : StoredBatch}

theorem mem_allStatuses (status : ScheduledEmailStatus) : status ∈ allStatuses := by
  cases status <;> simp [allStatuses]

/-- `groupBy` counts the rows of the batch. -/
theorem statusCounts_eq (batchId : Uuid) (t : Tables) : statusCounts batchId t =
    (allStatuses.map fun status => (status, statusCount t.database batchId status)).filter
      fun entry => 0 < entry.2 := by
  unfold statusCounts
  congr 2
  funext status
  unfold statusCount Database.emailsOf
  rw [List.countP_filter, Tables.database, List.countP_map]
  congr 2
  funext e
  exact Bool.and_comm _ _

theorem count_batchResponse (status : ScheduledEmailStatus) :
    (batchResponse batch t).count status = statusCount t.database batch.id status := by
  unfold BatchResponse.count batchResponse
  dsimp only
  rw [statusCounts_eq]
  exact lookup_filter_pos _ (mem_allStatuses status)

/-- The rows with one of these statuses. -/
theorem sum_statusCount {statuses : List ScheduledEmailStatus} (hnodup : statuses.Nodup)
    (db : Database) (batchId : Uuid) : (statuses.map (statusCount db batchId)).sum =
      (db.emailsOf batchId).countP fun e => decide (e.status ∈ statuses) :=
  sum_countP_eq hnodup (fun e : ScheduledEmail => e.status) _

theorem sum_byStatus : ((batchResponse batch t).byStatus.map Prod.snd).sum =
    (t.database.emailsOf batch.id).length := by
  unfold batchResponse
  dsimp only
  rw [statusCounts_eq, sum_filter_pos, List.map_map]
  refine (sum_statusCount (by decide : allStatuses.Nodup) t.database batch.id).trans ?_
  rw [List.countP_eq_length]
  intro e _
  exact decide_eq_true (mem_allStatuses e.status)

theorem batchAccounted_batchResponse (h : BatchRows t.database batch.toEmailBatch) :
    BatchAccounted (batchResponse batch t) where
  totalRows := h.total
  recipients := h.recipients
  byStatus := sum_byStatus.trans h.length
  notCancelled := by
    rw [count_batchResponse, statusCount, List.countP_eq_zero]
    intro e he
    rw [decide_eq_true_eq]
    exact h.notCancelled e he

/-- When as many rows have come to an end as there are leads, all have. -/
theorem isTerminal_of_finished (h : BatchRows t.database batch.toEmailBatch)
    (hfinished : (batchResponse batch t).finished = (batchResponse batch t).valid) :
    ∀ e ∈ t.database.emailsOf batch.id, e.status.isTerminal = true := by
  have hsum := sum_statusCount
    (by decide : [ScheduledEmailStatus.sent, .failed, .deliveryUnknown].Nodup)
    t.database batch.id
  have hall : ((t.database.emailsOf batch.id).countP fun e =>
      decide (e.status ∈ [ScheduledEmailStatus.sent, .failed, .deliveryUnknown])) =
        (t.database.emailsOf batch.id).length := by
    rw [h.length, ← hsum]
    unfold BatchResponse.finished at hfinished
    rw [count_batchResponse, count_batchResponse, count_batchResponse] at hfinished
    simpa [Nat.add_assoc, batchResponse] using hfinished
  intro e he
  have hmem := of_decide_eq_true (List.countP_eq_length.1 hall e he)
  simp only [List.mem_cons, List.not_mem_nil, or_false] at hmem
  rcases hmem with hstatus | hstatus | hstatus <;> rw [hstatus] <;> rfl

/-- A later response about a batch. -/
theorem batchProgress_batchResponse {t' : Tables} {batch' : StoredBatch}
    (h : BatchRows t.database batch.toEmailBatch)
    (hsame : batch'.toEmailBatch.unlabelled = batch.toEmailBatch.unlabelled)
    (hlater : RowsLater (t.database.emailsOf batch.id) (t'.database.emailsOf batch.id)) :
    BatchProgress (batchResponse batch t) (batchResponse batch' t') := by
  have hid : batch'.id = batch.id := (congrArg EmailBatch.id hsame :)
  refine ⟨⟨hid, (congrArg EmailBatch.subject hsame :), (congrArg EmailBatch.startAt hsame :)⟩,
    ⟨(congrArg EmailBatch.totalRows hsame :), (congrArg EmailBatch.validRecipientCount hsame :),
      (congrArg EmailBatch.invalidRecipientCount hsame :),
      (congrArg EmailBatch.duplicateRecipientCount hsame :)⟩, ?_, ?_⟩
  · intro status hterminal
    rw [count_batchResponse, count_batchResponse, hid]
    exact hlater.countP_le hterminal
  · intro hfinished
    have hstatuses := hlater.map_status_eq (isTerminal_of_finished h hfinished)
    have hcount : statusCount t'.database batch.id = statusCount t.database batch.id := by
      funext status
      have hmap := congrArg (List.countP fun s => decide (s = status)) hstatuses
      rwa [List.countP_map, List.countP_map] at hmap
    unfold batchResponse
    dsimp only
    rw [statusCounts_eq, statusCounts_eq, hid, hcount]

/-- The answer to a user about an own batch. -/
theorem getBatch_fst {batchId : Uuid} (t : Tables) : (getBatch user (some batchId) t).1 =
    match findOwnBatch user batchId t with
    | none => .error (httpError 404 "BATCH_NOT_FOUND" "The email batch was not found")
    | some batch => .ok (batchResponse batch t) := by
  have hread : getBatch user (some batchId) t = (match findOwnBatch user batchId t with
      | none => .throw (httpError 404 "BATCH_NOT_FOUND" "The email batch was not found")
      | some batch => .read (batchResponse batch) : Statement BatchResponse) t := rfl
  rw [hread]
  cases findOwnBatch user batchId t <;> rfl

theorem response_getBatch {batchId : Uuid} (huser : ∃ v ∈ t.users, v.id = user) :
    (serve config lib user ctx (.getBatch (some batchId)) t).response =
      match (getBatch user (some batchId) t).1 with
      | .ok r => .batch r
      | .error e => errorHandler e := by
  rw [serve_of_user huser]
  dsimp only [route, Served.of]
  rw [Action.bind_apply]
  dsimp only [onTables]
  cases (getBatch user (some batchId) t).1 <;> rfl

/-- `GET /email-batches/:batchId` shows a user the own batches. -/
theorem serve_getBatch_iff {batchId : Uuid} {r : BatchResponse} :
    (serve config lib user ctx (.getBatch (some batchId)) t).response = .batch r ↔
      (∃ v ∈ t.users, v.id = user) ∧
        ∃ batch, findOwnBatch user batchId t = some batch ∧ r = batchResponse batch t := by
  by_cases huser : ∃ v ∈ t.users, v.id = user
  · rw [response_getBatch huser, getBatch_fst]
    constructor
    · intro h
      refine ⟨huser, ?_⟩
      cases hfound : findOwnBatch user batchId t with
      | none =>
          rw [hfound] at h
          cases h
      | some batch =>
          rw [hfound] at h
          cases h
          exact ⟨batch, rfl, rfl⟩
    · rintro ⟨-, batch, hfound, rfl⟩
      rw [hfound]
  · rw [serve_of_no_user huser]
    constructor
    · intro h
      cases h
    · rintro ⟨hknown, -⟩
      exact absurd hknown huser

/-- A batch of a user is found again later. -/
theorem Later.findOwnBatch {t' : Tables} (h : Later t.database t'.database) {batchId : Uuid}
    (hfound : findOwnBatch user batchId t = some batch) :
    ∃ batch', EmailScheduler.findOwnBatch user batchId t' = some batch' ∧
      batch'.toEmailBatch.unlabelled = batch.toEmailBatch.unlabelled := by
  obtain ⟨more, hmore⟩ := h.batches
  -- The lookup asks for columns that the label is no part of.
  have hcontents : ∀ t : Tables, (EmailScheduler.findOwnBatch user batchId t).map
      (fun b => b.toEmailBatch.unlabelled) =
        (t.database.batches.map EmailBatch.unlabelled).find? fun b =>
          decide (b.id = batchId) && decide (b.userId = user) := by
    intro t
    rw [Tables.database, List.map_map, List.find?_map]
    rfl
  have hthere := hcontents t
  rw [hfound] at hthere
  have hlater := hcontents t'
  rw [hmore, List.find?_append, ← hthere] at hlater
  obtain ⟨batch', hbatch', hsame⟩ := Option.map_eq_some_iff.1 hlater
  exact ⟨batch', hbatch', hsame⟩

end Response

/-- The tables with the rows that the worker has written. -/
def Tables.follow (t : Tables) (db : Database) : Tables where
  users := t.users
  senders := t.senders.zipWith (fun s row => { s with toEmailSender := row }) db.senders
  batches := t.batches.zipWith (fun b row => { b with toEmailBatch := row }) db.batches
  emails := t.emails.zipWith (fun e row => { e with toScheduledEmail := row }) db.emails

namespace Application

variable {s t : Application} {P : Application → ApplicationEvent → Prop}

/-- A response about a batch and the one that the user gets later. -/
structure LaterResponses (s t : Tables) (r r' : BatchResponse)
    (batch batch' : StoredBatch) : Prop where
  before : r = batchResponse batch s
  after : r' = batchResponse batch' t
  same : batch'.toEmailBatch.unlabelled = batch.toEmailBatch.unlabelled
  mem : batch ∈ s.batches
  mem' : batch' ∈ t.batches

theorem exists_laterResponse (h : (system config lib).Reachable P s)
    (hst : (system config lib).Steps P s t) {batchId : Uuid} {r : BatchResponse}
    (ctx' : RequestContext)
    (hr : (serve config lib user ctx (.getBatch (some batchId)) s.tables).response = .batch r) :
    ∃ r' batch batch',
      (serve config lib user ctx' (.getBatch (some batchId)) t.tables).response = .batch r' ∧
        LaterResponses s.tables t.tables r r' batch batch' ∧ batch.id = batchId := by
  obtain ⟨huser, batch, hfound, rfl⟩ := serve_getBatch_iff.1 hr
  obtain ⟨batch', hfound', hsame⟩ := (later_of_steps h hst).findOwnBatch hfound
  exact ⟨_, batch, batch', serve_getBatch_iff.2 ⟨user_of_steps hst huser, batch', hfound', rfl⟩,
    ⟨rfl, rfl, hsame, (findOwnBatch_eq_some hfound).1, (findOwnBatch_eq_some hfound').1⟩,
    findOwnBatch_id hfound⟩

/-- **The progress of a batch.** Whatever logins, requests and steps of the worker there are, a
response about a batch accounts for every line and every lead of its file. The same request of the
user gets an answer at any later time, about the same batch; no count of a terminal status has
become smaller, and the counts have not changed if all emails had come to an end. -/
theorem batchProgress (h : (system config lib).Reachable P s)
    (hst : (system config lib).Steps P s t)
    {batchId : Uuid} {r : BatchResponse} (ctx' : RequestContext)
    (hr : (serve config lib user ctx (.getBatch (some batchId)) s.tables).response = .batch r) :
    BatchAccounted r ∧ ∃ r',
      (serve config lib user ctx' (.getBatch (some batchId)) t.tables).response = .batch r' ∧
        BatchAccounted r' ∧ BatchProgress r r' := by
  obtain ⟨r', batch, batch', hr', hresponses, -⟩ := exists_laterResponse h hst ctx' hr
  obtain ⟨rfl, rfl, hsame, hmem, hmem'⟩ := hresponses
  have hrows := (batchesFilled_of_reachable h).rows _ (List.mem_map_of_mem hmem)
  have hrows' := (batchesFilled_of_reachable (h.trans hst)).rows _ (List.mem_map_of_mem hmem')
  exact ⟨batchAccounted_batchResponse hrows, _, hr', batchAccounted_batchResponse hrows',
    batchProgress_batchResponse hrows hsame
      ((later_of_steps h hst).rows _ (List.mem_map_of_mem hmem))⟩

/-- A user's first batch, for a file with two leads and a duplicate; the ids of its emails start
here. -/
def firstBatch (emailId : Uuid) : List ApplicationEvent :=
  [.login ⟨"subject", "first@test.invalid", "User", none⟩ ⟨1, 10, 0⟩,
    .request 1 (.postEmailBatches (.ok threeLines) (some "first-batch"))
      ⟨0, 0, 20, fun i => emailId + i, true⟩]

/-- An email is sent. -/
def sentOnce (emailId : Uuid) : List DeliveryEvent :=
  [.deliver ⟨emailId, 0, some 3⟩, .tick 1000, .advance 0 ⟨1000, 0, .done⟩,
    .advance 0 ⟨1000, 0, .done⟩,
    .advance 0 ⟨1000, 70, .done⟩, .advance 0 ⟨1000, 0, .done⟩, .smtpAccepts 0,
    .sendReturns 0 ⟨"message", none, 1, 0⟩, .advance 0 ⟨1500, 0, .done⟩]

/-- The worker at work, with the tables that follow it. -/
def working (config : AppConfig) : List DeliveryEvent → Application → List ApplicationEvent
  | [], _ => []
  | event :: events, s =>
      match Delivery.step config event s.delivery with
      | none => []
      | some d => .work event (s.tables.follow d.database) ::
          working config events ⟨s.tables.follow d.database, d⟩

/-- The response about that batch. -/
def firstBatchResponse (s : Application) : EmailResponse :=
  (serve validConfig testLibraries 1 (contextOf 0) (.getBatch (some 20)) s.tables).response

/-- The counts of a response about a batch. -/
def byStatus? : EmailResponse → Option (List (ScheduledEmailStatus × Nat))
  | .batch r => some r.byStatus
  | _ => none

theorem exists_of_byStatus? {response : EmailResponse} {counts : List (ScheduledEmailStatus × Nat)}
    (h : byStatus? response = some counts) : ∃ r, response = .batch r ∧ r.byStatus = counts := by
  cases response with
  | batch r => exact ⟨r, rfl, Option.some.inj h⟩
  | _ => cases h

theorem batchProgress_of_sentOnce : ∃ s t r r',
    (system validConfig testLibraries).run TransitionSystem.anyStep (firstBatch 30) start = some s ∧
      (system validConfig testLibraries).run TransitionSystem.anyStep
        (working validConfig (sentOnce 30) s) s = some t ∧
      firstBatchResponse s = .batch r ∧ r.byStatus = [(.scheduled, 2)] ∧
      firstBatchResponse t = .batch r' ∧ r'.byStatus = [(.scheduled, 1), (.sent, 1)] ∧
      BatchAccounted r ∧ BatchAccounted r' ∧ BatchProgress r r' := by
  have hrun : ((system validConfig testLibraries).run TransitionSystem.anyStep
    (firstBatch 30) start).any
      (fun s => decide (byStatus? (firstBatchResponse s) = some [(.scheduled, 2)]) &&
        ((system validConfig testLibraries).run TransitionSystem.anyStep
          (working validConfig (sentOnce 30) s) s).any fun t =>
            decide (byStatus? (firstBatchResponse t) = some [(.scheduled, 1), (.sent, 1)])) =
      true := by decide +kernel
  obtain ⟨s, hs, hrest⟩ := (Option.any_eq_true _ _).1 hrun
  obtain ⟨hbefore, hlater⟩ := (Bool.and_eq_true_iff.1 hrest)
  obtain ⟨t, ht, hafter⟩ := (Option.any_eq_true _ _).1 hlater
  obtain ⟨r, hr, hcounts⟩ := exists_of_byStatus? (of_decide_eq_true hbefore)
  obtain ⟨r', hr', hcounts'⟩ := exists_of_byStatus? (of_decide_eq_true hafter)
  obtain ⟨haccounted, r'', hr'', haccounted', hprogress⟩ :=
    batchProgress (TransitionSystem.reachable_of_run (firstBatch 30) start_init hs)
      (TransitionSystem.steps_of_run _ ht) (contextOf 0) hr
  have hsame : r'' = r' := EmailResponse.batch.inj (hr''.symm.trans hr')
  subst hsame
  exact ⟨s, t, r, r'', hs, ht, hr, hcounts, hr', hcounts', haccounted, haccounted', hprogress⟩

end Application

end EmailScheduler
