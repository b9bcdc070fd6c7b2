import EmailScheduler.Schema
import Mathlib.Tactic.Common

/-!
# Creating a batch: the input and the statements

The parts of `createEmailBatch` in `email/scheduling-service.ts`: its input, the rows it builds, and
each statement of its transaction as a function of the database. `createBatchTransaction` is the
body of the transaction, run without interruption.

Ids drawn by `randomUUID` are arguments; the ids of the emails of a batch are a function of the
sequence number.
-/

set_option autoImplicit false

namespace EmailScheduler

open Foundation

structure ParsedLead where
  email : String
  normalizedEmail : String
deriving DecidableEq, Repr

/-- A rejected candidate; its `reason` is always `invalid_email`. -/
structure InvalidLead where
  row : Nat
  value : String
deriving DecidableEq, Repr

structure LeadParseResult where
  leads : List ParsedLead
  totalRows : Nat
  invalidCount : Nat
  duplicateCount : Nat
  invalidRows : List InvalidLead
deriving DecidableEq, Repr

structure CreateBatchInput where
  userId : Uuid
  senderId : Uuid
  idempotencyKey : String
  subject : String
  bodyText : String
  startAt : Int
  hourlyLimit : Int
  minimumDelayMs : Int
  sourceFilename : String
  parsedLeads : LeadParseResult
deriving DecidableEq, Repr

/-- The details of `NO_VALID_RECIPIENTS`. -/
structure RecipientDetails where
  totalRows : Nat
  invalidCount : Nat
  duplicateCount : Nat
  invalidRows : List InvalidLead
deriving DecidableEq, Repr

structure HttpError where
  status : Nat
  code : String
  message : String
  details : Option RecipientDetails := none
deriving DecidableEq, Repr

/-- What `createEmailBatch` throws: an `HttpError`, a `PrismaClientKnownRequestError` with its code,
or another error. -/
inductive CreateBatchError where
  | http (error : HttpError)
  | prisma (code : String)
  | other
deriving DecidableEq, Repr

/-- The error for an input without valid leads. -/
def noValidRecipients (input : CreateBatchInput) : CreateBatchError :=
  .http ⟨422, "NO_VALID_RECIPIENTS", "The leads file has no valid recipients", some
    ⟨input.parsedLeads.totalRows, input.parsedLeads.invalidCount,
      input.parsedLeads.duplicateCount, input.parsedLeads.invalidRows⟩⟩

/-- The error for a sender that is missing, inactive or another user's. -/
def senderNotFound : CreateBatchError :=
  .http ⟨404, "SENDER_NOT_FOUND", "The active sender was not found", none⟩

/-- A violated unique constraint. -/
def uniqueViolation : CreateBatchError := .prisma "P2002"

/-- An update that lost to a concurrent transaction. -/
def writeConflict : CreateBatchError := .prisma "P2034"

/-! ## The rows -/

/-- `createdBatch`. The sender was found by `input.senderId`, so that is its id. -/
def createdBatch (input : CreateBatchInput) (batchId : Uuid) : EmailBatch where
  id := batchId
  userId := input.userId
  senderId := input.senderId
  idempotencyKey := input.idempotencyKey
  subject := input.subject
  bodyText := input.bodyText
  startAt := input.startAt
  requestedHourlyLimit := input.hourlyLimit
  requestedMinimumDelayMs := input.minimumDelayMs
  sourceFilename := input.sourceFilename
  totalRows := input.parsedLeads.totalRows
  validRecipientCount := input.parsedLeads.leads.length
  invalidRecipientCount := input.parsedLeads.invalidCount
  duplicateRecipientCount := input.parsedLeads.duplicateCount
  status := .scheduled

/-- The row of a lead. -/
def emailRow (input : CreateBatchInput) (batchId : Uuid) (newId : Nat → Uuid)
    (sequenceNumber : Nat) (lead : ParsedLead) : ScheduledEmail :=
  let id := newId sequenceNumber
  let scheduledAt := input.startAt + sequenceNumber * input.minimumDelayMs
  { id := id
    batchId := batchId
    senderId := input.senderId
    recipientEmail := lead.email
    normalizedRecipientEmail := lead.normalizedEmail
    sequenceNumber := sequenceNumber
    scheduledAt := scheduledAt
    nextAttemptAt := scheduledAt
    bullJobId := createBullJobId id
    idempotencyKey := createRecipientIdempotencyKey batchId lead.normalizedEmail }

/-- `emailRows`. -/
def emailRows (input : CreateBatchInput) (batchId : Uuid) (newId : Nat → Uuid) :
    List ScheduledEmail :=
  input.parsedLeads.leads.mapIdx (emailRow input batchId newId)

/-- `insertionChunkSize`. -/
def insertionChunkSize : Nat := 250

/-- `chunks`: the slices that start at the multiples of `size` below the length. -/
def chunks {α : Type} (values : List α) (size : Nat) : List (List α) :=
  (List.range ((values.length + (size - 1)) / size)).map fun i =>
    (values.drop (i * size)).take size

/-! ## The statements -/

/-- `findExistingBatch`. -/
def findExistingBatch (db : Database) (userId : Uuid) (idempotencyKey : String) :
    Option EmailBatch :=
  db.batches.find? fun b => decide (b.userId = userId) && decide (b.idempotencyKey = idempotencyKey)

/-- `emailSender.findFirst`: the sender, if it is the user's and active. -/
def findActiveSender (db : Database) (senderId userId : Uuid) : Option EmailSender :=
  db.senders.find? fun s => decide (s.id = senderId) && decide (s.userId = userId) && s.isActive

/-- `emailSender.update`: the policy of the request becomes the sender's policy. -/
def updateSenderPolicy (db : Database) (senderId : Uuid) (input : CreateBatchInput) : Database :=
  { db with
    senders := updateMany (fun s => decide (s.id = senderId))
      (fun s => { s with
        hourlyLimit := input.hourlyLimit
        minimumDelayMs := input.minimumDelayMs }) db.senders }

/-- Two batches that a unique index does not allow together. -/
def batchConflict (a b : EmailBatch) : Bool :=
  decide (a.id = b.id) ||
    (decide (a.userId = b.userId) && decide (a.idempotencyKey = b.idempotencyKey))

theorem batchConflict_iff {a b : EmailBatch} :
    batchConflict a b = true ↔
      a.id = b.id ∨ a.userId = b.userId ∧ a.idempotencyKey = b.idempotencyKey := by
  simp [batchConflict]

theorem id_ne_of_batchConflict {a b : EmailBatch}
    (h : batchConflict a b = false) : a.id ≠ b.id := by
  intro heq
  rw [batchConflict_iff.2 (Or.inl heq)] at h
  cases h

/-- `emailBatch.create`. -/
def insertBatch (db : Database) (batch : EmailBatch) : Except CreateBatchError Database :=
  if db.batches.any (batchConflict batch) then .error uniqueViolation
  else .ok { db with batches := db.batches ++ [batch] }

/-- Two emails that a unique index does not allow together. -/
def emailConflict (a b : ScheduledEmail) : Bool :=
  decide (a.id = b.id) || decide (a.bullJobId = b.bullJobId) ||
    decide (a.idempotencyKey = b.idempotencyKey) ||
    (decide (a.batchId = b.batchId) &&
      decide (a.normalizedRecipientEmail = b.normalizedRecipientEmail))

theorem id_ne_of_emailConflict {a b : ScheduledEmail} (h : emailConflict a b = false) :
    a.id ≠ b.id := by
  intro heq
  simp [emailConflict, heq] at h

/-- One row of `scheduledEmail.createMany`. -/
def insertEmail (db : Database) (row : ScheduledEmail) : Except CreateBatchError Database :=
  if db.emails.any (emailConflict row) then .error uniqueViolation
  else .ok { db with emails := db.emails ++ [row] }

/-- `scheduledEmail.createMany`. -/
def createMany (db : Database) (rows : List ScheduledEmail) : Except CreateBatchError Database :=
  rows.foldlM insertEmail db

/-- The loop over the chunks. -/
def insertEmails (db : Database) (rows : List ScheduledEmail) : Except CreateBatchError Database :=
  (chunks rows insertionChunkSize).foldlM createMany db

/-- The body of the transaction. -/
def createBatchTransaction (db : Database) (input : CreateBatchInput) (batchId : Uuid)
    (newId : Nat → Uuid) : Except CreateBatchError (EmailBatch × Database) :=
  match findActiveSender db input.senderId input.userId with
  | none => .error senderNotFound
  | some sender =>
      match insertBatch (updateSenderPolicy db sender.id input) (createdBatch input batchId) with
      | .error e => .error e
      | .ok db =>
          match insertEmails db (emailRows input batchId newId) with
          | .error e => .error e
          | .ok db => .ok (createdBatch input batchId, db)

/-! ## Chunks -/

/-- The first chunks are the first values. -/
theorem flatten_map_take {α : Type} (values : List α) (size n : Nat) :
    ((List.range n).map fun i => (values.drop (i * size)).take size).flatten =
      values.take (n * size) := by
  induction n with
  | zero => simp
  | succ n ih =>
      rw [List.range_succ, List.map_append, List.flatten_append, ih, Nat.succ_mul, List.take_add]
      simp

/-- The chunks are the values, in order. -/
theorem flatten_chunks {α : Type} (values : List α) {size : Nat} (hsize : 0 < size) :
    (chunks values size).flatten = values := by
  rw [chunks, flatten_map_take]
  refine List.take_of_length_le ?_
  have hdiv := Nat.div_add_mod (values.length + (size - 1)) size
  have hmod := Nat.mod_lt (values.length + (size - 1)) hsize
  rw [Nat.mul_comm] at hdiv
  omega

/-- Inserting chunk by chunk is inserting row by row. -/
theorem insertEmails_eq (db : Database) (rows : List ScheduledEmail) :
    insertEmails db rows = rows.foldlM insertEmail db := by
  have hflatten : ∀ (ls : List (List ScheduledEmail)) (db : Database),
      ls.foldlM createMany db = ls.flatten.foldlM insertEmail db := by
    intro ls
    induction ls with
    | nil => intro db; rfl
    | cons l ls ih =>
        intro db
        rw [List.foldlM_cons, List.flatten_cons, List.foldlM_append]
        exact congrArg _ (funext ih)
  rw [insertEmails, hflatten, flatten_chunks rows (by decide)]

/-! ## What the transaction leaves behind -/

theorem insertBatch_eq_ok {db db' : Database} {batch : EmailBatch}
    (h : insertBatch db batch = .ok db') :
    (∀ b ∈ db.batches, batchConflict batch b = false) ∧
      db' = { db with batches := db.batches ++ [batch] } := by
  unfold insertBatch at h
  split at h
  · cases h
  next hnone =>
    cases h
    exact ⟨by simpa using hnone, rfl⟩

/-- An insertion of rows that succeeds appends them, in order; none of them conflicts with a row
before it. -/
theorem foldlM_insertEmail_eq_ok {rows : List ScheduledEmail} {db db' : Database}
    (h : rows.foldlM insertEmail db = .ok db') :
    db' = { db with emails := db.emails ++ rows } ∧
      rows.Pairwise (fun a b => emailConflict b a = false) ∧
      ∀ row ∈ rows, ∀ e ∈ db.emails, emailConflict row e = false := by
  induction rows generalizing db with
  | nil =>
      cases h
      exact ⟨by simp, .nil, by simp⟩
  | cons row rows ih =>
      rw [List.foldlM_cons] at h
      cases hinsert : insertEmail db row with
      | error e =>
          rw [hinsert] at h
          cases h
      | ok db₁ =>
          rw [hinsert] at h
          obtain ⟨hdb, hpairwise, hnew⟩ := ih h
          unfold insertEmail at hinsert
          split at hinsert
          · cases hinsert
          next hnone =>
            cases hinsert
            refine ⟨by simpa using hdb, List.pairwise_cons.2 ⟨fun r hr => ?_, hpairwise⟩, ?_⟩
            · exact hnew r hr row (List.mem_append_right _ (List.mem_singleton_self row))
            · intro r hr e he
              rcases List.mem_cons.1 hr with rfl | hr
              · rw [List.any_eq_true] at hnone
                by_contra hconflict
                exact hnone ⟨e, he, by simpa using hconflict⟩
              · exact hnew r hr e (List.mem_append_left _ he)

/-- Rows that conflict neither with each other nor with the table are inserted. -/
theorem foldlM_insertEmail_of_fits {rows : List ScheduledEmail} {db : Database}
    (hrows : rows.Pairwise fun a b => emailConflict b a = false)
    (hfits : ∀ row ∈ rows, ∀ e ∈ db.emails, emailConflict row e = false) :
    rows.foldlM insertEmail db = .ok { db with emails := db.emails ++ rows } := by
  induction rows generalizing db with
  | nil => simp [pure, Except.pure]
  | cons row rows ih =>
      have hinsert : insertEmail db row = .ok { db with emails := db.emails ++ [row] } := by
        have hnone : db.emails.any (emailConflict row) = false := by
          simpa using hfits row List.mem_cons_self
        rw [insertEmail, hnone]
        rfl
      obtain ⟨hrow, hrows⟩ := List.pairwise_cons.1 hrows
      rw [List.foldlM_cons, hinsert]
      refine (ih hrows ?_).trans ?_
      · intro r hr e he
        rcases List.mem_append.1 he with he | he
        · exact hfits r (List.mem_cons_of_mem _ hr) e he
        · rw [List.mem_singleton.1 he]
          exact hrow r hr
      · rw [List.append_assoc]
        rfl

/-- An insertion of rows that fails meets a unique index. -/
theorem foldlM_insertEmail_eq_error {rows : List ScheduledEmail} {db : Database}
    {e : CreateBatchError} (h : rows.foldlM insertEmail db = .error e) : e = uniqueViolation := by
  induction rows generalizing db with
  | nil => cases h
  | cons row rows ih =>
      rw [List.foldlM_cons] at h
      cases hinsert : insertEmail db row with
      | error e' =>
          rw [hinsert] at h
          cases h
          unfold insertEmail at hinsert
          split at hinsert
          · cases hinsert
            rfl
          · cases hinsert
      | ok db' =>
          rw [hinsert] at h
          exact ih h

theorem findActiveSender_eq_some {db : Database} {senderId userId : Uuid} {sender : EmailSender}
    (h : findActiveSender db senderId userId = some sender) :
    sender ∈ db.senders ∧ sender.id = senderId ∧ sender.userId = userId := by
  have hfound := List.find?_some h
  simp only [Bool.and_eq_true, decide_eq_true_eq] at hfound
  exact ⟨List.mem_of_find?_eq_some h, hfound.1⟩

/-- **The effect of a committed transaction.** The sender was active and takes the policy of the
request; one batch and its rows are appended, and none of them conflicts with what was there. -/
theorem createBatchTransaction_eq_ok {db db' : Database} {input : CreateBatchInput} {batchId : Uuid}
    {newId : Nat → Uuid} {batch : EmailBatch}
    (h : createBatchTransaction db input batchId newId = .ok (batch, db')) :
    (∃ sender, findActiveSender db input.senderId input.userId = some sender) ∧
      batch = createdBatch input batchId ∧
      (∀ b ∈ db.batches, batchConflict batch b = false) ∧
      (emailRows input batchId newId).Pairwise (fun a b => emailConflict b a = false) ∧
      (∀ row ∈ emailRows input batchId newId, ∀ e ∈ db.emails, emailConflict row e = false) ∧
      db' = { updateSenderPolicy db input.senderId input with
        batches := db.batches ++ [batch]
        emails := db.emails ++ emailRows input batchId newId } := by
  unfold createBatchTransaction at h
  cases hsender : findActiveSender db input.senderId input.userId with
  | none =>
      rw [hsender] at h
      cases h
  | some sender =>
      -- The update of the policy goes to the sender that was found.
      have hid : sender.id = input.senderId := (findActiveSender_eq_some hsender).2.1
      rw [hsender] at h
      dsimp only at h
      split at h
      · cases h
      next db₁ hbatch =>
        split at h
        · cases h
        next db₂ hrows =>
          cases h
          obtain ⟨hconflict, rfl⟩ := insertBatch_eq_ok hbatch
          rw [insertEmails_eq] at hrows
          obtain ⟨rfl, hpairwise, hnew⟩ := foldlM_insertEmail_eq_ok hrows
          exact ⟨⟨sender, rfl⟩, rfl, hconflict, hpairwise, hnew, by rw [hid]; rfl⟩

section Outcome

variable {db : Database} {input : CreateBatchInput} {batchId : Uuid} {newId : Nat → Uuid}

/-- Rows that do not conflict with the table are inserted if they do not conflict with each
other. -/
theorem map_insertEmails (batch : EmailBatch)
    (hfits : ∀ row ∈ emailRows input batchId newId, ∀ e ∈ db.emails, emailConflict row e = false) :
    (insertEmails db (emailRows input batchId newId)).map (fun _ => batch) =
      if (emailRows input batchId newId).Pairwise fun a b => emailConflict b a = false then
        .ok batch
      else .error uniqueViolation := by
  rw [insertEmails_eq]
  split_ifs with hrows
  · rw [foldlM_insertEmail_of_fits hrows hfits]
    rfl
  · cases hresult : (emailRows input batchId newId).foldlM insertEmail db with
    | error e =>
        rw [foldlM_insertEmail_eq_error hresult]
        rfl
    | ok db' => exact absurd (foldlM_insertEmail_eq_ok hresult).2.1 hrows

/-- How the transaction ends, where no email conflicts with a new row. -/
theorem map_createBatchTransaction
    (hfits : ∀ row ∈ emailRows input batchId newId, ∀ e ∈ db.emails, emailConflict row e = false) :
    (createBatchTransaction db input batchId newId).map Prod.fst =
      match findActiveSender db input.senderId input.userId with
      | none => .error senderNotFound
      | some _ =>
          if db.batches.any (batchConflict (createdBatch input batchId)) then .error uniqueViolation
          else if (emailRows input batchId newId).Pairwise fun a b => emailConflict b a = false then
            .ok (createdBatch input batchId)
          else .error uniqueViolation := by
  unfold createBatchTransaction
  cases findActiveSender db input.senderId input.userId with
  | none => rfl
  | some sender =>
      dsimp only
      unfold insertBatch
      by_cases hconflict : db.batches.any (batchConflict (createdBatch input batchId)) = true
      · -- The update of the sender leaves the batches alone.
        have hconflict' : (updateSenderPolicy db sender.id input).batches.any
            (batchConflict (createdBatch input batchId)) = true := hconflict
        rw [if_pos hconflict, if_pos hconflict']
        rfl
      · have hconflict' : ¬ (updateSenderPolicy db sender.id input).batches.any
            (batchConflict (createdBatch input batchId)) = true := hconflict
        rw [if_neg hconflict, if_neg hconflict']
        dsimp only
        have hfits' : ∀ row ∈ emailRows input batchId newId,
            ∀ e ∈ ({ updateSenderPolicy db sender.id input with
              batches := (updateSenderPolicy db sender.id input).batches ++
                [createdBatch input batchId] } : Database).emails,
              emailConflict row e = false := hfits
        rw [← map_insertEmails (createdBatch input batchId) hfits']
        split
        next heq => rw [heq]; rfl
        next heq => rw [heq]; rfl

end Outcome

/-- **What the result depends on.** Two databases with the same active sender and the same conflicts
of the batch, in which no email conflicts with a new row, let the transaction end in the same
way. -/
theorem createBatchTransaction_congr {db₁ db₂ : Database} {input : CreateBatchInput}
    {batchId : Uuid} {newId : Nat → Uuid}
    (hsender : findActiveSender db₁ input.senderId input.userId =
      findActiveSender db₂ input.senderId input.userId)
    (hbatch : db₁.batches.any (batchConflict (createdBatch input batchId)) =
      db₂.batches.any (batchConflict (createdBatch input batchId)))
    (hfits₁ : ∀ row ∈ emailRows input batchId newId, ∀ e ∈ db₁.emails, emailConflict row e = false)
    (hfits₂ : ∀ row ∈ emailRows input batchId newId, ∀ e ∈ db₂.emails,
      emailConflict row e = false) :
    (createBatchTransaction db₁ input batchId newId).map Prod.fst =
      (createBatchTransaction db₂ input batchId newId).map Prod.fst := by
  rw [map_createBatchTransaction hfits₁, map_createBatchTransaction hfits₂, hsender, hbatch]

theorem findExistingBatch_eq_none_iff {db : Database} {userId : Uuid} {idempotencyKey : String} :
    findExistingBatch db userId idempotencyKey = none ↔
      ∀ b ∈ db.batches, ¬ (b.userId = userId ∧ b.idempotencyKey = idempotencyKey) := by
  simp [findExistingBatch]

end EmailScheduler
