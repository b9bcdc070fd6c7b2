import EmailScheduler.Scheduling.BatchCreation

/-!
# The tables during concurrent creation

What open transactions have inserted respects the unique indexes together with what is committed
(`TableInv`), so a commit never meets a conflict: its effect is that of the whole transaction run on
the database of that moment (`createBatchTransaction_eq_write`).
-/

set_option autoImplicit false

namespace EmailScheduler

open Foundation

theorem batchConflict_comm (a b : EmailBatch) : batchConflict a b = batchConflict b a := by
  simp only [batchConflict, eq_comm]

theorem emailConflict_comm (a b : ScheduledEmail) : emailConflict a b = emailConflict b a := by
  simp only [emailConflict, eq_comm]

/-! ## Inserting compatible rows -/

/-- Rows that fit the table are inserted. -/
theorem foldlM_insertEmail_of_compatible {rows : List ScheduledEmail} {db : Database}
    (h : Compatible emailConflict (db.emails ++ rows)) :
    rows.foldlM insertEmail db = .ok { db with emails := db.emails ++ rows } := by
  obtain ⟨-, hrows, hcross⟩ := List.pairwise_append.1 h
  apply foldlM_insertEmail_of_fits
  · refine hrows.imp fun hab => ?_
    rw [emailConflict_comm]
    exact hab
  · intro row hrow e he
    rw [emailConflict_comm]
    exact hcross e he row hrow

theorem insertEmails_of_compatible {rows : List ScheduledEmail} {db : Database}
    (h : Compatible emailConflict (db.emails ++ rows)) :
    insertEmails db rows = .ok { db with emails := db.emails ++ rows } := by
  rw [insertEmails_eq]
  exact foldlM_insertEmail_of_compatible h

theorem insertBatch_of_compatible {batch : EmailBatch} {db : Database}
    (h : Compatible batchConflict (db.batches ++ [batch])) :
    insertBatch db batch = .ok { db with batches := db.batches ++ [batch] } := by
  have hfits : db.batches.any (batchConflict batch) = false := by
    rw [List.any_eq_false]
    intro b hb hconflict
    have hpair := (List.pairwise_append.1 h).2.2 b hb batch (List.mem_singleton_self batch)
    rw [batchConflict_comm, hconflict] at hpair
    cases hpair
  rw [insertBatch, hfits]
  rfl

/-- A chunk that is inserted fits itself and the rows before it. -/
theorem createMany_eq_ok {db db' : Database} {chunk : List ScheduledEmail}
    (h : createMany db chunk = .ok db') : Compatible emailConflict chunk ∧
      ∀ row ∈ chunk, ∀ e ∈ db.emails, emailConflict row e = false := by
  obtain ⟨-, hpairwise, hfits⟩ := foldlM_insertEmail_eq_ok h
  refine ⟨hpairwise.imp fun hab => ?_, hfits⟩
  rw [emailConflict_comm]
  exact hab

/-- The policy of a sender does not matter for finding it. -/
theorem findActiveSender_updateSenderPolicy (db : Database) (id : Uuid) (input : CreateBatchInput)
    (senderId userId : Uuid) :
    (findActiveSender (updateSenderPolicy db id input) senderId userId).isSome =
      (findActiveSender db senderId userId).isSome := by
  have hfind : findActiveSender (updateSenderPolicy db id input) senderId userId =
      (findActiveSender db senderId userId).map _ :=
    find?_updateMany (by intro r; rfl) db.senders
  rw [hfind, Option.isSome_map]

/-- **A commit is the whole transaction.** Where the sender is active and the rows fit, the
transaction, run without interruption, writes what the call commits. -/
theorem createBatchTransaction_eq_write {db : Database} {c : CreationCall}
    (hsender : (findActiveSender db c.input.senderId c.input.userId).isSome = true)
    (hbatch : Compatible batchConflict (db.batches ++ [c.batch]))
    (hrows : Compatible emailConflict (db.emails ++ c.rows)) :
    createBatchTransaction db c.input c.batchId c.newId = .ok (c.batch, c.write db) := by
  obtain ⟨sender, hfound⟩ := Option.isSome_iff_exists.1 hsender
  have hinsert : insertBatch (updateSenderPolicy db c.input.senderId c.input)
      (createdBatch c.input c.batchId) = .ok { updateSenderPolicy db c.input.senderId c.input with
        batches := db.batches ++ [c.batch] } := insertBatch_of_compatible hbatch
  unfold createBatchTransaction
  rw [hfound]
  dsimp only
  rw [(findActiveSender_eq_some hfound).2.1, hinsert]
  dsimp only
  have hemails : insertEmails { updateSenderPolicy db c.input.senderId c.input with
      batches := db.batches ++ [c.batch] } (emailRows c.input c.batchId c.newId) =
        .ok (c.write db) := insertEmails_of_compatible hrows
  rw [hemails]
  rfl

/-! ## What a call has inserted -/

namespace CreationStage

/-- The transaction is open and has inserted the batch. -/
def hasBatch : CreationStage → Bool
  | .insertingEmails _ | .committing => true
  | _ => false

/-- The transaction is open and has found the sender. -/
def hasSender : CreationStage → Bool
  | .updatingSender | .creatingBatch | .insertingEmails _ | .committing => true
  | _ => false

end CreationStage

section Continuations

variable (input : CreateBatchInput) (error : CreateBatchError)

theorem hasSender_afterCheck (r : Option EmailBatch) : (afterCheck input r).hasSender = false := by
  cases r with
  | none =>
      unfold afterCheck
      split_ifs <;> rfl
  | some => rfl

theorem hasSender_afterTransactionError :
    (afterTransactionError error).hasSender = false := by
  unfold afterTransactionError
  split_ifs <;> rfl

theorem hasSender_afterReread (r : Option EmailBatch) :
    (afterReread error r).hasSender = false := by
  cases r <;> rfl

theorem hasSender_afterFailure (stage : CreationStage) :
    (stage.afterFailure error).hasSender = false := by
  cases stage <;> first | rfl | exact hasSender_afterTransactionError error

theorem hasBatch_afterSender (r : Option EmailSender) : (afterSender r).hasBatch = false := by
  cases r <;> rfl

theorem hasBatch_of_hasSender {stage : CreationStage} (h : stage.hasSender = false) :
    stage.hasBatch = false := by
  cases stage <;> first | rfl | cases h

end Continuations

namespace CreationCall

variable {c : CreationCall}

theorem insertedBatches_of_hasBatch (h : c.stage.hasBatch = false) : c.insertedBatches = [] := by
  unfold insertedBatches
  cases hstage : c.stage <;> rw [hstage] at h <;> first | rfl | cases h

theorem insertedEmails_of_hasBatch (h : c.stage.hasBatch = false) : c.insertedEmails = [] := by
  unfold insertedEmails
  cases hstage : c.stage <;> rw [hstage] at h <;> first | rfl | cases h

theorem insertedBatches_insertingEmails {n : Nat} (h : c.stage = .insertingEmails n) :
    c.insertedBatches = [c.batch] := by
  rw [insertedBatches, h]

theorem insertedBatches_committing (h : c.stage = .committing) : c.insertedBatches = [c.batch] := by
  rw [insertedBatches, h]

theorem insertedEmails_insertingEmails {n : Nat} (h : c.stage = .insertingEmails n) :
    c.insertedEmails = (c.chunkList.take n).flatten := by
  rw [insertedEmails, h]

theorem insertedEmails_committing (h : c.stage = .committing) : c.insertedEmails = c.rows := by
  rw [insertedEmails, h]

/-- After the last chunk all rows are inserted. -/
theorem flatten_take_chunkList {n : Nat} (h : c.chunkList[n]? = none) :
    (c.chunkList.take n).flatten = c.rows := by
  rw [List.take_of_length_le (List.getElem?_eq_none_iff.1 h)]
  exact flatten_chunks c.rows (by decide)

end CreationCall

/-! ## The invariant -/

namespace Creation

variable {s t : Creation} {i : Nat} {c : CreationCall} {event : CreationEvent}
  {stage : CreationStage}

/-- The rows of committed and of open transactions respect the unique indexes together, every email
has its batch, and the sender of an open transaction is there. -/
structure TableInv (s : Creation) : Prop where
  batches : Compatible batchConflict
    (tableRows s.database.batches CreationCall.insertedBatches s.calls)
  emails : Compatible emailConflict
    (tableRows s.database.emails CreationCall.insertedEmails s.calls)
  batch_of_email : ∀ e ∈ s.database.emails, ∃ b ∈ s.database.batches, b.id = e.batchId
  sender : ∀ c ∈ s.calls, c.stage.hasSender = true →
    (findActiveSender s.database c.input.senderId c.input.userId).isSome = true

/-- A move within an open transaction comes from one. -/
theorem Move.hasSender_of (h : Move s i c event stage) (hsender : stage.hasSender = true) :
    c.stage.hasSender = true := by
  cases h with
  | checked hstage => rw [hasSender_afterCheck] at hsender; cases hsender
  | conflicted hstage _ => rw [hstage]; rfl
  | locked hstage _ _ => rw [hstage]; rfl
  | batchRefused hstage _ => rw [hstage]; rfl
  | batchInserted hstage _ _ => rw [hstage]; rfl
  | chunksDone hstage _ => rw [hstage]; rfl
  | chunkRefused hstage _ _ => rw [hstage]; rfl
  | chunkInserted hstage _ _ _ => rw [hstage]; rfl
  | reread hstage => rw [hasSender_afterReread] at hsender; cases hsender
  | failed error _ => rw [hasSender_afterFailure] at hsender; cases hsender
  | crashed _ => cases hsender

/-- The moves of a transaction that has inserted its batch: the batch, a chunk, or the end of the
chunks. -/
theorem Move.of_hasBatch (h : Move s i c event stage) (hbatch : stage.hasBatch = true) :
    (c.stage = .creatingBatch ∧ stage = .insertingEmails 0 ∧ s.batchWaits i c = false ∧
        ∃ db, insertBatch s.database c.batch = .ok db) ∨
      (∃ n, c.stage = .insertingEmails n ∧ stage = .committing ∧ c.chunkList[n]? = none) ∨
      ∃ n chunk, c.stage = .insertingEmails n ∧ stage = .insertingEmails (n + 1) ∧
        c.chunkList[n]? = some chunk ∧ s.emailsWait i chunk = false ∧
        ∃ db, createMany { s.database with
          emails := s.database.emails ++ c.insertedEmails } chunk = .ok db := by
  have hend : ∀ {stage : CreationStage}, stage.hasSender = false → stage.hasBatch = true →
      False := by
    intro stage hsender hb
    rw [hasBatch_of_hasSender hsender] at hb
    cases hb
  cases h with
  | checked hstage => exact (hend (hasSender_afterCheck _ _) hbatch).elim
  | conflicted hstage _ => exact (hend (hasSender_afterTransactionError _) hbatch).elim
  | locked hstage _ _ => cases hbatch
  | batchRefused hstage _ => exact (hend (hasSender_afterTransactionError _) hbatch).elim
  | @batchInserted db hstage hwaits hok => exact Or.inl ⟨hstage, rfl, hwaits, db, hok⟩
  | @chunksDone n hstage hnone => exact Or.inr (Or.inl ⟨n, hstage, rfl, hnone⟩)
  | chunkRefused hstage _ _ => exact (hend (hasSender_afterTransactionError _) hbatch).elim
  | @chunkInserted n chunk db hstage hsome hwaits hok =>
      exact Or.inr (Or.inr ⟨n, chunk, hstage, rfl, hsome, hwaits, db, hok⟩)
  | reread hstage => exact (hend (hasSender_afterReread _ _) hbatch).elim
  | failed error _ => exact (hend (hasSender_afterFailure _ _) hbatch).elim
  | crashed _ => cases hbatch

theorem tableInv_init (h : system.init s) : TableInv s := by
  obtain ⟨hconstraints, -, hcalls⟩ := h
  constructor
  · rw [hcalls, tableRows, List.flatMap_nil, List.append_nil]
    exact hconstraints.batches
  · rw [hcalls, tableRows, List.flatMap_nil, List.append_nil]
    exact hconstraints.emails
  · exact hconstraints.batch_of_email
  · intro c hc
    rw [hcalls] at hc
    cases hc

/-- The batches after a move. -/
theorem batches_moved (hinv : TableInv s) (hc : s.calls[i]? = some c)
    (hmove : Move s i c event stage) : Compatible batchConflict
      (tableRows s.database.batches CreationCall.insertedBatches
        (s.calls.set i (c.moveTo stage))) := by
  cases hb : stage.hasBatch with
  | false =>
      -- The call goes on without a batch, or its transaction is rolled back.
      exact hinv.batches.rollback batchConflict_comm hc
        (CreationCall.insertedBatches_of_hasBatch hb)
  | true =>
      rcases hmove.of_hasBatch hb with ⟨hstage, rfl, hwaits, db, hok⟩ | ⟨n, hstage, rfl, -⟩ |
        ⟨n, chunk, hstage, rfl, -⟩
      · -- The batch meets neither a committed batch nor one of another open transaction.
        have hnone : c.insertedBatches = [] :=
          CreationCall.insertedBatches_of_hasBatch (by rw [hstage]; rfl)
        have hfits := (insertBatch_eq_ok hok).1
        have hrows : (c.moveTo (.insertingEmails 0)).insertedBatches =
            c.insertedBatches ++ [c.batch] := by
          rw [hnone]
          rfl
        refine hinv.batches.insert batchConflict_comm hc hrows (List.pairwise_singleton _ _) ?_ ?_
        · intro r hr e he
          rw [hnone, List.append_nil] at he
          rw [List.mem_singleton.1 hr]
          exact hfits e he
        · intro r hr e he
          rw [List.mem_singleton.1 hr]
          rw [batchWaits, List.any_eq_false] at hwaits
          exact Bool.eq_false_iff.2 (hwaits e he)
      · exact hinv.batches.same batchConflict_comm hc
          (CreationCall.insertedBatches_insertingEmails hstage).symm
      · exact hinv.batches.same batchConflict_comm hc
          (CreationCall.insertedBatches_insertingEmails hstage).symm

/-- The emails after a move. -/
theorem emails_moved (hinv : TableInv s) (hc : s.calls[i]? = some c)
    (hmove : Move s i c event stage) : Compatible emailConflict
      (tableRows s.database.emails CreationCall.insertedEmails
        (s.calls.set i (c.moveTo stage))) := by
  cases hb : stage.hasBatch with
  | false =>
      exact hinv.emails.rollback emailConflict_comm hc
        (CreationCall.insertedEmails_of_hasBatch hb)
  | true =>
      rcases hmove.of_hasBatch hb with ⟨hstage, rfl, -⟩ | ⟨n, hstage, rfl, hnone⟩ |
        ⟨n, chunk, hstage, rfl, hsome, hwaits, db, hok⟩
      · exact hinv.emails.rollback emailConflict_comm hc rfl
      · refine hinv.emails.same emailConflict_comm hc ?_
        rw [CreationCall.insertedEmails_insertingEmails hstage,
          CreationCall.flatten_take_chunkList hnone]
        rfl
      · obtain ⟨hchunk, hfits⟩ := createMany_eq_ok hok
        refine hinv.emails.insert emailConflict_comm hc ?_ hchunk hfits ?_
        · rw [CreationCall.insertedEmails_insertingEmails hstage]
          show (c.chunkList.take (n + 1)).flatten = _
          rw [List.take_add_one, hsome, List.flatten_append]
          simp
        · intro r hr e he
          rw [emailsWait, List.any_eq_false] at hwaits
          have hrow := hwaits r hr
          rw [Bool.not_eq_true, List.any_eq_false] at hrow
          exact Bool.eq_false_iff.2 (hrow e he)

theorem mem_setCall {d : CreationCall} {calls : List CreationCall} {c' : CreationCall}
    (h : d ∈ calls.set i c') : d = c' ∨ d ∈ calls :=
  (List.mem_or_eq_of_mem_set h).symm

theorem tableInv_step (h : step event s = some t) (hinv : TableInv s) : TableInv t := by
  cases stepCase_of_step h with
  | call input batchId newId =>
      -- A new call has inserted nothing and found no sender.
      refine ⟨hinv.batches.start rfl, hinv.emails.start rfl, hinv.batch_of_email, ?_⟩
      intro d hd hsender
      rcases List.mem_append.1 hd with hold | hnew
      · exact hinv.sender d hold hsender
      · rw [List.mem_singleton.1 hnew] at hsender
        cases hsender
  | @moved _ i c stage hc hmove =>
      refine ⟨batches_moved hinv hc hmove, emails_moved hinv hc hmove, hinv.batch_of_email, ?_⟩
      intro d hd hsender
      rcases mem_setCall hd with rfl | hold
      · exact hinv.sender c (List.mem_of_getElem? hc) (hmove.hasSender_of hsender)
      · exact hinv.sender d hold hsender
  | @began i c hc hstage =>
      refine ⟨hinv.batches.rollback batchConflict_comm hc
          (CreationCall.insertedBatches_of_hasBatch (hasBatch_afterSender _)),
        hinv.emails.rollback emailConflict_comm hc
          (CreationCall.insertedEmails_of_hasBatch (hasBatch_afterSender _)),
        hinv.batch_of_email, ?_⟩
      intro d hd hsender
      rcases mem_setCall hd with rfl | hold
      · -- The transaction goes on only with the sender it found.
        show (findActiveSender s.database c.input.senderId c.input.userId).isSome = true
        cases hfind : findActiveSender s.database c.input.senderId c.input.userId with
        | some sender => rfl
        | none =>
            rw [hfind] at hsender
            cases hsender
      · exact hinv.sender d hold hsender
  | @committed i c hc hstage =>
      -- The rows that the call had inserted become committed rows.
      have hbatches : Compatible batchConflict
          (tableRows (s.database.batches ++ c.insertedBatches) CreationCall.insertedBatches
            (s.calls.set i (c.moveTo (.returned ⟨c.batch, false⟩)))) :=
        hinv.batches.commit batchConflict_comm hc rfl
      have hemails : Compatible emailConflict
          (tableRows (s.database.emails ++ c.insertedEmails) CreationCall.insertedEmails
            (s.calls.set i (c.moveTo (.returned ⟨c.batch, false⟩)))) :=
        hinv.emails.commit emailConflict_comm hc rfl
      rw [CreationCall.insertedBatches_committing hstage] at hbatches
      rw [CreationCall.insertedEmails_committing hstage] at hemails
      refine ⟨hbatches, hemails, ?_, ?_⟩
      · intro e he
        rcases List.mem_append.1 he with hold | hnew
        · obtain ⟨b, hb, hid⟩ := hinv.batch_of_email e hold
          exact ⟨b, List.mem_append_left _ hb, hid⟩
        · obtain ⟨n, hn, rfl⟩ := List.mem_mapIdx.1 hnew
          exact ⟨c.batch, List.mem_append_right _ (List.mem_singleton_self _), rfl⟩
      · -- The commit writes a sender's policy, and the senders that other calls have found stay.
        intro d hd hsender
        have hkept := findActiveSender_updateSenderPolicy s.database c.input.senderId c.input
          d.input.senderId d.input.userId
        refine hkept.trans ?_
        rcases mem_setCall hd with rfl | hold
        · cases hsender
        · exact hinv.sender d hold hsender

/-- The tables are in order in every state reached. -/
theorem tableInv_of_reachable {P : Creation → CreationEvent → Prop} (h : system.Reachable P s) :
    TableInv s :=
  h.invariant (fun _ hs => tableInv_init hs) fun _ _ _ _ hstep hinv => tableInv_step hstep hinv

end Creation

end EmailScheduler
