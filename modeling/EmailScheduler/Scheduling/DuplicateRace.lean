import EmailScheduler.Scheduling.Idempotency

/-!
# Racing duplicates

Calls for one user, one key and one sender. At most one transaction holds the sender at a time
(`LockInv`), so one that holds it sees every commit. `Expected` says what the snapshot of a call
shows at each stage: a call is replayed after `P2002` only where there is a batch to replay, and it
throws only where it does not see the last commit.
-/

set_option autoImplicit false

namespace EmailScheduler

open Foundation

namespace Creation

variable {base : Database} {s t : Creation} {i j : Nat} {c d : CreationCall}
  {event : CreationEvent} {stage : CreationStage}

/-! ## The lock on the sender -/

/-- A sender is held by one open transaction at a time. -/
def LockInv (s : Creation) : Prop :=
  ∀ (i j : Nat) c d, s.calls[i]? = some c → s.calls[j]? = some d → c.stage.holdsSender = true →
    d.stage.holdsSender = true → c.input.senderId = d.input.senderId → i = j

theorem getElem?_setCall (hi : i < s.calls.length) (c' : CreationCall) :
    (s.setCall i c').calls[j]? = if i = j then some c' else s.calls[j]? := by
  show (s.calls.set i c')[j]? = _
  by_cases hij : i = j
  · subst hij
    rw [if_pos rfl, List.getElem?_set_self hi]
  · rw [if_neg hij, List.getElem?_set_ne hij]

theorem mem_others (hd : s.calls[j]? = some d) (hj : j ≠ i) : d ∈ s.others i :=
  List.mem_eraseIdx_iff_getElem?.2 ⟨j, hj, hd⟩

theorem holdsSender_of_hasSender (h : stage.hasSender = false) : stage.holdsSender = false := by
  cases stage <;> first | rfl | cases h

/-- A call that holds its sender held it before, or just found it free. -/
theorem Move.of_holdsSender (h : Move s i c event stage) (hholds : stage.holdsSender = true) :
    c.stage.holdsSender = true ∨ s.senderHeld i c = false := by
  have hend : ∀ {stage : CreationStage}, stage.hasSender = false → stage.holdsSender = true →
      False := by
    intro stage hsender hholds
    rw [holdsSender_of_hasSender hsender] at hholds
    cases hholds
  cases h with
  | checked _ => exact (hend (hasSender_afterCheck _ _) hholds).elim
  | conflicted _ _ => exact (hend (hasSender_afterTransactionError _) hholds).elim
  | locked _ _ hfree => exact Or.inr hfree
  | batchRefused hstage _ => rw [hstage]; exact Or.inl rfl
  | batchInserted hstage _ _ => rw [hstage]; exact Or.inl rfl
  | chunksDone hstage _ => rw [hstage]; exact Or.inl rfl
  | chunkRefused hstage _ _ => rw [hstage]; exact Or.inl rfl
  | chunkInserted hstage _ _ _ => rw [hstage]; exact Or.inl rfl
  | reread _ => exact (hend (hasSender_afterReread _ _) hholds).elim
  | failed error _ => exact (hend (hasSender_afterFailure _ _) hholds).elim
  | crashed _ => cases hholds

/-- A call whose stage changes keeps the lock exclusive, if it holds the sender only where it held
it before or where no other call holds it. -/
theorem lockInv_setCall (hinv : LockInv s) (hc : s.calls[i]? = some c) {c' : CreationCall}
    (hinput : c'.input = c.input)
    (hlock : c'.stage.holdsSender = true →
      c.stage.holdsSender = true ∨ s.senderHeld i c = false) :
    LockInv (s.setCall i c') := by
  have hi : i < s.calls.length := (List.getElem?_eq_some_iff.1 hc).1
  -- Another holder of the same sender is excluded either way.
  have hother : ∀ j d, j ≠ i → s.calls[j]? = some d → d.stage.holdsSender = true →
      c'.stage.holdsSender = true → d.input.senderId ≠ c'.input.senderId := by
    intro j d hj hd hdholds hholds hsame
    rw [hinput] at hsame
    rcases hlock hholds with hheld | hfree
    · exact hj (hinv j i d c hd hc hdholds hheld hsame)
    · rw [senderHeld, List.any_eq_false] at hfree
      exact hfree d (mem_others hd hj) (by simp [hdholds, hsame])
  intro j k d e hd he hdholds heholds hsame
  rw [getElem?_setCall hi] at hd he
  by_cases hij : i = j
  · by_cases hik : i = k
    · exact hij.symm.trans hik
    · rw [if_pos hij] at hd
      rw [if_neg hik] at he
      obtain rfl := Option.some.inj hd
      exact absurd hsame.symm (hother k e (Ne.symm hik) he heholds hdholds)
  · rw [if_neg hij] at hd
    by_cases hik : i = k
    · rw [if_pos hik] at he
      obtain rfl := Option.some.inj he
      exact absurd hsame (hother j d (Ne.symm hij) hd hdholds heholds)
    · rw [if_neg hik] at he
      exact hinv j k d e hd he hdholds heholds hsame

theorem lockInv_step (h : step event s = some t) (hinv : LockInv s) : LockInv t := by
  cases stepCase_of_step h with
  | call input batchId newId =>
      intro i j c d hc hd hcholds hdholds hsame
      -- A new call holds no lock.
      have hold : ∀ {k : Nat} {e : CreationCall}, (s.calls ++
          [⟨input, batchId, newId, none, .checking⟩])[k]? = some e →
            e.stage.holdsSender = true → s.calls[k]? = some e := by
        intro k e he hholds
        rw [List.getElem?_append] at he
        split at he
        · exact he
        · rw [List.mem_singleton.1 (List.mem_of_getElem? he)] at hholds
          cases hholds
      exact hinv i j c d (hold hc hcholds) (hold hd hdholds) hcholds hdholds hsame
  | moved hc hmove => exact lockInv_setCall hinv hc rfl hmove.of_holdsSender
  | began hc hstage =>
      refine lockInv_setCall hinv hc rfl ?_
      intro hholds
      have hnone : ∀ found, (afterSender found).holdsSender = false := by
        intro found
        cases found <;> rfl
      rw [hnone] at hholds
      cases hholds
  | committed hc hstage =>
      exact lockInv_setCall (s := s) hinv hc rfl (by intro hholds; cases hholds)

/-! ## Races -/

/-- The emails of a database are as `createEmailBatch` makes them. -/
def RowsMade (db : Database) : Prop :=
  ∀ e ∈ db.emails, e.bullJobId = createBullJobId e.id ∧
    e.idempotencyKey = createRecipientIdempotencyKey e.batchId e.normalizedRecipientEmail

/-- A step of a race: calls have one user, key and sender, at least one recipient, distinct
recipients, as the parser returns them, and ids that were not drawn before; and no operation fails
by itself. -/
def Duplicates (userId : Uuid) (idempotencyKey : String) (senderId : Uuid) :
    Creation → CreationEvent → Prop
  | s, .call input batchId newId =>
      (input.userId = userId ∧ input.idempotencyKey = idempotencyKey ∧
          input.senderId = senderId) ∧
        input.parsedLeads.leads ≠ [] ∧
        (input.parsedLeads.leads.map ParsedLead.normalizedEmail).Nodup ∧
        (∀ b ∈ s.database.batches, b.id ≠ batchId) ∧
        PrimaryKey ScheduledEmail.id (emailRows input batchId newId) ∧
        ∀ row ∈ emailRows input batchId newId, ∀ e ∈ s.database.emails, e.id ≠ row.id
  | _, .advance _ => True
  | _, .fail _ _ => False
  | _, .crash _ => False

instance (userId : Uuid) (idempotencyKey : String) (senderId : Uuid) (s : Creation)
    (event : CreationEvent) : Decidable (Duplicates userId idempotencyKey senderId s event) := by
  cases event <;> unfold Duplicates <;> infer_instance

/-- A call of a race: what its rows meet in the database before the race. -/
structure Racer (base : Database) (userId : Uuid) (idempotencyKey : String) (senderId : Uuid)
    (c : CreationCall) : Prop where
  userId : c.input.userId = userId
  idempotencyKey : c.input.idempotencyKey = idempotencyKey
  senderId : c.input.senderId = senderId
  leads : c.input.parsedLeads.leads ≠ []
  batchId : ∀ b ∈ base.batches, b.id ≠ c.batchId
  rows : Compatible emailConflict (base.emails ++ c.rows)

theorem map_normalized_rows (c : CreationCall) :
    c.rows.map ScheduledEmail.normalizedRecipientEmail =
      c.input.parsedLeads.leads.map ParsedLead.normalizedEmail := by
  apply List.ext_getElem
  · simp [CreationCall.rows, emailRows]
  · intro n _ _
    simp [CreationCall.rows, emailRows, emailRow]

theorem made_of_mem_rows {row : ScheduledEmail} (h : row ∈ c.rows) :
    row.bullJobId = createBullJobId row.id ∧
      row.idempotencyKey =
        createRecipientIdempotencyKey c.batchId row.normalizedRecipientEmail := by
  obtain ⟨n, hn, rfl⟩ := List.mem_mapIdx.1 h
  exact ⟨rfl, rfl⟩

/-- Rows with distinct ids and recipients fit each other. -/
theorem compatible_rows (hids : PrimaryKey ScheduledEmail.id c.rows)
    (hrecipients : (c.input.parsedLeads.leads.map ParsedLead.normalizedEmail).Nodup) :
    Compatible emailConflict c.rows := by
  rw [← map_normalized_rows] at hrecipients
  have hdistinct := (List.pairwise_map.1 hids).and (List.pairwise_map.1 hrecipients)
  refine hdistinct.imp_of_mem fun {a b} ha hb ⟨hid, hrecipient⟩ => ?_
  obtain ⟨hajob, hakey⟩ := made_of_mem_rows ha
  obtain ⟨hbjob, hbkey⟩ := made_of_mem_rows hb
  have hjob : a.bullJobId ≠ b.bullJobId := by
    rw [hajob, hbjob]
    exact fun heq => hid (createBullJobId_injective heq)
  have hkey : a.idempotencyKey ≠ b.idempotencyKey := by
    rw [hakey, hbkey]
    exact fun heq => hrecipient (congrArg RecipientKey.normalizedRecipientEmail heq)
  simp [emailConflict, hid, hjob, hkey, hrecipient]

/-- Rows with new ids fit the rows that are stored. -/
theorem racer_of_fresh (hconstraints : Constraints base) (hmade : RowsMade base)
    {userId : Uuid} {idempotencyKey : String} {senderId : Uuid}
    (hinput : c.input.userId = userId ∧ c.input.idempotencyKey = idempotencyKey ∧
      c.input.senderId = senderId)
    (hleads : c.input.parsedLeads.leads ≠ [])
    (hrecipients : (c.input.parsedLeads.leads.map ParsedLead.normalizedEmail).Nodup)
    (hbatch : ∀ b ∈ base.batches, b.id ≠ c.batchId)
    (hids : PrimaryKey ScheduledEmail.id c.rows)
    (hfresh : ∀ row ∈ c.rows, ∀ e ∈ base.emails, e.id ≠ row.id) :
    Racer base userId idempotencyKey senderId c := by
  refine ⟨hinput.1, hinput.2.1, hinput.2.2, hleads, hbatch, ?_⟩
  refine List.pairwise_append.2 ⟨hconstraints.emails, compatible_rows hids hrecipients, ?_⟩
  intro e he row hrow
  obtain ⟨hejob, hekey⟩ := hmade e he
  obtain ⟨hjob, hkey⟩ := made_of_mem_rows hrow
  -- Ids and batch ids are new, and the other unique columns are made of them.
  have hid := hfresh row hrow e he
  have hbatchId : e.batchId ≠ c.batchId := by
    obtain ⟨b, hb, hbid⟩ := hconstraints.batch_of_email e he
    rw [← hbid]
    exact hbatch b hb
  have hjobs : e.bullJobId ≠ row.bullJobId := by
    rw [hejob, hjob]
    exact fun heq => hid (createBullJobId_injective heq)
  have hkeys : e.idempotencyKey ≠ row.idempotencyKey := by
    rw [hekey, hkey]
    exact fun heq => hbatchId (congrArg RecipientKey.batchId heq)
  simp [emailConflict, hid, hjobs, hkeys, batchId_of_mem_rows hrow, hbatchId]

/-- The batch of a user and a key was there before the race. -/
def HasBatch (db : Database) (userId : Uuid) (idempotencyKey : String) : Prop :=
  ∃ b ∈ db.batches, b.userId = userId ∧ b.idempotencyKey = idempotencyKey

/-- What the snapshot of a call shows at each stage, after `commits` commits; `known` says that the
batch was there before the race. A call that holds the sender sees every commit; a call that is
replayed after a conflict sees the batch; a call that threw does not see the last commit. -/
def Expected (known : Prop) (commits : Nat) (c : CreationCall) : Prop :=
  match c.stage with
  | .checking => c.snapshot = none
  | .beginning => c.snapshot = none
  | .updatingSender => c.snapshot ≠ none
  | .creatingBatch => c.snapshot = some commits
  | .insertingEmails _ => c.snapshot = some commits
  | .committing => c.snapshot = some commits
  | .rereading _ => known ∨ ∃ n, c.snapshot = some n ∧ 1 ≤ n
  | .returned r => r.replayed = true → known ∨ ∀ n, c.snapshot = some n → 1 ≤ n
  | .threw _ => ∃ n, c.snapshot = some n ∧ n < commits
  | .crashed => False

/-- The invariant of a race. -/
structure RaceInv (base : Database) (userId : Uuid) (idempotencyKey : String) (senderId : Uuid)
    (s : Creation) : Prop where
  racers : ∀ c ∈ s.calls, Racer base userId idempotencyKey senderId c
  sender : (findActiveSender s.database senderId userId).isSome = true
  emails : ∀ e ∈ base.emails, e ∈ s.database.emails
  snapshot_le : ∀ c ∈ s.calls, ∀ n, c.snapshot = some n → n ≤ s.commits.length
  expected : ∀ c ∈ s.calls, Expected (HasBatch base userId idempotencyKey) s.commits.length c

section Race

variable {userId : Uuid} {idempotencyKey : String} {senderId : Uuid}

/-- A committed batch of a race was there before, or is that of a committed call. -/
theorem mem_batches (hcommit : CommitInv base s) {b : EmailBatch} (hb : b ∈ s.database.batches) :
    b ∈ base.batches ∨ ∃ j ∈ s.commits, ∃ d, s.calls[j]? = some d ∧ d.batch = b := by
  rw [batches_of_serial hcommit.serial, List.mem_append, List.mem_filterMap] at hb
  rcases hb with hold | ⟨j, hj, hbatch⟩
  · exact Or.inl hold
  · obtain ⟨d, hd, heq⟩ := Option.map_eq_some_iff.1 hbatch
    exact Or.inr ⟨j, hj, d, hd, heq⟩

theorem mem_batches_of_base (hcommit : CommitInv base s) {b : EmailBatch}
    (hb : b ∈ base.batches) : b ∈ s.database.batches := by
  rw [batches_of_serial hcommit.serial]
  exact List.mem_append_left _ hb

/-- After a commit the batch of the race is stored. -/
theorem stored_of_commit (hcommit : CommitInv base s)
    (hrace : RaceInv base userId idempotencyKey senderId s) (hj : j ∈ s.commits) :
    HasBatch s.database userId idempotencyKey := by
  obtain ⟨d, hd, hstage⟩ := (hcommit.committed j).1 hj
  have hmem := List.mem_of_getElem? hd
  obtain ⟨hstored, huser, hkey⟩ := hcommit.stored d hmem _ hstage
  have hracer := hrace.racers d hmem
  exact ⟨d.batch, hstored, huser.trans hracer.userId, hkey.trans hracer.idempotencyKey⟩

/-- A batch of the race does not fit another one. -/
theorem Racer.batchConflict {c : CreationCall} (h : Racer base userId idempotencyKey senderId c)
    {b : EmailBatch} (huser : b.userId = userId) (hkey : b.idempotencyKey = idempotencyKey) :
    batchConflict b c.batch = true :=
  batchConflict_iff.2 (Or.inr ⟨huser.trans h.userId.symm, hkey.trans h.idempotencyKey.symm⟩)

/-- While a call has its batch inserted and not committed, no batch of the race is stored. -/
theorem not_stored_of_hasBatch (htables : TableInv s)
    (hrace : RaceInv base userId idempotencyKey senderId s) (hc : s.calls[i]? = some c)
    (hbatches : c.insertedBatches = [c.batch]) : ¬ HasBatch s.database userId idempotencyKey := by
  rintro ⟨b, hb, huser, hkey⟩
  have hracer := hrace.racers c (List.mem_of_getElem? hc)
  have hcompatible := htables.batches.committed_append batchConflict_comm hc
  rw [hbatches] at hcompatible
  have hfits := (List.pairwise_append.1 hcompatible).2.2 b hb c.batch (List.mem_singleton_self _)
  rw [hracer.batchConflict huser hkey] at hfits
  cases hfits

/-- Then there was no commit, and the database is the one before the race. -/
theorem database_eq_base (htables : TableInv s) (hcommit : CommitInv base s)
    (hrace : RaceInv base userId idempotencyKey senderId s) (hc : s.calls[i]? = some c)
    (hbatches : c.insertedBatches = [c.batch]) : s.database = base := by
  have hnone : s.commits = [] := by
    rw [List.eq_nil_iff_forall_not_mem]
    intro j hj
    exact not_stored_of_hasBatch htables hrace hc hbatches (stored_of_commit hcommit hrace hj)
  have hserial := hcommit.serial
  rw [hnone] at hserial
  cases hserial
  rfl

/-- The next chunk of a racing call is always inserted. -/
theorem createMany_of_racer {n : Nat} {chunk : List ScheduledEmail}
    (hracer : Racer base userId idempotencyKey senderId c)
    (hstage : c.stage = .insertingEmails n) (hchunk : c.chunkList[n]? = some chunk) :
    ∃ db, createMany { base with emails := base.emails ++ c.insertedEmails } chunk = .ok db := by
  have htaken : c.insertedEmails ++ chunk = (c.chunkList.take (n + 1)).flatten := by
    rw [CreationCall.insertedEmails_insertingEmails hstage, List.take_add_one, hchunk]
    simp
  have hsublist : (c.insertedEmails ++ chunk).Sublist c.rows := by
    have hrows : c.rows = c.chunkList.flatten := (flatten_chunks c.rows (by decide)).symm
    rw [htaken, hrows]
    nth_rewrite 2 [← List.take_append_drop (n + 1) c.chunkList]
    rw [List.flatten_append]
    exact List.sublist_append_left _ _
  refine ⟨_, foldlM_insertEmail_of_compatible ?_⟩
  show Compatible emailConflict (base.emails ++ c.insertedEmails ++ chunk)
  rw [List.append_assoc]
  exact hracer.rows.sublist (hsublist.append_left _)

/-! ## What a move shows -/

theorem hasBatch_of_known (hcommit : CommitInv base s)
    (hknown : HasBatch base userId idempotencyKey) :
    HasBatch s.database userId idempotencyKey := by
  obtain ⟨b, hb, hkey⟩ := hknown
  exact ⟨b, mem_batches_of_base hcommit hb, hkey⟩

/-- A batch that is refused was there before the race, or there was a commit. -/
theorem known_or_committed_of_refused (hcommit : CommitInv base s)
    (hracer : Racer base userId idempotencyKey senderId c) {e : CreateBatchError}
    (h : insertBatch s.database c.batch = .error e) :
    e = uniqueViolation ∧ (HasBatch base userId idempotencyKey ∨ 1 ≤ s.commits.length) := by
  unfold insertBatch at h
  split at h
  next hconflict =>
    cases h
    refine ⟨rfl, ?_⟩
    obtain ⟨b, hb, hb'⟩ := List.any_eq_true.1 hconflict
    rcases mem_batches hcommit hb with hold | ⟨j, hj, -⟩
    · -- The id of the batch is new, so the conflict is on the user and the key.
      have hid : c.batchId ≠ b.id := Ne.symm (hracer.batchId b hold)
      obtain ⟨huser, hkey⟩ := (batchConflict_iff.1 hb').resolve_left hid
      exact Or.inl ⟨b, hold, huser.symm.trans hracer.userId, hkey.symm.trans hracer.idempotencyKey⟩
    · exact Or.inr (List.length_pos_of_mem hj)
  next => cases h

/-- The batch of a user and a key that is stored is found. -/
theorem find_of_hasBatch {db : Database} (h : HasBatch db userId idempotencyKey) :
    ∃ b, findExistingBatch db userId idempotencyKey = some b := by
  obtain ⟨b, hb, hkey⟩ := h
  cases hfind : findExistingBatch db userId idempotencyKey with
  | none => exact absurd hkey (findExistingBatch_eq_none_iff.1 hfind b hb)
  | some found => exact ⟨found, rfl⟩

/-- A commit after the snapshot of a racing call wrote its sender. -/
theorem senderWrittenSince_of_commit (hcommit : CommitInv base s)
    (hrace : RaceInv base userId idempotencyKey senderId s)
    (hracer : Racer base userId idempotencyKey senderId c) {n : Nat} (hn : c.snapshot = some n)
    (hlt : n < s.commits.length) : s.senderWrittenSince c = true := by
  have hmem : s.commits[n] ∈ s.commits.drop n :=
    List.mem_iff_getElem?.2 ⟨0, by simp [hlt]⟩
  obtain ⟨d, hd, -⟩ := (hcommit.committed s.commits[n]).1 (List.mem_of_mem_drop hmem)
  have hsame : d.input.senderId = c.input.senderId :=
    (hrace.racers d (List.mem_of_getElem? hd)).senderId.trans hracer.senderId.symm
  rw [senderWrittenSince, hn]
  refine List.any_eq_true.2 ⟨_, hmem, ?_⟩
  rw [hd]
  exact decide_eq_true hsame

/-- After a move the snapshot of the call shows what is expected at its new stage. -/
theorem Move.expected (h : Move s i c (.advance i) stage) (hc : s.calls[i]? = some c)
    (htables : TableInv s) (hcommit : CommitInv base s)
    (hrace : RaceInv base userId idempotencyKey senderId s) :
    Expected (HasBatch base userId idempotencyKey) s.commits.length (c.moveTo stage) := by
  have hmem : c ∈ s.calls := List.mem_of_getElem? hc
  have hracer := hrace.racers c hmem
  have hexpected := hrace.expected c hmem
  have hle := hrace.snapshot_le c hmem
  unfold Expected at hexpected
  cases h with
  | checked hstage =>
      rw [hstage] at hexpected
      cases findExistingBatch s.database c.input.userId c.input.idempotencyKey with
      | some existing =>
          intro _
          refine Or.inr ?_
          intro n hn
          cases hexpected.symm.trans hn
      | none =>
          have hleads : c.input.parsedLeads.leads.length ≠ 0 :=
            fun hnil => hracer.leads (List.length_eq_zero_iff.1 hnil)
          rw [afterCheck, if_neg hleads]
          exact hexpected
  | conflicted hstage hwritten =>
      obtain ⟨n, hn, hany⟩ := (Option.any_eq_true _ _).1 hwritten
      obtain ⟨j, hj, -⟩ := List.any_eq_true.1 hany
      have hlt : n < s.commits.length := by
        have hpos := List.length_pos_of_mem hj
        rw [List.length_drop] at hpos
        omega
      rw [afterTransactionError, if_neg (by decide)]
      exact ⟨n, hn, hlt⟩
  | locked hstage hwritten _ =>
      rw [hstage] at hexpected
      obtain ⟨n, hn⟩ := Option.ne_none_iff_exists'.1 hexpected
      -- A snapshot older than a commit would have been noticed.
      have hge : s.commits.length ≤ n := by
        by_contra hlt
        rw [senderWrittenSince_of_commit hcommit hrace hracer hn (Nat.lt_of_not_le hlt)] at hwritten
        cases hwritten
      have heq : n = s.commits.length := Nat.le_antisymm (hle n hn) hge
      rw [heq] at hn
      exact hn
  | batchRefused hstage hrefused =>
      rw [hstage] at hexpected
      obtain ⟨rfl, hknown⟩ := known_or_committed_of_refused hcommit hracer hrefused
      rcases hknown with hknown | hpos
      · exact Or.inl hknown
      · exact Or.inr ⟨_, hexpected, hpos⟩
  | batchInserted hstage _ _ =>
      rw [hstage] at hexpected
      exact hexpected
  | chunksDone hstage _ =>
      rw [hstage] at hexpected
      exact hexpected
  | chunkRefused hstage hchunk hrefused =>
      -- The rows fit the database before the race, which is still the database.
      have hbase := database_eq_base htables hcommit hrace hc
        (CreationCall.insertedBatches_insertingEmails hstage)
      obtain ⟨db, hok⟩ := createMany_of_racer hracer hstage hchunk
      rw [hbase, hok] at hrefused
      cases hrefused
  | chunkInserted hstage _ _ _ =>
      rw [hstage] at hexpected
      exact hexpected
  | reread hstage =>
      rw [hstage] at hexpected
      have hstored : HasBatch s.database userId idempotencyKey := by
        rcases hexpected with hknown | ⟨n, hn, hpos⟩
        · exact hasBatch_of_known hcommit hknown
        · obtain ⟨j, hj⟩ := List.exists_mem_of_length_pos (Nat.le_trans hpos (hle n hn))
          exact stored_of_commit hcommit hrace hj
      obtain ⟨b, hfound⟩ := find_of_hasBatch hstored
      rw [hracer.userId, hracer.idempotencyKey, hfound]
      intro _
      rcases hexpected with hknown | ⟨n, hn, hpos⟩
      · exact Or.inl hknown
      · refine Or.inr ?_
        intro m hm
        obtain rfl := Option.some.inj (hn.symm.trans hm)
        exact hpos

/-! ## The invariant holds -/

/-- Only the parameters of a call matter for what its rows meet. -/
theorem Racer.of_parameters {c' : CreationCall} (h : c'.parameters = c.parameters)
    (hracer : Racer base userId idempotencyKey senderId c) :
    Racer base userId idempotencyKey senderId c' := by
  obtain ⟨hinput, hids⟩ := Prod.mk.inj h
  obtain ⟨hbatchId, hnewId⟩ := Prod.mk.inj hids
  have hrows : c'.rows = c.rows := by
    rw [CreationCall.rows, hinput, hbatchId, hnewId]
    rfl
  constructor
  · rw [hinput]
    exact hracer.userId
  · rw [hinput]
    exact hracer.idempotencyKey
  · rw [hinput]
    exact hracer.senderId
  · rw [hinput]
    exact hracer.leads
  · rw [hbatchId]
    exact hracer.batchId
  · rw [hrows]
    exact hracer.rows

/-- A commit of another call changes nothing for a call that does not hold the sender. -/
theorem Expected.succ {known : Prop} {commits : Nat} (hfree : c.stage.holdsSender = false)
    (h : Expected known commits c) : Expected known (commits + 1) c := by
  unfold Expected at h ⊢
  cases hstage : c.stage with
  | checking => rw [hstage] at h; exact h
  | beginning => rw [hstage] at h; exact h
  | updatingSender => rw [hstage] at h; exact h
  | creatingBatch => rw [hstage] at hfree; cases hfree
  | insertingEmails n => rw [hstage] at hfree; cases hfree
  | committing => rw [hstage] at hfree; cases hfree
  | rereading error => rw [hstage] at h; exact h
  | returned r => rw [hstage] at h; exact h
  | threw error =>
      rw [hstage] at h
      obtain ⟨n, hn, hlt⟩ := h
      exact ⟨n, hn, Nat.lt_succ_of_lt hlt⟩
  | crashed => rw [hstage] at h; exact h

theorem raceInv_init (h : system.init s)
    (hsender : (findActiveSender s.database senderId userId).isSome = true) :
    RaceInv s.database userId idempotencyKey senderId s := by
  obtain ⟨-, -, hcalls⟩ := h
  have hnone : ∀ c, c ∉ s.calls := by
    rw [hcalls]
    exact fun _ => List.not_mem_nil
  exact ⟨fun c hc => absurd hc (hnone c), hsender, fun _ he => he,
    fun c hc => absurd hc (hnone c), fun c hc => absurd hc (hnone c)⟩

/-- A call that goes on without writing keeps the invariant, if its snapshot shows what is
expected. -/
theorem raceInv_setCall (hrace : RaceInv base userId idempotencyKey senderId s)
    (hc : s.calls[i]? = some c) {c' : CreationCall} (hparameters : c'.parameters = c.parameters)
    (hle : ∀ n, c'.snapshot = some n → n ≤ s.commits.length)
    (hexpected : Expected (HasBatch base userId idempotencyKey) s.commits.length c') :
    RaceInv base userId idempotencyKey senderId (s.setCall i c') := by
  refine ⟨?_, hrace.sender, hrace.emails, ?_, ?_⟩
  · intro d hd
    rcases mem_setCall hd with rfl | hold
    · exact (hrace.racers c (List.mem_of_getElem? hc)).of_parameters hparameters
    · exact hrace.racers d hold
  · intro d hd
    rcases mem_setCall hd with rfl | hold
    · exact hle
    · exact hrace.snapshot_le d hold
  · intro d hd
    rcases mem_setCall hd with rfl | hold
    · exact hexpected
    · exact hrace.expected d hold

/-- While a call holds the sender of the race, no other call does. -/
theorem free_of_holdsSender (hlock : LockInv s)
    (hrace : RaceInv base userId idempotencyKey senderId s) (hc : s.calls[i]? = some c)
    (hholds : c.stage.holdsSender = true) (hd : s.calls[j]? = some d) (hj : j ≠ i) :
    d.stage.holdsSender = false := by
  rw [Bool.eq_false_iff]
  intro hdholds
  have hsame : d.input.senderId = c.input.senderId :=
    (hrace.racers d (List.mem_of_getElem? hd)).senderId.trans
      (hrace.racers c (List.mem_of_getElem? hc)).senderId.symm
  exact hj (hlock j i d c hd hc hdholds hholds hsame)

theorem raceInv_commit (hlock : LockInv s)
    (hrace : RaceInv base userId idempotencyKey senderId s) (hc : s.calls[i]? = some c)
    (hstage : c.stage = .committing) :
    RaceInv base userId idempotencyKey senderId (s.commit i c) := by
  have hi : i < s.calls.length := (List.getElem?_eq_some_iff.1 hc).1
  have hlength : (s.commit i c).commits.length = s.commits.length + 1 := by
    simp [commit]
  -- A call of the next state is the committed one, or another one, which does not hold the sender.
  have hcases : ∀ d ∈ (s.commit i c).calls, d = c.moveTo (.returned ⟨c.batch, false⟩) ∨
      d ∈ s.calls ∧ d.stage.holdsSender = false := by
    intro d hd
    obtain ⟨j, hj⟩ := List.mem_iff_getElem?.1 hd
    have hget := (getElem?_setCall (j := j) hi
      (c.moveTo (.returned ⟨c.batch, false⟩))).symm.trans hj
    split at hget
    next => exact Or.inl (Option.some.inj hget).symm
    next hij =>
      exact Or.inr ⟨List.mem_of_getElem? hget,
        free_of_holdsSender hlock hrace hc (by rw [hstage]; rfl) hget (Ne.symm hij)⟩
  refine ⟨?_, ?_, ?_, ?_, ?_⟩
  · intro d hd
    rcases hcases d hd with rfl | ⟨hold, -⟩
    · exact Racer.of_parameters (c := c) rfl (hrace.racers c (List.mem_of_getElem? hc))
    · exact hrace.racers d hold
  · exact (findActiveSender_updateSenderPolicy s.database _ _ _ _).trans hrace.sender
  · intro e he
    exact List.mem_append_left _ (hrace.emails e he)
  · intro d hd n hn
    rw [hlength]
    rcases hcases d hd with rfl | ⟨hold, -⟩
    · exact Nat.le_succ_of_le (hrace.snapshot_le c (List.mem_of_getElem? hc) n hn)
    · exact Nat.le_succ_of_le (hrace.snapshot_le d hold n hn)
  · intro d hd
    rw [hlength]
    rcases hcases d hd with rfl | ⟨hold, hfree⟩
    · intro hreplayed
      cases hreplayed
    · exact (hrace.expected d hold).succ hfree

theorem raceInv_step (hconstraints : Constraints base) (hmade : RowsMade base)
    (hallowed : Duplicates userId idempotencyKey senderId s event) (h : step event s = some t)
    (htables : TableInv s) (hcommit : CommitInv base s) (hlock : LockInv s)
    (hrace : RaceInv base userId idempotencyKey senderId s) :
    RaceInv base userId idempotencyKey senderId t := by
  cases stepCase_of_step h with
  | call input batchId newId =>
      obtain ⟨hinput, hleads, hrecipients, hbatch, hids, hfresh⟩ := hallowed
      have hracer : Racer base userId idempotencyKey senderId
          ⟨input, batchId, newId, none, .checking⟩ :=
        racer_of_fresh hconstraints hmade hinput hleads hrecipients
          (fun b hb => hbatch b (mem_batches_of_base hcommit hb)) hids
          (fun row hrow e he => hfresh row hrow e (hrace.emails e he))
      refine ⟨?_, hrace.sender, hrace.emails, ?_, ?_⟩
      · intro d hd
        rcases List.mem_append.1 hd with hold | hnew
        · exact hrace.racers d hold
        · rw [List.mem_singleton.1 hnew]
          exact hracer
      · intro d hd n hn
        rcases List.mem_append.1 hd with hold | hnew
        · exact hrace.snapshot_le d hold n hn
        · rw [List.mem_singleton.1 hnew] at hn
          cases hn
      · intro d hd
        rcases List.mem_append.1 hd with hold | hnew
        · exact hrace.expected d hold
        · rw [List.mem_singleton.1 hnew]
          exact rfl
  | @moved _ i c stage hc hmove =>
      refine raceInv_setCall hrace hc rfl (hrace.snapshot_le c (List.mem_of_getElem? hc)) ?_
      -- The operations of a race do not fail by themselves.
      cases event with
      | call input batchId newId => cases hmove
      | advance k =>
          obtain rfl : k = i := by cases hmove <;> rfl
          exact hmove.expected hc htables hcommit hrace
      | fail k error => cases hallowed
      | crash k => cases hallowed
  | @began i c hc hstage =>
      have hracer := hrace.racers c (List.mem_of_getElem? hc)
      refine raceInv_setCall hrace hc rfl ?_ ?_
      · intro n hn
        exact Nat.le_of_eq (Option.some.inj hn).symm
      · have hsender := hrace.sender
        rw [← hracer.senderId, ← hracer.userId] at hsender
        obtain ⟨sender, hfound⟩ := Option.isSome_iff_exists.1 hsender
        rw [hfound]
        exact Option.some_ne_none _
  | committed hc hstage => exact raceInv_commit hlock hrace hc hstage

/-- All invariants of a race together. -/
structure RaceState (base : Database) (userId : Uuid) (idempotencyKey : String) (senderId : Uuid)
    (s : Creation) : Prop where
  tables : TableInv s
  commits : CommitInv base s
  lock : LockInv s
  race : RaceInv base userId idempotencyKey senderId s

theorem raceState_of_steps {s₀ : Creation} (h₀ : system.init s₀) (hmade : RowsMade s₀.database)
    (hsender : (findActiveSender s₀.database senderId userId).isSome = true)
    (h : system.Steps (Duplicates userId idempotencyKey senderId) s₀ s) :
    RaceState s₀.database userId idempotencyKey senderId s := by
  refine h.invariant (I := RaceState s₀.database userId idempotencyKey senderId)
    ⟨tableInv_init h₀, commitInv_init h₀, ?_, raceInv_init h₀ hsender⟩ ?_
  · intro i j c d hc
    rw [h₀.2.2] at hc
    cases hc
  · rintro s event t hallowed hstep ⟨htables, hcommits, hlock, hrace⟩
    constructor
    · exact tableInv_step hstep htables
    · exact commitInv_step hstep htables hcommits
    · exact lockInv_step hstep hlock
    · exact raceInv_step h₀.1 hmade hallowed hstep htables hcommits hlock hrace

end Race

end Creation

end EmailScheduler
