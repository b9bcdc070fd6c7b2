import EmailScheduler.Scheduling.CreationTables

/-!
# Idempotency of batch creation

However calls of `createEmailBatch` interleave, the database is what the committed transactions
write one after the other, in the order of their commits (`CommitInv.serial`). A call commits if and
only if it returns `replayed: false`, and a unique index lets at most one call commit for a user and
a key, so every other call with them returns the batch of that call or throws, and writes nothing.
-/

set_option autoImplicit false

namespace EmailScheduler

open Foundation

theorem findExistingBatch_eq_some {db : Database} {userId : Uuid} {idempotencyKey : String}
    {b : EmailBatch} (h : findExistingBatch db userId idempotencyKey = some b) :
    b ∈ db.batches ∧ b.userId = userId ∧ b.idempotencyKey = idempotencyKey := by
  have hfound := List.find?_some h
  simp only [Bool.and_eq_true, decide_eq_true_eq] at hfound
  exact ⟨List.mem_of_find?_eq_some h, hfound⟩

/-- The batch of a user and a key is found. -/
theorem findExistingBatch_of_mem {db : Database} (h : Compatible batchConflict db.batches)
    {b : EmailBatch} (hb : b ∈ db.batches) :
    findExistingBatch db b.userId b.idempotencyKey = some b := by
  cases hfind : findExistingBatch db b.userId b.idempotencyKey with
  | none => exact absurd ⟨rfl, rfl⟩ (findExistingBatch_eq_none_iff.1 hfind b hb)
  | some a =>
      obtain ⟨ha, huser, hkey⟩ := findExistingBatch_eq_some hfind
      rw [h.eq_of_conflict batchConflict_comm ha hb (batchConflict_iff.2 (Or.inr ⟨huser, hkey⟩))]

/-- What a transaction depends on. -/
def CreationCall.parameters (c : CreationCall) : CreateBatchInput × Uuid × (Nat → Uuid) :=
  (c.input, c.batchId, c.newId)

/-- The call was made for a user and an idempotency key. -/
def CreationCall.carries (c : CreationCall) (userId : Uuid) (idempotencyKey : String) : Bool :=
  decide (c.input.userId = userId) && decide (c.input.idempotencyKey = idempotencyKey)

namespace Creation

/-! ## Committed transactions, one after the other -/

/-- The transaction of the call at a position, run without interruption. -/
def runCall (calls : List CreationCall) (db : Database) (i : Nat) :
    Except CreateBatchError Database :=
  match calls[i]? with
  | some c => (createBatchTransaction db c.input c.batchId c.newId).map Prod.snd
  | none => .ok db

/-- The transactions of some calls, one after the other. -/
def serial (calls : List CreationCall) (commits : List Nat) (db : Database) :
    Except CreateBatchError Database :=
  commits.foldlM (runCall calls) db

theorem runCall_congr {calls calls' : List CreationCall} {i : Nat}
    (h : calls'[i]?.map CreationCall.parameters = calls[i]?.map CreationCall.parameters)
    (db : Database) : runCall calls' db i = runCall calls db i := by
  unfold runCall
  cases hc : calls[i]? with
  | none =>
      rw [hc, Option.map_none, Option.map_eq_none_iff] at h
      rw [h]
  | some c =>
      rw [hc, Option.map_some] at h
      obtain ⟨c', hc', heq⟩ := Option.map_eq_some_iff.1 h
      obtain ⟨hinput, hids⟩ := Prod.mk.inj heq
      obtain ⟨hbatchId, hnewId⟩ := Prod.mk.inj hids
      rw [hc']
      simp only [hinput, hbatchId, hnewId]

/-- Only the parameters of the calls matter. -/
theorem serial_congr {calls calls' : List CreationCall} {commits : List Nat}
    (h : ∀ i ∈ commits,
      calls'[i]?.map CreationCall.parameters = calls[i]?.map CreationCall.parameters)
    (db : Database) : serial calls' commits db = serial calls commits db := by
  unfold serial
  induction commits generalizing db with
  | nil => rfl
  | cons i commits ih =>
      rw [List.foldlM_cons, List.foldlM_cons, runCall_congr (h i List.mem_cons_self)]
      apply congrArg
      funext db'
      exact ih (fun j hj => h j (List.mem_cons_of_mem i hj)) db'

theorem serial_append {calls : List CreationCall} {commits : List Nat} {i : Nat}
    {db db' db'' : Database} (h : serial calls commits db = .ok db')
    (hi : runCall calls db' i = .ok db'') : serial calls (commits ++ [i]) db = .ok db'' := by
  unfold serial at h ⊢
  rw [List.foldlM_append, h]
  show runCall calls db' i >>= _ = _
  rw [hi]
  rfl

/-- The batches afterwards. -/
theorem batches_of_serial {calls : List CreationCall} {commits : List Nat} {db db' : Database}
    (h : serial calls commits db = .ok db') :
    db'.batches = db.batches ++ commits.filterMap fun i => calls[i]?.map CreationCall.batch := by
  unfold serial at h
  induction commits generalizing db with
  | nil =>
      cases h
      rw [List.filterMap_nil, List.append_nil]
  | cons i commits ih =>
      rw [List.foldlM_cons] at h
      cases hrun : runCall calls db i with
      | error e =>
          rw [hrun] at h
          cases h
      | ok db₁ =>
          -- The first call appends its batch, and the others theirs after it.
          rw [hrun] at h
          rw [ih h]
          unfold runCall at hrun
          split at hrun
          next c hc =>
            cases htransaction : createBatchTransaction db c.input c.batchId c.newId with
            | error e =>
                rw [htransaction] at hrun
                cases hrun
            | ok result =>
                rw [htransaction] at hrun
                cases hrun
                obtain ⟨-, hbatch, -, -, -, hdb⟩ := createBatchTransaction_eq_ok htransaction
                rw [hdb, hbatch, List.filterMap_cons, hc, List.append_assoc]
                rfl
          next hnone =>
            cases hrun
            rw [List.filterMap_cons, hnone]
            rfl

/-! ## The invariant -/

variable {base : Database} {s t : Creation} {i : Nat} {c : CreationCall} {event : CreationEvent}
  {stage : CreationStage}

/-- The database is what the committed transactions write, in their order; the committed calls are
those that returned their own batch as new, and a returned batch is the one stored for the key. -/
structure CommitInv (base : Database) (s : Creation) : Prop where
  serial : serial s.calls s.commits base = .ok s.database
  committed : ∀ i, i ∈ s.commits ↔
    ∃ c, s.calls[i]? = some c ∧ c.stage = .returned ⟨c.batch, false⟩
  fresh : ∀ c ∈ s.calls, ∀ b, c.stage = .returned ⟨b, false⟩ → b = c.batch
  stored : ∀ c ∈ s.calls, ∀ r, c.stage = .returned r → r.batch ∈ s.database.batches ∧
    r.batch.userId = c.input.userId ∧ r.batch.idempotencyKey = c.input.idempotencyKey
  rows : ∀ c ∈ s.calls, ∀ b, c.stage = .returned ⟨b, false⟩ →
    s.database.emailsOf c.batchId = c.rows

theorem commitInv_init (h : system.init s) : CommitInv s.database s := by
  obtain ⟨-, hcommits, hcalls⟩ := h
  constructor
  · rw [hcommits]
    rfl
  · intro i
    rw [hcommits, hcalls]
    simp
  · intro c hc
    rw [hcalls] at hc
    cases hc
  · intro c hc
    rw [hcalls] at hc
    cases hc
  · intro c hc
    rw [hcalls] at hc
    cases hc

theorem commitInv_call (hinv : CommitInv base s) (c : CreationCall) (hstage : c.stage = .checking) :
    CommitInv base { s with calls := s.calls ++ [c] } := by
  have hold : ∀ i ∈ s.commits, i < s.calls.length := by
    intro i hi
    obtain ⟨d, hd, -⟩ := (hinv.committed i).1 hi
    exact (List.getElem?_eq_some_iff.1 hd).1
  -- The new call has not returned, so what is said of returned calls is said of the old ones.
  have hmem : ∀ d r, d ∈ s.calls ++ [c] → d.stage = .returned r → d ∈ s.calls := by
    intro d r hd hr
    rcases List.mem_append.1 hd with h | h
    · exact h
    · rw [List.mem_singleton.1 h, hstage] at hr
      cases hr
  constructor
  · refine Eq.trans (serial_congr ?_ base) hinv.serial
    intro i hi
    rw [List.getElem?_append_left (hold i hi)]
  · intro i
    constructor
    · intro hi
      obtain ⟨d, hd, hreturned⟩ := (hinv.committed i).1 hi
      refine ⟨d, ?_, hreturned⟩
      show (s.calls ++ [c])[i]? = some d
      rw [List.getElem?_append_left (hold i hi)]
      exact hd
    · rintro ⟨d, hd, hreturned⟩
      have hget : (s.calls ++ [c])[i]? = some d := hd
      rw [List.getElem?_append] at hget
      split at hget
      · exact (hinv.committed i).2 ⟨d, hget, hreturned⟩
      · have hmemc := List.mem_of_getElem? hget
        rw [List.mem_singleton.1 hmemc, hstage] at hreturned
        cases hreturned
  · intro d hd b hb
    exact hinv.fresh d (hmem d _ hd hb) b hb
  · intro d hd r hr
    exact hinv.stored d (hmem d r hd hr) r hr
  · intro d hd b hb
    exact hinv.rows d (hmem d _ hd hb) b hb

/-- A call that moves on keeps its parameters, so what the calls would do one after another
stays. -/
theorem parameters_set (hc : s.calls[i]? = some c) {c' : CreationCall}
    (hparameters : c'.parameters = c.parameters) (j : Nat) :
    (s.calls.set i c')[j]?.map CreationCall.parameters =
      s.calls[j]?.map CreationCall.parameters := by
  by_cases hj : i = j
  · subst hj
    rw [List.getElem?_set_self (List.getElem?_eq_some_iff.1 hc).1, hc, Option.map_some,
      Option.map_some, hparameters]
  · rw [List.getElem?_set_ne hj]

/-- A running call that moves on keeps the invariant, if it returns at most what is stored for its
key, as a replay. -/
theorem commitInv_setCall (hinv : CommitInv base s) (hc : s.calls[i]? = some c)
    (hrunning : c.stage.isRunning = true) {c' : CreationCall}
    (hparameters : c'.parameters = c.parameters)
    (hreturned : ∀ r, c'.stage = .returned r → r.replayed = true ∧
      findExistingBatch s.database c.input.userId c.input.idempotencyKey = some r.batch) :
    CommitInv base (s.setCall i c') := by
  have hi : i < s.calls.length := (List.getElem?_eq_some_iff.1 hc).1
  have hinput : c'.input = c.input := (Prod.mk.inj hparameters).1
  have hno : ∀ b, c'.stage ≠ .returned ⟨b, false⟩ := by
    intro b hb
    have hreplayed := (hreturned _ hb).1
    cases hreplayed
  constructor
  · exact Eq.trans (serial_congr (fun j _ => parameters_set hc hparameters j) base) hinv.serial
  · intro j
    show j ∈ s.commits ↔
      ∃ d, (s.calls.set i c')[j]? = some d ∧ d.stage = .returned ⟨d.batch, false⟩
    by_cases hj : i = j
    · -- The call has not committed: it was running before, and it returns no batch of its own.
      subst hj
      rw [List.getElem?_set_self hi]
      constructor
      · intro hmem
        obtain ⟨d, hd, hstage⟩ := (hinv.committed i).1 hmem
        obtain rfl := Option.some.inj (hc.symm.trans hd)
        rw [hstage] at hrunning
        cases hrunning
      · rintro ⟨d, hd, hstage⟩
        obtain rfl := Option.some.inj hd
        exact absurd hstage (hno _)
    · rw [List.getElem?_set_ne hj]
      exact hinv.committed j
  · intro d hd b hb
    rcases mem_setCall hd with rfl | hold
    · exact absurd hb (hno b)
    · exact hinv.fresh d hold b hb
  · intro d hd r hr
    rcases mem_setCall hd with rfl | hold
    · rw [hinput]
      exact findExistingBatch_eq_some (hreturned r hr).2
    · exact hinv.stored d hold r hr
  · intro d hd b hb
    rcases mem_setCall hd with rfl | hold
    · exact absurd hb (hno b)
    · exact hinv.rows d hold b hb

/-- The rows of the call carry its batch id. -/
theorem batchId_of_mem_rows {row : ScheduledEmail} (h : row ∈ c.rows) :
    row.batchId = c.batchId := by
  obtain ⟨n, hn, rfl⟩ := List.mem_mapIdx.1 h
  rfl

/-- A batch that fits the committed ones has an id of its own. -/
theorem batchId_ne_of_compatible (h : Compatible batchConflict (s.database.batches ++ [c.batch]))
    {b : EmailBatch} (hb : b ∈ s.database.batches) : b.id ≠ c.batchId := by
  exact id_ne_of_batchConflict
    ((List.pairwise_append.1 h).2.2 b hb c.batch (List.mem_singleton_self _))

theorem commitInv_commit (htables : TableInv s) (hinv : CommitInv base s)
    (hc : s.calls[i]? = some c) (hstage : c.stage = .committing) :
    CommitInv base (s.commit i c) := by
  have hi : i < s.calls.length := (List.getElem?_eq_some_iff.1 hc).1
  have hmem : c ∈ s.calls := List.mem_of_getElem? hc
  have hbatch := htables.batches.committed_append batchConflict_comm hc
  have hemails := htables.emails.committed_append emailConflict_comm hc
  rw [CreationCall.insertedBatches_committing hstage] at hbatch
  rw [CreationCall.insertedEmails_committing hstage] at hemails
  have hsender := htables.sender c hmem (by rw [hstage]; rfl)
  have hwrite := createBatchTransaction_eq_write hsender hbatch hemails
  constructor
  · -- What the call has written piecemeal is what its transaction writes at once.
    have hparameters : (c.moveTo (.returned ⟨c.batch, false⟩)).parameters = c.parameters := rfl
    refine Eq.trans (serial_congr (fun j _ => parameters_set hc hparameters j) base) ?_
    refine serial_append hinv.serial ?_
    rw [runCall, hc]
    dsimp only
    rw [hwrite]
    rfl
  · intro j
    show j ∈ s.commits ++ [i] ↔
      ∃ d, (s.calls.set i (c.moveTo (.returned ⟨c.batch, false⟩)))[j]? = some d ∧
        d.stage = .returned ⟨d.batch, false⟩
    rw [List.mem_append, List.mem_singleton]
    by_cases hj : i = j
    · subst hj
      rw [List.getElem?_set_self hi]
      exact ⟨fun _ => ⟨_, rfl, rfl⟩, fun _ => Or.inr rfl⟩
    · rw [List.getElem?_set_ne hj, ← hinv.committed j]
      exact ⟨fun h => h.resolve_right (Ne.symm hj), Or.inl⟩
  · intro d hd b hb
    rcases mem_setCall hd with rfl | hold
    · cases hb
      rfl
    · exact hinv.fresh d hold b hb
  · intro d hd r hr
    rcases mem_setCall hd with rfl | hold
    · cases hr
      exact ⟨List.mem_append_right _ (List.mem_singleton_self _), rfl, rfl⟩
    · obtain ⟨hstored, hkey⟩ := hinv.stored d hold r hr
      exact ⟨List.mem_append_left _ hstored, hkey⟩
  · -- The emails of a batch are those of the call that made it.
    intro d hd b hb
    show (s.database.emails ++ c.rows).filter (fun e => e.batchId = d.batchId) = d.rows
    rw [List.filter_append]
    rcases mem_setCall hd with rfl | hold
    · -- No committed email is one of the new batch.
      have hnone : s.database.emails.filter (fun e => e.batchId = c.batchId) = [] := by
        rw [List.filter_eq_nil_iff]
        intro e he heq
        obtain ⟨b', hb', hid⟩ := htables.batch_of_email e he
        rw [decide_eq_true_eq] at heq
        exact batchId_ne_of_compatible hbatch hb' (hid.trans heq)
      have hall : c.rows.filter (fun e => e.batchId = c.batchId) = c.rows := by
        rw [List.filter_eq_self]
        intro row hrow
        exact decide_eq_true (batchId_of_mem_rows hrow)
      exact (congrArg₂ (· ++ ·) hnone hall).trans (List.nil_append _)
    · -- The new rows do not belong to a batch that was there before.
      have hnone : c.rows.filter (fun e => e.batchId = d.batchId) = [] := by
        rw [List.filter_eq_nil_iff]
        intro row hrow heq
        rw [decide_eq_true_eq, batchId_of_mem_rows hrow] at heq
        obtain ⟨hstored, -⟩ := hinv.stored d hold _ hb
        rw [hinv.fresh d hold b hb] at hstored
        exact batchId_ne_of_compatible hbatch hstored heq.symm
      rw [hnone, List.append_nil]
      exact hinv.rows d hold b hb

theorem Move.isRunning (h : Move s i c event stage) : c.stage.isRunning = true := by
  cases h with
  | checked hstage => rw [hstage]; rfl
  | conflicted hstage _ => rw [hstage]; rfl
  | locked hstage _ _ => rw [hstage]; rfl
  | batchRefused hstage _ => rw [hstage]; rfl
  | batchInserted hstage _ _ => rw [hstage]; rfl
  | chunksDone hstage _ => rw [hstage]; rfl
  | chunkRefused hstage _ _ => rw [hstage]; rfl
  | chunkInserted hstage _ _ _ => rw [hstage]; rfl
  | reread hstage => rw [hstage]; rfl
  | failed error hrunning => exact hrunning
  | crashed hrunning => exact hrunning

theorem afterTransactionError_ne_returned (error : CreateBatchError) (r : CreatedBatchResult) :
    afterTransactionError error ≠ .returned r := by
  unfold afterTransactionError
  split_ifs <;> simp

/-- A move returns a batch only where a query found it, as a replay. -/
theorem Move.returned (h : Move s i c event stage) {r : CreatedBatchResult}
    (hr : stage = .returned r) : r.replayed = true ∧
      findExistingBatch s.database c.input.userId c.input.idempotencyKey = some r.batch := by
  -- Only the two queries for the key lead to a return; the others end in an error or go on.
  cases h with
  | checked _ =>
      cases hfind : findExistingBatch s.database c.input.userId c.input.idempotencyKey with
      | some existing =>
          rw [hfind] at hr
          cases hr
          exact ⟨rfl, rfl⟩
      | none =>
          rw [hfind] at hr
          unfold afterCheck at hr
          dsimp only at hr
          split_ifs at hr
  | conflicted _ _ => exact absurd hr (afterTransactionError_ne_returned _ r)
  | locked _ _ _ => cases hr
  | batchRefused _ _ => exact absurd hr (afterTransactionError_ne_returned _ r)
  | batchInserted _ _ _ => cases hr
  | chunksDone _ _ => cases hr
  | chunkRefused _ _ _ => exact absurd hr (afterTransactionError_ne_returned _ r)
  | chunkInserted _ _ _ _ => cases hr
  | reread _ =>
      cases hfind : findExistingBatch s.database c.input.userId c.input.idempotencyKey with
      | some existing =>
          rw [hfind] at hr
          cases hr
          exact ⟨rfl, rfl⟩
      | none =>
          rw [hfind] at hr
          cases hr
  | failed error _ =>
      cases hstage : c.stage <;> rw [hstage] at hr <;>
        first | cases hr | exact absurd hr (afterTransactionError_ne_returned _ r)
  | crashed _ => cases hr

theorem commitInv_step (h : step event s = some t) (htables : TableInv s)
    (hinv : CommitInv base s) : CommitInv base t := by
  cases stepCase_of_step h with
  | call input batchId newId => exact commitInv_call hinv _ rfl
  | moved hc hmove =>
      exact commitInv_setCall hinv hc hmove.isRunning rfl fun r hr => hmove.returned hr
  | began hc hstage =>
      refine commitInv_setCall hinv hc (by rw [hstage]; rfl) rfl ?_
      intro r hr
      -- Opening the transaction returns nothing.
      have hnot : ∀ found, afterSender found ≠ .returned r := by
        intro found
        cases found with
        | none => exact afterTransactionError_ne_returned _ r
        | some sender => simp [afterSender]
      exact absurd hr (hnot _)
  | committed hc hstage => exact commitInv_commit htables hinv hc hstage

theorem commitInv_of_steps {s₀ : Creation} (h₀ : system.init s₀)
    {P : Creation → CreationEvent → Prop} (h : system.Steps P s₀ s) :
    CommitInv s₀.database s := by
  have hend : TableInv s ∧ CommitInv s₀.database s := by
    refine h.invariant (I := fun s => TableInv s ∧ CommitInv s₀.database s)
      ⟨tableInv_init h₀, commitInv_init h₀⟩ ?_
    rintro s event t - hstep ⟨htables, hinv⟩
    exact ⟨tableInv_step hstep htables, commitInv_step hstep htables hinv⟩
  exact hend.2

/-! ## Idempotency -/

/-- What is said about a user and a key in a state: one batch at most is stored for them; every call
that returned, returned it, and at most one as new; the database is what the committed transactions
write, at most one of them for the key, namely the one of the call that returned its batch as new;
and the rows of that batch are those of its input. -/
structure Idempotent (base : Database) (s : Creation) (userId : Uuid) (idempotencyKey : String) :
    Prop where
  one_batch : (s.database.batches.filter fun b =>
    decide (b.userId = userId ∧ b.idempotencyKey = idempotencyKey)).length ≤ 1
  same_batch : ∀ c ∈ s.calls, c.carries userId idempotencyKey = true →
    ∀ r, c.stage = .returned r →
      findExistingBatch s.database userId idempotencyKey = some r.batch
  one_fresh : ∀ (i j : Nat) c d, s.calls[i]? = some c → s.calls[j]? = some d →
    c.carries userId idempotencyKey = true → d.carries userId idempotencyKey = true →
    ∀ b b', c.stage = .returned ⟨b, false⟩ → d.stage = .returned ⟨b', false⟩ → i = j
  serial : serial s.calls s.commits base = .ok s.database
  one_writer : (s.commits.filter fun i =>
    s.calls[i]?.any fun c => c.carries userId idempotencyKey).length ≤ 1
  writer : ∀ i c, s.calls[i]? = some c → (i ∈ s.commits ↔ ∃ b, c.stage = .returned ⟨b, false⟩)
  written : ∀ c ∈ s.calls, ∀ b, c.stage = .returned ⟨b, false⟩ →
    b = c.batch ∧ s.database.emailsOf b.id = c.rows

theorem carries_iff {userId : Uuid} {idempotencyKey : String} :
    c.carries userId idempotencyKey = true ↔
      c.input.userId = userId ∧ c.input.idempotencyKey = idempotencyKey := by
  simp [CreationCall.carries]

/-- Two calls with one user and one key have conflicting batches. -/
theorem batchConflict_of_carries {userId : Uuid} {idempotencyKey : String} {d : CreationCall}
    (hc : c.carries userId idempotencyKey = true) (hd : d.carries userId idempotencyKey = true) :
    batchConflict c.batch d.batch = true := by
  obtain ⟨hcuser, hckey⟩ := carries_iff.1 hc
  obtain ⟨hduser, hdkey⟩ := carries_iff.1 hd
  exact batchConflict_iff.2 (Or.inr ⟨hcuser.trans hduser.symm, hckey.trans hdkey.symm⟩)

/-- **At most one transaction commits** for a user and a key. -/
theorem length_commits_le_one (htables : TableInv s) (hinv : CommitInv base s) (userId : Uuid)
    (idempotencyKey : String) : (s.commits.filter fun i =>
      s.calls[i]?.any fun c => c.carries userId idempotencyKey).length ≤ 1 := by
  have hcompatible := compatible_of_tableRows htables.batches
  rw [batches_of_serial hinv.serial] at hcompatible
  -- The committed batches fit together, so positions of conflicting ones do not both occur.
  have hcommits := List.pairwise_filterMap.1 (List.pairwise_append.1 hcompatible).2.1
  refine length_le_one_of_pairwise (hcommits.sublist List.filter_sublist) ?_
  intro i hi j hj hfits
  obtain ⟨-, hi⟩ := List.mem_filter.1 hi
  obtain ⟨-, hj⟩ := List.mem_filter.1 hj
  obtain ⟨c, hc, hcarries⟩ := (Option.any_eq_true _ _).1 hi
  obtain ⟨d, hd, hdcarries⟩ := (Option.any_eq_true _ _).1 hj
  have hfits := hfits c.batch (by rw [hc]; rfl) d.batch (by rw [hd]; rfl)
  rw [batchConflict_of_carries hcarries hdcarries] at hfits
  cases hfits

theorem writer_iff (hinv : CommitInv base s) (hc : s.calls[i]? = some c) :
    i ∈ s.commits ↔ ∃ b, c.stage = .returned ⟨b, false⟩ := by
  rw [hinv.committed i]
  constructor
  · rintro ⟨d, hd, hstage⟩
    obtain rfl := Option.some.inj (hc.symm.trans hd)
    exact ⟨_, hstage⟩
  · rintro ⟨b, hstage⟩
    refine ⟨c, hc, ?_⟩
    rw [hstage, hinv.fresh c (List.mem_of_getElem? hc) b hstage]

/-- Two elements of a list with at most one are equal. -/
theorem eq_of_length_le_one {α : Type} {l : List α} (h : l.length ≤ 1) {a b : α} (ha : a ∈ l)
    (hb : b ∈ l) : a = b := by
  match l, h with
  | [x], _ => rw [List.mem_singleton.1 ha, List.mem_singleton.1 hb]

/-- **Batch creation is idempotent.** It holds in every state of every run, for every user and
key. -/
theorem idempotent_of_steps {s₀ : Creation} (h₀ : system.init s₀)
    (h : system.Steps TransitionSystem.anyStep s₀ s) (userId : Uuid) (idempotencyKey : String) :
    Idempotent s₀.database s userId idempotencyKey := by
  have htables := tableInv_of_reachable ⟨s₀, h₀, h⟩
  have hinv := commitInv_of_steps h₀ h
  have hcompatible := compatible_of_tableRows htables.batches
  have hone := length_commits_le_one htables hinv userId idempotencyKey
  constructor
  · -- Two batches under one key of one user do not fit each other.
    refine length_le_one_of_pairwise (hcompatible.sublist List.filter_sublist) ?_
    intro a ha b hb hfits
    have hakey := (List.mem_filter.1 ha).2
    have hbkey := (List.mem_filter.1 hb).2
    rw [decide_eq_true_eq] at hakey hbkey
    have hconflict : batchConflict a b = true := batchConflict_iff.2
      (Or.inr ⟨hakey.1.trans hbkey.1.symm, hakey.2.trans hbkey.2.symm⟩)
    rw [hfits] at hconflict
    cases hconflict
  · intro c hc hcarries r hr
    obtain ⟨hstored, huser, hkey⟩ := hinv.stored c hc r hr
    obtain ⟨hcuser, hckey⟩ := carries_iff.1 hcarries
    rw [← hcuser, ← hckey, ← huser, ← hkey]
    exact findExistingBatch_of_mem hcompatible hstored
  · -- Two calls that wrote are both in the list of commits for the key, which has one entry.
    intro i j c d hc hd hcarries hdcarries b b' hb hb'
    have hi := (writer_iff hinv hc).2 ⟨b, hb⟩
    have hj := (writer_iff hinv hd).2 ⟨b', hb'⟩
    refine eq_of_length_le_one hone (List.mem_filter.2 ⟨hi, ?_⟩) (List.mem_filter.2 ⟨hj, ?_⟩)
    · rw [hc]
      exact hcarries
    · rw [hd]
      exact hdcarries
  · exact hinv.serial
  · exact hone
  · intro i c hc
    exact writer_iff hinv hc
  · intro c hc b hb
    obtain rfl := hinv.fresh c hc b hb
    exact ⟨rfl, hinv.rows c hc c.batch hb⟩

/-- Two active senders of one user, and nothing scheduled. -/
def twoSenders : Creation where
  database := ⟨[⟨1, 1, "First", "first@test.invalid", "first@test.invalid", true, true, 10, 1000⟩,
    ⟨2, 1, "Second", "second@test.invalid", "second@test.invalid", false, true, 10, 1000⟩],
    [], [], []⟩
  commits := []
  calls := []

/-- A request of the user for one recipient, under one key. -/
def duplicateRequest (senderId : Uuid) : CreateBatchInput where
  userId := 1
  senderId := senderId
  idempotencyKey := "request"
  subject := "Subject"
  bodyText := "Body"
  startAt := 0
  hourlyLimit := 5
  minimumDelayMs := 2000
  sourceFilename := "leads.txt"
  parsedLeads := ⟨[⟨"lead@test.invalid", "lead@test.invalid"⟩], 1, 0, 0, []⟩

/-- Two requests race with different senders, and a third one comes late. -/
def raceOfTwoSenders : List CreationEvent :=
  [.call (duplicateRequest 1) 10 (fun i => 100 + i),
    .call (duplicateRequest 2) 20 (fun i => 200 + i),
    .advance 0, .advance 1, .advance 0, .advance 1, .advance 0, .advance 1, .advance 0,
    .advance 0, .advance 0, .advance 0, .advance 1, .advance 1,
    .call (duplicateRequest 2) 30 (fun i => 300 + i), .advance 2]

theorem idempotent_after_raceOfTwoSenders : ∃ s,
    system.run TransitionSystem.anyStep raceOfTwoSenders twoSenders = some s ∧
      s.calls.map (fun c => c.stage) =
        [.returned ⟨createdBatch (duplicateRequest 1) 10, false⟩,
          .returned ⟨createdBatch (duplicateRequest 1) 10, true⟩,
          .returned ⟨createdBatch (duplicateRequest 1) 10, true⟩] ∧
      s.database.senders.map EmailSender.hourlyLimit = [5, 10] ∧
      Idempotent twoSenders.database s 1 "request" :=
  ⟨_, rfl, by decide, by decide, idempotent_of_steps (show system.init twoSenders from
      ⟨⟨List.Pairwise.nil, List.Pairwise.nil, by simp [twoSenders]⟩, rfl, rfl⟩)
    (TransitionSystem.steps_of_run raceOfTwoSenders rfl) 1 "request"⟩

end Creation

end EmailScheduler
