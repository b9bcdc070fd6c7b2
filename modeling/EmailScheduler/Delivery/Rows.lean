import EmailScheduler.Delivery.System

/-!
# The life of a row

What a step of the delivery system does to a scheduled email: `RowStep` lists the changes, each with
the status it starts from. Rows are never removed, and a new row starts as `SCHEDULED` under an id
that no row had. A terminal status is final because every change starts from an open row or from a
row in `PROCESSING`.
-/

set_option autoImplicit false

namespace EmailScheduler

open Foundation

/-- A change of one row. -/
inductive RowStep (config : AppConfig) (e : ScheduledEmail) : ScheduledEmail → Prop where
  | keep : RowStep config e e
  | deferred (nextAvailableAt : Int) : e.status.isOpen = true →
      RowStep config e (deferRow nextAvailableAt e)
  | claimed (token : Uuid) (now : Int) : e.status.isOpen = true → e.processingToken = none →
      RowStep config e (claimRow token now e)
  | accepted (receipt : DeliveryReceipt) (now : Int) : e.status = .processing →
      RowStep config e (acceptRow receipt now e)
  | failed (result : FailureResult) (sanitized : SafeError) (now : Int) : e.status = .processing →
      RowStep config e (failRow config result sanitized now e)
  | abandoned : e.status = .processing → RowStep config e (abandonRow e)

/-- A row inserted into a database. -/
structure NewRow (db : Database) (r : ScheduledEmail) : Prop where
  fresh : ∀ e ∈ db.emails, r.id ≠ e.id
  fresh_batch : ∀ b ∈ db.batches, r.batchId ≠ b.id
  scheduled : r.status = .scheduled
  unclaimed : r.processingToken = none
  bullJobId : r.bullJobId = createBullJobId r.id

/-- A step on the emails of a database: every row changes by a `RowStep`, and new rows with distinct
ids may follow. -/
structure EmailsStep (config : AppConfig) (db db' : Database) (f : ScheduledEmail → ScheduledEmail)
    (new : List ScheduledEmail) : Prop where
  emails : db'.emails = db.emails.map f ++ new
  rows : ∀ e ∈ db.emails, RowStep config e (f e)
  new_rows : ∀ r ∈ new, NewRow db r
  new_batches : ∀ r ∈ new, ∃ b ∈ db'.batches, b.id = r.batchId
  new_senders : ∀ r ∈ new, ∃ x ∈ db.senders, x.id = r.senderId
  new_ids : PrimaryKey ScheduledEmail.id new

theorem EmailsStep.of_update {config : AppConfig} {db db' : Database} {p : ScheduledEmail → Bool}
    {f : ScheduledEmail → ScheduledEmail} (h : db'.emails = updateMany p f db.emails)
    (hrow : ∀ e, p e = true → RowStep config e (f e)) :
    EmailsStep config db db' (fun e => if p e then f e else e) [] where
  emails := by rw [h, List.append_nil]; rfl
  rows e _ := by
    split
    next hp => exact hrow e hp
    next => exact .keep
  new_rows r hr := by cases hr
  new_batches r hr := by cases hr
  new_senders r hr := by cases hr
  new_ids := List.nodup_nil

theorem EmailsStep.of_same {config : AppConfig} {db db' : Database} (h : db'.emails = db.emails) :
    EmailsStep config db db' id [] where
  emails := by rw [h, List.map_id, List.append_nil]
  rows e _ := .keep
  new_rows r hr := by cases hr
  new_batches r hr := by cases hr
  new_senders r hr := by cases hr
  new_ids := List.nodup_nil

theorem batchId_of_mem_emailRows {input : CreateBatchInput} {batchId : Uuid} {newId : Nat → Uuid}
    {row : ScheduledEmail} (h : row ∈ emailRows input batchId newId) : row.batchId = batchId := by
  obtain ⟨i, hi, rfl⟩ := List.mem_mapIdx.1 h
  rfl

theorem senderId_of_mem_emailRows {input : CreateBatchInput} {batchId : Uuid}
    {newId : Nat → Uuid} {row : ScheduledEmail} (h : row ∈ emailRows input batchId newId) :
    row.senderId = input.senderId := by
  obtain ⟨i, hi, rfl⟩ := List.mem_mapIdx.1 h
  rfl

/-- The rows of a batch have their own ids. -/
theorem emailRows_newRow {db : Database} {input : CreateBatchInput} {batchId : Uuid}
    {newId : Nat → Uuid}
    (hbatch : ∀ b ∈ db.batches, batchConflict (createdBatch input batchId) b = false)
    (h : ∀ row ∈ emailRows input batchId newId, ∀ e ∈ db.emails, emailConflict row e = false) :
    ∀ row ∈ emailRows input batchId newId, NewRow db row := by
  intro row hrow
  refine ⟨fun e he heq => ?_, fun b hb heq => ?_, ?_, ?_, ?_⟩
  · exact id_ne_of_emailConflict (h row hrow e he) heq
  · rw [batchId_of_mem_emailRows hrow] at heq
    exact id_ne_of_batchConflict (hbatch b hb) heq
  all_goals
    obtain ⟨i, hi, rfl⟩ := List.mem_mapIdx.1 hrow
    rfl

theorem primaryKey_of_noConflict {rows : List ScheduledEmail}
    (h : rows.Pairwise fun a b => emailConflict b a = false) :
    PrimaryKey ScheduledEmail.id rows := by
  rw [PrimaryKey, List.Nodup, List.pairwise_map]
  refine h.imp fun {a b} hab heq => ?_
  exact id_ne_of_emailConflict hab heq.symm

/-- **Step rule for rows.** -/
theorem emailsStep_of_databaseStep {config : AppConfig} {db db' : Database}
    (h : DatabaseStep config db db') : ∃ f new, EmailsStep config db db' f new := by
  cases h with
  | refl => exact ⟨id, [], .of_same rfl⟩
  | deferred hok =>
      rcases recordRateLimit_eq_ok hok with rfl | ⟨row, -, -, -, rfl⟩
      · exact ⟨id, [], .of_same rfl⟩
      · -- Which rows an update meets is the condition under which they go this way.
        refine ⟨_, [], .of_update rfl fun e he => ?_⟩
        exact .deferred _ (deferrable_iff.1 he).2
  | @claimed _ _ _ claim _ hok =>
      cases claim with
      | none => exact ⟨id, [], .of_same (by rw [(claimEmail_eq_ok_none hok).1])⟩
      | some claim =>
          obtain ⟨row, -, -, -, -, rfl⟩ := claimEmail_eq_ok_some hok
          refine ⟨_, [], .of_update rfl fun e he => ?_⟩
          obtain ⟨-, htoken, hopen⟩ := claimable_iff.1 he
          exact .claimed _ _ hopen htoken
  | accepted hok =>
      obtain ⟨-, rfl⟩ := recordAccepted_eq_ok hok
      refine ⟨_, [], .of_update rfl fun e he => ?_⟩
      exact .accepted _ _ (heldBy_iff.1 he).2.1
  | failed hok =>
      obtain ⟨-, rfl⟩ := recordFailure_eq_ok hok
      refine ⟨_, [], .of_update rfl fun e he => ?_⟩
      exact .failed _ _ _ (heldBy_iff.1 he).2.1
  | labelled hok => exact ⟨id, [], .of_same (by rw [labelBatch_eq_ok hok])⟩
  | swept now =>
      refine ⟨_, [], .of_update rfl fun e he => ?_⟩
      exact .abandoned (isStale_iff.1 he).1
  | @created input batchId newId _ _ hok =>
      obtain ⟨⟨sender, hsender⟩, rfl, hbatch, hpairwise, hnew, rfl⟩ :=
        createBatchTransaction_eq_ok hok
      refine ⟨id, emailRows input batchId newId, ?_, fun e _ => .keep, emailRows_newRow hbatch hnew,
        fun r hr => ?_, fun r hr => ?_, primaryKey_of_noConflict hpairwise⟩
      · rw [List.map_id]
      · exact ⟨_, List.mem_append_right _ (List.mem_singleton_self _),
          (batchId_of_mem_emailRows hr).symm⟩
      · rw [senderId_of_mem_emailRows hr]
        obtain ⟨hmem, hid, -⟩ := findActiveSender_eq_some hsender
        exact ⟨sender, hmem, hid⟩
  | senderUpdated => exact ⟨id, [], .of_same rfl⟩

/-! ## What a row keeps -/

namespace RowStep

variable {config : AppConfig} {e e' : ScheduledEmail}

theorem id_eq (h : RowStep config e e') : e'.id = e.id := by
  cases h <;> rfl

theorem batchId_eq (h : RowStep config e e') : e'.batchId = e.batchId := by
  cases h <;> rfl

theorem senderId_eq (h : RowStep config e e') : e'.senderId = e.senderId := by
  cases h <;> rfl

theorem bullJobId_eq (h : RowStep config e e') : e'.bullJobId = e.bullJobId := by
  cases h <;> rfl

/-- A terminal row keeps its status. -/
theorem status_eq_of_isTerminal (h : RowStep config e e') (hterminal : e.status.isTerminal = true) :
    e'.status = e.status := by
  cases h with
  | keep => rfl
  | deferred _ hopen => exact absurd hterminal (by
      rw [ScheduledEmailStatus.not_isTerminal_of_isOpen hopen]; simp)
  | claimed _ _ hopen => exact absurd hterminal (by
      rw [ScheduledEmailStatus.not_isTerminal_of_isOpen hopen]; simp)
  | accepted _ _ hprocessing => rw [hprocessing] at hterminal; cases hterminal
  | failed _ _ _ hprocessing => rw [hprocessing] at hterminal; cases hterminal
  | abandoned hprocessing => rw [hprocessing] at hterminal; cases hterminal

end RowStep

namespace EmailsStep

variable {config : AppConfig} {db db' : Database} {f : ScheduledEmail → ScheduledEmail}
  {new : List ScheduledEmail}

/-- A row after the step was there before, or is new. -/
theorem mem (h : EmailsStep config db db' f new) {e' : ScheduledEmail} (he : e' ∈ db'.emails) :
    (∃ e ∈ db.emails, e' = f e ∧ RowStep config e e') ∨ e' ∈ new := by
  rw [h.emails, List.mem_append, List.mem_map] at he
  rcases he with ⟨e, hmem, rfl⟩ | hnew
  · exact Or.inl ⟨e, hmem, rfl, h.rows e hmem⟩
  · exact Or.inr hnew

/-- A row before the step is still there. -/
theorem mem_map (h : EmailsStep config db db' f new) {e : ScheduledEmail} (he : e ∈ db.emails) :
    f e ∈ db'.emails := by
  rw [h.emails]
  exact List.mem_append_left _ (List.mem_map_of_mem he)

theorem primaryKey (h : EmailsStep config db db' f new)
    (hkey : PrimaryKey ScheduledEmail.id db.emails) : PrimaryKey ScheduledEmail.id db'.emails := by
  rw [h.emails]
  have hids : (db.emails.map f).map ScheduledEmail.id = db.emails.map ScheduledEmail.id := by
    rw [List.map_map]
    exact List.map_congr_left fun e he => (h.rows e he).id_eq
  refine PrimaryKey.append (by rw [PrimaryKey, hids]; exact hkey) h.new_ids ?_
  intro r hr q hq heq
  obtain ⟨e, he, rfl⟩ := List.mem_map.1 hr
  rw [(h.rows e he).id_eq] at heq
  exact (h.new_rows q hq).fresh e he heq.symm

end EmailsStep

/-! ## What holds of every row -/

/-- A row keeps the job id derived from its own id, and nobody holds it while it is open. -/
structure RowValid (e : ScheduledEmail) : Prop where
  bullJobId : e.bullJobId = createBullJobId e.id
  unclaimed : e.status.isOpen = true → e.processingToken = none

theorem NewRow.valid {db : Database} {r : ScheduledEmail} (h : NewRow db r) : RowValid r :=
  ⟨h.bullJobId, fun _ => h.unclaimed⟩

theorem RowStep.valid {config : AppConfig} {e e' : ScheduledEmail} (h : RowStep config e e')
    (hvalid : RowValid e) : RowValid e' := by
  refine ⟨?_, ?_⟩
  · rw [h.bullJobId_eq, h.id_eq]
    exact hvalid.bullJobId
  · intro hopen
    cases h with
    | keep => exact hvalid.unclaimed hopen
    | deferred _ hbefore => exact hvalid.unclaimed hbefore
    | claimed => cases hopen
    | accepted => rfl
    | failed => rfl
    | abandoned => rfl

/-! ## Columns that no operation writes -/

/-- The columns of a sender that no statement writes. -/
def EmailSender.key (s : EmailSender) : Uuid × Uuid := (s.id, s.userId)

/-- The columns of a batch that no statement writes and that its reader is found by. -/
def EmailBatch.key (b : EmailBatch) : Uuid × Uuid × Uuid := (b.id, b.userId, b.senderId)

/-- The columns of an email that say which one it is, and of which batch. -/
def ScheduledEmail.key (e : ScheduledEmail) : Uuid × Uuid × Uuid × BullJobId × RecipientKey :=
  (e.id, e.batchId, e.senderId, e.bullJobId, e.idempotencyKey)

/-- The rows are the same ones, in the same order. -/
def Database.KeepsKeys (db db' : Database) : Prop :=
  db'.senders.map EmailSender.key = db.senders.map EmailSender.key ∧
    db'.batches.map EmailBatch.key = db.batches.map EmailBatch.key ∧
    db'.emails.map ScheduledEmail.key = db.emails.map ScheduledEmail.key

instance (db db' : Database) : Decidable (db.KeepsKeys db') :=
  inferInstanceAs (Decidable (_ ∧ _ ∧ _))

/-- **Every change keeps the keys**, unless it creates a batch. -/
theorem keepsKeys_of_databaseStep {config : AppConfig} {db db' : Database}
    (h : DatabaseStep config db db') : db.KeepsKeys db' ∨ ∃ input batchId newId batch,
      createBatchTransaction db input batchId newId = .ok (batch, db') := by
  have hemails : ∀ {p : ScheduledEmail → Bool} {f : ScheduledEmail → ScheduledEmail},
      (∀ e, (f e).key = e.key) →
        (updateMany p f db.emails).map ScheduledEmail.key = db.emails.map ScheduledEmail.key :=
    fun hkey => map_updateMany _ hkey _
  cases h with
  | refl => exact Or.inl ⟨rfl, rfl, rfl⟩
  | deferred hok =>
      rcases recordRateLimit_eq_ok hok with rfl | ⟨row, -, -, -, rfl⟩
      · exact Or.inl ⟨rfl, rfl, rfl⟩
      · exact Or.inl ⟨rfl, rfl, hemails fun _ => rfl⟩
  | @claimed _ _ _ claim _ hok =>
      cases claim with
      | none =>
          rw [(claimEmail_eq_ok_none hok).1]
          exact Or.inl ⟨rfl, rfl, rfl⟩
      | some claim =>
          obtain ⟨row, -, -, -, -, rfl⟩ := claimEmail_eq_ok_some hok
          exact Or.inl ⟨rfl, rfl, hemails fun _ => rfl⟩
  | accepted hok =>
      rw [(recordAccepted_eq_ok hok).2]
      exact Or.inl ⟨rfl, rfl, hemails fun _ => rfl⟩
  | failed hok =>
      rw [(recordFailure_eq_ok hok).2]
      exact Or.inl ⟨rfl, rfl, hemails fun _ => rfl⟩
  | labelled hok =>
      rw [labelBatch_eq_ok hok]
      refine Or.inl ⟨rfl, ?_, rfl⟩
      apply map_updateMany
      intro b
      rfl
  | swept => exact Or.inl ⟨rfl, rfl, hemails fun _ => rfl⟩
  | created hok => exact Or.inr ⟨_, _, _, _, hok⟩
  | senderUpdated sender =>
      refine Or.inl ⟨?_, rfl, rfl⟩
      -- The update matches on the id it writes.
      unfold updateMany
      rw [List.map_map]
      apply List.map_congr_left
      intro x _
      simp only [Function.comp_apply, decide_eq_true_eq]
      split
      next hid => rw [EmailSender.key, EmailSender.key, hid]
      next => rfl

/-- Senders are never removed. -/
theorem senderIds_of_databaseStep {config : AppConfig} {db db' : Database}
    (h : DatabaseStep config db db') :
    db'.senders.map EmailSender.id = db.senders.map EmailSender.id := by
  rcases keepsKeys_of_databaseStep h with hkeys | ⟨input, batchId, newId, batch, hok⟩
  · have hids := congrArg (List.map Prod.fst) hkeys.1
    rw [List.map_map, List.map_map] at hids
    exact hids
  · obtain ⟨-, -, -, -, -, rfl⟩ := createBatchTransaction_eq_ok hok
    show (updateSenderPolicy db input.senderId input).senders.map EmailSender.id = _
    unfold updateSenderPolicy
    apply map_updateMany
    intro x
    rfl

/-! ## Over a run -/

namespace Delivery

variable {config : AppConfig} {P : Delivery → DeliveryEvent → Prop} {s t : Delivery}

theorem emailsStep {event : DeliveryEvent} (h : (system config).step event s = some t) :
    ∃ f new, EmailsStep config s.database t.database f new :=
  emailsStep_of_databaseStep (databaseStep_of_step h)

/-- Ids of emails are unique in every state reached. -/
theorem primaryKey_emails (h : (system config).Reachable P s) :
    PrimaryKey ScheduledEmail.id s.database.emails := by
  refine h.invariant (I := fun s => PrimaryKey ScheduledEmail.id s.database.emails) ?_ ?_
  · rintro s ⟨-, hemails, -⟩
    rw [hemails]
    exact List.nodup_nil
  · intro s event t _ hstep hkey
    obtain ⟨f, new, hrows⟩ := emailsStep hstep
    exact hrows.primaryKey hkey

/-- Every row is valid in every state reached. -/
theorem rowValid_of_reachable (h : (system config).Reachable P s) :
    ∀ e ∈ s.database.emails, RowValid e := by
  apply h.invariant (I := fun s => ∀ e ∈ s.database.emails, RowValid e)
  · rintro s ⟨-, hemails, -⟩ e he
    rw [hemails] at he
    cases he
  · intro s event t _ hstep hinv e' he'
    obtain ⟨f, new, hrows⟩ := emailsStep hstep
    rcases hrows.mem he' with ⟨e, he, -, hrow⟩ | hnew
    · exact hrow.valid (hinv e he)
    · exact (hrows.new_rows e' hnew).valid

/-- Every row has its sender. -/
theorem sender_of_email (h : (system config).Reachable P s) :
    ∀ e ∈ s.database.emails, ∃ x ∈ s.database.senders, x.id = e.senderId := by
  apply h.invariant (I := fun s => ∀ e ∈ s.database.emails, ∃ x ∈ s.database.senders,
    x.id = e.senderId)
  · rintro s ⟨-, hemails, -⟩ e he
    rw [hemails] at he
    cases he
  · intro s event t _ hstep hinv e' he'
    have hids := senderIds_of_databaseStep (databaseStep_of_step hstep)
    have hkept : ∀ x ∈ s.database.senders, ∃ y ∈ t.database.senders, y.id = x.id := by
      intro x hx
      have hmem : x.id ∈ t.database.senders.map EmailSender.id := by
        rw [hids]
        exact List.mem_map_of_mem hx
      obtain ⟨y, hy, hid⟩ := List.mem_map.1 hmem
      exact ⟨y, hy, hid⟩
    obtain ⟨f, new, hrows⟩ := emailsStep hstep
    have hsender : ∃ x ∈ s.database.senders, x.id = e'.senderId := by
      rcases hrows.mem he' with ⟨e, he, -, hrow⟩ | hnew
      · rw [hrow.senderId_eq]
        exact hinv e he
      · exact hrows.new_senders e' hnew
    obtain ⟨x, hx, hid⟩ := hsender
    obtain ⟨y, hy, hyid⟩ := hkept x hx
    exact ⟨y, hy, hyid.trans hid⟩

/-- Rows are never removed. -/
theorem exists_email_of_step {event : DeliveryEvent} (h : (system config).step event s = some t)
    {id : Uuid} (hid : ∃ e ∈ s.database.emails, e.id = id) :
    ∃ e ∈ t.database.emails, e.id = id := by
  obtain ⟨e, he, rfl⟩ := hid
  obtain ⟨f, new, hrows⟩ := emailsStep h
  exact ⟨f e, hrows.mem_map he, (hrows.rows e he).id_eq⟩

/-- **Terminal statuses are final.** A row with a terminal status keeps it through every run. -/
theorem terminal_of_steps (h : (system config).Steps P s t) {e : ScheduledEmail}
    (he : e ∈ s.database.emails) (hterminal : e.status.isTerminal = true) :
    ∃ e' ∈ t.database.emails, e'.id = e.id ∧ e'.batchId = e.batchId ∧ e'.status = e.status := by
  induction h with
  | refl => exact ⟨e, he, rfl, rfl, rfl⟩
  | tail event _ _ hstep ih =>
      obtain ⟨e₁, he₁, hid, hbatch, hstatus⟩ := ih
      obtain ⟨f, new, hrows⟩ := emailsStep hstep
      have hrow := hrows.rows e₁ he₁
      refine ⟨f e₁, hrows.mem_map he₁, hrow.id_eq.trans hid, hrow.batchId_eq.trans hbatch, ?_⟩
      rw [hrow.status_eq_of_isTerminal (by rw [hstatus]; exact hterminal), hstatus]

end Delivery

end EmailScheduler
