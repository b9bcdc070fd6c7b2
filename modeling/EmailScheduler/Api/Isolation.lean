import EmailScheduler.Api.Router
import EmailScheduler.Foundation.Table

/-!
# Running a request on the rows of its user

`restrict user t` is what a user owns of the tables: the senders and batches with the user's id, and
the emails of these batches. Every route does on the tables what it does on this part of them: it
returns or throws the same, and leaves the same rows of the user behind (`route_commutes`).

This needs what the tables always satisfy (`TenantInv`): a batch belongs to the owner of its sender,
and an email to a batch with its sender. It also needs that the ids that a request draws are new.
-/

set_option autoImplicit false

namespace EmailScheduler

open Foundation

/-! ## The rows of a user -/

variable (user : Uuid)

def ownSenders (t : Tables) : List StoredSender :=
  t.senders.filter fun s => decide (s.userId = user)

def ownBatches (t : Tables) : List StoredBatch :=
  t.batches.filter fun b => decide (b.userId = user)

def ownEmails (t : Tables) : List StoredEmail := t.emails.filter (ownsEmail user t)

/-- The tables without the rows of other users. -/
def restrict (t : Tables) : Tables where
  users := []
  senders := ownSenders user t
  batches := ownBatches user t
  emails := ownEmails user t

/-- Two states agree on the senders, batches and emails of a user. -/
def AgreeOn (t₁ t₂ : Tables) : Prop :=
  ownSenders user t₁ = ownSenders user t₂ ∧ ownBatches user t₁ = ownBatches user t₂ ∧
    ownEmails user t₁ = ownEmails user t₂

instance (t₁ t₂ : Tables) : Decidable (AgreeOn user t₁ t₂) :=
  inferInstanceAs (Decidable (_ ∧ _ ∧ _))

variable {user}

theorem restrict_eq_iff {t₁ t₂ : Tables} :
    restrict user t₁ = restrict user t₂ ↔ AgreeOn user t₁ t₂ := by
  simp [restrict, AgreeOn]

/-- What always holds of the tables: keys, and rows that refer to rows of one owner. -/
structure TenantInv (t : Tables) : Prop where
  userKey : PrimaryKey User.id t.users
  senderKey : PrimaryKey (fun s : StoredSender => s.id) t.senders
  batchKey : PrimaryKey (fun b : StoredBatch => b.id) t.batches
  senderOwner : ∀ s ∈ t.senders, ∃ v ∈ t.users, v.id = s.userId
  userSender : ∀ v ∈ t.users, ∃ s ∈ t.senders, s.userId = v.id
  batchSender : ∀ b ∈ t.batches, ∃ s ∈ t.senders, s.id = b.senderId ∧ s.userId = b.userId
  emailBatch : ∀ e ∈ t.emails, ∃ b ∈ t.batches, b.id = e.batchId ∧ b.senderId = e.senderId
  emailKeys : ∀ e ∈ t.emails,
    e.bullJobId = createBullJobId e.id ∧ e.idempotencyKey.batchId = e.batchId

/-- The ids that a request draws are in no table yet. -/
structure RequestContext.Fresh (ctx : RequestContext) (t : Tables) : Prop where
  sender : ∀ s ∈ t.senders, s.id ≠ ctx.newId
  batch : ∀ b ∈ t.batches, b.id ≠ ctx.newId
  email : ∀ e ∈ t.emails, ∀ i, e.id ≠ ctx.newEmailId i

/-! ## Lookups among the rows of a user -/

theorem mem_ownSenders {t : Tables} {s : StoredSender} :
    s ∈ ownSenders user t ↔ s ∈ t.senders ∧ s.userId = user := by
  simp [ownSenders]

theorem mem_ownBatches {t : Tables} {b : StoredBatch} :
    b ∈ ownBatches user t ↔ b ∈ t.batches ∧ b.userId = user := by
  simp [ownBatches]

theorem ownsEmail_iff {t : Tables} {e : StoredEmail} :
    ownsEmail user t e = true ↔ ∃ b ∈ t.batches, b.id = e.batchId ∧ b.userId = user := by
  simp [ownsEmail]

/-- The rows of the user are those of the restricted tables too. -/
theorem ownsEmail_restrict {t : Tables} (e : StoredEmail) :
    ownsEmail user (restrict user t) e = ownsEmail user t e := by
  rw [Bool.eq_iff_iff, ownsEmail_iff, ownsEmail_iff]
  simp only [restrict, mem_ownBatches]
  constructor
  · rintro ⟨b, ⟨hb, -⟩, h⟩
    exact ⟨b, hb, h⟩
  · rintro ⟨b, hb, h⟩
    exact ⟨b, ⟨hb, h.2⟩, h⟩

/-- A lookup that asks for the owner finds the same row among the user's own. -/
theorem find?_filter_of_imp {α : Type} {p q : α → Bool} (h : ∀ a, p a = true → q a = true)
    (rows : List α) : (rows.filter q).find? p = rows.find? p := by
  rw [List.find?_filter]
  congr 1
  funext a
  cases hp : p a with
  | false => simp
  | true => simp [h a hp]

/-- A lookup by a key finds the same row among the user's own, if the row is there. -/
theorem find?_filter_of_key {α : Type} {key : α → Uuid} {rows : List α} (hkey : PrimaryKey key rows)
    {q : α → Bool} {a : α} (ha : a ∈ rows) (hq : q a = true) {k : Uuid} (hk : key a = k) :
    (rows.filter q).find? (fun r => decide (key r = k)) =
      rows.find? fun r => decide (key r = k) := by
  rw [hkey.find?_eq ha hk, (hkey.filter q).find?_eq (List.mem_filter.2 ⟨ha, hq⟩) hk]

section Lookups

variable {t : Tables}

theorem senderOf_restrict (h : TenantInv t) {b : StoredBatch} (hb : b ∈ t.batches)
    (howner : b.userId = user) : senderOf b.senderId (restrict user t) = senderOf b.senderId t := by
  obtain ⟨s, hs, hid, howner'⟩ := h.batchSender b hb
  exact find?_filter_of_key h.senderKey hs (by simp [howner', howner]) hid

/-- The counts of a batch of the user are over the user's own emails. -/
theorem statusCounts_restrict {b : StoredBatch} (hb : b ∈ t.batches) (howner : b.userId = user) :
    statusCounts b.id (restrict user t) = statusCounts b.id t := by
  unfold statusCounts
  have hcount : ∀ status, (ownEmails user t).countP (fun e =>
      decide (e.batchId = b.id) && decide (e.status = status)) = t.emails.countP fun e =>
        decide (e.batchId = b.id) && decide (e.status = status) := by
    intro status
    rw [ownEmails, List.countP_filter]
    apply List.countP_congr
    intro e _
    simp only [Bool.and_eq_true, decide_eq_true_eq]
    constructor
    · exact fun h => h.1
    · intro h
      exact ⟨h, ownsEmail_iff.2 ⟨b, hb, h.1.symm, howner⟩⟩
  simp only [restrict, hcount]

theorem batchResponse_restrict (h : TenantInv t) {b : StoredBatch} (hb : b ∈ t.batches)
    (howner : b.userId = user) : batchResponse b (restrict user t) = batchResponse b t := by
  unfold batchResponse
  rw [senderOf_restrict h hb howner, statusCounts_restrict hb howner]

/-- The rows that a list shows are the same, in the same order. -/
theorem rows_restrict (list : EmailList) (input : ListInput) :
    list.rows user input (restrict user t) = list.rows user input t := by
  have hfilter : ((ownEmails user t).filter fun e =>
      ownsEmail user (restrict user t) e && list.selects input e) =
        t.emails.filter fun e => ownsEmail user t e && list.selects input e := by
    rw [ownEmails, List.filter_filter]
    congr 1
    funext e
    rw [ownsEmail_restrict]
    cases ownsEmail user t e <;> simp
  unfold EmailList.rows
  rw [← hfilter]
  rfl

theorem page_restrict (list : EmailList) (input : ListInput) :
    list.page user input (restrict user t) = list.page user input t := by
  unfold EmailList.page
  rw [rows_restrict]

/-- What a page says about the batch and the sender of a row. -/
theorem subjectOf_restrict (h : TenantInv t) {e : StoredEmail} (howns : ownsEmail user t e = true) :
    subjectOf e.batchId (restrict user t) = subjectOf e.batchId t := by
  obtain ⟨b, hb, hid, howner⟩ := ownsEmail_iff.1 howns
  have hfound := find?_filter_of_key (q := fun b : StoredBatch => decide (b.userId = user))
    h.batchKey hb (by simp [howner]) hid
  unfold subjectOf
  exact congrArg _ hfound

theorem senderOf_email_restrict (h : TenantInv t) {e : StoredEmail} (he : e ∈ t.emails)
    (howns : ownsEmail user t e = true) :
    senderOf e.senderId (restrict user t) = senderOf e.senderId t := by
  obtain ⟨b, hb, hid, howner⟩ := ownsEmail_iff.1 howns
  obtain ⟨b', hb', hid', hsender⟩ := h.emailBatch e he
  have hsame := h.batchKey.eq_of_key_eq hb' hb (hid'.trans hid.symm)
  rw [← hsender, hsame]
  exact senderOf_restrict h hb howner

/-- A page of the user's emails, with items that only look at the batch and the sender. -/
theorem emailPage_restrict {α : Type} (list : EmailList) (item : Tables → StoredEmail → α)
    (input : ListInput)
    (hitem : ∀ e ∈ t.emails, ownsEmail user t e = true → item (restrict user t) e = item t e) :
    emailPage user list item input (restrict user t) = emailPage user list item input t := by
  unfold emailPage
  rw [page_restrict]
  congr 1
  apply List.map_congr_left
  intro e he
  obtain ⟨hmem, howns, -⟩ := mem_page he
  exact hitem e hmem howns

end Lookups

/-! ## Statements -/

section Statements

variable {P : Tables → Prop}

/-- An update of senders that keeps their owner. -/
theorem restrict_updateSenders (p : StoredSender → Bool) (data : SenderData) (now : Int)
    (t : Tables) : restrict user { t with senders := updateMany p (data.apply now) t.senders } =
      { restrict user t with
        senders := updateMany p (data.apply now) (restrict user t).senders } := by
  unfold restrict ownSenders
  rw [filter_updateMany]
  · rfl
  · intro s
    rfl

theorem updateSenders_commutes (p : StoredSender → Bool) (data : SenderData) (now : Int) :
    Action.Commutes (restrict user) P (updateSenders p data now) (updateSenders p data now) := by
  apply Action.Commutes.write
  intro t _
  exact (restrict_updateSenders p data now t).symm

theorem restrict_insertSender {sender : StoredSender} (howner : sender.userId = user)
    (t : Tables) : restrict user { t with senders := t.senders ++ [sender] } =
      { restrict user t with senders := (restrict user t).senders ++ [sender] } := by
  have hown : ownSenders user { t with senders := t.senders ++ [sender] } =
      ownSenders user t ++ [sender] := by
    simp [ownSenders, howner]
  unfold restrict
  rw [hown]
  rfl

/-- An insertion under a new id only meets conflicts with the user's own senders. -/
theorem insertSender_commutes {sender : StoredSender} (howner : sender.userId = user) :
    Action.Commutes (restrict user) (fun t => ∀ s ∈ t.senders, s.id ≠ sender.id)
      (insertSender sender) (insertSender sender) := by
  apply Action.Commutes.bind (.ofExcept _) (Action.ensures_of_readOnly (Action.readOnly_ofExcept _))
  intro _
  apply Action.Commutes.bind (.throwIf _) (Action.ensures_of_readOnly (Action.readOnly_throwIf _ _))
  · intro _
    apply Action.Commutes.bind (.write _) (Action.ensures_true _ _)
    · exact fun _ => .pure sender
    · exact fun t _ => (restrict_insertSender howner t).symm
  · intro t hfresh
    rw [Bool.eq_iff_iff, List.any_eq_true, List.any_eq_true]
    constructor
    · rintro ⟨s, hs, hconflict⟩
      exact ⟨s, (mem_ownSenders.1 hs).1, hconflict⟩
    · rintro ⟨s, hs, hconflict⟩
      refine ⟨s, mem_ownSenders.2 ⟨hs, ?_⟩, hconflict⟩
      rcases senderConflict_iff.1 hconflict with hid | ⟨howner', -⟩
      · exact absurd hid.symm (hfresh s hs)
      · rw [← howner', howner]

/-- An update of a sender of the user only meets conflicts with the user's own senders. -/
theorem updateSender_commutes {current : StoredSender} (howner : current.userId = user)
    (data : SenderData) (now : Int) :
    Action.Commutes (restrict user) P (updateSender current data now)
      (updateSender current data now) := by
  apply Action.Commutes.bind (.ofExcept _) (Action.ensures_of_readOnly (Action.readOnly_ofExcept _))
  intro _
  apply Action.Commutes.bind (.throwIf _) (Action.ensures_of_readOnly (Action.readOnly_throwIf _ _))
  · intro _
    apply Action.Commutes.bind (updateSenders_commutes _ data now) (Action.ensures_true _ _)
    exact fun _ => .pure _
  · intro t _
    rw [Bool.eq_iff_iff, List.any_eq_true, List.any_eq_true]
    constructor
    · rintro ⟨s, hs, hconflict⟩
      exact ⟨s, (mem_ownSenders.1 hs).1, hconflict⟩
    · rintro ⟨s, hs, hconflict⟩
      refine ⟨s, mem_ownSenders.2 ⟨hs, ?_⟩, hconflict⟩
      simp only [Bool.and_eq_true, decide_eq_true_eq] at hconflict
      rw [hconflict.2.1, howner]

end Statements

/-! ## Routes -/

section Routes

variable {config : AppConfig} {lib : Libraries} {ctx : RequestContext} {P : Tables → Prop}

theorem getSenders_restrict (t : Tables) :
    getSenders user (restrict user t) = getSenders user t := by
  unfold getSenders restrict ownSenders
  rw [List.filter_filter]
  simp

theorem postSenders_commutes (body : Option CreateSenderBody) (id : Uuid) (now : Int) :
    Action.Commutes (restrict user) (fun t => ∀ s ∈ t.senders, s.id ≠ id)
      (postSenders config lib user body id now) (postSenders config lib user body id now) := by
  apply Action.Commutes.bind (.ofExcept _) (Action.ensures_of_readOnly (Action.readOnly_ofExcept _))
  intro input
  apply Action.Commutes.bind (.ofExcept _) (Action.ensures_of_readOnly (Action.readOnly_ofExcept _))
  intro normalized
  apply Action.Commutes.mapError
  apply Action.Commutes.transaction
  apply Action.Commutes.bind (Q := fun _ t => ∀ s ∈ t.senders, s.id ≠ id)
    (.when _ (updateSenders_commutes _ _ now))
  · -- Taking the default flag from senders keeps their ids.
    intro t hfresh _ t' hok
    rw [when_updateSenders_eq_ok hok]
    intro r hr
    obtain ⟨s, hs, hid, -⟩ := exists_of_mem_undefault hr
    rw [hid]
    exact hfresh s hs
  · intro _
    have howner : (createdSender user input normalized id now).userId = user := rfl
    exact insertSender_commutes howner

theorem patchTransaction_commutes (senderId : Uuid) (input : UpdateSenderInput) (now : Int) :
    Action.Commutes (restrict user) P (patchTransaction lib user senderId input now)
      (patchTransaction lib user senderId input now) := by
  have hread : ∀ t, findOwnSender user senderId (restrict user t) =
    findOwnSender user senderId t := by
    intro t
    apply find?_filter_of_imp
    intro s hs
    rw [Bool.and_eq_true] at hs
    exact hs.2
  apply Action.Commutes.bind (.read fun t _ => hread t) (Action.ensures_read _ _)
  intro found
  cases found with
  | none => exact fun _ _ => rfl
  | some current =>
      -- The row that is read is the user's.
      rintro t ⟨-, hfound⟩
      obtain ⟨-, -, hown⟩ := findOwnSender_eq_some hfound
      have hrest : Action.Commutes (restrict user) (fun _ => True) (do
          .ofExcept (checkUpdate current input)
          let data ← .ofExcept (updateData lib input)
          Action.when (decide (input.isDefault = some true)) <|
            updateSenders (isOtherSender user senderId) { isDefault := some false } now
          updateSender current (withActive input data) now) (do
          .ofExcept (checkUpdate current input)
          let data ← .ofExcept (updateData lib input)
          Action.when (decide (input.isDefault = some true)) <|
            updateSenders (isOtherSender user senderId) { isDefault := some false } now
          updateSender current (withActive input data) now) := by
        apply Action.Commutes.bind (.ofExcept _) (Action.ensures_true _ _)
        intro _
        apply Action.Commutes.bind (.ofExcept _) (Action.ensures_true _ _)
        intro data
        apply Action.Commutes.bind (.when _ (updateSenders_commutes _ _ now))
          (Action.ensures_true _ _)
        exact fun _ => updateSender_commutes hown _ now
      exact hrest t trivial

theorem patchSender_commutes (senderId : Option Uuid) (body : Option UpdateSenderBody) (now : Int) :
    Action.Commutes (restrict user) P (patchSender config lib user senderId body now)
      (patchSender config lib user senderId body now) := by
  apply Action.Commutes.bind (.ofExcept _) (Action.ensures_true _ _)
  intro id
  apply Action.Commutes.bind (.ofExcept _) (Action.ensures_true _ _)
  intro input
  exact .mapError _ (.transaction (patchTransaction_commutes id input now))

theorem getBatch_commutes (batchId : Option Uuid) :
    Action.Commutes (restrict user) TenantInv (getBatch user batchId) (getBatch user batchId) := by
  apply Action.Commutes.bind (.ofExcept _) (Action.ensures_of_readOnly (Action.readOnly_ofExcept _))
  intro id
  have hread : ∀ t, findOwnBatch user id (restrict user t) = findOwnBatch user id t := by
    intro t
    apply find?_filter_of_imp
    intro b hb
    rw [Bool.and_eq_true] at hb
    exact hb.2
  apply Action.Commutes.bind (.read fun t _ => hread t) (Action.ensures_read _ _)
  intro found
  cases found with
  | none => exact fun _ _ => rfl
  | some batch =>
      apply Action.Commutes.read
      rintro t ⟨hinv, hfound⟩
      obtain ⟨hbatch, hown⟩ := findOwnBatch_eq_some hfound
      exact batchResponse_restrict hinv hbatch hown

theorem getScheduled_commutes (query : ListQuery) :
    Action.Commutes (restrict user) TenantInv (getScheduled config user query)
      (getScheduled config user query) := by
  apply Action.Commutes.bind (.ofExcept _) (Action.ensures_of_readOnly (Action.readOnly_ofExcept _))
  intro input
  apply Action.Commutes.read
  intro t hinv
  apply emailPage_restrict
  intro e he howns
  unfold scheduledItem
  rw [subjectOf_restrict hinv howns, senderOf_email_restrict hinv he howns]

theorem getSent_commutes (query : ListQuery) :
    Action.Commutes (restrict user) TenantInv (getSent config user query)
      (getSent config user query) := by
  apply Action.Commutes.bind (.ofExcept _) (Action.ensures_of_readOnly (Action.readOnly_ofExcept _))
  intro input
  apply Action.Commutes.read
  intro t hinv
  apply emailPage_restrict
  intro e he howns
  unfold sentItem
  rw [subjectOf_restrict hinv howns, senderOf_email_restrict hinv he howns]

/-! ### Creating a batch -/

theorem findBatchByKey_restrict (key : String) (t : Tables) :
    findBatchByKey user key (restrict user t) = findBatchByKey user key t := by
  apply find?_filter_of_imp
  intro b hb
  rw [Bool.and_eq_true] at hb
  exact hb.1

variable {input : CreateBatchInput}

/-- No email has an id or a key of a new row. -/
theorem emailConflict_of_fresh {t : Tables} (hinv : TenantInv t) (hfresh : ctx.Fresh t)
    {row : ScheduledEmail} (hrow : row ∈ emailRows input ctx.newId ctx.newEmailId)
    {e : StoredEmail} (he : e ∈ t.emails) : emailConflict row e.toScheduledEmail = false := by
  obtain ⟨i, hi, rfl⟩ := List.mem_mapIdx.1 hrow
  obtain ⟨hjob, hkey⟩ := hinv.emailKeys e he
  obtain ⟨b, hb, hid, -⟩ := hinv.emailBatch e he
  have hemail := hfresh.email e he i
  have hbatch : e.batchId ≠ ctx.newId := by
    rw [← hid]
    exact hfresh.batch b hb
  rw [Bool.eq_false_iff]
  intro hconflict
  unfold emailConflict at hconflict
  rw [Bool.or_eq_true, Bool.or_eq_true, Bool.or_eq_true, Bool.and_eq_true] at hconflict
  rcases hconflict with ((hsame | hsame) | hsame) | ⟨hsame, -⟩
  · exact hemail (of_decide_eq_true hsame).symm
  · have hsame : createBullJobId (ctx.newEmailId i) = e.bullJobId := of_decide_eq_true hsame
    rw [hjob] at hsame
    exact hemail (createBullJobId_injective hsame).symm
  · have hsame := congrArg (fun key => key.batchId) (of_decide_eq_true hsame)
    exact hbatch (hkey.symm.trans hsame.symm)
  · exact hbatch (of_decide_eq_true hsame).symm

/-- Among the user's own rows the transaction finds the same sender. -/
theorem findActiveSender_restrict (t : Tables) (senderId : Uuid) :
    findActiveSender (restrict user t).database senderId user =
      findActiveSender t.database senderId user := by
  unfold findActiveSender Tables.database
  rw [List.find?_map, List.find?_map]
  congr 1
  apply find?_filter_of_imp
  intro s hs
  simp only [Function.comp_apply, Bool.and_eq_true] at hs
  exact hs.1.2

/-- A batch with a new id only meets conflicts with the user's own batches. -/
theorem batchConflict_restrict {t : Tables} (hfresh : ctx.Fresh t) (howner : input.userId = user) :
    (restrict user t).database.batches.any (batchConflict (createdBatch input ctx.newId)) =
      t.database.batches.any (batchConflict (createdBatch input ctx.newId)) := by
  unfold Tables.database
  rw [List.any_map, List.any_map, Bool.eq_iff_iff, List.any_eq_true, List.any_eq_true]
  constructor
  · rintro ⟨b, hb, hconflict⟩
    exact ⟨b, (mem_ownBatches.1 hb).1, hconflict⟩
  · rintro ⟨b, hb, hconflict⟩
    refine ⟨b, mem_ownBatches.2 ⟨hb, ?_⟩, hconflict⟩
    rcases batchConflict_iff.1 hconflict with hid | ⟨howner', -⟩
    · exact absurd hid.symm (hfresh.batch b hb)
    · exact howner'.symm.trans howner

/-- The user's emails after the transaction: those before it, and the new ones. -/
theorem ownEmails_writeBatch {t : Tables} (hinv : TenantInv t) (hfresh : ctx.Fresh t)
    (howner : input.userId = user) :
    ownEmails user (writeBatch input ctx t) = ownEmails user t ++ storedEmails input ctx := by
  have hold : ∀ e ∈ t.emails, ownsEmail user (writeBatch input ctx t) e = ownsEmail user t e := by
    intro e he
    obtain ⟨b, hb, hid, -⟩ := hinv.emailBatch e he
    have hne : ctx.newId ≠ e.batchId := by
      rw [← hid]
      exact (hfresh.batch b hb).symm
    simp [ownsEmail, writeBatch, storedBatch, createdBatch, hne]
  have hnew : ∀ e ∈ storedEmails input ctx, ownsEmail user (writeBatch input ctx t) e = true := by
    intro e he
    obtain ⟨row, hrow, rfl⟩ := List.mem_map.1 he
    obtain ⟨i, hi, rfl⟩ := List.mem_mapIdx.1 hrow
    simp [ownsEmail, writeBatch, storedBatch, createdBatch, emailRow, howner]
  have hsplit : ownEmails user (writeBatch input ctx t) =
      t.emails.filter (ownsEmail user (writeBatch input ctx t)) ++
        (storedEmails input ctx).filter (ownsEmail user (writeBatch input ctx t)) :=
    List.filter_append ..
  rw [hsplit, List.filter_congr hold, List.filter_eq_self.2 hnew]
  rfl

theorem restrict_writeBatch {t : Tables} (hinv : TenantInv t) (hfresh : ctx.Fresh t)
    (howner : input.userId = user) :
    restrict user (writeBatch input ctx t) = writeBatch input ctx (restrict user t) := by
  have hsenders : ownSenders user (writeBatch input ctx t) =
      (writeBatch input ctx (restrict user t)).senders := by
    unfold ownSenders writeBatch
    rw [filter_updateMany]
    · rfl
    · intro s
      rfl
  have hbatches : ownBatches user (writeBatch input ctx t) =
      ownBatches user t ++ [storedBatch input ctx] := by
    simp [ownBatches, writeBatch, storedBatch, createdBatch, howner]
  unfold restrict
  rw [hsenders, hbatches, ownEmails_writeBatch hinv hfresh howner]
  rfl

/-- The tables are as the routes need them. -/
def Ready (ctx : RequestContext) (t : Tables) : Prop := TenantInv t ∧ ctx.Fresh t

theorem insertCreated_commutes (howner : input.userId = user) :
    Action.Commutes (restrict user) (Ready ctx) (insertCreated input ctx)
      (insertCreated input ctx) := by
  rintro t ⟨hinv, hfresh⟩
  have hfits : ∀ row ∈ emailRows input ctx.newId ctx.newEmailId,
      ∀ e ∈ t.database.emails, emailConflict row e = false := by
    intro row hrow e he
    obtain ⟨stored, hstored, rfl⟩ := List.mem_map.1 he
    exact emailConflict_of_fresh hinv hfresh hrow hstored
  have hfits' : ∀ row ∈ emailRows input ctx.newId ctx.newEmailId,
      ∀ e ∈ (restrict user t).database.emails, emailConflict row e = false := by
    intro row hrow e he
    obtain ⟨stored, hstored, rfl⟩ := List.mem_map.1 he
    exact emailConflict_of_fresh hinv hfresh hrow (List.mem_filter.1 hstored).1
  have hsender : findActiveSender (restrict user t).database input.senderId input.userId =
      findActiveSender t.database input.senderId input.userId := by
    rw [howner]
    exact findActiveSender_restrict t input.senderId
  -- Both runs end in the same way, so they write the same or nothing.
  have hsame := createBatchTransaction_congr hsender (batchConflict_restrict hfresh howner)
    hfits' hfits
  unfold insertCreated
  cases hrun : createBatchTransaction t.database input ctx.newId ctx.newEmailId with
  | error e =>
      rw [hrun] at hsame
      cases hown : createBatchTransaction (restrict user t).database input ctx.newId
          ctx.newEmailId with
      | error e' =>
          rw [hown] at hsame
          cases hsame
          rfl
      | ok _ =>
          rw [hown] at hsame
          cases hsame
  | ok created =>
      rw [hrun] at hsame
      cases hown : createBatchTransaction (restrict user t).database input ctx.newId
          ctx.newEmailId with
      | error e' =>
          rw [hown] at hsame
          cases hsame
      | ok _ =>
          dsimp only
          rw [restrict_writeBatch hinv hfresh howner]

theorem batchTransaction_commutes (howner : input.userId = user) :
    Action.Commutes (restrict user) (Ready ctx) (batchTransaction input ctx)
      (batchTransaction input ctx) := by
  apply Action.Commutes.bind _ (Action.ensures_of_readOnly (Action.readOnly_throwIf _ _))
  · intro _
    apply Action.Commutes.bind (.ofExcept _)
      (Action.ensures_of_readOnly (Action.readOnly_ofExcept _))
    intro _
    exact insertCreated_commutes howner
  · apply Action.Commutes.throwIf
    intro t _
    rw [howner, findActiveSender_restrict t input.senderId]

theorem rereadBatch_commutes (howner : input.userId = user) (error : RequestError) :
    Action.Commutes (restrict user) P (rereadBatch input error) (rereadBatch input error) := by
  subst howner
  unfold rereadBatch
  split
  · apply Action.Commutes.bind (.read fun t _ => findBatchByKey_restrict _ t)
      (Action.ensures_true _ _)
    intro raced
    cases raced with
    | none => exact fun _ _ => rfl
    | some batch => exact .pure _
  · exact fun _ _ => rfl

theorem createEmailBatch_commutes (howner : input.userId = user) :
    Action.Commutes (restrict user) (Ready ctx) (createEmailBatch input ctx)
      (createEmailBatch input ctx) := by
  have hread : ∀ t, Ready ctx t → findBatchByKey input.userId input.idempotencyKey
      (restrict user t) = findBatchByKey input.userId input.idempotencyKey t := by
    intro t _
    rw [howner]
    exact findBatchByKey_restrict _ t
  apply Action.Commutes.bind (.read hread) (Action.ensures_of_readOnly (Action.readOnly_read _))
  intro existing
  cases existing with
  | some batch => exact .pure _
  | none =>
      dsimp only
      split_ifs
      · exact fun _ _ => rfl
      · apply Action.Commutes.catchError
        · apply Action.Commutes.bind (batchTransaction_commutes howner) (Action.ensures_true _ _)
          exact fun _ => .pure _
        · exact (rollsBack_batchTransaction input ctx).bind_pure fun batch => (batch, false)
        · exact rereadBatch_commutes howner

end Routes

/-! ## Whole requests -/

section Requests

variable {config : AppConfig} {lib : Libraries} {ctx : RequestContext} {P : Tables → Prop}

/-- The state of a route without the rows of other users. -/
def restrictState (user : Uuid) (s : ApiState) : ApiState :=
  { s with tables := restrict user s.tables }

theorem onTables_commutes {α : Type} {x : Statement α}
    (h : Action.Commutes (restrict user) P x x) :
    Action.Commutes (restrictState user) (fun s => P s.tables) (onTables x) (onTables x) := by
  intro s hs
  have hrun := h s.tables hs
  unfold onTables restrictState
  rw [hrun]

theorem enqueueBatch_commutes (batchId : Uuid) {P : ApiState → Prop} :
    Action.Commutes (restrictState user) P (enqueueBatch ctx batchId) (enqueueBatch ctx batchId) :=
  fun _ _ => rfl

theorem postEmailBatches_commutes (upload : Except String Upload) (header : Option String) :
    Action.Commutes (restrictState user) (fun s => Ready ctx s.tables)
      (postEmailBatches config lib ctx user upload header)
      (postEmailBatches config lib ctx user upload header) := by
  apply Action.Commutes.bind (.ofExcept _) (Action.ensures_of_readOnly (Action.readOnly_ofExcept _))
  intro upload
  apply Action.Commutes.bind (.ofExcept _) (Action.ensures_of_readOnly (Action.readOnly_ofExcept _))
  intro key
  apply Action.Commutes.bind (Q := fun _ s => Ready ctx s.tables)
    (onTables_commutes (.read fun t _ => findBatchByKey_restrict key t))
    (Action.ensures_of_readOnly fun _ => rfl)
  intro existing
  cases existing with
  | some batch =>
      apply Action.Commutes.bind (enqueueBatch_commutes batch.id) (Action.ensures_true _ _)
      exact fun _ => .pure _
  | none =>
      apply Action.Commutes.bind (.ofExcept _) (Action.ensures_ofExcept _ _)
      -- The input carries the id of the user, whatever the request names.
      rintro input s ⟨hs, hinput⟩
      have howner := batchInput_userId hinput
      refine Action.Commutes.bind (onTables_commutes (createEmailBatch_commutes howner))
        (Action.ensures_true _ _) ?_ s hs
      rintro ⟨batch, replayed⟩
      apply Action.Commutes.bind (enqueueBatch_commutes batch.id) (Action.ensures_true _ _)
      exact fun _ => .pure _

/-- A route that is one statement or transaction, and the response made of its value. -/
theorem response_commutes {α : Type} {x : Statement α} (h : Action.Commutes (restrict user) P x x)
    (response : α → EmailResponse) :
    Action.Commutes (restrictState user) (fun s => P s.tables)
      (onTables x >>= fun a => pure (response a)) (onTables x >>= fun a => pure (response a)) := by
  apply Action.Commutes.bind (onTables_commutes h) (Action.ensures_true _ _)
  exact fun _ => .pure _

/-- **Every route does on the tables what it does on the rows of its user.** -/
theorem route_commutes (request : EmailRequest) :
    Action.Commutes (restrictState user) (fun s => Ready ctx s.tables)
      (route config lib user ctx request) (route config lib user ctx request) := by
  cases request with
  | getCompose => exact .pure _
  | getSenders => exact response_commutes (.read fun t _ => getSenders_restrict t) _
  | postSenders body =>
      apply response_commutes
      exact (postSenders_commutes body ctx.newId ctx.writtenAt).weaken fun _ h => h.2.sender
  | patchSender senderId body =>
      exact response_commutes (patchSender_commutes senderId body ctx.writtenAt) _
  | postEmailBatches upload idempotencyKey =>
      apply Action.Commutes.bind (postEmailBatches_commutes upload idempotencyKey)
        (Action.ensures_true _ _)
      exact fun _ => .pure _
  | getBatch batchId =>
      exact response_commutes ((getBatch_commutes batchId).weaken fun _ h => h.1) _
  | getScheduled query =>
      exact response_commutes ((getScheduled_commutes query).weaken fun _ h => h.1) _
  | getSent query => exact response_commutes ((getSent_commutes query).weaken fun _ h => h.1) _

end Requests

end EmailScheduler
