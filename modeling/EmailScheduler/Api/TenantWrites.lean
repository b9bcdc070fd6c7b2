import EmailScheduler.Api.DefaultSender
import EmailScheduler.Api.Isolation
import EmailScheduler.Delivery.Rows

/-!
# What a request writes

A request of a user creates a sender of the user, updates one, or creates a batch of one, or it
changes nothing (`TenantWrite`). The `update` by a bare id is among these: the row that it names was
read with the user's id before.

Each of these writes keeps the references between the rows (`TenantInv`), and the rows of every
other user (`agreeOn_of_tenantWrite`). So does any write that leaves alone the columns that say
whose rows these are (`TenantInv.keepsKeys`), and the worker writes no others.
-/

set_option autoImplicit false

namespace EmailScheduler

open Foundation

/-! ## Writes of other columns -/

/-- The rows are the same ones, and only columns that are no keys are written. -/
def Tables.KeepsKeys (t t' : Tables) : Prop :=
  t'.users = t.users ∧ t.database.KeepsKeys t'.database

instance (t t' : Tables) : Decidable (t.KeepsKeys t') := inferInstanceAs (Decidable (_ ∧ _))

variable {t t' : Tables} {user other : Uuid}

namespace Tables.KeepsKeys

theorem senders (h : t.KeepsKeys t') : t'.senders.map (fun s => (s.id, s.userId)) =
    t.senders.map fun s => (s.id, s.userId) := by
  have hkeys := h.2.1
  simp only [Tables.database, List.map_map] at hkeys
  exact hkeys

theorem batches (h : t.KeepsKeys t') : t'.batches.map (fun b => (b.id, b.userId, b.senderId)) =
    t.batches.map fun b => (b.id, b.userId, b.senderId) := by
  have hkeys := h.2.2.1
  simp only [Tables.database, List.map_map] at hkeys
  exact hkeys

theorem emails (h : t.KeepsKeys t') : t'.emails.map (fun e => e.toScheduledEmail.key) =
    t.emails.map fun e => e.toScheduledEmail.key := by
  have hkeys := h.2.2.2
  simp only [Tables.database, List.map_map] at hkeys
  exact hkeys

end Tables.KeepsKeys

/-! ## The references between rows -/

namespace TenantInv

theorem empty : TenantInv {} where
  userKey := List.nodup_nil
  senderKey := List.nodup_nil
  batchKey := List.nodup_nil
  senderOwner := by simp
  userSender := by simp
  batchSender := by simp
  emailBatch := by simp
  emailKeys := by simp

/-- **Writes of other columns** keep the references. -/
theorem keepsKeys (h : TenantInv t) (hkeys : t.KeepsKeys t') : TenantInv t' where
  userKey := by
    rw [hkeys.1]
    exact h.userKey
  senderKey := PrimaryKey.of_map_eq (f := Prod.fst) h.senderKey hkeys.senders
  batchKey := PrimaryKey.of_map_eq (f := Prod.fst) h.batchKey hkeys.batches
  senderOwner r hr := by
    obtain ⟨s, hs, hkey⟩ := exists_of_map_eq hkeys.senders hr
    obtain ⟨-, howner⟩ := Prod.mk.inj hkey
    rw [hkeys.1, ← howner]
    exact h.senderOwner s hs
  userSender v hv := by
    rw [hkeys.1] at hv
    obtain ⟨s, hs, howner⟩ := h.userSender v hv
    obtain ⟨r, hr, hkey⟩ := exists_of_map_eq hkeys.senders.symm hs
    obtain ⟨-, howner'⟩ := Prod.mk.inj hkey
    exact ⟨r, hr, howner'.trans howner⟩
  batchSender c hc := by
    obtain ⟨b, hb, hkey⟩ := exists_of_map_eq hkeys.batches hc
    simp only [Prod.mk.injEq] at hkey
    obtain ⟨-, howner, hsender⟩ := hkey
    obtain ⟨s, hs, hid, howner'⟩ := h.batchSender b hb
    obtain ⟨r, hr, hkey⟩ := exists_of_map_eq hkeys.senders.symm hs
    obtain ⟨hid', howner''⟩ := Prod.mk.inj hkey
    exact ⟨r, hr, hid'.trans (hid.trans hsender), howner''.trans (howner'.trans howner)⟩
  emailBatch f hf := by
    obtain ⟨e, he, hkey⟩ := exists_of_map_eq hkeys.emails hf
    simp only [ScheduledEmail.key, Prod.mk.injEq] at hkey
    obtain ⟨-, hbatch, hsender, -⟩ := hkey
    obtain ⟨b, hb, hid, hsender'⟩ := h.emailBatch e he
    obtain ⟨c, hc, hkey⟩ := exists_of_map_eq hkeys.batches.symm hb
    simp only [Prod.mk.injEq] at hkey
    obtain ⟨hid', -, hsender''⟩ := hkey
    exact ⟨c, hc, hid'.trans (hid.trans hbatch), hsender''.trans (hsender'.trans hsender)⟩
  emailKeys f hf := by
    obtain ⟨e, he, hkey⟩ := exists_of_map_eq hkeys.emails hf
    simp only [ScheduledEmail.key, Prod.mk.injEq] at hkey
    obtain ⟨hid, hbatch, -, hjob, hrecipient⟩ := hkey
    obtain ⟨hjob', hrecipient'⟩ := h.emailKeys e he
    rw [← hid, ← hbatch, ← hjob, ← hrecipient]
    exact ⟨hjob', hrecipient'⟩

/-- A new sender belongs to a user. -/
theorem addSender (h : TenantInv t) {sender : StoredSender}
    (howner : ∃ v ∈ t.users, v.id = sender.userId) (hnew : ∀ s ∈ t.senders, s.id ≠ sender.id) :
    TenantInv { t with senders := t.senders ++ [sender] } where
  userKey := h.userKey
  senderKey := by
    apply h.senderKey.append (.singleton _ _)
    intro s hs r hr
    rw [List.mem_singleton.1 hr]
    exact hnew s hs
  batchKey := h.batchKey
  senderOwner s hs := by
    rcases List.mem_append.1 hs with hs | hs
    · exact h.senderOwner s hs
    · rw [List.mem_singleton.1 hs]
      exact howner
  userSender v hv := by
    obtain ⟨s, hs, howner⟩ := h.userSender v hv
    exact ⟨s, List.mem_append_left _ hs, howner⟩
  batchSender b hb := by
    obtain ⟨s, hs, hsender⟩ := h.batchSender b hb
    exact ⟨s, List.mem_append_left _ hs, hsender⟩
  emailBatch := h.emailBatch
  emailKeys := h.emailKeys

/-- A new batch belongs to the owner of its sender, and its emails to it. -/
theorem addBatch (h : TenantInv t) {input : CreateBatchInput} {ctx : RequestContext}
    (hsender : ∃ s ∈ t.senders, s.id = input.senderId ∧ s.userId = input.userId)
    (hnew : ∀ b ∈ t.batches, b.id ≠ ctx.newId) :
    TenantInv { t with
      batches := t.batches ++ [storedBatch input ctx]
      emails := t.emails ++ storedEmails input ctx } where
  userKey := h.userKey
  senderKey := h.senderKey
  batchKey := by
    apply h.batchKey.append (.singleton _ _)
    intro b hb c hc
    rw [List.mem_singleton.1 hc]
    exact hnew b hb
  senderOwner := h.senderOwner
  userSender := h.userSender
  batchSender b hb := by
    rcases List.mem_append.1 hb with hb | hb
    · exact h.batchSender b hb
    · rw [List.mem_singleton.1 hb]
      exact hsender
  emailBatch e he := by
    rcases List.mem_append.1 he with he | he
    · obtain ⟨b, hb, hkeys⟩ := h.emailBatch e he
      exact ⟨b, List.mem_append_left _ hb, hkeys⟩
    · obtain ⟨row, hrow, rfl⟩ := List.mem_map.1 he
      refine ⟨storedBatch input ctx, by simp, ?_, ?_⟩
      · exact (batchId_of_mem_emailRows hrow).symm
      · exact (senderId_of_mem_emailRows hrow).symm
  emailKeys e he := by
    rcases List.mem_append.1 he with he | he
    · exact h.emailKeys e he
    · obtain ⟨row, hrow, rfl⟩ := List.mem_map.1 he
      obtain ⟨i, hi, rfl⟩ := List.mem_mapIdx.1 hrow
      exact ⟨rfl, rfl⟩

end TenantInv

/-! ## The writes of a request -/

/-- What a request of a user writes. -/
inductive TenantWrite (user : Uuid) (t : Tables) : Tables → Prop where
  | nothing : TenantWrite user t t
  | senderCreated {sender : StoredSender} (c : Bool) (now : Int) : sender.userId = user →
      (∃ v ∈ t.users, v.id = user) → (∀ s ∈ t.senders, s.id ≠ sender.id) →
      TenantWrite user t { t with
        senders := undefault c (fun s => decide (s.userId = user)) now t.senders ++ [sender] }
  | senderUpdated {current : StoredSender} (data : SenderData) (c : Bool) (now : Int) :
      current ∈ t.senders → current.userId = user →
      TenantWrite user t { t with
        senders := updateMany (fun s => decide (s.id = current.id)) (data.apply now)
          (undefault c (isOtherSender user current.id) now t.senders) }
  | batchCreated {input : CreateBatchInput} {ctx : RequestContext} : input.userId = user →
      (∃ s ∈ t.senders, s.id = input.senderId ∧ s.userId = input.userId) →
      (∀ b ∈ t.batches, b.id ≠ ctx.newId) → TenantWrite user t (writeBatch input ctx t)

/-- A write of sender columns that leaves ids and owners alone. -/
theorem keepsKeys_senders {senders : List StoredSender}
    (h : senders.map (fun s => (s.id, s.userId)) = t.senders.map fun s => (s.id, s.userId)) :
    t.KeepsKeys { t with senders } := by
  refine ⟨rfl, ?_, rfl, rfl⟩
  simp only [Tables.database, List.map_map]
  exact h

/-- An update keeps ids and owners. -/
theorem map_updateMany_apply (p : StoredSender → Bool) (data : SenderData) (now : Int)
    (senders : List StoredSender) :
    (updateMany p (data.apply now) senders).map (fun s => (s.id, s.userId)) =
      senders.map fun s => (s.id, s.userId) := by
  apply map_updateMany
  intro s
  rfl

theorem map_undefault (c : Bool) (p : StoredSender → Bool) (now : Int)
    (senders : List StoredSender) : (undefault c p now senders).map (fun s => (s.id, s.userId)) =
      senders.map fun s => (s.id, s.userId) := by
  unfold undefault
  split
  · exact map_updateMany_apply p _ now senders
  · rfl

/-- **A request keeps the references between rows.** -/
theorem TenantInv.write (h : TenantInv t) (hwrite : TenantWrite user t t') : TenantInv t' := by
  cases hwrite with
  | nothing => exact h
  | senderCreated c now howner huser hnew =>
      refine (h.keepsKeys (keepsKeys_senders (map_undefault c _ now t.senders))).addSender ?_ ?_
      · rw [howner]
        exact huser
      · intro r hr
        obtain ⟨s, hs, hid, -⟩ := exists_of_mem_undefault hr
        rw [hid]
        exact hnew s hs
  | senderUpdated data c now _ _ =>
      apply h.keepsKeys
      apply keepsKeys_senders
      rw [map_updateMany_apply]
      exact map_undefault c _ now t.senders
  | @batchCreated input ctx howner hsender hnew =>
      have hsenders : t.KeepsKeys { t with
          senders := updateMany (fun s => decide (s.id = input.senderId))
            ((policyData input).apply ctx.writtenAt) t.senders } :=
        keepsKeys_senders (map_updateMany_apply _ _ _ _)
      -- The update of the policy keeps the sender and its owner.
      refine (h.keepsKeys hsenders).addBatch ?_ hnew
      obtain ⟨s, hs, hid, hown⟩ := hsender
      refine ⟨_, mem_updateMany.2 ⟨s, hs, rfl⟩, ?_⟩
      split <;> exact ⟨hid, hown⟩

/-! ## The rows of the other users -/

/-- Flags are taken from senders of one user only. -/
theorem ownSenders_undefault {p : StoredSender → Bool} (hother : other ≠ user)
    (hp : ∀ s, p s = true → s.userId = user) (c : Bool) (now : Int) (senders : List StoredSender) :
    (undefault c p now senders).filter (fun s => decide (s.userId = other)) =
      senders.filter fun s => decide (s.userId = other) := by
  unfold undefault
  split
  · apply filter_updateMany_of_disjoint
    · intro s
      rfl
    · intro s _ hs
      rw [decide_eq_true_eq] at hs
      rw [Bool.eq_false_iff]
      intro hmatch
      exact hother (hs.symm.trans (hp s hmatch))
  · rfl

/-- An update by a bare id changes no sender of another user, if the id is that of an own sender. -/
theorem ownSenders_updateMany (hkey : PrimaryKey (fun s : StoredSender => s.id) t.senders)
    (hother : other ≠ user) {current : StoredSender} (hcurrent : current ∈ t.senders)
    (howner : current.userId = user) (data : SenderData) (now : Int) {senders : List StoredSender}
    (hsenders : senders.map (fun s => (s.id, s.userId)) = t.senders.map fun s => (s.id, s.userId)) :
    (updateMany (fun s => decide (s.id = current.id)) (data.apply now) senders).filter
      (fun s => decide (s.userId = other)) = senders.filter fun s => decide (s.userId = other) := by
  apply filter_updateMany_of_disjoint
  · intro s
    rfl
  · intro r hr hrow
    rw [decide_eq_true_eq] at hrow
    rw [decide_eq_false_iff_not]
    intro hid
    obtain ⟨s, hs, hsame⟩ := exists_of_map_eq hsenders hr
    obtain ⟨hid', howner'⟩ := Prod.mk.inj hsame
    have hrow' := hkey.eq_of_key_eq hs hcurrent (hid'.trans hid)
    rw [← hrow, ← howner', hrow'] at hother
    exact hother howner

/-- The new emails of a batch are of no other user, whose emails stay. -/
theorem ownEmails_writeBatch_of_ne {input : CreateBatchInput} {ctx : RequestContext}
    (hother : input.userId ≠ other) (hnew : ∀ b ∈ t.batches, b.id ≠ ctx.newId) :
    ownEmails other (writeBatch input ctx t) = ownEmails other t := by
  have hnot : (storedBatch input ctx).userId ≠ other := hother
  have hold : ∀ e ∈ t.emails, ownsEmail other (writeBatch input ctx t) e = ownsEmail other t e := by
    intro e _
    simp [ownsEmail, writeBatch, hnot]
  have hnone : ∀ e ∈ storedEmails input ctx,
      ownsEmail other (writeBatch input ctx t) e = false := by
    intro e he
    obtain ⟨row, hrow, rfl⟩ := List.mem_map.1 he
    rw [Bool.eq_false_iff]
    intro howns
    obtain ⟨b, hb, hbatch, hother'⟩ := ownsEmail_iff.1 howns
    rw [batchId_of_mem_emailRows hrow] at hbatch
    -- The only batch with the new id is the new one, and it is not the other user's.
    rcases List.mem_append.1 hb with hb | hb
    · exact hnew b hb hbatch
    · rw [List.mem_singleton.1 hb] at hother'
      exact hnot hother'
  have hnil : (storedEmails input ctx).filter (ownsEmail other (writeBatch input ctx t)) = [] := by
    rw [List.filter_eq_nil_iff]
    intro e he
    rw [hnone e he]
    exact Bool.false_ne_true
  calc ownEmails other (writeBatch input ctx t)
      = t.emails.filter (ownsEmail other (writeBatch input ctx t)) ++
          (storedEmails input ctx).filter (ownsEmail other (writeBatch input ctx t)) :=
        List.filter_append ..
    _ = t.emails.filter (ownsEmail other t) ++ [] := by rw [List.filter_congr hold, hnil]
    _ = ownEmails other t := List.append_nil _

/-- **A request keeps the rows of every other user.** -/
theorem agreeOn_of_tenantWrite (h : TenantInv t) (hwrite : TenantWrite user t t')
    (hother : other ≠ user) : AgreeOn other t t' := by
  cases hwrite with
  | nothing => exact ⟨rfl, rfl, rfl⟩
  | @senderCreated sender c now howner _ _ =>
      refine ⟨?_, rfl, rfl⟩
      have hnot : sender.userId ≠ other := by
        rw [howner]
        exact hother.symm
      unfold ownSenders
      rw [List.filter_append, ownSenders_undefault hother (by simp)]
      simp [hnot]
  | senderUpdated data c now hcurrent howner =>
      refine ⟨?_, rfl, rfl⟩
      unfold ownSenders
      dsimp only
      rw [ownSenders_updateMany h.senderKey hother hcurrent howner data now
        (map_undefault c _ now t.senders)]
      -- The other senders that lose the flag are the same user's.
      apply Eq.symm
      apply ownSenders_undefault hother
      intro s hs
      simp only [isOtherSender, Bool.and_eq_true, decide_eq_true_eq] at hs
      exact hs.1
  | @batchCreated input ctx howner hsender hnew =>
      obtain ⟨s, hs, hid, hown⟩ := hsender
      rw [← howner] at hother
      have hnot : (storedBatch input ctx).userId ≠ other := hother.symm
      refine ⟨?_, ?_, (ownEmails_writeBatch_of_ne hother.symm hnew).symm⟩
      · unfold ownSenders writeBatch
        dsimp only
        rw [← hid, ownSenders_updateMany h.senderKey hother hs hown _ _ rfl]
      · simp [ownBatches, writeBatch, hnot]

end EmailScheduler
