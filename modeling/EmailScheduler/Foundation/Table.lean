import Mathlib.Algebra.GroupWithZero.Nat
import Mathlib.Data.List.Nodup
import Mathlib.Data.List.Basic

/-!
# Tables with conditional bulk updates

A table is the list of its rows. `updateMany` rewrites the rows that match a condition, in place;
`updateManyAndReturn` also returns the rewritten rows. A primary key is a column without repeats.
-/

set_option autoImplicit false

namespace Foundation

universe u v

variable {α : Type u} {κ : Type v}

/-- Rewrite the rows that satisfy `p` by `f`. -/
def updateMany (p : α → Bool) (f : α → α) (rows : List α) : List α :=
  rows.map fun r => if p r then f r else r

/-- The rewritten rows, and the table after the update. -/
def updateManyAndReturn (p : α → Bool) (f : α → α) (rows : List α) : List α × List α :=
  ((rows.filter p).map f, updateMany p f rows)

/-- A column without repeats. -/
def PrimaryKey (key : α → κ) (rows : List α) : Prop := (rows.map key).Nodup

instance [DecidableEq κ] (key : α → κ) (rows : List α) : Decidable (PrimaryKey key rows) :=
  inferInstanceAs (Decidable (rows.map key).Nodup)

theorem mem_updateMany {p : α → Bool} {f : α → α} {rows : List α} {r : α} :
    r ∈ updateMany p f rows ↔ ∃ q ∈ rows, (if p q then f q else q) = r := by
  simp [updateMany]

/-- An update that matches no row leaves the table as it is. -/
theorem updateMany_of_none {p : α → Bool} {f : α → α} {rows : List α}
    (h : ∀ r ∈ rows, p r = false) : updateMany p f rows = rows := by
  unfold updateMany
  conv_rhs => rw [← List.map_id rows]
  refine List.map_congr_left fun r hr => ?_
  simp [h r hr]

/-- A column that `f` keeps is kept by the update. -/
theorem map_updateMany {β : Type v} (g : α → β) {p : α → Bool} {f : α → α}
    (hg : ∀ r, g (f r) = g r) (rows : List α) : (updateMany p f rows).map g = rows.map g := by
  unfold updateMany
  rw [List.map_map]
  refine List.map_congr_left fun r _ => ?_
  simp only [Function.comp_apply]
  split
  · exact hg r
  · rfl

/-- Looking up an updated row is updating the row looked up. -/
theorem find?_updateMany {p q : α → Bool} {f : α → α} (hq : ∀ r, q (f r) = q r) (rows : List α) :
    (updateMany p f rows).find? q = (rows.find? q).map fun r => if p r then f r else r := by
  have hcomp : (q ∘ fun r => if p r then f r else r) = q := by
    funext r
    simp only [Function.comp_apply]
    split
    · exact hq r
    · rfl
  unfold updateMany
  rw [List.find?_map, hcomp]

/-- Selecting from an updated table is updating the selected rows. -/
theorem filter_updateMany {p q : α → Bool} {f : α → α} (hq : ∀ r, q (f r) = q r) (rows : List α) :
    (updateMany p f rows).filter q = updateMany p f (rows.filter q) := by
  have hcomp : (q ∘ fun r => if p r then f r else r) = q := by
    funext r
    simp only [Function.comp_apply]
    split
    · exact hq r
    · rfl
  unfold updateMany
  rw [List.filter_map, hcomp]

/-- Rows that are not updated are selected as before. -/
theorem filter_updateMany_of_disjoint {p q : α → Bool} {f : α → α} (hq : ∀ r, q (f r) = q r)
    {rows : List α} (h : ∀ r ∈ rows, q r = true → p r = false) :
    (updateMany p f rows).filter q = rows.filter q := by
  rw [filter_updateMany hq]
  apply updateMany_of_none
  intro r hr
  rw [List.mem_filter] at hr
  exact h r hr.1 hr.2

theorem PrimaryKey.updateMany {key : α → κ} {p : α → Bool} {f : α → α} {rows : List α}
    (h : PrimaryKey key rows) (hf : ∀ r, key (f r) = key r) :
    PrimaryKey key (updateMany p f rows) := by
  unfold PrimaryKey
  rw [map_updateMany key hf]
  exact h

/-- The key may be part of columns that do not change. -/
theorem PrimaryKey.of_map_eq {β : Type v} {columns : α → β} {f : β → κ} {rows rows' : List α}
    (h : PrimaryKey (f ∘ columns) rows) (hsame : rows'.map columns = rows.map columns) :
    PrimaryKey (f ∘ columns) rows' := by
  unfold PrimaryKey at h ⊢
  rw [← List.map_map, hsame, List.map_map]
  exact h

/-- Every row of a table with the same columns has those of a row before. -/
theorem exists_of_map_eq {β : Type v} {columns : α → β} {rows rows' : List α}
    (h : rows'.map columns = rows.map columns) {r : α} (hr : r ∈ rows') :
    ∃ q ∈ rows, columns q = columns r := by
  have hcolumns : columns r ∈ rows.map columns := by
    rw [← h]
    exact List.mem_map_of_mem hr
  exact List.mem_map.1 hcolumns

/-- Two rows with one key are one row. -/
theorem PrimaryKey.eq_of_key_eq {key : α → κ} {rows : List α} (h : PrimaryKey key rows) {r q : α}
    (hr : r ∈ rows) (hq : q ∈ rows) (hk : key r = key q) : r = q :=
  List.inj_on_of_nodup_map h hr hq hk

/-- Looking up a key finds the row that has it. -/
theorem PrimaryKey.find?_eq [DecidableEq κ] {key : α → κ} {rows : List α} (h : PrimaryKey key rows)
    {r : α} (hr : r ∈ rows) {k : κ} (hk : key r = k) :
    rows.find? (fun q => decide (key q = k)) = some r := by
  cases hfind : rows.find? fun q => decide (key q = k) with
  | none =>
      have hnone := List.find?_eq_none.1 hfind r hr
      simp [hk] at hnone
  | some q =>
      have hq := List.find?_some hfind
      rw [decide_eq_true_eq] at hq
      rw [h.eq_of_key_eq (List.mem_of_find?_eq_some hfind) hr (hq.trans hk.symm)]

/-- Updating the row with a key changes this row in its place. -/
theorem PrimaryKey.updateMany_append_cons [DecidableEq κ] {key : α → κ}
    {front back : List α} {r : α}
    (h : PrimaryKey key (front ++ r :: back)) (f : α → α) :
    Foundation.updateMany (fun q => decide (key q = key r)) f (front ++ r :: back) =
      front ++ f r :: back := by
  have hother : ∀ q, q ∈ front ∨ q ∈ back → decide (key q = key r) = false := by
    intro q hq
    rw [decide_eq_false_iff_not]
    intro hkq
    rw [PrimaryKey, List.map_append, List.map_cons, List.nodup_middle, List.nodup_cons,
      ← List.map_append, ← hkq] at h
    exact h.1 (List.mem_map_of_mem (List.mem_append.2 hq))
  have hfront := updateMany_of_none (f := f) fun q hq => hother q (Or.inl hq)
  have hback := updateMany_of_none (f := f) fun q hq => hother q (Or.inr hq)
  unfold Foundation.updateMany at hfront hback ⊢
  rw [List.map_append, List.map_cons, hfront, hback, if_pos (decide_eq_true rfl)]

theorem PrimaryKey.exists_updateMany_eq [DecidableEq κ] {key : α → κ} {rows : List α}
    (h : PrimaryKey key rows) {r : α} (hr : r ∈ rows) {k : κ} (hk : key r = k) (f : α → α) :
    ∃ front back, rows = front ++ r :: back ∧
      Foundation.updateMany (fun q => decide (key q = k)) f rows = front ++ f r :: back := by
  obtain ⟨front, back, rfl⟩ := List.append_of_mem hr
  subst hk
  exact ⟨front, back, rfl, h.updateMany_append_cons f⟩

theorem PrimaryKey.filter {key : α → κ} {rows : List α} (h : PrimaryKey key rows) (p : α → Bool) :
    PrimaryKey key (rows.filter p) :=
  List.Nodup.sublist (List.filter_sublist.map key) h

/-- A condition that only rows with the key of a row meet picks that row. -/
theorem PrimaryKey.filter_eq_singleton {key : α → κ} {rows : List α} (h : PrimaryKey key rows)
    {p : α → Bool} {r : α} (hr : r ∈ rows) (hp : p r = true)
    (hkey : ∀ q, p q = true → key q = key r) :
    rows.filter p = [r] := by
  obtain ⟨front, back, rfl⟩ := List.append_of_mem hr
  have hother : ∀ q, q ∈ front ∨ q ∈ back → ¬ p q = true := by
    intro q hq hpq
    rw [PrimaryKey, List.map_append, List.map_cons, List.nodup_middle, List.nodup_cons,
      ← List.map_append, ← hkey q hpq] at h
    exact h.1 (List.mem_map_of_mem (List.mem_append.2 hq))
  rw [List.filter_append, List.filter_cons_of_pos hp,
    List.filter_eq_nil_iff.2 fun q hq => hother q (Or.inl hq),
    List.filter_eq_nil_iff.2 fun q hq => hother q (Or.inr hq), List.nil_append]

theorem PrimaryKey.singleton (key : α → κ) (r : α) : PrimaryKey key [r] := List.nodup_singleton _

theorem PrimaryKey.append {key : α → κ} {rows more : List α} (h : PrimaryKey key rows)
    (hm : PrimaryKey key more) (hd : ∀ r ∈ rows, ∀ q ∈ more, key r ≠ key q) :
    PrimaryKey key (rows ++ more) := by
  unfold PrimaryKey
  rw [List.map_append, List.nodup_append]
  refine ⟨h, hm, ?_⟩
  intro a ha b hb
  obtain ⟨r, hr, rfl⟩ := List.mem_map.1 ha
  obtain ⟨q, hq, rfl⟩ := List.mem_map.1 hb
  exact hd r hr q hq

/-- Rows of two parts of a table have different keys. -/
theorem PrimaryKey.ne_of_append {key : α → κ} {rows more : List α}
    (h : PrimaryKey key (rows ++ more))
    {r q : α} (hr : r ∈ rows) (hq : q ∈ more) : key r ≠ key q := by
  rw [PrimaryKey, List.map_append, List.nodup_append] at h
  exact h.2.2 _ (List.mem_map_of_mem hr) _ (List.mem_map_of_mem hq)

/-- The first row of a conditional update that returns rows comes from a matching row. -/
theorem mem_of_head?_updateManyAndReturn {p : α → Bool} {f : α → α} {rows : List α} {r : α}
    (h : (updateManyAndReturn p f rows).1.head? = some r) : ∃ q ∈ rows, p q = true ∧ r = f q := by
  have hr : r ∈ (rows.filter p).map f := List.mem_of_mem_head? h
  obtain ⟨q, hq, rfl⟩ := List.mem_map.1 hr
  rw [List.mem_filter] at hq
  exact ⟨q, hq.1, hq.2, rfl⟩

/-- A conditional update that returns no row has changed nothing. -/
theorem updateManyAndReturn_of_head?_none {p : α → Bool} {f : α → α} {rows : List α}
    (h : (updateManyAndReturn p f rows).1.head? = none) :
    (∀ r ∈ rows, p r = false) ∧ (updateManyAndReturn p f rows).2 = rows := by
  have hnil : rows.filter p = [] := by
    simpa [updateManyAndReturn] using h
  have hnone : ∀ r ∈ rows, p r = false := by
    intro r hr
    have := List.filter_eq_nil_iff.1 hnil r hr
    simpa using this
  exact ⟨hnone, updateMany_of_none hnone⟩

/-- A stronger condition that some row misses is met by fewer rows. -/
theorem countP_lt_countP {p q : α → Bool} {rows : List α} {r : α} (h : ∀ x ∈ rows, p x → q x)
    (hr : r ∈ rows) (hq : q r = true) (hp : p r = false) : rows.countP p < rows.countP q := by
  obtain ⟨front, back, rfl⟩ := List.append_of_mem hr
  have hfront : front.countP p ≤ front.countP q :=
    List.countP_mono_left fun x hx => h x (List.mem_append_left _ hx)
  have hback : back.countP p ≤ back.countP q :=
    List.countP_mono_left fun x hx => h x (List.mem_append_right _ (List.mem_cons_of_mem _ hx))
  rw [List.countP_append, List.countP_append, List.countP_cons_of_pos hq,
    List.countP_cons_of_neg (by simp [hp])]
  omega

/-! ## Counts by a column -/

section Counts

variable [DecidableEq κ]

/-- The rows with one of two values are those with the first and those with the second. -/
theorem countP_mem_cons {key : α → κ} {k : κ} {keys : List κ} (hk : k ∉ keys) (rows : List α) :
    (rows.countP fun r => decide (key r ∈ k :: keys)) =
      (rows.countP fun r => decide (key r = k)) + rows.countP fun r => decide (key r ∈ keys) := by
  induction rows with
  | nil => rfl
  | cons r rows ih =>
      rw [List.countP_cons, List.countP_cons, List.countP_cons, ih]
      by_cases hr : key r = k
      · have hother : key r ∉ keys := by
          rw [hr]
          exact hk
        simp [hr, hk]
        omega
      · simp [hr]
        omega

/-- **The counts by a column add up** to the rows that have one of its values. -/
theorem sum_countP_eq {keys : List κ} (hkeys : keys.Nodup) (key : α → κ) (rows : List α) :
    (keys.map fun k => rows.countP fun r => decide (key r = k)).sum =
      rows.countP fun r => decide (key r ∈ keys) := by
  induction keys with
  | nil => simp
  | cons k keys ih =>
      obtain ⟨hk, hrest⟩ := List.nodup_cons.1 hkeys
      rw [List.map_cons, List.sum_cons, ih hrest, countP_mem_cons hk]

omit [DecidableEq κ] in
/-- Values that do not occur can be left out of a count. -/
theorem sum_filter_pos (counts : List (κ × Nat)) :
    ((counts.filter fun entry => 0 < entry.2).map Prod.snd).sum = (counts.map Prod.snd).sum := by
  induction counts with
  | nil => rfl
  | cons entry counts ih =>
      by_cases hpos : 0 < entry.2
      · rw [List.filter_cons_of_pos (by simpa using hpos), List.map_cons, List.sum_cons, ih,
          List.map_cons, List.sum_cons]
      · have hzero : entry.2 = 0 := by omega
        rw [List.filter_cons_of_neg (by simpa using hpos), ih, List.map_cons, List.sum_cons, hzero,
          Nat.zero_add]

/-- A value that is left out counts as zero. -/
theorem lookup_filter_pos (count : κ → Nat) {keys : List κ} {k : κ} (hk : k ∈ keys) :
    (((keys.map fun k => (k, count k)).filter fun entry => 0 < entry.2).lookup k).getD 0 =
      count k := by
  induction keys with
  | nil => cases hk
  | cons k' keys ih =>
      by_cases heq : k = k'
      · subst heq
        by_cases hpos : 0 < count k
        · simp [hpos]
        · -- The value occurs nowhere else with another count.
          have hzero : count k = 0 := by omega
          have hnone : ((keys.map fun k => (k, count k)).filter fun entry => 0 < entry.2).lookup k =
              none := by
            rw [List.lookup_eq_none_iff]
            intro entry hentry
            obtain ⟨hmem, hentry⟩ := List.mem_filter.1 hentry
            obtain ⟨k', -, rfl⟩ := List.mem_map.1 hmem
            have hpos' : 0 < count k' := by simpa using hentry
            rw [bne_iff_ne]
            rintro rfl
            omega
          simp [hzero, hnone]
      · have hrest := ih ((List.mem_cons.1 hk).resolve_left heq)
        have hne : (k == k') = false := beq_eq_false_iff_ne.2 heq
        by_cases hpos : 0 < count k'
        · simp [hpos, hne, List.lookup_cons, hrest]
        · simp [hpos, hrest]

end Counts

end Foundation
