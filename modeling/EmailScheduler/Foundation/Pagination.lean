import Mathlib.Data.List.Sort
import EmailScheduler.Foundation.Table

/-!
# Pages of a table

A page query returns at most `take` of the rows that match a condition, in the order of a key, from
a cursor on. The cursor is a key that an earlier page ended with: the query starts at the first
matching row whose key is not below the cursor, and drops that row. The row dropped is the cursor's
own as long as that row still matches; otherwise it is the first row after it (`skippedRow`), which
no later page returns either.
-/

set_option autoImplicit false

namespace Foundation

universe u v

variable {α : Type u} {κ : Type v} [LinearOrder κ]

/-- The matching rows whose key is not below the cursor, in the order of the key. -/
def fromCursor (p : α → Bool) (key : α → κ) (cursor : Option κ) (rows : List α) : List α :=
  ((rows.filter p).insertionSort fun a b => key a ≤ key b).filter fun r =>
    cursor.all fun c => decide (c ≤ key r)

/-- The rows after the one a cursor skips. -/
def afterSkip (p : α → Bool) (key : α → κ) (cursor : Option κ) (rows : List α) : List α :=
  match cursor with
  | none => fromCursor p key none rows
  | some c => (fromCursor p key (some c) rows).drop 1

/-- A page. -/
def findPage (p : α → Bool) (key : α → κ) (cursor : Option κ) (take : Nat) (rows : List α) :
    List α :=
  (afterSkip p key cursor rows).take take

/-- The row that a cursor skips. -/
def skippedRow (p : α → Bool) (key : α → κ) (cursor : Option κ) (rows : List α) : Option α :=
  match cursor with
  | none => none
  | some c => (fromCursor p key (some c) rows).head?

variable {p : α → Bool} {key : α → κ} {cursor : Option κ} {take : Nat} {rows : List α} {r : α}

theorem mem_fromCursor :
    r ∈ fromCursor p key cursor rows ↔ (r ∈ rows ∧ p r = true) ∧ ∀ c ∈ cursor, c ≤ key r := by
  simp [fromCursor, List.mem_insertionSort, Option.all_eq_true]

/-- Rows sorted by a key that does not repeat are in strict order. -/
theorem pairwise_insertionSort_of_primaryKey (hkey : PrimaryKey key rows) :
    (rows.insertionSort fun a b => key a ≤ key b).Pairwise fun a b => key a < key b := by
  have hle : (rows.insertionSort fun a b => key a ≤ key b).Pairwise fun a b => key a ≤ key b := by
    have : Std.Total fun a b : α => key a ≤ key b := ⟨fun a b => le_total (key a) (key b)⟩
    have : IsTrans α fun a b => key a ≤ key b := ⟨fun a b c => le_trans⟩
    exact List.pairwise_insertionSort _ _
  have hne : (rows.insertionSort fun a b => key a ≤ key b).Pairwise fun a b => key a ≠ key b := by
    have hperm := List.perm_insertionSort (fun a b => key a ≤ key b) rows
    exact (hperm.pairwise_iff fun h => h.symm).2 (List.pairwise_map.1 hkey)
  exact (hle.and hne).imp fun h => lt_of_le_of_ne h.1 h.2

/-- The order is strict, since keys do not repeat. -/
theorem pairwise_fromCursor (p : α → Bool) (cursor : Option κ) (hkey : PrimaryKey key rows) :
    (fromCursor p key cursor rows).Pairwise fun a b => key a < key b :=
  (pairwise_insertionSort_of_primaryKey (hkey.filter p)).sublist List.filter_sublist

/-- What a page can still return: the matching rows from the cursor on, without the skipped row. -/
theorem mem_afterSkip (hkey : PrimaryKey key rows) :
    r ∈ afterSkip p key cursor rows ↔
      r ∈ fromCursor p key cursor rows ∧ skippedRow p key cursor rows ≠ some r := by
  cases cursor with
  | none => simp [afterSkip, skippedRow]
  | some c =>
      have hpairwise := pairwise_fromCursor p (some c) hkey
      rw [afterSkip, skippedRow]
      cases hlist : fromCursor p key (some c) rows with
      | nil => simp
      | cons first rest =>
          rw [hlist, List.pairwise_cons] at hpairwise
          simp only [List.drop_one, List.tail_cons, List.mem_cons, List.head?_cons, ne_eq,
            Option.some.injEq]
          constructor
          · intro hr
            refine ⟨Or.inr hr, ?_⟩
            rintro rfl
            exact lt_irrefl _ (hpairwise.1 first hr)
          · rintro ⟨rfl | hr, hne⟩
            · exact absurd rfl hne
            · exact hr

/-- The rows of a page match and stand in the table. -/
theorem mem_of_mem_findPage (h : r ∈ findPage p key cursor take rows) : r ∈ rows ∧ p r = true := by
  have hmem : r ∈ fromCursor p key cursor rows := by
    have h := List.mem_of_mem_take h
    unfold afterSkip at h
    split at h
    · exact h
    · exact List.mem_of_mem_drop h
  exact (mem_fromCursor.1 hmem).1

theorem pairwise_afterSkip (hkey : PrimaryKey key rows) :
    (afterSkip p key cursor rows).Pairwise fun a b => key a < key b := by
  unfold afterSkip
  split
  · exact pairwise_fromCursor p _ hkey
  · exact (pairwise_fromCursor p _ hkey).sublist (List.drop_sublist _ _)

/-- A skipped row is not below the cursor, and lies below every row of the page. -/
theorem lt_of_skippedRow (hkey : PrimaryKey key rows)
    (hskip : skippedRow p key cursor rows = some r)
    {q : α} (hq : q ∈ findPage p key cursor take rows) : key r < key q := by
  cases cursor with
  | none => cases hskip
  | some c =>
      have hpairwise := pairwise_fromCursor p (some c) hkey
      have hq := List.mem_of_mem_take hq
      rw [afterSkip] at hq
      rw [skippedRow] at hskip
      cases hlist : fromCursor p key (some c) rows with
      | nil =>
          rw [hlist] at hskip
          cases hskip
      | cons first rest =>
          rw [hlist] at hpairwise hskip hq
          cases hskip
          exact (List.pairwise_cons.1 hpairwise).1 q hq

theorem mem_of_skippedRow (hskip : skippedRow p key cursor rows = some r) :
    (r ∈ rows ∧ p r = true) ∧ ∀ c ∈ cursor, c ≤ key r := by
  cases cursor with
  | none => cases hskip
  | some c => exact mem_fromCursor.1 (List.mem_of_mem_head? hskip)

/-- **The cursor's own row is what a cursor skips**, if it still matches. -/
theorem skippedRow_of_mem (hkey : PrimaryKey key rows) (hr : r ∈ rows) (hp : p r = true) :
    skippedRow p key (some (key r)) rows = some r := by
  have hmem : r ∈ fromCursor p key (some (key r)) rows :=
    mem_fromCursor.2 ⟨⟨hr, hp⟩, fun c hc => by rw [Option.mem_some_iff.1 hc]⟩
  have hsorted := pairwise_fromCursor p (some (key r)) hkey
  obtain ⟨first, rest, hlist⟩ := List.exists_cons_of_ne_nil (List.ne_nil_of_mem hmem)
  have hfirst : first ∈ fromCursor p key (some (key r)) rows := by
    rw [hlist]
    exact List.mem_cons_self
  rw [skippedRow, hlist, List.head?_cons, Option.some.injEq]
  rw [hlist] at hmem hsorted
  rcases List.mem_cons.1 hmem with heq | hrest
  · exact heq.symm
  · have hlt := (List.pairwise_cons.1 hsorted).1 r hrest
    exact absurd ((mem_fromCursor.1 hfirst).2 _ rfl) (not_le_of_gt hlt)

/-- The rows of a page come after the cursor. -/
theorem lt_of_mem_findPage (hkey : PrimaryKey key rows) {c : κ}
    (h : r ∈ findPage p key (some c) take rows) : c < key r := by
  obtain ⟨hfrom, -⟩ := (mem_afterSkip hkey).1 (List.mem_of_mem_take h)
  obtain ⟨first, rest, hlist⟩ := List.exists_cons_of_ne_nil (List.ne_nil_of_mem hfrom)
  have hskip : skippedRow p key (some c) rows = some first := by
    rw [skippedRow, hlist]
    rfl
  exact lt_of_le_of_lt ((mem_of_skippedRow hskip).2 c rfl) (lt_of_skippedRow hkey hskip h)

/-- In a sorted list a row is among the first `n`, or `n` rows lie below it. -/
theorem mem_take_or_lt {l : List α} (hsorted : l.Pairwise fun a b => key a < key b) (hr : r ∈ l)
    (n : Nat) : r ∈ l.take n ∨ (l.take n).length = n ∧ ∀ q ∈ l.take n, key q < key r := by
  rw [← List.take_append_drop n l, List.mem_append] at hr
  rw [← List.take_append_drop n l, List.pairwise_append] at hsorted
  rcases hr with hr | hr
  · exact Or.inl hr
  · refine Or.inr ⟨?_, fun q hq => hsorted.2.2 q hq r hr⟩
    rw [List.length_take]
    have := List.length_pos_of_mem hr
    rw [List.length_drop] at this
    omega

/-- **A page misses only what it skips.** A matching row after the cursor is skipped, or returned,
or comes after a full page. -/
theorem findPage_covers (take : Nat) (hkey : PrimaryKey key rows) (hr : r ∈ rows) (hp : p r = true)
    (hcursor : ∀ c ∈ cursor, c < key r) (hskip : skippedRow p key cursor rows ≠ some r) :
    r ∈ findPage p key cursor take rows ∨
      (findPage p key cursor take rows).length = take ∧
        ∀ q ∈ findPage p key cursor take rows, key q < key r := by
  have hmem : r ∈ afterSkip p key cursor rows :=
    (mem_afterSkip hkey).2 ⟨mem_fromCursor.2 ⟨⟨hr, hp⟩, fun c hc => le_of_lt (hcursor c hc)⟩, hskip⟩
  exact mem_take_or_lt (pairwise_afterSkip hkey) hmem take

end Foundation
