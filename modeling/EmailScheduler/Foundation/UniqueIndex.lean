import EmailScheduler.Foundation.Table
import Mathlib.Data.List.Pairwise
import Mathlib.Data.List.Perm.Basic

/-!
# Unique indexes under concurrent insertion

The rows of a table are the committed ones and those that open transactions have inserted. A unique
index lets a row in only next to rows it does not conflict with, committed or not: an insertion that
meets a committed row fails, and one that meets a row of an open transaction waits for its end.

`Compatible` says this of all rows of the table together. Inserting, committing and rolling back
each change the rows only up to order, so each is one lemma.
-/

set_option autoImplicit false

namespace Foundation

universe u v

variable {α : Type u} {τ : Type v}

/-- Rows that a unique index allows together. -/
def Compatible (conflict : α → α → Bool) (rows : List α) : Prop :=
  rows.Pairwise fun a b => conflict a b = false

/-- The rows of a table: the committed ones, and those inserted by open transactions. -/
def tableRows (committed : List α) (inserted : τ → List α) (transactions : List τ) : List α :=
  committed ++ transactions.flatMap inserted

/-- A list whose elements are pairwise related, although no two of them are, has at most one. -/
theorem length_le_one_of_pairwise {R : α → α → Prop} {l : List α} (h : l.Pairwise R)
    (hno : ∀ a ∈ l, ∀ b ∈ l, ¬ R a b) : l.length ≤ 1 := by
  match l, h with
  | [], _ => exact Nat.zero_le 1
  | [_], _ => exact Nat.le_refl 1
  | a :: b :: l, h =>
      have hab := (List.pairwise_cons.1 h).1 b List.mem_cons_self
      exact absurd hab (hno a List.mem_cons_self b (List.mem_cons_of_mem _ List.mem_cons_self))

/-- A list in which no two positions satisfy `p` has at most one element that does. -/
theorem length_filter_le_one {p : α → Bool} {l : List α}
    (h : ∀ (m n : Nat) a b, l[m]? = some a → l[n]? = some b → p a = true → p b = true → m = n) :
    (l.filter p).length ≤ 1 := by
  have hnot : l.Pairwise fun a b => ¬ (p a = true ∧ p b = true) := by
    rw [List.pairwise_iff_getElem]
    rintro m n hm hn hlt ⟨ha, hb⟩
    have hsame := h m n _ _ (List.getElem?_eq_getElem hm) (List.getElem?_eq_getElem hn) ha hb
    omega
  apply length_le_one_of_pairwise (hnot.sublist List.filter_sublist)
  intro a ha b hb hab
  exact hab ⟨(List.mem_filter.1 ha).2, (List.mem_filter.1 hb).2⟩

/-- At most one row of a table satisfies a condition that determines the key. -/
theorem PrimaryKey.countP_le_one {key : α → τ} {rows : List α} (h : PrimaryKey key rows)
    {p : α → Bool}
    (hkey : ∀ a ∈ rows, ∀ b ∈ rows, p a = true → p b = true → key a = key b) :
    rows.countP p ≤ 1 := by
  rw [List.countP_eq_length_filter]
  have hne : (rows.filter p).Pairwise fun a b => key a ≠ key b :=
    (List.pairwise_map.1 h).sublist List.filter_sublist
  apply length_le_one_of_pairwise hne
  intro a ha b hb hab
  rw [List.mem_filter] at ha hb
  exact hab (hkey a ha.1 b hb.1 ha.2 hb.2)

/-- Two rows of which at most one satisfies a condition are one row, if both do. -/
theorem eq_of_countP_le_one {p : α → Bool} {rows : List α} (h : rows.countP p ≤ 1) {a b : α}
    (ha : a ∈ rows) (hb : b ∈ rows) (hpa : p a = true) (hpb : p b = true) : a = b := by
  rw [List.countP_eq_length_filter] at h
  have ha' : a ∈ rows.filter p := List.mem_filter.2 ⟨ha, hpa⟩
  have hb' : b ∈ rows.filter p := List.mem_filter.2 ⟨hb, hpb⟩
  match hrows : rows.filter p with
  | [] =>
      rw [hrows] at ha'
      cases ha'
  | [c] =>
      rw [hrows, List.mem_singleton] at ha' hb'
      rw [ha', hb']
  | _ :: _ :: _ =>
      rw [hrows] at h
      simp at h

section Positions

variable {committed : List α} {inserted : τ → List α} {transactions : List τ} {i : Nat} {t : τ}

/-- The rows of one transaction, and those of the others. -/
theorem tableRows_perm (h : transactions[i]? = some t) :
    (tableRows committed inserted transactions).Perm
      (committed ++ (inserted t ++ (transactions.eraseIdx i).flatMap inserted)) := by
  obtain ⟨hi, rfl⟩ := List.getElem?_eq_some_iff.1 h
  have hperm : transactions.Perm (transactions[i] :: transactions.eraseIdx i) :=
    (List.getElem_cons_eraseIdx_perm hi).symm
  exact (hperm.flatMap_right inserted).append_left committed

theorem tableRows_set_perm (h : transactions[i]? = some t) (t' : τ) :
    (tableRows committed inserted (transactions.set i t')).Perm
      (committed ++ (inserted t' ++ (transactions.eraseIdx i).flatMap inserted)) := by
  obtain ⟨hi, -⟩ := List.getElem?_eq_some_iff.1 h
  have hget : (transactions.set i t')[i]? = some t' := List.getElem?_set_self hi
  refine (tableRows_perm hget).trans ?_
  rw [List.eraseIdx_set_eq]

end Positions

section Index

variable {conflict : α → α → Bool} {committed : List α} {inserted : τ → List α}
  {transactions : List τ} {i : Nat} {t t' : τ}

/-- The committed rows are compatible. -/
theorem compatible_of_tableRows
    (h : Compatible conflict (tableRows committed inserted transactions)) :
    Compatible conflict committed :=
  h.sublist (List.sublist_append_left _ _)

/-- A transaction that starts has inserted nothing. -/
theorem Compatible.start (h : Compatible conflict (tableRows committed inserted transactions))
    (hnone : inserted t = []) :
    Compatible conflict (tableRows committed inserted (transactions ++ [t])) := by
  rw [tableRows, List.flatMap_append, List.flatMap_singleton, hnone, List.append_nil]
  exact h

variable (hsymm : ∀ a b, conflict a b = conflict b a)

include hsymm

/-- Being compatible does not depend on the order of the rows. -/
theorem compatible_perm {rows rows' : List α} (hperm : rows.Perm rows') :
    Compatible conflict rows ↔ Compatible conflict rows' := by
  apply hperm.pairwise_iff
  intro a b hab
  rw [hsymm]
  exact hab

/-- Two compatible rows that conflict are one row. -/
theorem Compatible.eq_of_conflict {rows : List α} (h : Compatible conflict rows) {a b : α}
    (ha : a ∈ rows) (hb : b ∈ rows) (hconflict : conflict a b = true) : a = b := by
  by_contra hne
  have hsymmetric : Std.Symm fun a b => conflict a b = false :=
    ⟨fun a b hab => (hsymm b a).trans hab⟩
  have hcompatible : conflict a b = false := List.Pairwise.forall h ha hb hne
  rw [hconflict] at hcompatible
  cases hcompatible

/-- A transaction that inserts nothing. -/
theorem Compatible.same (h : Compatible conflict (tableRows committed inserted transactions))
    (hi : transactions[i]? = some t) (hsame : inserted t' = inserted t) :
    Compatible conflict (tableRows committed inserted (transactions.set i t')) := by
  rw [compatible_perm hsymm (tableRows_set_perm hi t'), hsame,
    ← compatible_perm hsymm (tableRows_perm hi)]
  exact h

/-- **Insertion.** The new rows conflict neither with each other, nor with committed rows, nor with
rows of any open transaction. -/
theorem Compatible.insert (h : Compatible conflict (tableRows committed inserted transactions))
    (hi : transactions[i]? = some t) {new : List α} (hrows : inserted t' = inserted t ++ new)
    (hnew : Compatible conflict new)
    (hown : ∀ r ∈ new, ∀ e ∈ committed ++ inserted t, conflict r e = false)
    (hothers : ∀ r ∈ new, ∀ e ∈ (transactions.eraseIdx i).flatMap inserted, conflict r e = false) :
    Compatible conflict (tableRows committed inserted (transactions.set i t')) := by
  have hbefore := (compatible_perm hsymm (tableRows_perm hi)).1 h
  rw [compatible_perm hsymm (tableRows_set_perm hi t'), hrows]
  have hperm : (committed ++ (inserted t ++ new ++ (transactions.eraseIdx i).flatMap inserted)).Perm
      (new ++ (committed ++ (inserted t ++ (transactions.eraseIdx i).flatMap inserted))) := by
    rw [List.append_assoc]
    exact ((List.perm_append_comm_assoc _ new _).append_left committed).trans
      (List.perm_append_comm_assoc committed new _)
  rw [compatible_perm hsymm hperm]
  refine List.pairwise_append.2 ⟨hnew, hbefore, fun r hr e he => ?_⟩
  rw [← List.append_assoc, List.mem_append] at he
  rcases he with hmine | hother
  · exact hown r hr e hmine
  · exact hothers r hr e hother

/-- **Commit.** The rows of the transaction become committed. -/
theorem Compatible.commit (h : Compatible conflict (tableRows committed inserted transactions))
    (hi : transactions[i]? = some t) (hend : inserted t' = []) :
    Compatible conflict
      (tableRows (committed ++ inserted t) inserted (transactions.set i t')) := by
  have hbefore := (compatible_perm hsymm (tableRows_perm hi)).1 h
  rw [compatible_perm hsymm (tableRows_set_perm hi t'), hend, List.nil_append, List.append_assoc]
  exact hbefore

/-- **Rollback.** The rows of the transaction disappear. -/
theorem Compatible.rollback (h : Compatible conflict (tableRows committed inserted transactions))
    (hi : transactions[i]? = some t) (hend : inserted t' = []) :
    Compatible conflict (tableRows committed inserted (transactions.set i t')) := by
  have hbefore := (compatible_perm hsymm (tableRows_perm hi)).1 h
  rw [compatible_perm hsymm (tableRows_set_perm hi t'), hend, List.nil_append]
  refine List.Pairwise.sublist ?_ hbefore
  exact (List.sublist_append_right _ _).append_left committed

/-- The rows of a transaction fit the committed ones. -/
theorem Compatible.committed_append
    (h : Compatible conflict (tableRows committed inserted transactions))
    (hi : transactions[i]? = some t) : Compatible conflict (committed ++ inserted t) := by
  have hbefore := (compatible_perm hsymm (tableRows_perm hi)).1 h
  rw [← List.append_assoc] at hbefore
  exact hbefore.sublist (List.sublist_append_left _ _)

end Index

end Foundation
