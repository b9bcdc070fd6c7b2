import Mathlib.Data.Finset.Card
import Mathlib.Data.List.Induction

/-!
# Distinct values

`List.eraseDups` keeps the first occurrence of every element. Here: how it grows by one element, and
when two ways to read the elements of a list find the same number of distinct values.
-/

set_option autoImplicit false

namespace Foundation

universe u v w

/-- One more element joins the first occurrences if it is new. -/
theorem eraseDups_concat {α : Type u} [BEq α] [LawfulBEq α] [DecidableEq α] (l : List α) (a : α) :
    (l ++ [a]).eraseDups = l.eraseDups ++ if a ∈ l then [] else [a] := by
  rw [List.eraseDups_append]
  split
  next hmem => simp [List.removeAll, hmem]
  next hnew => simp [List.removeAll, hnew, List.eraseDups_cons]

theorem length_eraseDups_le {α : Type u} [BEq α] [LawfulBEq α] [DecidableEq α] (l : List α) :
    l.eraseDups.length ≤ l.length := by
  induction l using List.reverseRecOn with
  | nil => exact Nat.le_refl 0
  | append_singleton l a ih =>
      rw [eraseDups_concat]
      split
      next => simpa using Nat.le_succ_of_le ih
      next => simpa using ih

theorem nodup_eraseDups {α : Type u} [BEq α] [LawfulBEq α] [DecidableEq α] (l : List α) :
    l.eraseDups.Nodup := by
  induction l using List.reverseRecOn with
  | nil => exact List.nodup_nil
  | append_singleton l a ih =>
      rw [eraseDups_concat]
      split
      next => simpa using ih
      next hnew =>
        rw [List.nodup_append]
        refine ⟨ih, List.nodup_singleton a, ?_⟩
        intro b hb c hc heq
        rw [List.mem_singleton.1 hc] at heq
        exact hnew (heq ▸ List.mem_eraseDups.1 hb)

theorem eraseDups_of_nodup {α : Type u} [BEq α] [LawfulBEq α] [DecidableEq α] {l : List α}
    (h : l.Nodup) : l.eraseDups = l := by
  induction l using List.reverseRecOn with
  | nil => rfl
  | append_singleton l a ih =>
      rw [List.nodup_append] at h
      obtain ⟨hl, -, hne⟩ := h
      rw [eraseDups_concat, ih hl, if_neg fun hmem => hne a hmem a (by simp) rfl]

/-- The number of distinct elements. -/
theorem length_eraseDups_eq_card {α : Type u} [BEq α] [LawfulBEq α] [DecidableEq α] (l : List α) :
    l.eraseDups.length = l.toFinset.card := by
  rw [← List.toFinset_card_of_nodup (nodup_eraseDups l)]
  congr 1
  ext a
  rw [List.mem_toFinset, List.mem_toFinset, List.mem_eraseDups]

section Readings

variable {α : Type u} {β : Type v} {γ : Type w} [BEq β] [LawfulBEq β] [DecidableEq β] [BEq γ]
  [LawfulBEq γ] [DecidableEq γ] {f : α → β} {g : α → γ} {l : List α}

/-- Where `g` decides the value of `f`, the two have equally many values on a list exactly if `f`
decides the value of `g`. -/
theorem length_eraseDups_map_eq_iff (hfg : ∀ a ∈ l, ∀ b ∈ l, g a = g b → f a = f b) :
    (l.map f).eraseDups.length = (l.map g).eraseDups.length ↔
      ∀ a ∈ l, ∀ b ∈ l, f a = f b → g a = g b := by
  -- The pairs of the two values are as many as the values of `g`.
  have hfst : ((l.map fun a => (f a, g a)).toFinset.image Prod.fst) = (l.map f).toFinset := by
    ext x
    simp
  have hsnd : ((l.map fun a => (f a, g a)).toFinset.image Prod.snd) = (l.map g).toFinset := by
    ext x
    simp
  have hpairs : (l.map g).toFinset.card = (l.map fun a => (f a, g a)).toFinset.card := by
    rw [← hsnd, Finset.card_image_iff]
    intro x hx y hy heq
    rw [Finset.mem_coe, List.mem_toFinset, List.mem_map] at hx hy
    obtain ⟨a, ha, rfl⟩ := hx
    obtain ⟨b, hb, rfl⟩ := hy
    exact Prod.ext (hfg a ha b hb heq) heq
  rw [length_eraseDups_eq_card, length_eraseDups_eq_card, hpairs, ← hfst, Finset.card_image_iff]
  constructor
  · intro hinj a ha b hb heq
    have hmem : ∀ c ∈ l, (f c, g c) ∈ ((l.map fun a => (f a, g a)).toFinset : Set (β × γ)) := by
      intro c hc
      rw [Finset.mem_coe, List.mem_toFinset, List.mem_map]
      exact ⟨c, hc, rfl⟩
    exact congrArg Prod.snd (hinj (hmem a ha) (hmem b hb) heq)
  · intro hgf x hx y hy heq
    rw [Finset.mem_coe, List.mem_toFinset, List.mem_map] at hx hy
    obtain ⟨a, ha, rfl⟩ := hx
    obtain ⟨b, hb, rfl⟩ := hy
    exact Prod.ext heq (hgf a ha b hb heq)

end Readings

end Foundation
