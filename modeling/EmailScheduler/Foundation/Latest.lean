import Mathlib.Data.List.Induction

/-!
# The latest entries of a history

Entries with a key, one after the other. `Latest key history x` says that `x` is in the history and
that no entry after it has its key: a table that keeps one row for every key, overwritten by each
entry, holds exactly these.
-/

set_option autoImplicit false

namespace Foundation

universe u v

variable {α : Type u} {κ : Type v} {key : α → κ} {history : List α} {x y : α}

/-- The last entry with its key. -/
def Latest (key : α → κ) (history : List α) (x : α) : Prop :=
  ∃ before after, history = before ++ x :: after ∧ ∀ y ∈ after, key y ≠ key x

theorem Latest.mem (h : Latest key history x) : x ∈ history := by
  obtain ⟨before, after, rfl, -⟩ := h
  simp

theorem not_latest_nil : ¬ Latest key [] x := by
  intro h
  cases h.mem

/-- **One more entry** is the latest with its key; the others stay the latest with theirs. -/
theorem latest_concat :
    Latest key (history ++ [y]) x ↔ x = y ∨ key y ≠ key x ∧ Latest key history x := by
  constructor
  · rintro ⟨before, after, heq, hafter⟩
    -- The last entry is `x` itself or comes after it.
    rcases List.eq_nil_or_concat after with rfl | ⟨rest, last, rfl⟩
    · obtain ⟨-, hlast⟩ := List.append_inj' heq rfl
      exact Or.inl (List.singleton_inj.1 hlast).symm
    · rw [List.concat_eq_append, ← List.cons_append, ← List.append_assoc] at heq
      obtain ⟨rfl, hlast⟩ := List.append_inj' heq rfl
      obtain rfl := List.singleton_inj.1 hlast
      exact Or.inr ⟨hafter y (by simp), before, rest, rfl, fun z hz => hafter z (by simp [hz])⟩
  · rintro (rfl | ⟨hkey, before, after, rfl, hafter⟩)
    · exact ⟨history, [], rfl, by simp⟩
    · refine ⟨before, after ++ [y], by simp, ?_⟩
      intro z hz
      rcases List.mem_append.1 hz with hz | hz
      · exact hafter z hz
      · rwa [List.mem_singleton.1 hz]

/-- There is one latest entry for a key. -/
theorem Latest.eq (hx : Latest key history x) (hy : Latest key history y) (h : key x = key y) :
    x = y := by
  induction history using List.reverseRecOn with
  | nil => exact absurd hx not_latest_nil
  | append_singleton history last ih =>
      rcases latest_concat.1 hx with rfl | ⟨hlast, hx⟩
      · rcases latest_concat.1 hy with rfl | ⟨hlast, -⟩
        · rfl
        · exact absurd h hlast
      · rcases latest_concat.1 hy with rfl | ⟨-, hy⟩
        · exact absurd h.symm hlast
        · exact ih hx hy

/-- Every key of the history has one. -/
theorem exists_latest (h : x ∈ history) : ∃ y, Latest key history y ∧ key y = key x := by
  induction history using List.reverseRecOn with
  | nil => cases h
  | append_singleton history last ih =>
      by_cases hkey : key last = key x
      · exact ⟨last, latest_concat.2 (Or.inl rfl), hkey⟩
      · have hx : x ∈ history := by
          rcases List.mem_append.1 h with hx | hx
          · exact hx
          · rw [List.mem_singleton.1 hx] at hkey
            exact absurd rfl hkey
        obtain ⟨y, hy, hyx⟩ := ih hx
        exact ⟨y, latest_concat.2 (Or.inr ⟨by rwa [hyx], hy⟩), hyx⟩

end Foundation
