import Mathlib.Algebra.BigOperators.Group.List.Basic
import Mathlib.Algebra.GroupWithZero.Nat
import Mathlib.Tactic.Common

/-!
# Lengths in UTF-16 code units

The length of a text as languages count it whose strings are sequences of UTF-16 code units, and its
longest beginning within a number of them.
-/

set_option autoImplicit false

namespace Foundation

/-- The code units of a character. -/
def utf16Units (c : Char) : List Nat :=
  if c.toNat < 65536 then [c.toNat]
  else [55296 + (c.toNat - 65536) / 1024, 56320 + (c.toNat - 65536) % 1024]

def utf16Size (c : Char) : Nat := (utf16Units c).length

theorem utf16Size_eq (c : Char) : utf16Size c = if c.toNat < 65536 then 1 else 2 := by
  unfold utf16Size utf16Units
  split <;> rfl

theorem utf16Size_pos (c : Char) : 0 < utf16Size c := by
  rw [utf16Size_eq]
  split <;> decide

/-- `length` of a string. -/
def utf16Length (text : String) : Nat := text.toList.foldl (fun units c => units + utf16Size c) 0

/-- The characters that fit `units` as a whole. The first half of a surrogate pair, which `slice`
keeps where it cuts a pair, is no character. -/
def takeUnits : Nat → List Char → List Char
  | _, [] => []
  | units, c :: cs => if utf16Size c ≤ units then c :: takeUnits (units - utf16Size c) cs else []

theorem utf16Length_eq (text : String) : utf16Length text = (text.toList.map utf16Size).sum := by
  have hfold : ∀ (chars : List Char) (units : Nat),
      chars.foldl (fun units c => units + utf16Size c) units =
        units + (chars.map utf16Size).sum := by
    intro chars
    induction chars with
    | nil => intro units; rfl
    | cons c chars ih =>
        intro units
        rw [List.foldl_cons, ih, List.map_cons, List.sum_cons, Nat.add_assoc]
  rw [utf16Length, hfold, Nat.zero_add]

/-- A text has no units exactly when it has no characters. -/
theorem utf16Length_eq_zero_iff {text : String} : utf16Length text = 0 ↔ text.toList = [] := by
  rw [utf16Length_eq]
  cases text.toList with
  | nil => simp
  | cons c chars =>
      have hpos := utf16Size_pos c
      simp only [List.map_cons, List.sum_cons, reduceCtorEq, iff_false]
      omega

/-- **What is taken fits.** -/
theorem utf16Length_takeUnits_le (units : Nat) (chars : List Char) :
    utf16Length (.ofList (takeUnits units chars)) ≤ units := by
  rw [utf16Length_eq, String.toList_ofList]
  induction chars generalizing units with
  | nil => exact Nat.zero_le units
  | cons c chars ih =>
      unfold takeUnits
      split
      next hfits =>
        have hrest := ih (units - utf16Size c)
        rw [List.map_cons, List.sum_cons]
        omega
      next => exact Nat.zero_le units

end Foundation
