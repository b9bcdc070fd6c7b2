import Mathlib.Algebra.GroupWithZero.Nat
import Mathlib.Tactic.Common

/-!
# Numbers of a fixed width

A number in as many digits as a format asks for, and the readers that take such numbers and single
characters from the front of a text and leave the rest.
-/

set_option autoImplicit false

namespace Foundation

/-- The value of a hexadecimal digit, in either case. -/
def hexValue (c : Char) : Option Nat :=
  if '0' ≤ c ∧ c ≤ '9' then some (c.toNat - 48)
  else if 'a' ≤ c ∧ c ≤ 'f' then some (c.toNat - 87)
  else if 'A' ≤ c ∧ c ≤ 'F' then some (c.toNat - 55)
  else none

/-- `n` in `width` digits, the first one first. -/
def fixedDigits (base : Nat) : Nat → Nat → List Char
  | 0, _ => []
  | width + 1, n => Nat.digitChar (n / base ^ width) :: fixedDigits base width (n % base ^ width)

/-- Reads `width` digits after those that make up `read`. -/
def readDigits (base : Nat) : Nat → Nat → List Char → Option (Nat × List Char)
  | 0, read, chars => some (read, chars)
  | _ + 1, _, [] => none
  | width + 1, read, c :: chars => do
      let digit ← (hexValue c).filter fun digit => decide (digit < base)
      readDigits base width (read * base + digit) chars

/-- Reads one given character. -/
def readChar (expected : Char) : List Char → Option (List Char)
  | [] => none
  | c :: chars => if c = expected then some chars else none

@[simp]
theorem readChar_cons (c : Char) (chars : List Char) :
    readChar c (c :: chars) = some chars := if_pos rfl

theorem hexValue_digitChar : ∀ n, n < 16 → hexValue (Nat.digitChar n) = some n := by decide

/-- A digit of a number that fits in `width + 1` digits. -/
theorem div_pow_lt {base width n : Nat} (h : n < base ^ (width + 1)) : n / base ^ width < base := by
  rw [Nat.pow_succ] at h
  exact Nat.div_lt_of_lt_mul h

/-- **A number is read back from its digits**, by induction on the width. -/
theorem readDigits_fixedDigits {base : Nat} (hbase : base ≤ 16) (width : Nat) :
    ∀ n read rest, n < base ^ width →
      readDigits base width read (fixedDigits base width n ++ rest) =
        some (read * base ^ width + n, rest) := by
  induction width with
  | zero =>
      intro n read rest h
      obtain rfl : n = 0 := Nat.lt_one_iff.1 h
      rw [Nat.pow_zero, Nat.mul_one]
      rfl
  | succ width ih =>
      intro n read rest h
      have hdigit := div_pow_lt h
      have hpos : 0 < base ^ width := Nat.pos_of_ne_zero fun hzero => by
        rw [Nat.pow_succ, hzero, Nat.zero_mul] at h
        exact absurd h (Nat.not_lt_zero n)
      have hvalue : readDigits base (width + 1) read (fixedDigits base (width + 1) n ++ rest) =
          readDigits base width (read * base + n / base ^ width)
            (fixedDigits base width (n % base ^ width) ++ rest) := by
        rw [fixedDigits, List.cons_append, readDigits,
          hexValue_digitChar _ (Nat.lt_of_lt_of_le hdigit hbase), Option.filter_some,
          if_pos (decide_eq_true hdigit)]
        rfl
      rw [hvalue, ih _ _ _ (Nat.mod_lt _ hpos), Nat.add_mul, Nat.mul_assoc, ← Nat.pow_succ',
        Nat.add_assoc, Nat.div_add_mod']

/-- The same, from the first digit on. -/
theorem readDigits_zero {base width n : Nat} (hbase : base ≤ 16) (h : n < base ^ width)
    (rest : List Char) :
    readDigits base width 0 (fixedDigits base width n ++ rest) = some (n, rest) := by
  rw [readDigits_fixedDigits hbase width n 0 rest h, Nat.zero_mul, Nat.zero_add]

@[simp]
theorem length_fixedDigits (base : Nat) (width : Nat) :
    ∀ n, (fixedDigits base width n).length = width := by
  induction width with
  | zero => exact fun n => rfl
  | succ width ih => exact fun n => congrArg Nat.succ (ih _)

theorem isDigit_digitChar : ∀ n, n < 10 → (Nat.digitChar n).isDigit = true := by decide

theorem isDigit_of_mem_fixedDigits (width : Nat) :
    ∀ n, n < 10 ^ width → ∀ c ∈ fixedDigits 10 width n, c.isDigit = true := by
  induction width with
  | zero =>
      intro n h c hc
      cases hc
  | succ width ih =>
      intro n h c hc
      rcases List.mem_cons.1 hc with rfl | hc
      · exact isDigit_digitChar _ (div_pow_lt h)
      · exact ih _ (Nat.mod_lt _ (Nat.pow_pos (by decide))) c hc

example : fixedDigits 10 4 987 = ['0', '9', '8', '7'] := by decide

end Foundation
