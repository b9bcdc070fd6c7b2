import EmailScheduler.Foundation.Utf16

/-!
# Base64url

The text form of a sequence of bytes, without padding, and the tolerant decoder of a `Buffer`: of
every code unit it reads the low byte, takes the digits of both Base64 alphabets, passes over other
bytes and ends at the first `=`. Bytes are written six bits at a time; `sextets` and `joinSextets`
are the two directions.
-/

set_option autoImplicit false

namespace Foundation

/-- The digits, in order. -/
def base64UrlAlphabet : List Char :=
  "ABCDEFGHIJKLMNOPQRSTUVWXYZabcdefghijklmnopqrstuvwxyz0123456789-_".toList

def sextetChar (n : Nat) : Char := base64UrlAlphabet.getD n 'A'

/-- The value of a digit of either alphabet. -/
def sextetValue (c : Char) : Option Nat :=
  if c = '+' then some 62
  else if c = '/' then some 63
  else base64UrlAlphabet.idxOf? c

/-- The bytes, six bits at a time. -/
def sextets : List UInt8 → List Nat
  | [] => []
  | [a] => [a.toNat / 4, a.toNat % 4 * 16]
  | [a, b] => [a.toNat / 4, a.toNat % 4 * 16 + b.toNat / 16, b.toNat % 16 * 4]
  | a :: b :: c :: bytes =>
      a.toNat / 4 :: (a.toNat % 4 * 16 + b.toNat / 16) :: (b.toNat % 16 * 4 + c.toNat / 64) ::
        c.toNat % 64 :: sextets bytes

/-- The first byte of a group of sextets, the second and the third. -/
def firstByte (s t : Nat) : UInt8 := .ofNat (s * 4 + t / 16)

def secondByte (t u : Nat) : UInt8 := .ofNat (t % 16 * 16 + u / 4)

def thirdByte (u v : Nat) : UInt8 := .ofNat (u % 4 * 64 + v)

/-- The whole bytes in some sextets. -/
def joinSextets : List Nat → List UInt8
  | s :: t :: u :: v :: rest =>
      firstByte s t :: secondByte t u :: thirdByte u v :: joinSextets rest
  | [s, t, u] => [firstByte s t, secondByte t u]
  | [s, t] => [firstByte s t]
  | _ => []

/-- `toString("base64url")`. -/
def base64Url (bytes : ByteArray) : String :=
  .ofList ((sextets bytes.data.toList).map sextetChar)

/-- The low bytes of the code units of a character, as characters. -/
def lowBytes (c : Char) : List Char := (utf16Units c).map fun unit => Char.ofNat (unit % 256)

/-- `Buffer.from(text, "base64url")`. -/
def base64UrlBytes (text : String) : ByteArray :=
  let digits := ((text.toList.flatMap lowBytes).takeWhile (· != '=')).filterMap sextetValue
  ⟨(joinSextets digits).toArray⟩

/-! ## Decoding what was encoded -/

theorem firstByte_eq (a : UInt8) {t : Nat} (h : t / 16 = a.toNat % 4) :
    firstByte (a.toNat / 4) t = a := by
  rw [firstByte, h, Nat.div_add_mod', UInt8.ofNat_toNat]

theorem secondByte_eq (a b : UInt8) {u : Nat} (h : u / 4 = b.toNat % 16) :
    secondByte (a.toNat % 4 * 16 + b.toNat / 16) u = b := by
  have hb := b.toNat_lt
  have hhigh : (a.toNat % 4 * 16 + b.toNat / 16) % 16 = b.toNat / 16 := by omega
  rw [secondByte, hhigh, h, Nat.div_add_mod', UInt8.ofNat_toNat]

theorem thirdByte_eq (b c : UInt8) :
    thirdByte (b.toNat % 16 * 4 + c.toNat / 64) (c.toNat % 64) = c := by
  have hc := c.toNat_lt
  have hhigh : (b.toNat % 16 * 4 + c.toNat / 64) % 4 = c.toNat / 64 := by omega
  rw [thirdByte, hhigh, Nat.div_add_mod', UInt8.ofNat_toNat]

/-- Bytes are put together again, three at a time. -/
theorem joinSextets_sextets (bytes : List UInt8) : joinSextets (sextets bytes) = bytes := by
  induction bytes using sextets.induct with
  | case1 => rfl
  | case2 a =>
      rw [sextets, joinSextets, firstByte_eq a (by omega)]
  | case3 a b =>
      have hb := b.toNat_lt
      rw [sextets, joinSextets, firstByte_eq a (by omega), secondByte_eq a b (by omega)]
  | case4 a b c bytes ih =>
      have hb := b.toNat_lt
      have hc := c.toNat_lt
      rw [sextets, joinSextets, firstByte_eq a (by omega), secondByte_eq a b (by omega),
        thirdByte_eq, ih]

theorem sextets_lt (bytes : List UInt8) : ∀ n ∈ sextets bytes, n < 64 := by
  induction bytes using sextets.induct with
  | case1 =>
      intro n hn
      cases hn
  | case2 a =>
      have ha := a.toNat_lt
      simp only [sextets, List.mem_cons, List.not_mem_nil, or_false, forall_eq_or_imp, forall_eq]
      omega
  | case3 a b =>
      have ha := a.toNat_lt
      have hb := b.toNat_lt
      simp only [sextets, List.mem_cons, List.not_mem_nil, or_false, forall_eq_or_imp, forall_eq]
      omega
  | case4 a b c bytes ih =>
      have ha := a.toNat_lt
      have hb := b.toNat_lt
      have hc := c.toNat_lt
      simp only [sextets, List.mem_cons, forall_eq_or_imp]
      exact ⟨by omega, by omega, by omega, by omega, ih⟩

/-- A digit is its own low byte and not the padding, and has its value. -/
theorem sextetChar_spec : ∀ n, n < 64 → lowBytes (sextetChar n) = [sextetChar n] ∧
    sextetChar n ≠ '=' ∧ sextetValue (sextetChar n) = some n := by decide +kernel

theorem digits_of_sextets {ns : List Nat} (h : ∀ n ∈ ns, n < 64) :
    (((ns.map sextetChar).flatMap lowBytes).takeWhile (· != '=')).filterMap sextetValue = ns := by
  induction ns with
  | nil => rfl
  | cons n ns ih =>
      rw [List.forall_mem_cons] at h
      obtain ⟨hbyte, hpadding, hvalue⟩ := sextetChar_spec n h.1
      rw [List.map_cons, List.flatMap_cons, hbyte, List.singleton_append, List.takeWhile_cons,
        if_pos (bne_iff_ne.2 hpadding), List.filterMap_cons_some hvalue, ih h.2]

/-- **Bytes are read back from their text.** -/
theorem base64UrlBytes_base64Url (bytes : ByteArray) :
    base64UrlBytes (base64Url bytes) = bytes := by
  unfold base64UrlBytes base64Url
  dsimp only
  rw [String.toList_ofList, digits_of_sextets (sextets_lt _), joinSextets_sextets]

example : base64Url "{}".toUTF8 = "e30" := by decide +kernel

end Foundation
