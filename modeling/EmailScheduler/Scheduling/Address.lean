import EmailScheduler.Scheduling.LeadParser
import Mathlib.Algebra.GroupWithZero.Nat
import Mathlib.Data.List.DropRight

/-!
# Addresses and their normal forms

`normalizeEmail` keeps the part of an address before the last `@` and puts the letters after it in
lower case. Here: what the normal form of an accepted address is (`lowerDomain_eq`), when two
addresses share it (`lowerDomain_inj_iff`), and that it is its own normal form
(`normalizeEmail_self`).

`AddressSchema` is what is taken from the address check of `zod`.
-/

set_option autoImplicit false

namespace EmailScheduler

open Foundation

/-! ## Letters -/

/-- Lower case changes the 26 capital letters only. -/
theorem toLower_cases (c : Char) :
    c.toLower = c ∨ 65 ≤ c.toNat ∧ c.toNat ≤ 90 ∧ c.toLower.toNat = c.toNat + 32 := by
  unfold Char.toLower
  split
  next h =>
    right
    have hlow : 65 ≤ c.toNat := by simpa [UInt32.le_iff_toNat_le] using h.1
    have hhigh : c.toNat ≤ 90 := by simpa [UInt32.le_iff_toNat_le] using h.2
    refine ⟨hlow, hhigh, ?_⟩
    have hadd : (c.val + ('a'.val - 'A'.val)).toNat = (c.val.toNat + 32) % 4294967296 :=
      UInt32.toNat_add _ _
    have hval : c.val.toNat = c.toNat := rfl
    show (c.val + ('a'.val - 'A'.val)).toNat = _
    omega
  next => exact Or.inl rfl

/-- A letter in lower case stays as it is. -/
theorem toLower_of_small {c : Char} (h : ¬ (65 ≤ c.toNat ∧ c.toNat ≤ 90)) : c.toLower = c := by
  rcases toLower_cases c with hsame | ⟨hlow, hhigh, -⟩
  · exact hsame
  · exact absurd ⟨hlow, hhigh⟩ h

theorem toLower_toLower (c : Char) : c.toLower.toLower = c.toLower := by
  rcases toLower_cases c with hsame | ⟨hlow, -, hlower⟩
  · rw [hsame, hsame]
  · apply toLower_of_small
    omega

theorem toLower_eq_at_iff {c : Char} : c.toLower = '@' ↔ c = '@' := by
  rcases toLower_cases c with hsame | ⟨hlow, hhigh, hlower⟩
  · rw [hsame]
  · rw [← Char.toNat_inj, ← Char.toNat_inj, hlower]
    have hat : '@'.toNat = 64 := rfl
    omega

theorem isWhiteSpace_toLower (c : Char) : isWhiteSpace c.toLower = isWhiteSpace c := by
  rcases toLower_cases c with hsame | ⟨hlow, hhigh, hlower⟩
  · rw [hsame]
  · have hno : ∀ d : Char, 65 ≤ d.toNat → d.toNat ≤ 122 → isWhiteSpace d = false := by
      intro d hlow hhigh
      simp [isWhiteSpace]
      omega
    rw [hno c hlow (by omega), hno c.toLower (by omega) (by omega)]

theorem isControl_toLower (c : Char) : isControl c.toLower = isControl c := by
  rcases toLower_cases c with hsame | ⟨hlow, hhigh, hlower⟩
  · rw [hsame]
  · have hno : ∀ d : Char, 65 ≤ d.toNat → d.toNat ≤ 122 → isControl d = false := by
      intro d hlow hhigh
      simp [isControl]
      omega
    rw [hno c hlow (by omega), hno c.toLower (by omega) (by omega)]

theorem utf16Size_toLower (c : Char) : utf16Size c.toLower = utf16Size c := by
  rcases toLower_cases c with hsame | ⟨hlow, hhigh, hlower⟩
  · rw [hsame]
  · rw [utf16Size_eq, utf16Size_eq, if_pos (by omega), if_pos (by omega)]

/-- Two texts that differ in the case of letters at most. -/
def SameUpToCase (a b : List Char) : Prop := a.map Char.toLower = b.map Char.toLower

theorem SameUpToCase.symm {a b : List Char} (h : SameUpToCase a b) : SameUpToCase b a := Eq.symm h

theorem sameUpToCase_map_toLower (a : List Char) : SameUpToCase a (a.map Char.toLower) := by
  unfold SameUpToCase
  rw [List.map_map]
  apply List.map_congr_left
  intro c _
  exact (toLower_toLower c).symm

/-! ## Texts -/

/-- Trimming a text without white space. -/
theorem trim_of_plain {text : String} (h : ∀ c ∈ text.toList, isWhiteSpace c = false) :
    trim text = text := by
  have hdrop : ∀ chars : List Char, (∀ c ∈ chars, isWhiteSpace c = false) →
      chars.dropWhile isWhiteSpace = chars := by
    intro chars hplain
    cases chars with
    | nil => rfl
    | cons c chars =>
        rw [List.dropWhile_cons, hplain c List.mem_cons_self, if_neg Bool.false_ne_true]
  unfold trim
  rw [hdrop _ h, hdrop _ (by simpa using h), List.reverse_reverse, String.ofList_toList]

theorem toList_trim (text : String) :
    (trim text).toList = (text.toList.dropWhile isWhiteSpace).rdropWhile isWhiteSpace := by
  rw [trim, String.toList_ofList]
  rfl

/-- The end that is dropped leaves a beginning without white space alone. -/
theorem dropWhile_rdropWhile {p : Char → Bool} {chars : List Char} (h : chars.dropWhile p = chars) :
    (chars.rdropWhile p).dropWhile p = chars.rdropWhile p := by
  rw [List.dropWhile_eq_self_iff] at h ⊢
  intro hsome
  have hstart := List.rdropWhile_prefix p chars
  rw [hstart.getElem hsome]
  exact h (Nat.lt_of_lt_of_le hsome hstart.length_le)

theorem trim_trim (text : String) : trim (trim text) = trim text := by
  rw [← String.toList_inj, toList_trim, toList_trim,
    dropWhile_rdropWhile (List.dropWhile_idempotent isWhiteSpace _), List.rdropWhile_idempotent]

/-! ## The parts of an address -/

/-- What is before and what is after the last `@`; without an `@`, the slices that the source
takes at the index -1. -/
def addressParts (email : String) : List Char × List Char :=
  match lastIndexOf '@' email.toList with
  | some separator => (email.toList.take separator, email.toList.drop (separator + 1))
  | none => (email.toList.dropLast, email.toList)

theorem lowerDomain_eq (email : String) :
    lowerDomain email =
      .ofList ((addressParts email).1 ++ '@' :: (addressParts email).2.map Char.toLower) := by
  cases hseparator : lastIndexOf '@' email.toList with
  | none => simp only [lowerDomain, addressParts, hseparator]
  | some separator => simp only [lowerDomain, addressParts, hseparator]

theorem lastIndexOf_append {c : Char} {before after : List Char} (h : c ∉ after) :
    lastIndexOf c (before ++ c :: after) = some before.length := by
  have hidx : (before ++ c :: after).reverse.idxOf? c = some after.length := by
    rw [List.idxOf?_eq_some_iff]
    refine ⟨by simp, ?_, ?_⟩
    · simp
    · intro j hj heq
      apply h
      rw [← heq]
      simp [hj]
  rw [lastIndexOf, hidx, Option.map_some]
  congr 1
  simp

/-- The parts of a text that is put together from two parts, the second without an `@`. -/
theorem addressParts_ofList {localPart domain : List Char} (h : '@' ∉ domain) :
    addressParts (.ofList (localPart ++ '@' :: domain)) = (localPart, domain) := by
  rw [addressParts, String.toList_ofList, lastIndexOf_append h]
  simp

/-- A text with an `@` is its parts. -/
theorem eq_of_at_mem {email : String} (h : '@' ∈ email.toList) :
    email = .ofList ((addressParts email).1 ++ '@' :: (addressParts email).2) ∧
      '@' ∉ (addressParts email).2 := by
  obtain ⟨after, before, hsplit, hnot⟩ := List.eq_append_cons_of_mem (List.mem_reverse.2 h)
  have hparts : email = .ofList (before.reverse ++ '@' :: after.reverse) := by
    rw [← String.toList_inj, String.toList_ofList, ← List.reverse_inj, hsplit]
    simp
  have hdomain : '@' ∉ after.reverse := by simpa using hnot
  rw [hparts, addressParts_ofList hdomain]
  exact ⟨rfl, hdomain⟩

theorem at_not_mem_map_toLower {domain : List Char} (h : '@' ∉ domain) :
    '@' ∉ domain.map Char.toLower := by
  intro hmem
  obtain ⟨c, hc, hlower⟩ := List.mem_map.1 hmem
  rw [toLower_eq_at_iff] at hlower
  exact h (hlower ▸ hc)

/-- The normal form has the same local part, and the domain in lower case. -/
theorem addressParts_lowerDomain {email : String} (h : '@' ∈ email.toList) :
    addressParts (lowerDomain email) =
      ((addressParts email).1, (addressParts email).2.map Char.toLower) := by
  rw [lowerDomain_eq, addressParts_ofList (at_not_mem_map_toLower (eq_of_at_mem h).2)]

/-- **Equal normal forms**: the local parts are equal, and the domains up to the case of letters. -/
theorem lowerDomain_inj_iff {email email' : String} (h : '@' ∈ email.toList)
    (h' : '@' ∈ email'.toList) :
    lowerDomain email = lowerDomain email' ↔
      (addressParts email).1 = (addressParts email').1 ∧
        SameUpToCase (addressParts email).2 (addressParts email').2 := by
  constructor
  · intro heq
    have hparts := congrArg addressParts heq
    rw [addressParts_lowerDomain h, addressParts_lowerDomain h', Prod.mk.injEq] at hparts
    exact hparts
  · rintro ⟨hlocal, hdomain⟩
    rw [lowerDomain_eq, lowerDomain_eq, hlocal, hdomain]

/-! ## Accepted addresses -/

/-- What is taken from `z.email()`: an accepted address is ASCII, contains an `@`, no comma and no
white space, and stays accepted when the case of letters of its domain changes. -/
structure AddressSchema (lib : Libraries) : Prop where
  ascii : ∀ email, lib.isEmail email = true → ∀ c ∈ email.toList, c.toNat < 128
  hasAt : ∀ email, lib.isEmail email = true → '@' ∈ email.toList
  plain : ∀ email, lib.isEmail email = true →
    ∀ c ∈ email.toList, c ≠ ',' ∧ isWhiteSpace c = false
  domainCase : ∀ localPart domain domain' : List Char, '@' ∉ domain → SameUpToCase domain domain' →
    lib.isEmail (.ofList (localPart ++ '@' :: domain)) =
      lib.isEmail (.ofList (localPart ++ '@' :: domain'))

/-- A text with some characters, none of them a comma or white space. -/
def IsPlainAddress (email : String) : Prop :=
  email.toList ≠ [] ∧ ∀ c ∈ email.toList, c ≠ ',' ∧ isWhiteSpace c = false

variable {lib : Libraries}

/-- **What `normalizeEmail` accepts.** -/
theorem normalizeEmail_eq_some_iff {value : String} {lead : ParsedLead} :
    normalizeEmail lib value = some lead ↔
      (∀ c ∈ (trim value).toList, isControl c = false) ∧ lib.isEmail (trim value) = true ∧
        utf16Length (trim value) ≤ 320 ∧
        lead = ⟨lowerDomain (trim value), lowerDomain (trim value)⟩ := by
  simp only [normalizeEmail, emailSchema, Option.ite_none_left_eq_some, Bool.or_eq_true,
    List.any_eq_true, Bool.not_eq_true', Bool.and_eq_false_iff, decide_eq_false_iff_not,
    Option.some.injEq, not_or, not_exists, not_and, Bool.not_eq_true, Bool.not_eq_false, not_not,
    and_assoc, eq_comm (a := lead)]

theorem normalizeEmail_trim (value : String) :
    normalizeEmail lib (trim value) = normalizeEmail lib value := by
  unfold normalizeEmail
  rw [trim_trim]

/-- The characters of a normal form: as in the address, or a letter of it in lower case. -/
theorem mem_lowerDomain {email : String} (h : '@' ∈ email.toList) {c : Char}
    (hc : c ∈ (lowerDomain email).toList) : ∃ d ∈ email.toList, c = d ∨ c = d.toLower := by
  obtain ⟨hparts, -⟩ := eq_of_at_mem h
  have hchars := congrArg String.toList hparts
  rw [String.toList_ofList] at hchars
  rw [lowerDomain_eq, String.toList_ofList, List.mem_append, List.mem_cons] at hc
  rw [hchars]
  rcases hc with hc | rfl | hc
  · exact ⟨c, List.mem_append_left _ hc, Or.inl rfl⟩
  · exact ⟨'@', by simp, Or.inl rfl⟩
  · obtain ⟨d, hd, rfl⟩ := List.mem_map.1 hc
    exact ⟨d, by simp [hd], Or.inr rfl⟩

theorem utf16Length_lowerDomain {email : String} (h : '@' ∈ email.toList) :
    utf16Length (lowerDomain email) = utf16Length email := by
  obtain ⟨hparts, -⟩ := eq_of_at_mem h
  have hchars := congrArg String.toList hparts
  rw [String.toList_ofList] at hchars
  rw [utf16Length_eq, utf16Length_eq, lowerDomain_eq, String.toList_ofList, hchars]
  have hsize : utf16Size ∘ Char.toLower = utf16Size := funext utf16Size_toLower
  simp only [List.map_append, List.map_cons, List.map_map, hsize]

/-- **A normal form is its own normal form**, and it is plain text. -/
theorem normalizeEmail_self (hlib : AddressSchema lib) {value : String} {lead : ParsedLead}
    (h : normalizeEmail lib value = some lead) :
    normalizeEmail lib lead.email = some lead ∧ IsPlainAddress lead.email := by
  obtain ⟨hcontrol, haccepted, hlength, rfl⟩ := normalizeEmail_eq_some_iff.1 h
  have hat := hlib.hasAt _ haccepted
  obtain ⟨hparts, hdomain⟩ := eq_of_at_mem hat
  have hlower : '@' ∈ (lowerDomain (trim value)).toList := by
    rw [lowerDomain_eq, String.toList_ofList]
    simp
  have hsame := sameUpToCase_map_toLower (addressParts (trim value)).2
  have haccepted' : lib.isEmail (lowerDomain (trim value)) = true := by
    rw [lowerDomain_eq, ← hlib.domainCase _ _ _ hdomain hsame, ← hparts]
    exact haccepted
  have hplain := hlib.plain _ haccepted'
  have htrim : trim (lowerDomain (trim value)) = lowerDomain (trim value) :=
    trim_of_plain fun c hc => (hplain c hc).2
  refine ⟨normalizeEmail_eq_some_iff.2 ?_, List.ne_nil_of_mem hlower, hplain⟩
  rw [htrim]
  refine ⟨?_, haccepted', ?_, ?_⟩
  · intro c hc
    obtain ⟨d, hd, rfl | rfl⟩ := mem_lowerDomain hat hc
    · exact hcontrol c hd
    · rw [isControl_toLower]
      exact hcontrol d hd
  · rw [utf16Length_lowerDomain hat]
    exact hlength
  · -- Lowering the domain a second time changes nothing.
    have hidem : lowerDomain (lowerDomain (trim value)) = lowerDomain (trim value) := by
      rw [lowerDomain_inj_iff hlower hat, addressParts_lowerDomain hat]
      dsimp only
      exact ⟨rfl, hsame.symm⟩
    rw [hidem]

end EmailScheduler
