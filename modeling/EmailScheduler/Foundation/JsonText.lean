import Mathlib.Data.List.TakeWhile
import EmailScheduler.Foundation.Json

/-!
# The text of a JSON value

`Json.text` is `JSON.stringify` of a value. It is read back (`parseJson_text`) if the texts of its
numbers are texts of numbers (`Json.Writable`), so a value that is written and read is the same
value.

The reader goes on in what comes after a value, so the proof is about a value in front of any text
that does not go on with a number; how deep it has to go is found along the way, as a larger bound
reads the same.
-/

set_option autoImplicit false

namespace Foundation

/-! ## Writing -/

mutual

/-- The characters of a value. -/
def Json.chars : Json → List Char
  | .null => ['n', 'u', 'l', 'l']
  | .bool true => ['t', 'r', 'u', 'e']
  | .bool false => ['f', 'a', 'l', 's', 'e']
  | .number text => text.toList
  | .string text => quote text
  | .array [] => ['[', ']']
  | .array (e :: elements) => '[' :: (e.chars ++ moreElements elements)
  | .object [] => ['{', '}']
  | .object ((name, value) :: members) =>
      '{' :: (quote name ++ ':' :: (value.chars ++ moreMembers members))

/-- The elements of an array after the first one, and its end. -/
def moreElements : List Json → List Char
  | [] => [']']
  | e :: elements => ',' :: (e.chars ++ moreElements elements)

/-- The members of an object after the first one, and its end. -/
def moreMembers : List (String × Json) → List Char
  | [] => ['}']
  | (name, value) :: members => ',' :: (quote name ++ ':' :: (value.chars ++ moreMembers members))

end

/-- `JSON.stringify`. -/
def Json.text (value : Json) : String := .ofList value.chars

/-- The characters are the text of a number. -/
def IsNumber (chars : List Char) : Prop := readNumber chars = some (chars, [])

/-- The numbers in a value are numbers. -/
inductive Json.Writable : Json → Prop where
  | null : Writable .null
  | bool (b : Bool) : Writable (.bool b)
  | number {text : String} : IsNumber text.toList → Writable (.number text)
  | string (text : String) : Writable (.string text)
  | array {elements : List Json} : (∀ e ∈ elements, Writable e) → Writable (.array elements)
  | object {members : List (String × Json)} : (∀ m ∈ members, Writable m.2) →
      Writable (.object members)

/-! ## Numbers -/

/-- A number may go on with this character. -/
def isNumberCharacter (c : Char) : Bool :=
  c.isDigit || c == '-' || c == '.' || c == 'e' || c == 'E'

/-- The text does not go on with a number. -/
def EndsNumber (rest : List Char) : Prop := ∀ c ∈ rest.head?, isNumberCharacter c = false

theorem endsNumber_nil : EndsNumber [] := by simp [EndsNumber]

theorem endsNumber_cons {c : Char} (h : isNumberCharacter c = false) (rest : List Char) :
    EndsNumber (c :: rest) := by
  simpa [EndsNumber] using h

section Number

variable {chars digits left rest : List Char}

theorem EndsNumber.not_isDigit (h : EndsNumber rest) : ∀ c ∈ rest.head?, c.isDigit = false := by
  intro c hc
  have hnot := h c hc
  simp only [isNumberCharacter, Bool.or_eq_false_iff] at hnot
  exact hnot.1.1.1.1

/-- What stops a run of characters before the end of a text stops it there too when the text goes
on. -/
theorem takeWhile_append_of_stop {p : Char → Bool} (hrest : ∀ c ∈ rest.head?, p c = false)
    (chars : List Char) :
    (chars ++ rest).takeWhile p = chars.takeWhile p ∧
      (chars ++ rest).dropWhile p = chars.dropWhile p ++ rest := by
  induction chars with
  | nil =>
      cases rest with
      | nil => exact ⟨rfl, rfl⟩
      | cons c rest =>
          have hc := hrest c rfl
          simp [hc]
  | cons c chars ih =>
      by_cases hc : p c = true
      · simp [hc, ih.1, ih.2]
      · simp [hc]

theorem readDecimals_append (h : readDecimals chars = some (digits, left))
    (hrest : EndsNumber rest) :
    readDecimals (chars ++ rest) = some (digits, left ++ rest) := by
  obtain ⟨htake, hdrop⟩ := takeWhile_append_of_stop hrest.not_isDigit chars
  unfold readDecimals at h ⊢
  rw [htake, hdrop]
  split_ifs at h ⊢ with hempty
  cases h
  rfl

theorem readFractionPart_append (h : readFractionPart chars = some (digits, left))
    (hrest : EndsNumber rest) :
    readFractionPart (chars ++ rest) = some (digits, left ++ rest) := by
  cases chars with
  | nil =>
      cases h
      cases rest with
      | nil => rfl
      | cons c rest =>
          have hc : c ≠ '.' := by
            rintro rfl
            exact absurd (hrest '.' rfl) (by decide)
          rw [List.nil_append, readFractionPart]
          intro tail heq
          exact hc (List.cons.inj heq).1
  | cons c chars =>
      by_cases hc : c = '.'
      · subst hc
        obtain ⟨⟨ds, tail⟩, hread, heq⟩ := Option.map_eq_some_iff.1 h
        cases heq
        rw [List.cons_append, readFractionPart, readDecimals_append hread hrest]
        rfl
      · have hnot : ∀ tail : List Char, readFractionPart (c :: tail) = some ([], c :: tail) := by
          intro tail
          rw [readFractionPart]
          intro tail' heq
          exact hc (List.cons.inj heq).1
        rw [hnot] at h
        cases h
        rw [List.cons_append, hnot]

theorem readExponent_append (h : readExponent chars = some (digits, left))
    (hrest : EndsNumber rest) :
    readExponent (chars ++ rest) = some (digits, left ++ rest) := by
  cases chars with
  | nil =>
      cases h
      cases rest with
      | nil => rfl
      | cons c rest =>
          have hc : ¬ (c = 'e' ∨ c = 'E') := by
            rintro (rfl | rfl)
            · exact absurd (hrest 'e' rfl) (by decide)
            · exact absurd (hrest 'E' rfl) (by decide)
          rw [List.nil_append]
          unfold readExponent
          exact if_neg hc
  | cons e tail =>
      rw [List.cons_append]
      unfold readExponent at h ⊢
      dsimp only at h ⊢
      split_ifs at h ⊢ with he
      · cases tail with
        | nil => cases h
        | cons sign tail =>
            rw [List.cons_append]
            dsimp only at h ⊢
            split_ifs at h ⊢ with hsign
            · obtain ⟨⟨ds, tail'⟩, hread, heq⟩ := Option.map_eq_some_iff.1 h
              cases heq
              rw [readDecimals_append hread hrest]
              rfl
            · obtain ⟨⟨ds, tail'⟩, hread, heq⟩ := Option.map_eq_some_iff.1 h
              cases heq
              rw [← List.cons_append, readDecimals_append hread hrest]
              rfl
      · cases h
        rfl

/-- **A number is read back** from its text, whatever comes after it. -/
theorem readNumber_append (h : IsNumber chars) (hrest : EndsNumber rest) :
    readNumber (chars ++ rest) = some (chars, rest) := by
  unfold IsNumber readNumber at h
  obtain ⟨⟨integer, rest1⟩, hinteger, h⟩ := Option.bind_eq_some_iff.1 h
  dsimp only at h
  split at h
  next => cases h
  next hzeros =>
    obtain ⟨⟨fraction, rest2⟩, hfraction, h⟩ := Option.bind_eq_some_iff.1 h
    obtain ⟨⟨exponent, rest3⟩, hexponent, h⟩ := Option.bind_eq_some_iff.1 h
    obtain ⟨htext, rfl⟩ := Prod.mk.inj (Option.some.inj h)
    have hstop : ∀ c ∈ rest.head?, (c == '-') = false := by
      intro c hc
      have hnot := hrest c hc
      simp only [isNumberCharacter, Bool.or_eq_false_iff] at hnot
      exact hnot.1.1.1.2
    have hsign := (takeWhile_append_of_stop hstop chars).1
    have hdrop : (chars ++ rest).drop (chars.takeWhile (· == '-')).length =
        chars.drop (chars.takeWhile (· == '-')).length ++ rest :=
      List.drop_append_of_le_length (List.takeWhile_prefix _).length_le
    unfold readNumber
    simp only [hsign, hdrop, Option.bind_eq_bind]
    rw [readDecimals_append hinteger hrest, Option.bind_some]
    dsimp only
    rw [if_neg hzeros, readFractionPart_append hfraction hrest, Option.bind_some]
    dsimp only
    rw [readExponent_append hexponent hrest, Option.bind_some]
    dsimp only
    rw [htext]
    rfl

/-- A number begins with its sign or a digit. -/
theorem IsNumber.exists_cons (h : IsNumber chars) :
    ∃ c tail, chars = c :: tail ∧ (c = '-' ∨ c.isDigit = true) := by
  cases chars with
  | nil => cases h
  | cons c tail =>
      refine ⟨c, tail, rfl, ?_⟩
      by_cases hsign : c = '-'
      · exact Or.inl hsign
      · right
        -- Without a sign the digits come first.
        unfold IsNumber readNumber at h
        obtain ⟨⟨integer, rest1⟩, hinteger, -⟩ := Option.bind_eq_some_iff.1 h
        have hnone : (c :: tail).takeWhile (· == '-') = [] := by
          simp [hsign]
        rw [hnone, List.length_nil, List.drop_zero] at hinteger
        unfold readDecimals at hinteger
        split_ifs at hinteger with hempty
        by_contra hdigit
        exact hempty (by simp [hdigit])

end Number

/-! ## Integers -/

/-- The text of an integer. -/
def integerText (n : Int) : String :=
  .ofList (if n < 0 then '-' :: Nat.toDigits 10 n.natAbs else Nat.toDigits 10 n.natAbs)

/-- The digits of a positive number do not begin with 0, by induction on how many there are. -/
theorem head?_toDigits {n : Nat} (h : 0 < n) : (Nat.toDigits 10 n).head? ≠ some '0' := by
  induction n using Nat.strongRecOn with
  | _ n ih =>
      by_cases hsmall : n < 10
      · rw [Nat.toDigits_of_lt_base hsmall]
        have hdigit : ∀ m, m < 10 → 0 < m → [Nat.digitChar m].head? ≠ some '0' := by decide
        exact hdigit n hsmall h
      · rw [Nat.toDigits_of_base_le (by decide) (Nat.le_of_not_lt hsmall)]
        have hhead := ih (n / 10) (by omega) (by omega)
        cases hdigits : Nat.toDigits 10 (n / 10) with
        | nil => exact absurd hdigits Nat.toDigits_ne_nil
        | cons c tail =>
            rw [hdigits] at hhead
            exact hhead

/-- All of a text of digits is read. -/
theorem readDecimals_of_isDigit {digits : List Char} (hne : digits ≠ [])
    (h : ∀ c ∈ digits, c.isDigit = true) : readDecimals digits = some (digits, []) := by
  have htake : digits.takeWhile Char.isDigit = digits := List.takeWhile_eq_self_iff.2 h
  have hdrop : digits.dropWhile Char.isDigit = [] := List.dropWhile_eq_nil_iff.2 h
  unfold readDecimals
  rw [htake, hdrop, if_neg (by simpa using hne)]

theorem isNumber_toDigits (n : Nat) : IsNumber (Nat.toDigits 10 n) ∧
    IsNumber ('-' :: Nat.toDigits 10 n) := by
  have hdigits : ∀ c ∈ Nat.toDigits 10 n, c.isDigit = true :=
    fun c hc => Nat.isDigit_of_mem_toDigits (by decide) (by decide) hc
  have hread := readDecimals_of_isDigit Nat.toDigits_ne_nil hdigits
  obtain ⟨c, tail, hcons⟩ := List.exists_cons_of_ne_nil (Nat.toDigits_ne_nil (n := n) (b := 10))
  have hzeros : c = '0' → tail = [] := by
    rintro rfl
    rcases Nat.eq_zero_or_pos n with rfl | hpos
    · rw [Nat.toDigits_zero] at hcons
      exact (List.cons.inj hcons).2.symm
    · exact absurd (by rw [hcons]; rfl) (head?_toDigits hpos)
  have hsign : c ≠ '-' := by
    rintro rfl
    exact absurd (hdigits '-' (by rw [hcons]; exact List.mem_cons_self)) (by decide)
  rw [hcons] at hread ⊢
  constructor
  · simpa [IsNumber, readNumber, hsign, hread, readFractionPart, readExponent] using hzeros
  · simpa [IsNumber, readNumber, hsign, hread, readFractionPart, readExponent] using hzeros

theorem isNumber_integerText (n : Int) : IsNumber (integerText n).toList := by
  rw [integerText, String.toList_ofList]
  split
  · exact (isNumber_toDigits _).2
  · exact (isNumber_toDigits _).1

/-- An integer. -/
def Json.integer (n : Int) : Json := .number (integerText n)

/-! ## Writable values -/

namespace Json

@[simp] theorem writable_null : Writable .null := .null

@[simp] theorem writable_bool (b : Bool) : Writable (.bool b) := .bool b

@[simp] theorem writable_string (text : String) : Writable (.string text) := .string text

@[simp] theorem writable_integer (n : Int) : (integer n).Writable :=
  .number (isNumber_integerText n)

@[simp] theorem writable_array {elements : List Json} :
    Writable (.array elements) ↔ ∀ e ∈ elements, Writable e :=
  ⟨fun h => by cases h; assumption, .array⟩

@[simp] theorem writable_object {members : List (String × Json)} :
    Writable (.object members) ↔ ∀ m ∈ members, Writable m.2 :=
  ⟨fun h => by cases h; assumption, .object⟩

end Json

/-! ## Reading what was written -/

/-- The value is read back at all depths from some depth on, whatever comes after it. -/
def ReadsBack (value : Json) : Prop :=
  ∃ bound, ∀ depth rest, bound ≤ depth → EndsNumber rest →
    readValue depth (value.chars ++ rest) = some (value, rest)

section Value

variable {value : Json} {elements : List Json} {members : List (String × Json)}

/-- The text of a value begins with a character that is neither blank nor ends an array. -/
theorem Json.Writable.exists_cons (h : value.Writable) :
    ∃ c tail, value.chars = c :: tail ∧ isJsonBlank c = false ∧ c ≠ ']' := by
  cases h with
  | null => exact ⟨'n', _, rfl, by decide, by decide⟩
  | bool b => cases b <;> exact ⟨_, _, rfl, by decide, by decide⟩
  | number hnumber =>
      obtain ⟨c, tail, hcons, hc⟩ := hnumber.exists_cons
      refine ⟨c, tail, hcons, ?_⟩
      rcases hc with rfl | hdigit
      · exact ⟨by decide, by decide⟩
      · constructor
        · rw [← Bool.not_eq_true]
          intro hblank
          simp only [isJsonBlank, Bool.or_eq_true, beq_iff_eq] at hblank
          rcases hblank with ((rfl | rfl) | rfl) | rfl <;> exact absurd hdigit (by decide)
        · rintro rfl
          exact absurd hdigit (by decide)
  | string text => exact ⟨'"', _, rfl, by decide, by decide⟩
  | @array elements =>
      cases elements with
      | nil => exact ⟨'[', _, rfl, by decide, by decide⟩
      | cons e elements => exact ⟨'[', _, by rw [Json.chars], by decide, by decide⟩
  | @object members =>
      cases members with
      | nil => exact ⟨'{', _, rfl, by decide, by decide⟩
      | cons m members => exact ⟨'{', _, by rw [Json.chars], by decide, by decide⟩

/-- A scalar that begins so is a number. -/
theorem readScalar_number {chars rest : List Char} (h : IsNumber chars) (hrest : EndsNumber rest) :
    readScalar (chars ++ rest) = some (.number (.ofList chars), rest) := by
  obtain ⟨c, tail, rfl, hc⟩ := h.exists_cons
  have hletter : c ≠ 'n' ∧ c ≠ 't' ∧ c ≠ 'f' := by
    refine ⟨?_, ?_, ?_⟩ <;> rintro rfl <;> exact absurd hc (by decide)
  unfold readScalar
  split
  next heq => exact absurd (List.cons.inj heq).1 hletter.1
  next heq => exact absurd (List.cons.inj heq).1 hletter.2.1
  next heq => exact absurd (List.cons.inj heq).1 hletter.2.2
  next => rw [readNumber_append h hrest, Option.map_some]

/-- A value that is a scalar is read by its reader. -/
theorem readsBack_of_readScalar {c : Char} {tail : List Char} (hchars : value.chars = c :: tail)
    (hblank : isJsonBlank c = false) (hc : c ≠ '"' ∧ c ≠ '{' ∧ c ≠ '[')
    (h : ∀ rest, EndsNumber rest → readScalar (value.chars ++ rest) = some (value, rest)) :
    ReadsBack value := by
  refine ⟨1, fun depth rest hdepth hrest => ?_⟩
  obtain ⟨depth, rfl⟩ := Nat.exists_eq_add_of_le' hdepth
  have hscalar := h rest hrest
  rw [hchars, List.cons_append] at hscalar ⊢
  rw [readValue, skipBlanks_cons hblank]
  dsimp only
  rw [if_neg hc.1, if_neg hc.2.1, if_neg hc.2.2, hscalar]

theorem readsBack_number {text : String} (h : IsNumber text.toList) : ReadsBack (.number text) := by
  obtain ⟨c, tail, hcons, hc⟩ := h.exists_cons
  have hread : ∀ rest, EndsNumber rest →
      readScalar ((Json.number text).chars ++ rest) = some (.number text, rest) := by
    intro rest hrest
    rw [Json.chars, readScalar_number h hrest, String.ofList_toList]
  obtain ⟨c', tail', hcons', hblank, -⟩ := (Json.Writable.number h).exists_cons
  have hsame : c' = c := (List.cons.inj (hcons'.symm.trans hcons)).1
  refine readsBack_of_readScalar hcons' hblank ?_ hread
  rw [hsame]
  refine ⟨?_, ?_, ?_⟩ <;> rintro rfl <;> exact absurd hc (by decide)

/-- The elements of an array that begins with this one are read back, with what comes after it. -/
theorem readElements_more (hfirst : ReadsBack value) (h : ∀ e ∈ elements, ReadsBack e) :
    ∃ bound, ∀ depth rest, bound ≤ depth →
      readElements depth (value.chars ++ (moreElements elements ++ rest)) =
        some (value :: elements, rest) := by
  induction elements generalizing value with
  | nil =>
      obtain ⟨bound, hread⟩ := hfirst
      refine ⟨bound + 1, fun depth rest hdepth => ?_⟩
      obtain ⟨depth, rfl⟩ := Nat.exists_eq_add_of_le' (Nat.le_of_add_left_le hdepth)
      rw [moreElements, List.singleton_append, readElements,
        hread depth _ (by omega) (endsNumber_cons (by decide) rest)]
      simp only [Option.bind_eq_bind, Option.bind_some]
      rw [skipBlanks_cons (by decide)]
      rfl
  | cons e elements ih =>
      obtain ⟨bound, hread⟩ := hfirst
      obtain ⟨bound', hmore⟩ :=
        ih (h e List.mem_cons_self) fun x hx => h x (List.mem_cons_of_mem _ hx)
      refine ⟨max bound bound' + 1, fun depth rest hdepth => ?_⟩
      obtain ⟨depth, rfl⟩ := Nat.exists_eq_add_of_le' (Nat.le_of_add_left_le hdepth)
      rw [moreElements, List.cons_append, readElements,
        hread depth _ (by omega) (endsNumber_cons (by decide) _)]
      simp only [Option.bind_eq_bind, Option.bind_some]
      rw [skipBlanks_cons (by decide), readChar_cons]
      dsimp only
      rw [List.append_assoc, hmore depth rest (by omega)]
      rfl

/-- A member is read back, and what comes after it decides. -/
theorem readMembers_member {depth : Nat} {rest : List Char} (name : String)
    (h : readValue depth (value.chars ++ rest) = some (value, rest)) :
    readMembers (depth + 1) (quote name ++ ':' :: (value.chars ++ rest)) =
      match readChar ',' (skipBlanks rest) with
      | some chars => (readMembers depth chars).bind fun r => some ((name, value) :: r.1, r.2)
      | none =>
          (readChar '}' (skipBlanks rest)).bind fun chars => some ([(name, value)], chars) := by
  rw [quote_append, readMembers, skipBlanks_cons rfl, readChar_cons]
  simp only [Option.bind_eq_bind, Option.bind_some]
  rw [readText_flatMap]
  simp only [Option.bind_some]
  rw [skipBlanks_cons rfl, readChar_cons]
  simp only [Option.bind_some, h, ofList_joinSurrogates]
  rfl

/-- The members of an object that begins with this one are read back, with what comes after it. -/
theorem readMembers_more (name : String) (hfirst : ReadsBack value)
    (h : ∀ m ∈ members, ReadsBack m.2) :
    ∃ bound, ∀ depth rest, bound ≤ depth →
      readMembers depth (quote name ++ ':' :: (value.chars ++ (moreMembers members ++ rest))) =
        some ((name, value) :: members, rest) := by
  induction members generalizing name value with
  | nil =>
      obtain ⟨bound, hread⟩ := hfirst
      refine ⟨bound + 1, fun depth rest hdepth => ?_⟩
      obtain ⟨depth, rfl⟩ := Nat.exists_eq_add_of_le' (Nat.le_of_add_left_le hdepth)
      rw [moreMembers, List.singleton_append, readMembers_member name
        (hread depth _ (by omega) (endsNumber_cons (by decide) rest)), skipBlanks_cons (by decide)]
      rfl
  | cons m members ih =>
      obtain ⟨name', value'⟩ := m
      obtain ⟨bound, hread⟩ := hfirst
      obtain ⟨bound', hmore⟩ := ih name' (h _ List.mem_cons_self) fun x hx =>
        h x (List.mem_cons_of_mem _ hx)
      refine ⟨max bound bound' + 1, fun depth rest hdepth => ?_⟩
      obtain ⟨depth, rfl⟩ := Nat.exists_eq_add_of_le' (Nat.le_of_add_left_le hdepth)
      rw [moreMembers, List.cons_append, readMembers_member name
        (hread depth _ (by omega) (endsNumber_cons (by decide) _)), skipBlanks_cons (by decide),
        readChar_cons]
      dsimp only
      rw [List.append_assoc, List.cons_append, List.append_assoc, hmore depth rest (by omega)]
      rfl

/-- **A value that is written is read back**, by induction on it. -/
theorem Json.Writable.readsBack (h : value.Writable) : ReadsBack value := by
  induction h with
  | null =>
      refine readsBack_of_readScalar (c := 'n') rfl (by decide) (by decide) fun rest _ => ?_
      rfl
  | bool b =>
      cases b with
      | false =>
          refine readsBack_of_readScalar (c := 'f') rfl (by decide) (by decide) fun rest _ => ?_
          rfl
      | true =>
          refine readsBack_of_readScalar (c := 't') rfl (by decide) (by decide) fun rest _ => ?_
          rfl
  | number hnumber => exact readsBack_number hnumber
  | string text =>
      refine ⟨1, fun depth rest hdepth _ => ?_⟩
      obtain ⟨depth, rfl⟩ := Nat.exists_eq_add_of_le' hdepth
      exact readValue_quote depth text rest
  | @array elements hwritable ih =>
      cases elements with
      | nil =>
          refine ⟨1, fun depth rest hdepth _ => ?_⟩
          obtain ⟨depth, rfl⟩ := Nat.exists_eq_add_of_le' hdepth
          rfl
      | cons e elements =>
          -- The elements are read one level deeper than the array.
          obtain ⟨bound, hmore⟩ := readElements_more (ih e List.mem_cons_self) fun x hx =>
            ih x (List.mem_cons_of_mem _ hx)
          refine ⟨bound + 1, fun depth rest hdepth _ => ?_⟩
          obtain ⟨depth, rfl⟩ := Nat.exists_eq_add_of_le' (Nat.le_of_add_left_le hdepth)
          obtain ⟨c, tail, hchars, hblank, hend⟩ := (hwritable e List.mem_cons_self).exists_cons
          have hread := hmore depth rest (by omega)
          -- The first element does not begin with the end of an empty array.
          rw [Json.chars, List.cons_append, readValue, skipBlanks_cons (by decide)]
          dsimp only
          rw [if_neg (by decide), if_neg (by decide), if_pos rfl, List.append_assoc]
          rw [hchars, List.cons_append] at hread ⊢
          rw [skipBlanks_cons hblank, readChar, if_neg hend]
          dsimp only
          rw [hread]
          rfl
  | @object members hwritable ih =>
      cases members with
      | nil =>
          refine ⟨1, fun depth rest hdepth _ => ?_⟩
          obtain ⟨depth, rfl⟩ := Nat.exists_eq_add_of_le' hdepth
          rfl
      | cons m members =>
          obtain ⟨name, value⟩ := m
          obtain ⟨bound, hmore⟩ := readMembers_more name (ih _ List.mem_cons_self)
            fun x hx => ih x (List.mem_cons_of_mem _ hx)
          refine ⟨bound + 1, fun depth rest hdepth _ => ?_⟩
          obtain ⟨depth, rfl⟩ := Nat.exists_eq_add_of_le' (Nat.le_of_add_left_le hdepth)
          have hread := hmore depth rest (by omega)
          rw [Json.chars, List.cons_append, readValue, skipBlanks_cons (by decide)]
          dsimp only
          rw [if_neg (by decide), if_pos rfl, List.append_assoc,
            List.cons_append, List.append_assoc]
          rw [quote_append] at hread ⊢
          rw [skipBlanks_cons (by decide), readChar, if_neg (by decide)]
          dsimp only
          rw [hread]
          rfl

/-- **`JSON.parse` inverts `JSON.stringify`.** -/
theorem parseJson_text (h : value.Writable) : parseJson value.text = some value := by
  obtain ⟨bound, hread⟩ := h.readsBack
  have htext := hread (max bound (2 * value.chars.length + 1)) []
    (Nat.le_max_left _ _) endsNumber_nil
  rw [List.append_nil, readValue_of_le (Nat.le_max_right _ _)] at htext
  unfold parseJson Json.text
  rw [String.toList_ofList, htext]
  rfl

end Value

end Foundation
