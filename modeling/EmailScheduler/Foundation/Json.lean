import EmailScheduler.Foundation.Digits
import EmailScheduler.Foundation.Utf8

/-!
# JSON

Values, the reader of `JSON.parse`, and the text of an object whose members are texts, which is read
back (`parseJson_objectText`).

The reader takes a bound on the depth of its calls. `parseJson` gives it one that is never reached:
a larger bound reads the same (`readValue_of_le`), because a call inside a call has fewer characters
left.
-/

set_option autoImplicit false

namespace Foundation

/-- A number is kept as it is written. -/
inductive Json where
  | null
  | bool (b : Bool)
  | number (text : String)
  | string (text : String)
  | array (elements : List Json)
  | object (members : List (String × Json))

/-- A member of an object. The last one of a name counts. -/
def Json.member? (name : String) : Json → Option Json
  | .object members => (members.reverse.find? fun m => m.1 == name).map Prod.snd
  | _ => none

/-! ## Texts -/

/-- The character that an escape stands for. -/
def escapeValue (e : Char) : Option Nat :=
  if e = '"' then some 34
  else if e = '\\' then some 92
  else if e = '/' then some 47
  else if e = 'b' then some 8
  else if e = 'f' then some 12
  else if e = 'n' then some 10
  else if e = 'r' then some 13
  else if e = 't' then some 9
  else none

/-- A text after its opening quotation mark: its code points, and the rest after the closing one. An
escape may stand for half a surrogate pair. -/
def readText : List Char → Option (List Nat × List Char)
  | [] => none
  | c :: chars =>
      if c = '"' then some ([], chars)
      else if c = '\\' then
        match chars with
        | [] => none
        | e :: chars =>
            if e = 'u' then
              match chars with
              | a :: b :: c :: d :: chars => do
                  let (unit, _) ← readDigits 16 4 0 [a, b, c, d]
                  (readText chars).map fun r => (unit :: r.1, r.2)
              | _ => none
            else do
              let unit ← escapeValue e
              (readText chars).map fun r => (unit :: r.1, r.2)
      else if c.toNat < 32 then none
      else (readText chars).map fun r => (c.toNat :: r.1, r.2)

def isHighSurrogate (unit : Nat) : Bool := decide (55296 ≤ unit) && decide (unit < 56320)

def isLowSurrogate (unit : Nat) : Bool := decide (56320 ≤ unit) && decide (unit < 57344)

/-- The character of a code point; half a pair is replaced. -/
def unitChar (unit : Nat) : Char :=
  if isHighSurrogate unit || isLowSurrogate unit then replacementCharacter else Char.ofNat unit

/-- The characters of some code points. -/
def joinSurrogates : List Nat → List Char
  | [] => []
  | [unit] => [unitChar unit]
  | unit :: unit' :: units =>
      if isHighSurrogate unit && isLowSurrogate unit' then
        Char.ofNat (65536 + (unit - 55296) * 1024 + (unit' - 56320)) :: joinSurrogates units
      else unitChar unit :: joinSurrogates (unit' :: units)

/-! ## Values -/

/-- White space. -/
def isJsonBlank (c : Char) : Bool := c == ' ' || c == '\n' || c == '\r' || c == '\t'

def skipBlanks (chars : List Char) : List Char := chars.dropWhile isJsonBlank

/-- Digits, one at least. -/
def readDecimals (chars : List Char) : Option (List Char × List Char) :=
  if (chars.takeWhile Char.isDigit).isEmpty then none
  else some (chars.takeWhile Char.isDigit, chars.dropWhile Char.isDigit)

/-- `.` and digits, or nothing. -/
def readFractionPart : List Char → Option (List Char × List Char)
  | '.' :: chars => (readDecimals chars).map fun r => ('.' :: r.1, r.2)
  | chars => some ([], chars)

/-- `e` or `E`, a sign, and digits, or nothing. -/
def readExponent (chars : List Char) : Option (List Char × List Char) :=
  match chars with
  | [] => some ([], [])
  | e :: rest =>
      if e = 'e' ∨ e = 'E' then
        match rest with
        | [] => none
        | sign :: digits =>
            if sign = '+' ∨ sign = '-' then
              (readDecimals digits).map fun r => (e :: sign :: r.1, r.2)
            else (readDecimals rest).map fun r => (e :: r.1, r.2)
      else some ([], chars)

/-- A number. Its integer part does not begin with a needless 0. -/
def readNumber (chars : List Char) : Option (List Char × List Char) := do
  let sign := chars.takeWhile (· == '-')
  let (integer, rest) ← readDecimals (chars.drop sign.length)
  if 1 < sign.length ∨ (integer.head? = some '0' ∧ 1 < integer.length) then none
  let (fraction, rest) ← readFractionPart rest
  let (exponent, rest) ← readExponent rest
  return (sign ++ integer ++ fraction ++ exponent, rest)

/-- Reads the rest of a word. -/
def readWord : List Char → List Char → Option (List Char)
  | [], chars => some chars
  | c :: word, chars => do
      let chars ← readChar c chars
      readWord word chars

/-- A value that is neither a text nor made of other values. -/
def readScalar (chars : List Char) : Option (Json × List Char) :=
  match chars with
  | 'n' :: chars => (readWord ['u', 'l', 'l'] chars).map fun rest => (.null, rest)
  | 't' :: chars => (readWord ['r', 'u', 'e'] chars).map fun rest => (.bool true, rest)
  | 'f' :: chars => (readWord ['a', 'l', 's', 'e'] chars).map fun rest => (.bool false, rest)
  | chars => (readNumber chars).map fun r => (.number (.ofList r.1), r.2)

mutual

/-- A value at the front of a text, and the rest. -/
def readValue : Nat → List Char → Option (Json × List Char)
  | 0, _ => none
  | depth + 1, chars =>
      match skipBlanks chars with
      | [] => none
      | c :: chars =>
          if c = '"' then do
            let (units, rest) ← readText chars
            return (.string (.ofList (joinSurrogates units)), rest)
          else if c = '{' then
            match readChar '}' (skipBlanks chars) with
            | some rest => some (.object [], rest)
            | none => (readMembers depth chars).map fun r => (.object r.1, r.2)
          else if c = '[' then
            match readChar ']' (skipBlanks chars) with
            | some rest => some (.array [], rest)
            | none => (readElements depth chars).map fun r => (.array r.1, r.2)
          else readScalar (c :: chars)

/-- The members of an object up to its end. -/
def readMembers : Nat → List Char → Option (List (String × Json) × List Char)
  | 0, _ => none
  | depth + 1, chars => do
      let chars ← readChar '"' (skipBlanks chars)
      let (units, chars) ← readText chars
      let chars ← readChar ':' (skipBlanks chars)
      let (value, chars) ← readValue depth chars
      match readChar ',' (skipBlanks chars) with
      | some chars =>
          let (members, rest) ← readMembers depth chars
          return ((.ofList (joinSurrogates units), value) :: members, rest)
      | none =>
          let rest ← readChar '}' (skipBlanks chars)
          return ([(.ofList (joinSurrogates units), value)], rest)

/-- The elements of an array up to its end. -/
def readElements : Nat → List Char → Option (List Json × List Char)
  | 0, _ => none
  | depth + 1, chars => do
      let (value, chars) ← readValue depth chars
      match readChar ',' (skipBlanks chars) with
      | some chars =>
          let (elements, rest) ← readElements depth chars
          return (value :: elements, rest)
      | none =>
          let rest ← readChar ']' (skipBlanks chars)
          return ([value], rest)

end

/-- `JSON.parse`; `none` is a `SyntaxError`. -/
def parseJson (text : String) : Option Json := do
  let (value, rest) ← readValue (2 * text.toList.length + 1) text.toList
  if (skipBlanks rest).isEmpty then return value else none

/-! ## The depth -/

section Depth

variable {chars rest : List Char}

/-- Changing the result of a reader leaves the rest as it is. -/
theorem exists_of_map {α β : Type} {read : Option (α × List Char)} {b : β}
    {f : α × List Char → β × List Char} (h : read.map f = some (b, rest))
    (hf : ∀ r, (f r).2 = r.2) : ∃ a, read = some (a, rest) := by
  obtain ⟨⟨a, rest'⟩, hr, heq⟩ := Option.map_eq_some_iff.1 h
  have hrest := hf (a, rest')
  rw [heq] at hrest
  dsimp only at hrest
  rw [hrest]
  exact ⟨a, hr⟩

theorem length_skipBlanks (chars : List Char) : (skipBlanks chars).length ≤ chars.length :=
  (List.dropWhile_suffix _).length_le

theorem length_of_readChar {c : Char} (h : readChar c (skipBlanks chars) = some rest) :
    rest.length < chars.length := by
  have hle := length_skipBlanks chars
  cases hblanks : skipBlanks chars with
  | nil =>
      rw [hblanks] at h
      cases h
  | cons d tail =>
      rw [hblanks] at h hle
      rw [readChar] at h
      split at h
      · cases h
        exact hle
      · cases h

theorem length_of_readText {units : List Nat} (h : readText chars = some (units, rest)) :
    rest.length < chars.length := by
  fun_induction readText chars generalizing units rest with
  | case1 => cases h
  | case2 chars =>
      cases h
      exact Nat.lt_succ_self _
  | case3 => cases h
  | case4 a b c d chars hslash ih =>
      obtain ⟨⟨unit, tail⟩, hread, h⟩ := Option.bind_eq_some_iff.1 h
      obtain ⟨units', hr⟩ := exists_of_map h fun _ => rfl
      have hlt := ih hr
      simp only [List.length_cons]
      omega
  | case5 => cases h
  | case6 chars e hu chars' ih =>
      obtain ⟨unit, hunit, h⟩ := Option.bind_eq_some_iff.1 h
      obtain ⟨units', hr⟩ := exists_of_map h fun _ => rfl
      have hlt := ih hr
      simp only [List.length_cons]
      omega
  | case7 => cases h
  | case8 c chars hquote hslash hlarge ih =>
      obtain ⟨units', hr⟩ := exists_of_map h fun _ => rfl
      have hlt := ih hr
      simp only [List.length_cons]
      omega

theorem length_of_readDecimals {digits : List Char} (h : readDecimals chars = some (digits, rest)) :
    rest.length < chars.length := by
  unfold readDecimals at h
  split at h
  next => cases h
  next hdigits =>
    cases h
    have hlength := congrArg List.length
      (List.takeWhile_append_dropWhile (p := Char.isDigit) (l := chars))
    rw [List.length_append] at hlength
    have hpos : 0 < (chars.takeWhile Char.isDigit).length := by
      rw [List.length_pos_iff, Ne, ← List.isEmpty_iff]
      exact hdigits
    omega

theorem length_of_readFractionPart {text : List Char}
    (h : readFractionPart chars = some (text, rest)) :
    rest.length ≤ chars.length := by
  unfold readFractionPart at h
  split at h
  next tail =>
    obtain ⟨digits, hr⟩ := exists_of_map h fun _ => rfl
    exact Nat.le_succ_of_le (Nat.le_of_lt (length_of_readDecimals hr))
  next =>
    cases h
    exact Nat.le_refl _

theorem length_of_readExponent {text : List Char} (h : readExponent chars = some (text, rest)) :
    rest.length ≤ chars.length := by
  unfold readExponent at h
  split at h
  next =>
    cases h
    exact Nat.le_refl _
  next e tail =>
    split at h
    next he =>
      split at h
      next => cases h
      next sign digits =>
        split at h
        next hsign =>
          obtain ⟨ds, hr⟩ := exists_of_map h fun _ => rfl
          have hlt := length_of_readDecimals hr
          simp only [List.length_cons]
          omega
        next hsign =>
          obtain ⟨ds, hr⟩ := exists_of_map h fun _ => rfl
          exact Nat.le_succ_of_le (Nat.le_of_lt (length_of_readDecimals hr))
    next he =>
      cases h
      exact Nat.le_refl _

theorem length_of_readNumber {text : List Char} (h : readNumber chars = some (text, rest)) :
    rest.length < chars.length := by
  unfold readNumber at h
  obtain ⟨⟨integer, rest1⟩, hinteger, h⟩ := Option.bind_eq_some_iff.1 h
  dsimp only at h
  split at h
  next => cases h
  next =>
    obtain ⟨⟨fraction, rest2⟩, hfraction, h⟩ := Option.bind_eq_some_iff.1 h
    obtain ⟨⟨exponent, rest3⟩, hexponent, h⟩ := Option.bind_eq_some_iff.1 h
    cases h
    have h1 := length_of_readDecimals hinteger
    have h2 := length_of_readFractionPart hfraction
    have h3 := length_of_readExponent hexponent
    rw [List.length_drop] at h1
    dsimp only at h2 h3 ⊢
    omega

theorem length_of_readWord (word : List Char) :
    ∀ {chars rest}, readWord word chars = some rest → rest.length ≤ chars.length := by
  induction word with
  | nil =>
      intro chars rest h
      cases h
      exact Nat.le_refl _
  | cons c word ih =>
      intro chars rest h
      obtain ⟨tail, htail, hword⟩ := Option.bind_eq_some_iff.1 h
      cases chars with
      | nil => cases htail
      | cons d chars =>
          rw [readChar] at htail
          split at htail
          next =>
            cases htail
            exact Nat.le_succ_of_le (ih hword)
          next => cases htail

theorem length_of_readScalar {value : Json} (h : readScalar chars = some (value, rest)) :
    rest.length < chars.length := by
  unfold readScalar at h
  split at h
  next tail =>
    obtain ⟨rest', hr, heq⟩ := Option.map_eq_some_iff.1 h
    cases heq
    exact Nat.lt_succ_of_le (length_of_readWord _ hr)
  next tail =>
    obtain ⟨rest', hr, heq⟩ := Option.map_eq_some_iff.1 h
    cases heq
    exact Nat.lt_succ_of_le (length_of_readWord _ hr)
  next tail =>
    obtain ⟨rest', hr, heq⟩ := Option.map_eq_some_iff.1 h
    cases heq
    exact Nat.lt_succ_of_le (length_of_readWord _ hr)
  next =>
    obtain ⟨text, hr⟩ := exists_of_map h fun _ => rfl
    exact length_of_readNumber hr

/-- A reader takes at least one character. -/
def Consumes {α : Type} (read : List Char → Option (α × List Char)) : Prop :=
  ∀ chars a rest, read chars = some (a, rest) → rest.length < chars.length

variable {depth : Nat}

theorem consumes_readValue_succ (hmembers : Consumes (readMembers depth))
    (helements : Consumes (readElements depth)) : Consumes (readValue (depth + 1)) := by
  intro chars value rest h
  have hblanks := length_skipBlanks chars
  rw [readValue] at h
  split at h
  next => cases h
  next c tail hskip =>
    rw [hskip, List.length_cons] at hblanks
    refine Nat.lt_of_lt_of_le ?_ hblanks
    rw [Nat.lt_succ_iff]
    split at h
    next =>
      obtain ⟨⟨units, rest'⟩, hr, heq⟩ := Option.bind_eq_some_iff.1 h
      cases heq
      exact Nat.le_of_lt (length_of_readText hr)
    next =>
      split at h
      next =>
        split at h
        next hend =>
          cases h
          exact Nat.le_of_lt (length_of_readChar hend)
        next =>
          obtain ⟨members, hr⟩ := exists_of_map h fun _ => rfl
          exact Nat.le_of_lt (hmembers _ _ _ hr)
      next =>
        split at h
        next =>
          split at h
          next hend =>
            cases h
            exact Nat.le_of_lt (length_of_readChar hend)
          next =>
            obtain ⟨elements, hr⟩ := exists_of_map h fun _ => rfl
            exact Nat.le_of_lt (helements _ _ _ hr)
        next => exact Nat.lt_succ_iff.1 (length_of_readScalar h)

theorem consumes_readMembers_succ (hvalue : Consumes (readValue depth))
    (hmembers : Consumes (readMembers depth)) : Consumes (readMembers (depth + 1)) := by
  intro chars members rest h
  rw [readMembers] at h
  obtain ⟨chars1, h1, h⟩ := Option.bind_eq_some_iff.1 h
  obtain ⟨⟨units, chars2⟩, h2, h⟩ := Option.bind_eq_some_iff.1 h
  obtain ⟨chars3, h3, h⟩ := Option.bind_eq_some_iff.1 h
  obtain ⟨⟨value, chars4⟩, h4, h⟩ := Option.bind_eq_some_iff.1 h
  have hlt1 := length_of_readChar h1
  have hlt2 := length_of_readText h2
  have hlt3 := length_of_readChar h3
  have hlt4 := hvalue _ _ _ h4
  dsimp only at h
  split at h
  next chars5 h5 =>
    obtain ⟨⟨members', rest'⟩, hr, heq⟩ := Option.bind_eq_some_iff.1 h
    cases heq
    have hlt5 := length_of_readChar h5
    have hlt := hmembers _ _ _ hr
    dsimp only
    omega
  next =>
    obtain ⟨rest', hr, heq⟩ := Option.bind_eq_some_iff.1 h
    cases heq
    have hlt := length_of_readChar hr
    omega

theorem consumes_readElements_succ (hvalue : Consumes (readValue depth))
    (helements : Consumes (readElements depth)) : Consumes (readElements (depth + 1)) := by
  intro chars elements rest h
  rw [readElements] at h
  obtain ⟨⟨value, chars1⟩, h1, h⟩ := Option.bind_eq_some_iff.1 h
  have hlt1 := hvalue _ _ _ h1
  dsimp only at h
  split at h
  next chars2 h2 =>
    obtain ⟨⟨elements', rest'⟩, hr, heq⟩ := Option.bind_eq_some_iff.1 h
    cases heq
    have hlt2 := length_of_readChar h2
    have hlt := helements _ _ _ hr
    dsimp only
    omega
  next =>
    obtain ⟨rest', hr, heq⟩ := Option.bind_eq_some_iff.1 h
    cases heq
    have hlt := length_of_readChar hr
    omega

theorem consumes_readers (depth : Nat) : Consumes (readValue depth) ∧ Consumes (readMembers depth) ∧
    Consumes (readElements depth) := by
  induction depth with
  | zero =>
      refine ⟨?_, ?_, ?_⟩
      · intro chars value rest h
        cases h
      · intro chars members rest h
        cases h
      · intro chars elements rest h
        cases h
  | succ depth ih =>
      obtain ⟨hvalue, hmembers, helements⟩ := ih
      exact ⟨consumes_readValue_succ hmembers helements, consumes_readMembers_succ hvalue hmembers,
        consumes_readElements_succ hvalue helements⟩

/-- At these depths, more depth makes no difference. An array takes two calls for each bracket. -/
structure DeepEnough (depth : Nat) : Prop where
  value : ∀ chars, 2 * chars.length < depth → readValue (depth + 1) chars = readValue depth chars
  members : ∀ chars, 2 * chars.length < depth →
    readMembers (depth + 1) chars = readMembers depth chars
  elements : ∀ chars, 2 * chars.length + 1 < depth →
    readElements (depth + 1) chars = readElements depth chars

theorem readValue_succ (h : DeepEnough depth) (hdepth : 2 * chars.length < depth + 1) :
    readValue (depth + 2) chars = readValue (depth + 1) chars := by
  have hblanks := length_skipBlanks chars
  rw [readValue, readValue]
  cases hskip : skipBlanks chars with
  | nil => rfl
  | cons c tail =>
      rw [hskip, List.length_cons] at hblanks
      have htail := length_skipBlanks tail
      dsimp only
      rw [h.members _ (by omega), h.elements _ (by omega)]

theorem readMembers_succ (h : DeepEnough depth) (hdepth : 2 * chars.length < depth + 1) :
    readMembers (depth + 2) chars = readMembers (depth + 1) chars := by
  rw [readMembers, readMembers]
  refine Option.bind_congr fun chars1 h1 => Option.bind_congr fun ⟨units, chars2⟩ h2 =>
    Option.bind_congr fun chars3 h3 => ?_
  have hlt1 := length_of_readChar h1
  have hlt2 := length_of_readText h2
  have hlt3 := length_of_readChar h3
  rw [h.value chars3 (by omega)]
  refine Option.bind_congr fun ⟨value, chars4⟩ h4 => ?_
  have hlt4 := (consumes_readers depth).1 _ _ _ h4
  dsimp only
  split
  next chars5 h5 =>
    have hlt5 := length_of_readChar h5
    rw [h.members chars5 (by omega)]
  next => rfl

theorem readElements_succ (h : DeepEnough depth) (hdepth : 2 * chars.length + 1 < depth + 1) :
    readElements (depth + 2) chars = readElements (depth + 1) chars := by
  rw [readElements, readElements, h.value chars (by omega)]
  refine Option.bind_congr fun ⟨value, chars1⟩ h1 => ?_
  have hlt1 := (consumes_readers depth).1 _ _ _ h1
  dsimp only
  split
  next chars2 h2 =>
    have hlt2 := length_of_readChar h2
    rw [h.elements chars2 (by omega)]
  next => rfl

theorem deepEnough (depth : Nat) : DeepEnough depth := by
  induction depth with
  | zero =>
      exact {
        value := fun chars h => absurd h (Nat.not_lt_zero _)
        members := fun chars h => absurd h (Nat.not_lt_zero _)
        elements := fun chars h => absurd h (Nat.not_lt_zero _) }
  | succ depth ih =>
      exact {
        value := fun chars h => readValue_succ ih h
        members := fun chars h => readMembers_succ ih h
        elements := fun chars h => readElements_succ ih h }

/-- **The bound on the depth is never reached.** -/
theorem readValue_of_le (h : 2 * chars.length + 1 ≤ depth) :
    readValue depth chars = readValue (2 * chars.length + 1) chars := by
  induction depth with
  | zero => omega
  | succ depth ih =>
      rcases Nat.lt_or_ge (2 * chars.length) depth with hlt | hge
      · rw [(deepEnough depth).value chars hlt, ih hlt]
      · have heq : depth + 1 = 2 * chars.length + 1 := by omega
        rw [heq]

end Depth

/-! ## Writing -/

/-- The letter of a short escape. -/
def escapeLetter (c : Char) : Option Char :=
  if c = '"' then some '"'
  else if c = '\\' then some '\\'
  else if c.toNat = 8 then some 'b'
  else if c.toNat = 12 then some 'f'
  else if c.toNat = 10 then some 'n'
  else if c.toNat = 13 then some 'r'
  else if c.toNat = 9 then some 't'
  else none

/-- A character in a text. -/
def escapeChar (c : Char) : List Char :=
  match escapeLetter c with
  | some e => ['\\', e]
  | none => if c.toNat < 32 then '\\' :: 'u' :: fixedDigits 16 4 c.toNat else [c]

/-- A text in quotation marks. -/
def quote (text : String) : List Char := '"' :: (text.toList.flatMap escapeChar ++ ['"'])

def memberText (m : String × String) : List Char := quote m.1 ++ ':' :: quote m.2

def membersText : List (String × String) → List Char
  | [] => []
  | [m] => memberText m
  | m :: m' :: members => memberText m ++ ',' :: membersText (m' :: members)

/-- `JSON.stringify` of an object with these members. -/
def objectText (members : List (String × String)) : String :=
  .ofList ('{' :: (membersText members ++ ['}']))

/-! ## Reading what was written -/

section ReadText

variable (chars : List Char)

theorem readText_end : readText ('"' :: chars) = some ([], chars) := by
  unfold readText
  rw [if_pos rfl]

theorem readText_short {e : Char} {unit : Nat} (hu : e ≠ 'u') (hvalue : escapeValue e = some unit) :
    readText ('\\' :: e :: chars) = (readText chars).map fun r => (unit :: r.1, r.2) := by
  conv_lhs => unfold readText
  rw [if_neg (by decide), if_pos rfl]
  dsimp only
  rw [if_neg hu, hvalue]
  rfl

theorem readText_unicode {a b c d : Char} {unit : Nat} {rest : List Char}
    (hread : readDigits 16 4 0 [a, b, c, d] = some (unit, rest)) :
    readText ('\\' :: 'u' :: a :: b :: c :: d :: chars) =
      (readText chars).map fun r => (unit :: r.1, r.2) := by
  conv_lhs => unfold readText
  rw [if_neg (by decide), if_pos rfl]
  dsimp only
  rw [if_pos rfl, hread]
  rfl

theorem readText_plain {c : Char} (hquote : c ≠ '"') (hslash : c ≠ '\\') (hlarge : ¬ c.toNat < 32) :
    readText (c :: chars) = (readText chars).map fun r => (c.toNat :: r.1, r.2) := by
  conv_lhs => unfold readText
  rw [if_neg hquote, if_neg hslash, if_neg hlarge]

end ReadText

/-- A short escape stands for its character. -/
theorem escapeValue_escapeLetter {c e : Char} (h : escapeLetter c = some e) :
    e ≠ 'u' ∧ escapeValue e = some c.toNat := by
  unfold escapeLetter at h
  repeat' split at h
  all_goals cases h
  all_goals simp_all [escapeValue]

/-- A character without a short escape does not end a text and does not begin an escape. -/
theorem ne_of_escapeLetter_eq_none {c : Char} (h : escapeLetter c = none) : c ≠ '"' ∧ c ≠ '\\' := by
  constructor
  · rintro rfl
    cases h
  · rintro rfl
    cases h

/-- A character is read back. -/
theorem readText_escapeChar (c : Char) (chars : List Char) :
    readText (escapeChar c ++ chars) = (readText chars).map fun r => (c.toNat :: r.1, r.2) := by
  unfold escapeChar
  cases hletter : escapeLetter c with
  | some e =>
      obtain ⟨hu, hvalue⟩ := escapeValue_escapeLetter hletter
      exact readText_short chars hu hvalue
  | none =>
      obtain ⟨hquote, hslash⟩ := ne_of_escapeLetter_eq_none hletter
      dsimp only
      split
      next hsmall =>
        have hread : readDigits 16 4 0 (fixedDigits 16 4 c.toNat ++ []) = some (c.toNat, []) :=
          readDigits_zero (by decide) (by omega) []
        exact readText_unicode chars hread
      next hlarge => exact readText_plain chars hquote hslash hlarge

/-- A text is read back up to its closing quotation mark. -/
theorem readText_flatMap (chars rest : List Char) :
    readText (chars.flatMap escapeChar ++ '"' :: rest) = some (chars.map Char.toNat, rest) := by
  induction chars with
  | nil => exact readText_end rest
  | cons c chars ih =>
      rw [List.flatMap_cons, List.append_assoc, readText_escapeChar, ih]
      rfl

/-- A character is no half of a surrogate pair. -/
theorem not_surrogate (c : Char) :
    isHighSurrogate c.toNat = false ∧ isLowSurrogate c.toNat = false := by
  have hvalid : c.toNat < 55296 ∨ 57343 < c.toNat ∧ c.toNat < 1114112 := c.valid
  unfold isHighSurrogate isLowSurrogate
  simp only [Bool.and_eq_false_iff, decide_eq_false_iff_not]
  omega

theorem unitChar_toNat (c : Char) : unitChar c.toNat = c := by
  obtain ⟨hhigh, hlow⟩ := not_surrogate c
  rw [unitChar, hhigh, hlow, Char.ofNat_toNat]
  rfl

theorem joinSurrogates_toNat (chars : List Char) :
    joinSurrogates (chars.map Char.toNat) = chars := by
  induction chars with
  | nil => rfl
  | cons c chars ih =>
      cases chars with
      | nil => exact congrArg (· :: []) (unitChar_toNat c)
      | cons d chars =>
          rw [List.map_cons] at ih
          rw [List.map_cons, List.map_cons, joinSurrogates, (not_surrogate c).1, Bool.false_and,
            if_neg Bool.false_ne_true, ih, unitChar_toNat]

/-- The text that its code points make up. -/
theorem ofList_joinSurrogates (text : String) :
    String.ofList (joinSurrogates (text.toList.map Char.toNat)) = text := by
  rw [joinSurrogates_toNat, String.ofList_toList]

theorem skipBlanks_cons {c : Char} (h : isJsonBlank c = false) (chars : List Char) :
    skipBlanks (c :: chars) = c :: chars :=
  List.dropWhile_cons_of_neg (Bool.not_eq_true _ ▸ h)

/-- A quotation begins with its mark. -/
theorem quote_append (text : String) (rest : List Char) :
    quote text ++ rest = '"' :: (text.toList.flatMap escapeChar ++ '"' :: rest) := by
  rw [quote, List.cons_append, List.append_assoc]
  rfl

/-- A text is read back as a value. -/
theorem readValue_quote (depth : Nat) (text : String) (rest : List Char) :
    readValue (depth + 1) (quote text ++ rest) = some (.string text, rest) := by
  rw [quote_append, readValue, skipBlanks_cons rfl]
  dsimp only
  rw [if_pos rfl, readText_flatMap]
  simp only [Option.bind_eq_bind, Option.bind_some, ofList_joinSurrogates]
  rfl

/-- The values of a written object. -/
def textMembers (members : List (String × String)) : List (String × Json) :=
  members.map fun m => (m.1, .string m.2)

/-- A member is read back, and what comes after it decides. -/
theorem readMembers_memberText (depth : Nat) (m : String × String) (rest : List Char) :
    readMembers (depth + 2) (memberText m ++ rest) =
      match readChar ',' (skipBlanks rest) with
      | some chars => (readMembers (depth + 1) chars).bind fun r =>
          some ((m.1, .string m.2) :: r.1, r.2)
      | none =>
          (readChar '}' (skipBlanks rest)).bind fun chars =>
            some ([(m.1, .string m.2)], chars) := by
  rw [memberText, List.append_assoc, List.cons_append, quote_append, readMembers,
    skipBlanks_cons rfl,
    readChar_cons]
  simp only [Option.bind_eq_bind, Option.bind_some]
  rw [readText_flatMap]
  simp only [Option.bind_some]
  rw [skipBlanks_cons rfl, readChar_cons]
  simp only [Option.bind_some]
  rw [readValue_quote]
  simp only [Option.bind_some, ofList_joinSurrogates]
  rfl

/-- The members are read back, by induction on them. -/
theorem readMembers_membersText (members : List (String × String)) :
    ∀ depth rest, members ≠ [] → members.length < depth →
      readMembers depth (membersText members ++ '}' :: rest) =
        some (textMembers members, rest) := by
  induction members with
  | nil =>
      intro depth rest hne
      exact absurd rfl hne
  | cons m members ih =>
      intro depth rest _ hdepth
      rw [List.length_cons] at hdepth
      obtain ⟨depth, rfl⟩ : ∃ d, depth = d + 2 := ⟨depth - 2, by omega⟩
      cases members with
      | nil =>
          rw [membersText, readMembers_memberText, skipBlanks_cons rfl]
          rfl
      | cons m' members =>
          rw [membersText, List.append_assoc, List.cons_append, readMembers_memberText,
            skipBlanks_cons rfl, readChar_cons]
          dsimp only
          rw [ih (depth + 1) rest (List.cons_ne_nil _ _) (by omega)]
          rfl

/-- The text of members begins with a quotation mark. -/
theorem membersText_cons (m : String × String) (members : List (String × String)) :
    ∃ chars, membersText (m :: members) = '"' :: chars := by
  cases members with
  | nil => exact ⟨_, rfl⟩
  | cons m' members => exact ⟨_, rfl⟩

/-- **An object of texts is read back from its text.** -/
theorem parseJson_objectText (members : List (String × String)) :
    parseJson (objectText members) = some (.object (textMembers members)) := by
  have hread : readValue (2 * (objectText members).toList.length + 1) (objectText members).toList =
      some (.object (textMembers members), []) := by
    -- As deep as there are members, on top of what is enough.
    rw [← readValue_of_le (Nat.le_add_right _ members.length), Nat.add_right_comm, objectText,
      String.toList_ofList, readValue, skipBlanks_cons rfl]
    dsimp only
    rw [if_neg (by decide), if_pos rfl]
    cases members with
    | nil => rfl
    | cons m members =>
        obtain ⟨chars, hchars⟩ := membersText_cons m members
        have hend : readChar '}' (skipBlanks (membersText (m :: members) ++ ['}'])) = none := by
          rw [hchars, List.cons_append, skipBlanks_cons rfl]
          rfl
        rw [hend, readMembers_membersText _ _ _ (List.cons_ne_nil _ _)]
        · rfl
        · exact Nat.lt_add_of_pos_left (Nat.mul_pos (by decide) (Nat.succ_pos _))
  unfold parseJson
  rw [hread]
  rfl

end Foundation
