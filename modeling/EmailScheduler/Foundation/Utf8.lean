import Mathlib.Tactic.Common

/-!
# Decoding UTF-8 with replacement

A decoder that does not fail: valid UTF-8 is decoded, and in other bytes every longest beginning of
a character that no byte continues becomes a replacement character. `Utf8State` is the state between
two bytes: how many bytes the current character still needs, the range of the next one, and its bits
so far.
-/

set_option autoImplicit false

namespace Foundation

/-- U+FFFD. -/
def replacementCharacter : Char := Char.ofNat 65533

/-- Where the decoder is in a character. -/
structure Utf8State where
  needed : Nat := 0
  lower : Nat := 128
  upper : Nat := 191
  codePoint : Nat := 0

/-- The first byte of a character. -/
def utf8First (byte : Nat) : List Char × Utf8State :=
  if byte ≤ 127 then ([Char.ofNat byte], {})
  else if 194 ≤ byte ∧ byte ≤ 223 then ([], { needed := 1, codePoint := byte - 192 })
  else if 224 ≤ byte ∧ byte ≤ 239 then
    ([], {
      needed := 2
      lower := if byte = 224 then 160 else 128
      upper := if byte = 237 then 159 else 191
      codePoint := byte - 224 })
  else if 240 ≤ byte ∧ byte ≤ 244 then
    ([], {
      needed := 3
      lower := if byte = 240 then 144 else 128
      upper := if byte = 244 then 143 else 191
      codePoint := byte - 240 })
  else ([replacementCharacter], {})

/-- Another byte: it continues the character, or the character is replaced and the byte is a first
one. -/
def utf8Next (s : Utf8State) (byte : Nat) : List Char × Utf8State :=
  if s.needed = 0 then utf8First byte
  else if s.lower ≤ byte ∧ byte ≤ s.upper then
    let codePoint := s.codePoint * 64 + (byte - 128)
    if s.needed = 1 then ([Char.ofNat codePoint], {})
    else ([], { needed := s.needed - 1, codePoint := codePoint })
  else (replacementCharacter :: (utf8First byte).1, (utf8First byte).2)

/-- The characters of a sequence of bytes. -/
def utf8Characters (s : Utf8State) : List UInt8 → List Char
  | [] => if s.needed = 0 then [] else [replacementCharacter]
  | byte :: bytes => (utf8Next s byte.toNat).1 ++ utf8Characters (utf8Next s byte.toNat).2 bytes

/-- The text of some bytes. -/
def decodeText (bytes : ByteArray) : String :=
  match String.fromUTF8? bytes with
  | some text => text
  | none => .ofList (utf8Characters {} bytes.toList)

/-- Valid UTF-8 is decoded. -/
theorem decodeText_of_valid {bytes : ByteArray} {text : String}
    (h : String.fromUTF8? bytes = some text) : decodeText bytes = text := by
  unfold decodeText
  rw [h]

/-- A text is read back from its bytes. -/
theorem decodeText_toUTF8 (text : String) : decodeText text.toUTF8 = text :=
  decodeText_of_valid (dif_pos text.isValidUTF8)

/-- In invalid bytes, the beginning of a character that is cut off is replaced once. -/
example : utf8Characters {} [97, 226, 130, 98, 255] =
    ['a', replacementCharacter, 'b', replacementCharacter] := by decide

end Foundation
