import EmailScheduler.Foundation.Base64Url
import EmailScheduler.Foundation.Calendar
import EmailScheduler.Foundation.Json
import EmailScheduler.Api.EmailLists

/-!
# The text of a cursor

`encodeCursor` and the reading half of `decodeCursor`, in `email/router.ts`: JSON with a time and an
id, as Base64url. A text that the server has made is read back as the position it was made from
(`cursorParameter_encodeCursor`).

`z.iso.datetime()` and `z.uuid()` are parameters; `StandardTexts` is what is taken from them.
-/

set_option autoImplicit false

namespace EmailScheduler

open Foundation

/-! ## UUIDs -/

/-- The text of the UUID that a number denotes, as PostgreSQL shows it. -/
def uuidText (id : Nat) : String :=
  .ofList (fixedDigits 16 8 (id / 2 ^ 96) ++ '-' :: (fixedDigits 16 4 (id / 2 ^ 80 % 2 ^ 16) ++
    '-' :: (fixedDigits 16 4 (id / 2 ^ 64 % 2 ^ 16) ++
      '-' :: (fixedDigits 16 4 (id / 2 ^ 48 % 2 ^ 16) ++
      '-' :: (fixedDigits 16 12 (id % 2 ^ 48) ++ [])))))

/-- The number of such a text, in either case. -/
def readUuid (text : String) : Option Nat := do
  let (a, chars) ← readDigits 16 8 0 text.toList
  let chars ← readChar '-' chars
  let (b, chars) ← readDigits 16 4 0 chars
  let chars ← readChar '-' chars
  let (c, chars) ← readDigits 16 4 0 chars
  let chars ← readChar '-' chars
  let (d, chars) ← readDigits 16 4 0 chars
  let chars ← readChar '-' chars
  let (e, chars) ← readDigits 16 12 0 chars
  if chars = [] then return a * 2 ^ 96 + b * 2 ^ 80 + c * 2 ^ 64 + d * 2 ^ 48 + e else none

/-- A UUID with a version and the variant of the RFC, or one of its two special values. -/
def IsRfcUuid (id : Nat) : Prop :=
  id < 2 ^ 128 ∧ (id = 0 ∨ id = 2 ^ 128 - 1 ∨
    (1 ≤ id / 2 ^ 76 % 16 ∧ id / 2 ^ 76 % 16 ≤ 8) ∧ id / 2 ^ 62 % 4 = 2)

instance (id : Nat) : Decidable (IsRfcUuid id) :=
  inferInstanceAs (Decidable (_ ∧ _))

theorem readUuid_uuidText {id : Nat} (h : id < 2 ^ 128) : readUuid (uuidText id) = some id := by
  have hread : ∀ {width n : Nat}, n < 16 ^ width → ∀ rest,
      readDigits 16 width 0 (fixedDigits 16 width n ++ rest) = some (n, rest) :=
    readDigits_zero (by decide)
  unfold readUuid uuidText
  rw [String.toList_ofList, hread (by omega)]
  simp only [Option.bind_eq_bind, Option.bind_some, readChar_cons]
  rw [hread (by omega)]
  simp only [Option.bind_some, readChar_cons]
  rw [hread (by omega)]
  simp only [Option.bind_some, readChar_cons]
  rw [hread (by omega)]
  simp only [Option.bind_some, readChar_cons]
  rw [hread (by omega)]
  simp only [Option.bind_some, if_true]
  exact congrArg some (by omega)

/-! ## Cursors -/

/-- `z.iso.datetime()` and `z.uuid()`. -/
structure CursorSchema where
  isDatetime : String → Bool
  isUuid : String → Bool

/-- What is taken from them: they accept the usual text of a date and time, and of a UUID. -/
structure StandardTexts (schema : CursorSchema) : Prop where
  datetime : ∀ d : DateTime, d.Valid → 0 ≤ d.year ∧ d.year ≤ 9999 →
    schema.isDatetime (.ofList d.text) = true
  uuid : ∀ id : Uuid, IsRfcUuid id → schema.isUuid (uuidText id) = true

/-- `encodeCursor`. -/
def encodeCursor (cursor : Cursor) : String :=
  base64Url (objectText [("sortAt", toISOString cursor.sortAt), ("id", uuidText cursor.id)]).toUTF8

/-- `cursorSchema.parse`, and the date of `sortAt`. The schema lets through only dates and UUIDs
that are read. -/
def parseCursor (schema : CursorSchema) (parsed : Json) : Option Cursor :=
  match parsed.member? "sortAt", parsed.member? "id" with
  | some (.string sortAt), some (.string id) =>
      if schema.isDatetime sortAt && schema.isUuid id then do
        let sortAt ← readDate sortAt
        let id ← readUuid id
        return ⟨sortAt, id⟩
      else none
  | _, _ => none

/-- The `cursor` of a query, as `listQuerySchema` and `decodeCursor` take it. -/
def cursorParameter (schema : CursorSchema) : Field String → CursorParameter
  | .missing => .missing
  | .invalid => .invalid
  | .value text =>
      if text = "" then .invalid
      else
        match (parseJson (decodeText (base64UrlBytes text))).bind (parseCursor schema) with
        | none => .undecodable
        | some cursor => .text cursor

/-- The JSON of a cursor is read back from its text. -/
theorem decodeText_encodeCursor (cursor : Cursor) :
    decodeText (base64UrlBytes (encodeCursor cursor)) =
      objectText [("sortAt", toISOString cursor.sortAt), ("id", uuidText cursor.id)] := by
  rw [encodeCursor, base64UrlBytes_base64Url, decodeText_toUTF8]

theorem encodeCursor_ne_empty (cursor : Cursor) : encodeCursor cursor ≠ "" := by
  intro hempty
  have hdecoded := congrArg String.toList (decodeText_encodeCursor cursor)
  rw [hempty, objectText, String.toList_ofList] at hdecoded
  cases hdecoded

/-- **A cursor is read back from its text.** -/
theorem cursorParameter_encodeCursor {schema : CursorSchema} (hschema : StandardTexts schema)
    {cursor : Cursor} (hyear : FourDigitYear cursor.sortAt) (hid : IsRfcUuid cursor.id) :
    cursorParameter schema (.value (encodeCursor cursor)) = .text cursor := by
  have hparse : parseCursor schema (.object (textMembers
      [("sortAt", toISOString cursor.sortAt), ("id", uuidText cursor.id)])) = some cursor := by
    have hsortAt : Json.member? "sortAt" (.object (textMembers
        [("sortAt", toISOString cursor.sortAt), ("id", uuidText cursor.id)])) =
          some (.string (toISOString cursor.sortAt)) := rfl
    have hid' : Json.member? "id" (.object (textMembers
        [("sortAt", toISOString cursor.sortAt), ("id", uuidText cursor.id)])) =
          some (.string (uuidText cursor.id)) := rfl
    have hdatetime : schema.isDatetime (toISOString cursor.sortAt) = true :=
      hschema.datetime _ (valid_dateTime _) hyear
    unfold parseCursor
    rw [hsortAt, hid']
    dsimp only
    rw [hdatetime, hschema.uuid _ hid, readDate_toISOString hyear, readUuid_uuidText hid.1]
    rfl
  unfold cursorParameter
  dsimp only
  rw [if_neg (encodeCursor_ne_empty cursor), decodeText_encodeCursor, parseJson_objectText,
    Option.bind_some, hparse]

end EmailScheduler
