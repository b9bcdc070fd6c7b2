import EmailScheduler.Foundation.JsonText

/-!
# Schemas of JSON values

A schema reads a value as data of a type, or does not accept it. It is given `none` for `undefined`,
which is what an object shows for a member that it does not have. Members that a schema does not
name are dropped.

A number is read as its text.
-/

set_option autoImplicit false

namespace Foundation

/-- A schema of `zod`, as its `parse` sees a value. -/
def JsonSchema (α : Type) : Type := Option Json → Option α

namespace JsonSchema

variable {α β : Type}

/-- `z.string()`. -/
def string : JsonSchema String
  | some (.string text) => some text
  | _ => none

/-- `z.number()`. -/
def number : JsonSchema String
  | some (.number text) => some text
  | _ => none

/-- `z.boolean()`. -/
def boolean : JsonSchema Bool
  | some (.bool b) => some b
  | _ => none

/-- `z.enum(values)`. -/
def enum (values : List String) : JsonSchema String
  | some (.string text) => if values.contains text then some text else none
  | _ => none

/-- `.nullable()`. -/
def nullable (schema : JsonSchema α) : JsonSchema (Option α)
  | some .null => some none
  | value => (schema value).map some

/-- `.optional()`. -/
def optional (schema : JsonSchema α) : JsonSchema (Option α)
  | none => some none
  | value => (schema value).map some

/-- The elements of an array, one after the other. -/
def elements (schema : JsonSchema α) : List Json → Option (List α)
  | [] => some []
  | e :: rest => do
      let a ← schema (some e)
      let as ← elements schema rest
      return a :: as

/-- `z.array(schema)`. -/
def array (schema : JsonSchema α) : JsonSchema (List α)
  | some (.array values) => schema.elements values
  | _ => none

/-- `z.object(…)`: the fields are read from the members. -/
def object (fields : (String → Option Json) → Option α) : JsonSchema α
  | some (.object members) => fields fun name => Json.member? name (.object members)
  | _ => none

@[simp] theorem string_string (text : String) : string (some (.string text)) = some text := rfl

@[simp] theorem number_integer (n : Int) : number (some (.integer n)) = some (integerText n) := rfl

@[simp] theorem boolean_bool (b : Bool) : boolean (some (.bool b)) = some b := rfl

@[simp] theorem nullable_null (schema : JsonSchema α) :
    schema.nullable (some .null) = some none := rfl

@[simp] theorem nullable_string (schema : JsonSchema α) (text : String) :
    schema.nullable (some (.string text)) = (schema (some (.string text))).map some := rfl

/-- **Lists.** If the schema reads the value of each item as data that stands in a relation to the
item, then it reads the array of the values as data that stand in this relation to the items, in
order. -/
theorem exists_array {schema : JsonSchema β} {encode : α → Json} {R : α → β → Prop} {items : List α}
    (h : ∀ item ∈ items, ∃ data, R item data ∧ schema (some (encode item)) = some data) :
    ∃ data, List.Forall₂ R items data ∧
      schema.array (some (.array (items.map encode))) = some data := by
  induction items with
  | nil => exact ⟨[], .nil, rfl⟩
  | cons item items ih =>
      obtain ⟨data, hdata, hread⟩ := h item List.mem_cons_self
      obtain ⟨more, hmore, hrest⟩ := ih fun x hx => h x (List.mem_cons_of_mem _ hx)
      refine ⟨data :: more, .cons hdata hmore, ?_⟩
      change schema.elements (items.map encode) = some more at hrest
      change schema.elements (encode item :: items.map encode) = some (data :: more)
      rw [elements, hread, hrest]
      rfl

/-- The array of the values of some items. -/
theorem array_map {schema : JsonSchema β} {encode : α → Json} {f : α → β}
    (h : ∀ item, schema (some (encode item)) = some (f item)) (items : List α) :
    schema.array (some (.array (items.map encode))) = some (items.map f) := by
  obtain ⟨data, hdata, hread⟩ := exists_array (R := fun item data => data = f item)
    fun item (_ : item ∈ items) => ⟨f item, rfl, h item⟩
  have hmap : data = items.map f := by
    clear hread
    induction hdata with
    | nil => rfl
    | cons hhead _ ih => rw [List.map_cons, hhead, ih]
  rw [hread, hmap]

end JsonSchema

end Foundation
