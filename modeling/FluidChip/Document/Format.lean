import FluidChip.Value.Order

/-!
# Document formats

A format says which values a document may hold.  Before a document is checked,
the defaults of its format are filled in.
-/

namespace FluidChip.Document

inductive Kind where
  | text
  | number
  | list
  | mapping
  deriving DecidableEq, Repr

namespace Kind

def word : Kind → String
  | text => "string"
  | number => "number"
  | list => "list"
  | mapping => "dict"

/-- Bytes count as a list of numbers, truth values do not count as numbers. -/
def holds : Kind → Value → Bool
  | text, .text _ => true
  | number, .int _ => true
  | number, .float _ => true
  | list, .list _ => true
  | list, .bytes _ => true
  | mapping, .map _ => true
  | _, _ => false

end Kind

inductive Lexeme where
  | identifier
  | endpoint
  deriving DecidableEq, Repr

structure Field where
  name : String
  required : Bool := false
  default? : Option Value := none

inductive Format where
  | scalar (kinds : List Kind) (nullable nonEmpty : Bool) (lexeme : Option Lexeme)
  /-- A list, perhaps with a least length, and perhaps with a key whose values tell
  its items apart. -/
  | list (atLeast : Nat) (distinct : Option String) (item : Format)
  | table (key value : Format)
  | record (nullable : Bool) (fields : List (Field × Format))

namespace Format

instance : Inhabited Format := ⟨.record true []⟩

def identifier (nullable nonEmpty : Bool) : Format :=
  .scalar [.text] nullable nonEmpty (some .identifier)

def endpoint : Format := .scalar [.text] false true (some .endpoint)

/-! ## Defaults -/

def withDefault (field : Field) (entries : List (Value × Value)) : List (Value × Value) :=
  match field.default?, Value.get? entries field.name with
  | some value, none => entries ++ [(.text field.name, value)]
  | some value, some .null => Value.setKey (.text field.name) value entries
  | _, _ => entries

mutual

/-- The value with the defaults of its format filled in.  A key of a table that
does not equal itself is dropped. -/
def fill : Format → Value → Value
  | .list _ _ item, .list items => .list (items.map fun v => item.fill v)
  | .table _ value, .map entries =>
    .map ((entries.filter fun entry => entry.1.sameKey entry.1).map fun entry =>
      (entry.1, value.fill entry.2))
  | .record _ fields, .map entries => .map (fillFields fields entries)
  | _, v => v

def fillFields : List (Field × Format) → List (Value × Value) → List (Value × Value)
  | [], entries => entries
  | (field, format) :: rest, entries =>
    fillFields rest ((withDefault field entries).map fun entry =>
      if entry.1.sameKey (.text field.name) then (entry.1, format.fill entry.2) else entry)

end

/-! ## Names of rules -/

/-- The names of the rules that a format consists of, those aside that hold a
format themselves. -/
def ruleNames : Format → List String
  | .scalar _ nullable nonEmpty lexeme =>
    ["type"] ++ (if nullable then ["nullable"] else []) ++
      (if nonEmpty then ["empty"] else []) ++
      match lexeme with
      | none => []
      | some .identifier => ["id_regex"]
      | some .endpoint => ["endpoint_regex"]
  | .list atLeast distinct _ =>
    ["type"] ++ (if atLeast = 0 then [] else ["minlength"]) ++
      (if distinct.isSome then ["unique_elements_by_key"] else [])
  | .table _ _ => ["type"]
  | .record nullable _ => ["type"] ++ (if nullable then ["nullable"] else [])

end Format

end FluidChip.Document
