import FluidChip.Document.Problem

/-!
# Checking documents

`Format.problems` lists what is wrong with a value, in the order in which it is
found.  A value is in its format if nothing is.
-/

namespace FluidChip.Document

open Text

/-- Where a value stands, for those who complain about it: rules of the library at
large name the rule they stem from, rules on names do not. -/
structure Spot where
  keys : List Value
  around : List String
  here : List String

namespace Spot

def field (keys : List Value) (rules : List String) (name : String) : Spot :=
  ⟨keys ++ [.text name], rules, rules ++ [name]⟩

def part (s : Spot) (rule : String) (key : Value) : Spot :=
  ⟨s.keys ++ [key], s.here ++ [rule], s.here ++ [rule]⟩

def named (s : Spot) (rule : String) (reason : Reason) : Problem :=
  .single ⟨s.keys, s.here ++ [rule]⟩ reason

def unnamed (s : Spot) (reason : Reason) : Problem := .single ⟨s.keys, s.around⟩ reason

def grouped (s : Spot) (rule : String) : List Problem → List Problem
  | [] => []
  | parts => [.group ⟨s.keys, s.here ++ [rule]⟩ parts]

end Spot

/-! ## Scalars -/

def lexicalReason? : Option Lexeme → Value → Option Reason
  | none, _ => none
  | some .identifier, .text s => if isIdentifier s then none else some (.badIdentifier s)
  | some .identifier, _ => some .noIdentifier
  | some .endpoint, .text s => if isEndpoint s then none else some (.badEndpoint s)
  | some .endpoint, _ => none

def lexicalProblems (lexeme : Option Lexeme) (s : Spot) (v : Value) : List Problem :=
  match lexicalReason? lexeme v with
  | none => []
  | some reason => [s.unnamed reason]

def isEmptyText : Value → Bool
  | .text s => s == ""
  | _ => false

def scalarProblems (kinds : List Kind) (nullable nonEmpty : Bool) (lexeme : Option Lexeme)
    (s : Spot) (v : Value) : List Problem :=
  match v with
  | .null => (if nullable then [] else [s.named "nullable" .null]) ++ lexicalProblems lexeme s v
  | v =>
    if !kinds.any (·.holds v) then [s.named "type" (.wrongKind kinds)]
    else (if nonEmpty && isEmptyText v then [s.named "empty" .empty] else []) ++
      lexicalProblems lexeme s v

/-! ## Distinct items -/

def itemKey? (key : String) : Value → Option Value
  | .map entries =>
    match Value.get? entries key with
    | some .null => none
    | found => found
  | _ => none

def repetitions (values : List Value) : List Value :=
  (values.foldl (fun (seen, again) v =>
    if seen.any (·.sameKey v) then
      (seen, if again.any (·.sameKey v) then again else again ++ [v])
    else (seen ++ [v], again)) (([] : List Value), ([] : List Value))).2

def distinctProblems (key : String) (s : Spot) (items : List Value) : List Problem :=
  let values := items.filterMap (itemKey? key)
  if !values.all (·.isKey) then [.undecidable .kinds]
  else match repetitions values with
    | [] => []
    | again =>
      match Value.sortKeys? id again with
      | none => [.undecidable .kinds]
      | some ordered =>
        match Value.itemsLimit? none ordered with
        | none => [s.unnamed (.repeated key ordered)]
        | some limit => [.undecidable (.noText limit)]

/-! ## Values -/

/-- The items of a list; bytes have numbers for items. -/
def itemsOf : Value → List Value
  | .list items => items
  | .bytes bs => bs.map fun b => .int b.toNat
  | _ => []

def numbered {α : Type} (f : Nat → Value → List α) : Nat → List Value → List α
  | _, [] => []
  | n, v :: rest => f n v ++ numbered f (n + 1) rest

def missingProblems (fields : List Field) (keys : List Value) (rules : List String)
    (entries : List (Value × Value)) : List Problem :=
  (fields.filter fun field => field.required && (Value.get? entries field.name).isNone).map
    fun field => (Spot.field keys rules field.name).named "required" .missingField

namespace Format

mutual

def problems (s : Spot) : Format → Value → List Problem
  | .scalar kinds nullable nonEmpty lexeme, v =>
    scalarProblems kinds nullable nonEmpty lexeme s v
  | .list atLeast distinct item, v =>
    match v with
    | .null => [s.named "nullable" .null]
    | .map entries =>
      s.named "type" (.wrongKind [.list]) ::
        (if item.ruleNames.any fun name => (Value.get? entries name).isSome
          then [.undecidable .kinds] else [])
    | v =>
      if !Kind.list.holds v then [s.named "type" (.wrongKind [.list])]
      else
        (if (itemsOf v).length < atLeast then [s.named "minlength" (.tooShort atLeast)] else []) ++
        (match distinct with
          | none => []
          | some key => distinctProblems key s (itemsOf v)) ++
        s.grouped "schema" (numbered (fun n value =>
          item.problems (s.part "schema" (.int n)) value) 0 (itemsOf v))
  | .table key value, v =>
    match v with
    | .null => [s.named "nullable" .null]
    | .map entries =>
      s.grouped "keysrules" (entries.flatMap fun entry =>
        key.problems (s.part "keysrules" entry.1) entry.1) ++
      s.grouped "valuesrules" (entries.flatMap fun entry =>
        value.problems (s.part "valuesrules" entry.1) entry.2)
    | _ => [s.named "type" (.wrongKind [.mapping])]
  | .record nullable fields, v =>
    match v with
    | .null => if nullable then [] else [s.named "nullable" .null]
    | .map entries =>
      let rules := s.here ++ ["schema"]
      s.grouped "schema" (entries.flatMap (fun entry =>
          fieldProblems s.keys rules fields entry.1 entry.2) ++
        missingProblems (fields.map (·.1)) s.keys rules entries)
    | _ => [s.named "type" (.wrongKind [.mapping])]

def fieldProblems (keys : List Value) (rules : List String) :
    List (Field × Format) → Value → Value → List Problem
  | [], key, _ => [.single ⟨keys ++ [key], rules⟩ .unknownField]
  | (field, format) :: rest, key, v =>
    if key.sameKey (.text field.name) then format.problems (Spot.field keys rules field.name) v
    else fieldProblems keys rules rest key v

end

def recordProblems (fields : List (Field × Format)) (entries : List (Value × Value)) :
    List Problem :=
  (entries.flatMap fun entry => fieldProblems [] [] fields entry.1 entry.2) ++
    missingProblems (fields.map (·.1)) [] [] entries

end Format

end FluidChip.Document
