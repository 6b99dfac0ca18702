import FluidChip.Document.Check
import FluidChip.Schematic

/-!
# The format of schematic documents

A schematic document has a name, its own types, nodes, connections and
constraints.  A document in the format holds a draft: its parts, read off, before
they are joined.
-/

namespace FluidChip

open Document

namespace Schematic

/-! ## The format -/

def idField : Document.Field × Format :=
  ({ name := "id", required := true }, .identifier false true)

def typeField : Document.Field × Format :=
  ({ name := "type", required := true }, .identifier false true)

def attributesField : Document.Field × Format :=
  ({ name := "attributes" },
    .table (.identifier false false) (.scalar [.number, .text] false false none))

def declarations : Format :=
  .table (.identifier false false)
    (.record true [({ name := "supertype" }, .identifier true false)])

def typeFields : List (Document.Field × Format) :=
  [({ name := "nodes" }, declarations), ({ name := "connections" }, declarations),
    ({ name := "constraints" }, declarations)]

def nodeFields : List (Document.Field × Format) :=
  [idField, typeField, ({ name := "ports" }, .list 0 none (.identifier false false)),
    attributesField]

/-- A connection is a channel unless it says otherwise. -/
def connectionFields : List (Document.Field × Format) :=
  [idField, ({ name := "type", default? := some (.text "channel") }, .identifier false false),
    ({ name := "from", required := true }, .endpoint),
    ({ name := "to", required := true }, .endpoint), attributesField]

def constraintFields : List (Document.Field × Format) := [idField, typeField, attributesField]

def format : List (Document.Field × Format) :=
  [({ name := "name" }, .identifier false false),
    ({ name := "types" }, .record false typeFields),
    ({ name := "nodes", required := true }, .list 1 (some "id") (.record false nodeFields)),
    ({ name := "connections" }, .list 0 (some "id") (.record false connectionFields)),
    ({ name := "constraints" }, .list 0 (some "id") (.record false constraintFields))]

/-! ## Drafts -/

/-- A node, connection or constraint as a document gives it; only nodes have ports
and only connections have ends. -/
structure DraftPart where
  id : String
  typeName : String
  ports : List String := []
  source : String := ""
  target : String := ""
  attributes : Attributes := {}

structure Draft where
  name : Option String
  nodeTypes : List (String × Option String)
  connectionTypes : List (String × Option String)
  constraintTypes : List (String × Option String)
  nodes : List DraftPart
  connections : List DraftPart
  constraints : List DraftPart

namespace Draft

def textOf? : Value → Option String
  | .text s => some s
  | _ => none

def entriesOf : Value → List (Value × Value)
  | .map entries => entries
  | _ => []

def textAt? (entries : List (Value × Value)) (name : String) : Option String :=
  (Value.get? entries name).bind textOf?

def textAt (entries : List (Value × Value)) (name : String) : String :=
  (textAt? entries name).getD ""

def entriesAt (entries : List (Value × Value)) (name : String) : List (Value × Value) :=
  ((Value.get? entries name).map entriesOf).getD []

def itemsAt (entries : List (Value × Value)) (name : String) : List Value :=
  ((Value.get? entries name).map itemsOf).getD []

def named (entries : List (Value × Value)) : List (String × Value) :=
  entries.filterMap fun (key, v) => (textOf? key).map (·, v)

def declared (entries : List (Value × Value)) (kind : String) : List (String × Option String) :=
  (named (entriesAt entries kind)).map fun (name, body) =>
    (name, textAt? (entriesOf body) "supertype")

def part (v : Value) : DraftPart :=
  let entries := entriesOf v
  { id := textAt entries "id"
    typeName := textAt entries "type"
    ports := (itemsAt entries "ports").filterMap textOf?
    source := textAt entries "from"
    target := textAt entries "to"
    attributes := .ofList (named (entriesAt entries "attributes")) }

def ofDocument (entries : List (Value × Value)) : Draft :=
  let types := entriesAt entries "types"
  { name := textAt? entries "name"
    nodeTypes := declared types "nodes"
    connectionTypes := declared types "connections"
    constraintTypes := declared types "constraints"
    nodes := (itemsAt entries "nodes").map part
    connections := (itemsAt entries "connections").map part
    constraints := (itemsAt entries "constraints").map part }

end Draft

end Schematic

end FluidChip
