import FluidChip.Proofs.Document.Defaults
import FluidChip.Schematic.Format
import Mathlib.Tactic.MkIffOfInductiveProp

/-!
# The grammar of schematic documents

What a document says, read off its mappings and lists directly: which keys it may
have, what stands under them, and what a key that is not there stands for.  The
checks of the loader, the defaults filled in, pass just these documents.
-/

namespace FluidChip

open Document Text

/-! ## Reading values -/

namespace Grammar

variable {α : Type}

/-- What a mapping gives under a key; `absent` is what a key that is not there stands
for, if it may be left out. -/
def At (entries : List (Value × Value)) (name : String) (reads : Value → α → Prop)
    (absent : Option α) (a : α) : Prop :=
  match Value.get? entries name with
  | none => absent = some a
  | some v => reads v a

def Identifier (v : Value) (s : String) : Prop := v = .text s ∧ isIdentifier s = true

def Endpoint (v : Value) (s : String) : Prop := v = .text s ∧ isEndpoint s = true

def Given (reads : Value → α → Prop) (v : Value) (a : Option α) : Prop :=
  ∃ b, reads v b ∧ a = some b

/-- A number or a text, as it stands. -/
def Scalar (v a : Value) : Prop :=
  v = a ∧ ((∃ n, v = .int n) ∨ (∃ x, v = .float x) ∨ ∃ s, v = .text s)

def Mapping (reads : List (Value × Value) → α → Prop) (v : Value) (a : α) : Prop :=
  ∃ entries, v = .map entries ∧ reads entries a

def Items (reads : Value → α → Prop) (v : Value) (all : List α) : Prop :=
  ∃ items, v = .list items ∧ List.Forall₂ reads items all

/-- A mapping from identifiers.  A key that does not equal itself is passed over. -/
def Table (reads : Value → α → Prop) (v : Value) (pairs : List (String × α)) : Prop :=
  ∃ entries, v = .map entries ∧
    List.Forall₂ (fun entry pair => Identifier entry.1 pair.1 ∧ reads entry.2 pair.2)
      (entries.filter fun entry => entry.1.sameKey entry.1) pairs

end Grammar

namespace Schematic

open Grammar

/-! ## Reading schematics -/

/-- The declaration of a type: nothing, or a mapping that may name a supertype. -/
def Supertype (v : Value) (supertype : Option String) : Prop :=
  (v = .null ∧ supertype = none) ∨
    Mapping (fun entries supertype => Known ["supertype"] entries ∧
      At entries "supertype" (Given Identifier) (some none) supertype) v supertype

abbrev Declared : Type := List (String × Option String)

@[mk_iff]
structure TypesRead (entries : List (Value × Value)) (types : Declared × Declared × Declared) :
    Prop where
  known : Known ["nodes", "connections", "constraints"] entries
  nodes : At entries "nodes" (Table Supertype) (some []) types.1
  connections : At entries "connections" (Table Supertype) (some []) types.2.1
  constraints : At entries "constraints" (Table Supertype) (some []) types.2.2

@[mk_iff]
structure NodeRead (entries : List (Value × Value)) (part : DraftPart) : Prop where
  known : Known ["id", "type", "ports", "attributes"] entries
  id : At entries "id" Identifier none part.id
  type : At entries "type" Identifier none part.typeName
  ports : At entries "ports" (Items Identifier) (some []) part.ports
  attributes : At entries "attributes" (Table Scalar) (some []) part.attributes.entries
  ends : part.source = "" ∧ part.target = ""

/-- The type of a connection, a channel where it is null. -/
def ConnectionType (v : Value) (typeName : String) : Prop :=
  (v = .null ∧ typeName = "channel") ∨ Identifier v typeName

@[mk_iff]
structure ConnectionRead (entries : List (Value × Value)) (part : DraftPart) : Prop where
  known : Known ["id", "type", "from", "to", "attributes"] entries
  id : At entries "id" Identifier none part.id
  type : At entries "type" ConnectionType (some "channel") part.typeName
  source : At entries "from" Endpoint none part.source
  target : At entries "to" Endpoint none part.target
  attributes : At entries "attributes" (Table Scalar) (some []) part.attributes.entries
  ports : part.ports = []

@[mk_iff]
structure ConstraintRead (entries : List (Value × Value)) (part : DraftPart) : Prop where
  known : Known ["id", "type", "attributes"] entries
  id : At entries "id" Identifier none part.id
  type : At entries "type" Identifier none part.typeName
  attributes : At entries "attributes" (Table Scalar) (some []) part.attributes.entries
  ports : part.ports = []
  ends : part.source = "" ∧ part.target = ""

/-- A list of parts, told apart by their ids. -/
def Parts (reads : List (Value × Value) → DraftPart → Prop) (v : Value)
    (parts : List DraftPart) : Prop :=
  Items (Mapping reads) v parts ∧ (parts.map (·.id)).Nodup

@[mk_iff]
structure DocumentRead (entries : List (Value × Value)) (d : Draft) : Prop where
  known : Known ["name", "types", "nodes", "connections", "constraints"] entries
  name : At entries "name" (Given Identifier) (some none) d.name
  types : At entries "types" (Mapping TypesRead) (some ([], [], []))
    (d.nodeTypes, d.connectionTypes, d.constraintTypes)
  nodes : At entries "nodes" (Parts NodeRead) none d.nodes
  some_node : d.nodes ≠ []
  connections : At entries "connections" (Parts ConnectionRead) (some []) d.connections
  constraints : At entries "constraints" (Parts ConstraintRead) (some []) d.constraints

end Schematic

end FluidChip
