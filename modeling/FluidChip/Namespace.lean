import FluidChip.Schematic

/-!
# The symbols of a schematic

Every physical quantity of an entity has a symbol, made of the entity's name and
a suffix for the quantity.  Two quantities may come to the same symbol; a
schematic where they do has no namespace.
-/

namespace FluidChip.Schematic

def symbolNamed (name : String) : Except Failure Symbol :=
  match Symbol.ofName? name with
  | some symbol => .ok symbol
  | none => .error (.expression (.badSymbol name))

/-! ## Symbols of quantities -/

/-- The solver's own pi, declared and defined once in a program. -/
def pi : Symbol := ⟨"constant_pi", by decide⟩

inductive NodeQuantity where
  | x
  | y
  | pressure
  | dropletLength
  deriving DecidableEq, Repr

def NodeQuantity.suffix : NodeQuantity → String
  | .x => "_pos_x"
  | .y => "_pos_y"
  | .pressure => "_pressure"
  | .dropletLength => "_droplet_length"

/-- The quantities of a connection.  Flow is positive from source to target. -/
inductive ConnectionQuantity where
  | length
  | flow
  | resistance
  deriving DecidableEq, Repr

def ConnectionQuantity.suffix : ConnectionQuantity → String
  | .length => "_pos_x"
  | .flow => "_flowrate"
  | .resistance => "_resistance"

def nodeSymbol (s : Schematic) (q : NodeQuantity) (id : NodeId) : Except Failure Symbol := do
  let name ← s.nodeName id
  symbolNamed (name ++ q.suffix)

def connectionSymbol (s : Schematic) (q : ConnectionQuantity) (id : ConnectionId) :
    Except Failure Symbol := do
  let name ← s.connectionName id
  symbolNamed (name ++ q.suffix)

/-- The name under which a port's own node registers it. -/
def portName (s : Schematic) (port : PortId) : Except Failure String :=
  match nameOf? (s.node (s.owner port)).ports port with
  | some name => .ok name
  | none => do
    let node ← s.nodeName (s.owner port)
    .error (.naming (.unregistered node))

def portSymbol (s : Schematic) (port : PortId) : Except Failure Symbol := do
  let node ← s.nodeName (s.owner port)
  let name ← s.portName port
  symbolNamed (node ++ "_" ++ name ++ "_pressure")

/-! ## The namespace -/

structure Claim where
  symbol : Except Failure Symbol
  owner : String

def nodeClaims (s : Schematic) (name : String) (id : NodeId) : List Claim :=
  [⟨s.nodeSymbol .x id, "x position of node '" ++ name ++ "'"⟩,
   ⟨s.nodeSymbol .y id, "y position of node '" ++ name ++ "'"⟩,
   ⟨s.nodeSymbol .pressure id, "pressure of node '" ++ name ++ "'"⟩,
   ⟨s.nodeSymbol .dropletLength id, "droplet length of node '" ++ name ++ "'"⟩] ++
  (s.node id).ports.entries.map fun (port, p) =>
    ⟨s.portSymbol p, "pressure of port '" ++ name ++ "." ++ port ++ "'"⟩

def connectionClaims (s : Schematic) (name : String) (id : ConnectionId) : List Claim :=
  [⟨s.connectionSymbol .length id, "length of connection '" ++ name ++ "'"⟩,
   ⟨s.connectionSymbol .flow id, "flow rate of connection '" ++ name ++ "'"⟩,
   ⟨s.connectionSymbol .resistance id, "resistance of connection '" ++ name ++ "'"⟩]

def claims (s : Schematic) : List Claim :=
  ⟨.ok pi, "the pi constant"⟩ ::
    s.nodes.entries.flatMap (fun (name, id) => s.nodeClaims name id) ++
    s.connections.entries.flatMap (fun (name, id) => s.connectionClaims name id)

/-- Grants claims in turn; the first that has no symbol, or a symbol granted
before, ends it. -/
def grant (schematic : String) : List Claim → Catalog String → Except Failure (Catalog String)
  | [], granted => .ok granted
  | claim :: rest, granted =>
    match claim.symbol with
    | .error failure => .error failure
    | .ok symbol =>
      match granted.find? symbol.name with
      | some owner =>
        .error (.naming (.collision schematic symbol.name owner claim.owner))
      | none => grant schematic rest (granted.set symbol.name claim.owner)

/-- The symbols of a schematic with their owners, if no two quantities share
one. -/
def namespace? (s : Schematic) : Except Failure (Catalog String) := grant s.name s.claims {}

end FluidChip.Schematic
