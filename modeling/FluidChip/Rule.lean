import FluidChip.Attributes
import FluidChip.Namespace
import FluidChip.Parameters
import FluidChip.TypeTable

/-!
# Rules

A rule turns a schematic, under process parameters and its type table, into
expressions of the solver program.  It runs on a host.
-/

namespace FluidChip

structure Setting where
  schematic : Schematic
  parameters : Parameters
  table : TypeTable
  host : Host

/-- What a rule sees of itself while it runs: the number of this call, from one
on, and the answer to asking for its cached result. -/
structure Visit where
  call : Nat
  cached : Except Failure (List Sexp)

structure Rule where
  name : String
  step : Setting → Visit → Run Failure (List Sexp)

namespace Rule

def ofExcept (name : String) (step : Setting → Except Failure (List Sexp)) : Rule :=
  ⟨name, fun setting _ => .ofExcept (step setting)⟩

def ofRun (name : String) (step : Setting → Run Failure (List Sexp)) : Rule :=
  ⟨name, fun setting _ => step setting⟩

/-! ## Literals -/

def literal (x : Float) : Except Failure Sexp :=
  (Sexp.literalOf x (Number.floatText x)).mapError .expression

def literalOf (m : Quantity.Magnitude) : Except Failure Sexp :=
  match m with
  | .float x => literal x
  | .int n => do
    let x ← (Sexp.numberOf n).mapError Failure.expression
    literal x

/-! ## Attributes -/

/-- The text of an attribute that stands for itself. -/
def plainText (host : Host) (v : Value) : Except Failure String :=
  match host.limit? v with
  | none => .ok v.plain
  | some limit => .error (.unprinted limit)

/-- The name of what a constraint is about, under the key of its role. -/
def namedIn (host : Host) (attributes : Attributes) (constraint role : String) :
    Except Failure String :=
  match attributes.find? role with
  | none => .error (.topology (.unnamed constraint role))
  | some .null => .error (.topology (.unnamed constraint role))
  | some v => plainText host v

/-! ## Powers -/

/-- The power of a double.  One that leaves the range of doubles is a fault. -/
def power (host : Host) (x : Float) (n : Nat) : Except Failure Float :=
  match host.power? x n with
  | some y => .ok y
  | none => .error (.arithmetic .overflow)

/-! ## Pairs -/

/-- Each two members of a list, the earlier one first. -/
def pairs {α : Type} : List α → List (α × α)
  | [] => []
  | a :: rest => rest.map (a, ·) ++ pairs rest

end Rule

namespace Setting

variable (g : Setting)

def nodes : List NodeId := g.schematic.nodes.values

def connections : List ConnectionId := g.schematic.connections.values

def nodeType (id : NodeId) : String := (g.schematic.node id).typeName

def channels : List (String × ConnectionId) :=
  g.schematic.connections.entries.filter fun (_, c) =>
    g.table.isChannel (g.schematic.connection c).typeName

def x (id : NodeId) : Except Failure Sexp := return .symbol (← g.schematic.nodeSymbol .x id)

def y (id : NodeId) : Except Failure Sexp := return .symbol (← g.schematic.nodeSymbol .y id)

def pressure (id : NodeId) : Except Failure Sexp :=
  return .symbol (← g.schematic.nodeSymbol .pressure id)

def portPressure (id : PortId) : Except Failure Sexp :=
  return .symbol (← g.schematic.portSymbol id)

def length (id : ConnectionId) : Except Failure Sexp :=
  return .symbol (← g.schematic.connectionSymbol .length id)

def flow (id : ConnectionId) : Except Failure Sexp :=
  return .symbol (← g.schematic.connectionSymbol .flow id)

def resistance (id : ConnectionId) : Except Failure Sexp :=
  return .symbol (← g.schematic.connectionSymbol .resistance id)

end Setting

/-- The flow into a port through a channel: the flow of a channel that ends
there, the negative flow of any other. -/
def Schematic.inflow (s : Schematic) (port : PortId) (c : ConnectionId) :
    Except Failure Sexp := do
  let flow := Sexp.symbol (← s.connectionSymbol .flow c)
  if (s.connection c).target = port then return flow
  else return Formula.product [Formula.minusOne, flow]

end FluidChip
