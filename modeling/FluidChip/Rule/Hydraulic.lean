import FluidChip.Rule

/-!
# Hydraulic rules

A network of channels is a circuit: the pressure drop along a channel is its flow
times its resistance, and flow is conserved at every node that is no control
point.  Pressure is the same at all ports of a node.
-/

namespace FluidChip.Rule

open Formula

/-! ## Declarations and ports -/

def hydraulicDeclarations (g : Setting) : Except Failure (List Sexp) := do
  let pressures ← g.nodes.mapM fun id => do
    let node ← g.schematic.nodeSymbol .pressure id
    let ports ← (g.schematic.node id).ports.values.mapM fun port =>
      return declare (← g.schematic.portSymbol port)
    return declare node :: ports
  let flows ← g.channels.mapM fun (_, c) => do
    let flow ← g.schematic.connectionSymbol .flow c
    let resistance ← g.schematic.connectionSymbol .resistance c
    return [declare flow, declare resistance]
  return pressures.flatten ++ flows.flatten

def portPressures (g : Setting) : Except Failure (List Sexp) := do
  let rules ← g.nodes.mapM fun id =>
    (g.schematic.node id).ports.values.mapM fun port => do
      let atPort ← g.portPressure port
      return assert .equal atPort (← g.pressure id)
  return rules.flatten

/-! ## Resistance -/

/-- The correction for the aspect of a rectangular cross-section, with the cube
of the smaller side. -/
def rectangularDenominator {α : Type} [Mul α] [Sub α] [Div α] [OfScientific α]
    (larger smaller cube : α) : α :=
  larger * cube * (1.0 - 0.63 * smaller / larger)

def sides {α : Type} [LT α] [DecidableLT α] (a b : α) : α × α :=
  (if a < b then b else a, if b < a then b else a)

/-- The resistance of a rectangular channel for a unit of its length. -/
def rectangularCoefficient (host : Host) (width height viscosity : Float) :
    Except Failure Float := do
  let (larger, smaller) := sides width height
  let cube ← power host smaller 3
  let denominator := rectangularDenominator larger smaller cube
  if denominator == 0.0 then throw (.arithmetic .divisionByZero)
  return 12.0 * viscosity / denominator

/-- A round channel: its resistance times pi times the fourth power of its radius
is eight times its viscosity times its length. -/
def circularModel (host : Host) (resistance length : Sexp) (owner : String)
    (attributes : Attributes) : Except Failure Sexp := do
  let radius ← attributes.positive host "radius" .length owner
  let viscosity ← attributes.positive host "viscosity" .viscosity owner
  let fourth ← power host radius 4
  let area := product [resistance, .symbol Schematic.pi, ← literal fourth]
  return assert .equal area (product [← literal (8.0 * viscosity), length])

/-- A rectangular channel: its resistance is a multiple of its length.  Without
any side given there is no model. -/
def rectangularModel (host : Host) (resistance length : Sexp) (owner : String)
    (attributes : Attributes) : Except Failure (List Sexp) := do
  let width ← attributes.quantity? host "width" .length owner
  let height ← attributes.quantity? host "height" .length owner
  if width.isNone && height.isNone then return []
  let width ← attributes.positive host "width" .length owner
  let height ← attributes.positive host "height" .length owner
  let viscosity ← attributes.positive host "viscosity" .viscosity owner
  let coefficient ← rectangularCoefficient host width height viscosity
  return [assert .equal resistance (product [← literal coefficient, length])]

def shapeOf (host : Host) (attributes : Attributes) : Except Failure String :=
  match attributes.find? "shape" with
  | none => .ok "rectangular"
  | some v => plainText host v

/-- The resistance of a channel is positive and, where the shape of the channel
is given, follows from it. -/
def resistanceRules (g : Setting) (name : String) (c : ConnectionId) :
    Except Failure (List Sexp) := do
  let resistance ← g.resistance c
  let length ← g.length c
  let attributes := (g.schematic.connection c).attributes
  let shape ← shapeOf g.host attributes
  let owner := "channel '" ++ name ++ "'"
  let model ←
    if shape = "circular" then pure [← circularModel g.host resistance length owner attributes]
    else if shape = "rectangular" then rectangularModel g.host resistance length owner attributes
    else throw (.topology (.unknownShape name shape))
  return assert .greater resistance zero :: model

def resistances (g : Setting) : Except Failure (List Sexp) :=
  return (← g.channels.mapM fun (name, c) => resistanceRules g name c).flatten

/-! ## Flow -/

def pressureDrops (g : Setting) : Except Failure (List Sexp) :=
  g.channels.mapM fun (_, c) => do
    let source ← g.portPressure (g.schematic.connection c).source
    let target ← g.portPressure (g.schematic.connection c).target
    let flow ← g.flow c
    let resistance ← g.resistance c
    return assert .equal (difference source target) (product [flow, resistance])

def inflows (g : Setting) (node : NodeId) : Except Failure (List Sexp) := do
  let terms ← (g.schematic.node node).ports.values.mapM fun port =>
    ((g.schematic.connectionsAtPort port).filter fun (_, c) =>
      g.table.isChannel (g.schematic.connection c).typeName).mapM fun (_, c) =>
        g.schematic.inflow port c
  return terms.flatten

/-- What a control point is a source of. -/
def sourceKind (t : TypeTable) (typeName : String) : String :=
  if t.isPressurePoint typeName then "pressure"
  else if t.isVoltagePoint typeName then "voltage"
  else "control point"

def balance (g : Setting) (name : String) (node : NodeId) : Run Failure (List Sexp) :=
  if g.table.isControlPoint (g.nodeType node) then do
    Run.debug ("Node '" ++ name ++ "' is a " ++ sourceKind g.table (g.nodeType node) ++
      " source; no conservation rule.")
    return []
  else .ofExcept do
    match ← inflows g node with
    | [] => return []
    | terms => return [assert .equal (sumOf terms) zero]

def conservation (g : Setting) : Run Failure (List Sexp) := do
  let rules ← g.schematic.nodes.entries.mapM fun (name, node) => balance g name node
  return rules.flatten

def fixedPressures (g : Setting) : Except Failure (List Sexp) := do
  let points := g.schematic.nodes.entries.filter fun (_, id) =>
    g.table.isPressurePoint (g.nodeType id)
  let rules ← points.mapM fun (name, id) => do
    let attributes := (g.schematic.node id).attributes
    let given ← attributes.quantity? g.host "pressure" .pressure ("node '" ++ name ++ "'")
    given.toList.mapM fun value => do
      return assert .equal (← g.pressure id) (← literal value)
  return rules.flatten

/-! ## The rules -/

def hydraulicRules : List Rule := [
  .ofExcept "PressureFlowDeclarationStrategy" hydraulicDeclarations,
  .ofExcept "PortPressureStrategy" portPressures,
  .ofExcept "ChannelResistanceStrategy" resistances,
  .ofExcept "ChannelPressureDropStrategy" pressureDrops,
  .ofRun "FlowConservationStrategy" conservation,
  .ofExcept "PressureControlPointStrategy" fixedPressures]

end FluidChip.Rule
