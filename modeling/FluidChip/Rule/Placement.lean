import FluidChip.Rule

/-!
# Placement rules

Every node has a position on the chip, every connection the length of the
straight segment between the positions of its ends.  The rules are polynomials
in those symbols.
-/

namespace FluidChip.Rule

open Formula

/-! ## Declarations -/

def nodeDeclarations (g : Setting) (id : NodeId) : Except Failure (List Sexp) := do
  let x ← g.schematic.nodeSymbol .x id
  let y ← g.schematic.nodeSymbol .y id
  return [declare x, declare y]

def placementDeclarations (g : Setting) : Except Failure (List Sexp) := do
  let positions ← g.nodes.mapM (nodeDeclarations g)
  let lengths ← g.connections.mapM fun id =>
    return declare (← g.schematic.connectionSymbol .length id)
  return positions.flatten ++ lengths

/-! ## The chip and its distances -/

def insideChip (g : Setting) (id : NodeId) : Except Failure (List Sexp) := do
  let x ← g.x id
  let y ← g.y id
  let width ← literalOf g.parameters.chipSizeX
  let height ← literalOf g.parameters.chipSizeY
  return [assert .greater x zero, assert .greater y zero, assert .less x width,
    assert .less y height]

def chipArea (g : Setting) : Except Failure (List Sexp) :=
  return (← g.nodes.mapM (insideChip g)).flatten

def channelLengths (g : Setting) : Except Failure (List Sexp) :=
  g.connections.mapM fun id => do
    let length ← g.length id
    return assert .atLeast length (← literalOf g.parameters.channelLength)

def squaredDistance (g : Setting) (a b : NodeId) : Except Failure Sexp := do
  let xb ← g.x b
  let xa ← g.x a
  let yb ← g.y b
  let ya ← g.y a
  return sum [square (difference xb xa), square (difference yb ya)]

/-- The square of a magnitude, as exact as the magnitude is. -/
def squared (host : Host) (m : Quantity.Magnitude) : Except Failure Quantity.Magnitude :=
  match m with
  | .int n => .ok (.int (n * n))
  | .float x => return .float (← power host x 2)

/-- Any two nodes keep the least distance, compared squared so that no root is
needed. -/
def nodeDistances (g : Setting) : Except Failure (List Sexp) := do
  let least ← squared g.host g.parameters.nodeDistance
  (pairs g.nodes).mapM fun (a, b) => do
    let distance ← squaredDistance g a b
    return assert .atLeast distance (← literalOf least)

def channelGeometry (g : Setting) : Except Failure (List Sexp) :=
  g.connections.mapM fun id => do
    let length ← g.length id
    let distance ← squaredDistance g (g.schematic.sourceNode id) (g.schematic.targetNode id)
    return assert .equal (square length) distance

/-! ## Crossing angles -/

def farEnd (g : Setting) (node : NodeId) (id : ConnectionId) : NodeId :=
  if g.schematic.sourceNode id = node then g.schematic.targetNode id
  else g.schematic.sourceNode id

/-- The connections at a node that lead to another one. -/
def spokes (g : Setting) (node : NodeId) : List ConnectionId :=
  ((g.schematic.connectionsAt node).map (·.2)).filter fun id => farEnd g node id ≠ node

/-- Two channels at a node diverge by the critical angle at least: the product of
their directions is at most the product of their lengths and the cosine. -/
def angleRule (g : Setting) (cosine : Float) (node : NodeId) (first second : ConnectionId) :
    Except Failure Sexp := do
  let x ← g.x node
  let y ← g.y node
  let a := farEnd g node first
  let b := farEnd g node second
  let ax ← g.x a
  let ay ← g.y a
  let bx ← g.x b
  let bY ← g.y b
  let dot := sum [product [difference ax x, difference bx x],
    product [difference ay y, difference bY y]]
  let bound := product [← g.length first, ← g.length second, ← literal cosine]
  return assert .atMost dot bound

def crossingAngles (g : Setting) : Except Failure (List Sexp) := do
  let angle ← (g.parameters.crossingAngle.toFloat : Except _ _)
  let cosine := g.host.cosine angle
  let rules ← g.nodes.mapM fun node =>
    (pairs (spokes g node)).mapM fun (first, second) => angleRule g cosine node first second
  return rules.flatten

/-! ## Control points -/

def pinned (g : Setting) (name : String) (attributes : Attributes) :
    Except Failure (List Sexp) := do
  let owner := Topology.ofConstraint name
  let label ← namedIn g.host attributes name "node"
  let node ← g.schematic.getNode label
  if !g.table.isControlPoint (g.nodeType node) then
    throw (.topology (.notControlPoint name label (g.nodeType node)))
  let x ← attributes.quantity? g.host "x" .length owner
  let y ← attributes.quantity? g.host "y" .length owner
  if x.isNone && y.isNone then throw (.topology (.noCoordinate name))
  let atX ← x.toList.mapM fun v => return assert .equal (← g.x node) (← literal v)
  let atY ← y.toList.mapM fun v => return assert .equal (← g.y node) (← literal v)
  return atX ++ atY

def controlPlacements (g : Setting) : Except Failure (List Sexp) := do
  let placements := g.schematic.constraints.entries.filter fun (_, c) =>
    g.table.constraintIsA c.typeName TypeTable.placementType
  return (← placements.mapM fun (name, c) => pinned g name c.attributes).flatten

/-! ## The rules -/

def placementRules : List Rule := [
  .ofExcept "PlacementDeclarationStrategy" placementDeclarations,
  .ofExcept "FiniteChipAreaRuleStrategy" chipArea,
  .ofExcept "MinimumChannelLengthStrategy" channelLengths,
  .ofExcept "MinimumNodeDistanceStrategy" nodeDistances,
  .ofExcept "ChannelGeometryStrategy" channelGeometry,
  .ofExcept "ChannelCrossingAngleStrategy" crossingAngles,
  .ofExcept "ControlPointPlacementStrategy" controlPlacements]

end FluidChip.Rule
