import FluidChip.Rule

/-!
# Droplet rules

A T-junction pinches the dispersed phase off into droplets that the continuous
phase carries away.  The length of a droplet is the width of the output channel
times one plus `alpha` times the ratio of the dispersed to the continuous flow;
the rule states it multiplied by the continuous flow, so that it is a
polynomial.
-/

namespace FluidChip.Rule

open Formula

/-! ## Junctions -/

inductive Branch where
  | continuous
  | dispersed
  | output
  deriving DecidableEq, Repr

def Branch.label : Branch → String
  | continuous => "continuous"
  | dispersed => "dispersed"
  | output => "output"

/-- The port of a junction and the one channel attached to it. -/
def branch (g : Setting) (junction : NodeId) (b : Branch) :
    Except Failure (PortId × ConnectionId) := do
  let node ← g.schematic.nodeName junction
  let port ← g.schematic.getPort node b.label
  match g.schematic.connectionsAtPort port with
  | [(_, channel)] => return (port, channel)
  | attached => throw (.topology (.portLoad node b.label (attached.map (·.1))))

def defaultAlpha : Float := 1.0

def junctionRules (g : Setting) (name : String) (junction : NodeId) :
    Except Failure (List Sexp × String) := do
  let owner := "T-junction '" ++ name ++ "'"
  let (continuousPort, continuous) ← branch g junction .continuous
  let (dispersedPort, dispersed) ← branch g junction .dispersed
  let (outputPort, output) ← branch g junction .output
  let continuousFlow ← g.schematic.inflow continuousPort continuous
  let dispersedFlow ← g.schematic.inflow dispersedPort dispersed
  let outputFlow ← g.schematic.inflow outputPort output
  let node := g.schematic.node junction
  let alpha := (← node.attributes.quantity? g.host "alpha" .ratio owner).getD defaultAlpha
  let outputName ← g.schematic.connectionName output
  let width ← (g.schematic.connection output).attributes.positive g.host "width" .length
    ("output channel '" ++ outputName ++ "' of " ++ owner)
  let length ← g.schematic.nodeSymbol .dropletLength junction
  let flows ← [continuous, dispersed, output].mapM fun c =>
    return declare (← g.schematic.connectionSymbol .flow c)
  let widthTerm ← literal width
  let alphaTerm ← literal alpha
  let law := assert .equal (product [.symbol length, continuousFlow])
    (product [widthTerm, sum [continuousFlow, product [alphaTerm, dispersedFlow]]])
  let made := [declare length] ++ flows ++
    [assert .greater continuousFlow zero, assert .greater dispersedFlow zero,
      assert .less outputFlow zero, law]
  return (made, owner ++ ": alpha=" ++ Number.floatText alpha ++ ", output width=" ++
    Number.floatText width ++ ".")

/-- Both phases flow into every T-junction, the mixture flows out, and the length
of a droplet follows its law. -/
def junctions (g : Setting) : Run Failure (List Sexp) := do
  let rules ← (g.schematic.nodes.entries.filter fun (_, id) =>
    g.table.isJunction (g.nodeType id)).mapM fun (name, id) => do
      let (made, note) ← Run.ofExcept (junctionRules g name id)
      Run.debug note
      return made
  return rules.flatten

/-! ## Volumes -/

/-- The volume that a constraint asks of the droplets of a junction: the droplet
fills the cross-section of the output channel over its length. -/
def dropletVolume (g : Setting) (name : String) (attributes : Attributes) :
    Except Failure (List Sexp) := do
  let owner := Topology.ofConstraint name
  let label ← namedIn g.host attributes name "junction"
  let junction ← g.schematic.getNode label
  if !g.table.isJunction (g.nodeType junction) then
    throw (.topology (.notJunction name label))
  let volume ← attributes.positive g.host "volume" .volume owner
  let (_, output) ← branch g junction .output
  let channel := "output channel '" ++ (← g.schematic.connectionName output) ++ "'"
  let outputAttributes := (g.schematic.connection output).attributes
  let width ← outputAttributes.positive g.host "width" .length channel
  let height ← outputAttributes.positive g.host "height" .length channel
  let length ← g.schematic.nodeSymbol .dropletLength junction
  let filled := product [.symbol length, ← literal width, ← literal height]
  return [declare length, assert .equal filled (← literal volume)]

def dropletVolumes (g : Setting) : Except Failure (List Sexp) := do
  let targets := g.schematic.constraints.entries.filter fun (_, c) =>
    g.table.constraintIsA c.typeName TypeTable.volumeType
  return (← targets.mapM fun (name, c) => dropletVolume g name c.attributes).flatten

/-! ## The rules -/

def dropletRules : List Rule := [
  .ofRun "TJunctionDropletStrategy" junctions,
  .ofExcept "DropletVolumeStrategy" dropletVolumes]

end FluidChip.Rule
