import FluidChip.Schematic

/-!
# The type table

The declared types of a schematic, resolved once: its three subtype graphs and
the types that the rules ask for by name.
-/

namespace FluidChip

structure TypeDeclaration where
  name : String
  supertype : Option String
  deriving DecidableEq, Repr

structure TypeTable where
  nodeGraph : SubtypeGraph
  connectionGraph : SubtypeGraph
  constraintGraph : SubtypeGraph
  controlPoint : TypeDeclaration
  pressurePoint : TypeDeclaration
  voltagePoint : TypeDeclaration
  derivedPressure : List String
  derivedVoltage : List String
  channel : TypeDeclaration
  constraintTypes : List TypeDeclaration

namespace TypeTable

def junctionType : String := "tJunction"
def placementType : String := "controlPointPlacement"
def volumeType : String := "channelDropletVolume"

/-! ## Resolving -/

def require (h : Hierarchy) (name kind : String) : Except Hierarchy.Fault TypeDeclaration :=
  match h.find? name with
  | some supertype => .ok ⟨name, supertype⟩
  | none => .error (.missing kind name)

def requireSpecialized (g : SubtypeGraph) (base special : TypeDeclaration) :
    Except Hierarchy.Fault Unit :=
  if g.isSubtype special.name base.name then .ok ()
  else .error (.notSpecialized special.name base.name)

def resolve (s : Schematic) : Except Hierarchy.Fault TypeTable := do
  let nodeGraph ← s.nodeTypes.graph "node"
  let connectionGraph ← s.connectionTypes.graph "connection"
  let constraintGraph ← s.constraintTypes.graph "constraint"
  let controlPoint ← require s.nodeTypes "controlPoint" "node"
  let pressurePoint ← require s.nodeTypes "pressureControlPoint" "node"
  let voltagePoint ← require s.nodeTypes "voltageControlPoint" "node"
  requireSpecialized nodeGraph controlPoint pressurePoint
  requireSpecialized nodeGraph controlPoint voltagePoint
  let channel ← require s.connectionTypes "channel" "connection"
  let placement ← require s.constraintTypes placementType "constraint"
  let volume ← require s.constraintTypes volumeType "constraint"
  return {
    nodeGraph, connectionGraph, constraintGraph, controlPoint, pressurePoint, voltagePoint
    derivedPressure := nodeGraph.derived pressurePoint.name
    derivedVoltage := nodeGraph.derived voltagePoint.name
    channel
    constraintTypes := [placement, volume] }

def ofSchematic (s : Schematic) : Except Failure TypeTable :=
  (resolve s).mapError fun fault => .hierarchy fault (some s.name)

/-! ## Queries by type name -/

def nodeIsA (t : TypeTable) (typeName base : String) : Bool :=
  t.nodeGraph.isSubtype typeName base

def isPressurePoint (t : TypeTable) (typeName : String) : Bool :=
  typeName == t.pressurePoint.name || t.derivedPressure.contains typeName

def isVoltagePoint (t : TypeTable) (typeName : String) : Bool :=
  typeName == t.voltagePoint.name || t.derivedVoltage.contains typeName

def isControlPoint (t : TypeTable) (typeName : String) : Bool :=
  t.nodeIsA typeName t.controlPoint.name

def isJunction (t : TypeTable) (typeName : String) : Bool := t.nodeIsA typeName junctionType

def isChannel (t : TypeTable) (typeName : String) : Bool :=
  t.connectionGraph.isSubtype typeName t.channel.name

def constraintIsA (t : TypeTable) (typeName base : String) : Bool :=
  t.constraintGraph.isSubtype typeName base

end TypeTable

end FluidChip
