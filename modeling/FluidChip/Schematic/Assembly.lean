import FluidChip.Schematic.Format

/-!
# Assembling schematics

The parts of a draft are joined one by one.  Every part has to be of a declared
type, and a connection has to end on ports that are there.
-/

namespace FluidChip

namespace Schematic

inductive Misfit where
  | undeclared (kind id typeName : String) (declared : List String)
  | badNode (id : String) (failure : Failure)
  | badEnd (id : String) (failure : Failure)
  | taken (failure : Failure)

def Misfit.details : Misfit → String
  | .undeclared kind id typeName declared =>
    "The " ++ kind ++ " '" ++ id ++ "' uses undeclared " ++ kind ++ " type '" ++ typeName ++
      "'. Declared " ++ kind ++ " types: " ++ Text.quotedList (Text.sorted declared) ++ "."
  | .badNode id failure => "Node '" ++ id ++ "': " ++ failure.message
  | .badEnd id failure =>
    "Connection '" ++ id ++ "' references an unknown endpoint: " ++ failure.message
  | .taken failure => failure.message

namespace Draft

def requireDeclared (types : Hierarchy) (kind : String) (part : DraftPart) :
    Except Misfit Unit :=
  if types.contains part.typeName then .ok ()
  else .error (.undeclared kind part.id part.typeName types.names)

/-- A schematic without parts, its types declared over the standard ones. -/
def declareTypes (d : Draft) (s : Schematic) : Schematic :=
  let set (h : Hierarchy) (types : List (String × Option String)) : Hierarchy :=
    types.foldl (fun h (name, supertype) => h.set name supertype) h
  { s with
    nodeTypes := set s.nodeTypes d.nodeTypes
    connectionTypes := set s.connectionTypes d.connectionTypes
    constraintTypes := set s.constraintTypes d.constraintTypes }

def addNode (s : Schematic) (part : DraftPart) : Except Misfit Schematic := do
  requireDeclared s.nodeTypes "node" part
  (s.addNode part.id part.typeName part.ports part.attributes).mapError (.badNode part.id)

def endOf (s : Schematic) (part : DraftPart) (place : String) : Except Misfit PortId :=
  let (node, port) := Text.endpointNames place
  (s.getPort node port).mapError (.badEnd part.id)

def addConnection (s : Schematic) (part : DraftPart) : Except Misfit Schematic := do
  requireDeclared s.connectionTypes "connection" part
  let source ← endOf s part part.source
  let target ← endOf s part part.target
  (s.addConnection part.id source target part.typeName part.attributes).mapError .taken

def addConstraint (s : Schematic) (part : DraftPart) : Except Misfit Schematic := do
  requireDeclared s.constraintTypes "constraint" part
  (s.addConstraint part.id part.typeName part.attributes).mapError .taken

def assemble (d : Draft) (fallback : String) : Except Misfit Schematic := do
  let s := d.declareTypes (.empty (d.name.getD fallback))
  let s ← d.nodes.foldlM addNode s
  let s ← d.connections.foldlM addConnection s
  d.constraints.foldlM addConstraint s

end Draft

end Schematic

end FluidChip
