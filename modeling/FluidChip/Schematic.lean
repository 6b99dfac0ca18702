import FluidChip.Failure

/-!
# Schematics

A device is a graph of nodes with ports, joined by directed connections and
subject to constraints.  Nodes, ports and connections are entities with an
identity of their own: names are given to them by the schematic, may be freed and
given again, and an entity stays what it is when its name is gone.
-/

namespace FluidChip

abbrev Attributes := Catalog Value

/-! ## Entities -/

structure NodeId where
  index : Nat
  deriving DecidableEq, Repr

structure PortId where
  index : Nat
  deriving DecidableEq, Repr

structure ConnectionId where
  index : Nat
  deriving DecidableEq, Repr

structure Node where
  typeName : String
  ports : Catalog PortId := {}
  attributes : Attributes := {}

structure Connection where
  source : PortId
  target : PortId
  typeName : String
  attributes : Attributes := {}

structure Constraint where
  typeName : String
  attributes : Attributes := {}

/-! ## Schematics -/

/-- A schematic: its declared types, its entities by name, and what stands behind
every identity given out so far. -/
structure Schematic where
  name : String
  nodeTypes : Hierarchy := Hierarchy.standardNodes
  connectionTypes : Hierarchy := Hierarchy.standardConnections
  constraintTypes : Hierarchy := Hierarchy.standardConstraints
  nodes : Catalog NodeId := {}
  connections : Catalog ConnectionId := {}
  constraints : Catalog Constraint := {}
  node : NodeId → Node := fun _ => { typeName := "" }
  owner : PortId → NodeId := fun _ => ⟨0⟩
  connection : ConnectionId → Connection :=
    fun _ => { source := ⟨0⟩, target := ⟨0⟩, typeName := "" }
  next : Nat := 0

namespace Schematic

instance : Inhabited Schematic := ⟨{ name := "" }⟩

def empty (name : String) : Schematic := { name := name }

/-! ## Changing entities -/

def setNode (s : Schematic) (id : NodeId) (node : Node) : Schematic :=
  { s with node := fun other => if other = id then node else s.node other }

def setConnection (s : Schematic) (id : ConnectionId) (connection : Connection) : Schematic :=
  { s with connection := fun other => if other = id then connection else s.connection other }

def setNodeType (s : Schematic) (id : NodeId) (typeName : String) : Schematic :=
  s.setNode id { s.node id with typeName := typeName }

def setConnectionType (s : Schematic) (id : ConnectionId) (typeName : String) : Schematic :=
  s.setConnection id { s.connection id with typeName := typeName }

def setNodeAttributes (s : Schematic) (id : NodeId) (attributes : Attributes) : Schematic :=
  s.setNode id { s.node id with attributes := attributes }

def setConnectionAttributes (s : Schematic) (id : ConnectionId) (attributes : Attributes) :
    Schematic :=
  s.setConnection id { s.connection id with attributes := attributes }

def setConstraintAttributes (s : Schematic) (name : String) (attributes : Attributes) :
    Schematic :=
  match s.constraints.find? name with
  | none => s
  | some c => { s with constraints := s.constraints.set name { c with attributes := attributes } }

def setConstraintType (s : Schematic) (name : String) (typeName : String) : Schematic :=
  match s.constraints.find? name with
  | none => s
  | some c => { s with constraints := s.constraints.set name { c with typeName := typeName } }

/-! ## Ports -/

def newPort (s : Schematic) (node : NodeId) : PortId × Schematic :=
  (⟨s.next⟩, { s with
    owner := fun other => if other = ⟨s.next⟩ then node else s.owner other
    next := s.next + 1 })

def registerPort (s : Schematic) (node : NodeId) (name : String) (port : PortId) : Schematic :=
  s.setNode node { s.node node with ports := (s.node node).ports.set name port }

def addPort (s : Schematic) (node : NodeId) (name : String) : Except Failure Schematic :=
  if (s.node node).ports.contains name then .error (.duplicate (.port name))
  else
    let (port, s) := s.newPort node
    .ok (s.registerPort node name port)

def addPorts (s : Schematic) (node : NodeId) : List String → Except Failure Schematic
  | [] => .ok s
  | name :: rest => do (← s.addPort node name).addPorts node rest

def deletePort (s : Schematic) (node : NodeId) (name : String) : Schematic :=
  s.setNode node { s.node node with ports := (s.node node).ports.erase name }

/-! ## Nodes, connections, constraints -/

/-- Adds a node with its ports, unless its name is taken or a port is named
twice. -/
def addNode (s : Schematic) (name typeName : String) (ports : List String := [])
    (attributes : Attributes := {}) : Except Failure Schematic :=
  if s.nodes.contains name then .error (.duplicate (.node s.name name))
  else do
    let id : NodeId := ⟨s.next⟩
    let made := { s with next := s.next + 1 }.setNode id
      { typeName := typeName, attributes := attributes }
    let made ← made.addPorts id ports
    .ok { made with nodes := made.nodes.set name id }

def addConnection (s : Schematic) (name : String) (source target : PortId)
    (typeName : String := "channel") (attributes : Attributes := {}) :
    Except Failure Schematic :=
  if s.connections.contains name then .error (.duplicate (.connection s.name name))
  else
    let id : ConnectionId := ⟨s.next⟩
    let made := { s with next := s.next + 1 }.setConnection id
      { source := source, target := target, typeName := typeName, attributes := attributes }
    .ok { made with connections := made.connections.set name id }

def addConstraint (s : Schematic) (name typeName : String) (attributes : Attributes := {}) :
    Except Failure Schematic :=
  if s.constraints.contains name then .error (.duplicate (.constraint s.name name))
  else .ok { s with
    constraints := s.constraints.set name { typeName := typeName, attributes := attributes } }

def deleteNode (s : Schematic) (name : String) : Schematic :=
  { s with nodes := s.nodes.erase name }

def deleteConnection (s : Schematic) (name : String) : Schematic :=
  { s with connections := s.connections.erase name }

def deleteConstraint (s : Schematic) (name : String) : Schematic :=
  { s with constraints := s.constraints.erase name }

def declareNodeType (s : Schematic) (name : String) (supertype : Option String) : Schematic :=
  { s with nodeTypes := s.nodeTypes.set name supertype }

def declareConnectionType (s : Schematic) (name : String) (supertype : Option String) :
    Schematic :=
  { s with connectionTypes := s.connectionTypes.set name supertype }

def declareConstraintType (s : Schematic) (name : String) (supertype : Option String) :
    Schematic :=
  { s with constraintTypes := s.constraintTypes.set name supertype }

/-! ## Entities as a report prints them -/

def shownNode (s : Schematic) (id : NodeId) : String :=
  let node := s.node id
  "Node(type_name=" ++ Text.quoted node.typeName ++ ", ports=\x7b" ++
    ", ".intercalate (node.ports.names.map fun name => Text.quoted name ++ ": Port()") ++
    "\x7d, attributes=" ++ Value.shownCatalog node.attributes.entries ++ ")"

def shownConnection (s : Schematic) (id : ConnectionId) : String :=
  let connection := s.connection id
  "Connection(from_port=Port(), to_port=Port(), type_name=" ++
    Text.quoted connection.typeName ++ ", attributes=" ++
    Value.shownCatalog connection.attributes.entries ++ ")"

/-- What keeps attributes from being printed.  However deep they nest is no matter. -/
def attributesLimit? (attributes : Attributes) : Option Number.Limit :=
  attributes.values.findSome? (·.limit? none)

/-! ## Queries -/

/-- The first name whose entry is the identity given. -/
def nameOf? {α : Type} [DecidableEq α] (c : Catalog α) (id : α) : Option String :=
  (c.entries.find? fun entry => entry.2 = id).map (·.1)

def getNode (s : Schematic) (name : String) : Except Failure NodeId :=
  match s.nodes.find? name with
  | some id => .ok id
  | none => .error (.topology (.noNode s.name name))

def nodeName (s : Schematic) (id : NodeId) : Except Failure String :=
  match nameOf? s.nodes id with
  | some name => .ok name
  | none => .error (.told (attributesLimit? (s.node id).attributes)
      (.topology (.foreignNode s.name (s.shownNode id))))

def connectionName (s : Schematic) (id : ConnectionId) : Except Failure String :=
  match nameOf? s.connections id with
  | some name => .ok name
  | none => .error (.told (attributesLimit? (s.connection id).attributes)
      (.topology (.foreignConnection s.name (s.shownConnection id))))

def getPort (s : Schematic) (node port : String) : Except Failure PortId := do
  let id ← s.getNode node
  match (s.node id).ports.find? port with
  | some p => .ok p
  | none => .error (.topology (.noPort node port (s.node id).ports.names))

def sourceNode (s : Schematic) (c : ConnectionId) : NodeId := s.owner (s.connection c).source

def targetNode (s : Schematic) (c : ConnectionId) : NodeId := s.owner (s.connection c).target

def connectionsAt (s : Schematic) (node : NodeId) : List (String × ConnectionId) :=
  s.connections.entries.filter fun (_, c) => s.sourceNode c = node ∨ s.targetNode c = node

/-- The connections with an end on exactly this port. -/
def connectionsAtPort (s : Schematic) (port : PortId) : List (String × ConnectionId) :=
  s.connections.entries.filter fun (_, c) =>
    (s.connection c).source = port ∨ (s.connection c).target = port

/-- Whether a connection runs from one port to another, or, where the direction
does not count, from the other to the one. -/
def joins (s : Schematic) (directed : Bool) (c : ConnectionId) (p q : PortId) : Bool :=
  let connection := s.connection c
  (connection.source = p && connection.target = q) ||
    (!directed && connection.source = q && connection.target = p)

def connectingChannel? (s : Schematic) (a b : NodeId) (directed : Bool) :
    Option (String × ConnectionId) :=
  s.connections.entries.find? fun (_, c) =>
    (s.node a).ports.values.any fun p => (s.node b).ports.values.any fun q => s.joins directed c p q

end Schematic

end FluidChip
