import FluidChip.Catalog
import FluidChip.Text.Quoted

/-!
# Type hierarchies

A hierarchy declares types, each with at most one direct supertype.  Its subtype
graph exists when every supertype is declared and no chain of supertypes returns
to its start.

The graph is asked three things, and each is answered as a library of graphs
documents it: whether a path leads from one node to another (`isSubtype`), which
nodes have a path to a given one (`derived`), and which closed walk the search from
the first node onward meets (`cycle?`).  No node has more than one link, so a path
is a chain of supertypes.
-/

namespace FluidChip

/-- Declared types with their direct supertypes, in the order of declaration. -/
abbrev Hierarchy := Catalog (Option String)

namespace Hierarchy

/-! ## Faults -/

inductive Fault where
  | unknownSupertype (kind name supertype : String)
  | cycle (kind : String) (names : List String)
  | missing (kind name : String)
  | notSpecialized (name base : String)
  deriving Repr, DecidableEq

def Fault.details : Fault → String
  | .unknownSupertype kind name supertype =>
    kind ++ " type '" ++ name ++ "' declares unknown supertype '" ++ supertype ++ "'."
  | .cycle kind names =>
    kind ++ " type hierarchy contains a cycle: " ++
      " -> ".intercalate (names ++ names.take 1) ++ "."
  | .missing kind name =>
    "the schematic does not declare the required " ++ kind ++ " type '" ++ name ++ "'."
  | .notSpecialized name base => name ++ " must be a subtype of " ++ base ++ "."

def Fault.typeName : Fault → String
  | .unknownSupertype _ name _ => name
  | .cycle _ names => names.headD ""
  | .missing _ name => name
  | .notSpecialized name _ => name

/-! ## The standard library of types -/

def standardNodes : Hierarchy := .ofList [
  ("controlPoint", none), ("pressureControlPoint", some "controlPoint"),
  ("voltageControlPoint", some "controlPoint"), ("fluidEntry", some "pressureControlPoint"),
  ("fluidExit", some "pressureControlPoint"), ("electrode", some "voltageControlPoint"),
  ("channelCrossing", none), ("tJunction", some "channelCrossing")]

def standardConnections : Hierarchy := .ofList [("channel", none)]

def standardConstraints : Hierarchy := .ofList [
  ("controlPointPlacement", none), ("channelDropletVolume", none)]

end Hierarchy

/-! ## Subtype graphs -/

structure SubtypeGraph where
  nodes : List String
  links : List (String × String)
  deriving Repr

namespace SubtypeGraph

def empty : SubtypeGraph := ⟨[], []⟩

def addNode (g : SubtypeGraph) (name : String) : SubtypeGraph :=
  if g.nodes.contains name then g else { g with nodes := g.nodes ++ [name] }

def addLink (g : SubtypeGraph) (name supertype : String) : SubtypeGraph :=
  { (g.addNode name).addNode supertype with links := g.links ++ [(name, supertype)] }

def supertype? (g : SubtypeGraph) (name : String) : Option String :=
  Catalog.lookup name g.links

/-- A type and its supertypes in turn, at most `fuel` of them. -/
def chain (g : SubtypeGraph) : Nat → String → List String
  | 0, _ => []
  | fuel + 1, name =>
    name :: match g.supertype? name with
      | none => []
      | some supertype => g.chain fuel supertype

def orderedLinks (g : SubtypeGraph) : List (String × String) :=
  g.nodes.filterMap fun name => (g.supertype? name).map (name, ·)

/-! ## Cycles -/

/-- The part of a list from the first member that comes again up to where it
does. -/
def firstLoop? : List String → Option (List String)
  | [] => none
  | name :: rest =>
    if rest.contains name then some (name :: rest.takeWhile (· ≠ name))
    else firstLoop? rest

/-- The cycle that the first type runs into whose chain does not end. -/
def cycle? (g : SubtypeGraph) : Option (List String) :=
  g.nodes.findSome? fun name => firstLoop? (g.chain (g.nodes.length + 1) name)

/-! ## Subtypes -/

/-- Reflexive and transitive; a type that the graph lacks is a subtype of none. -/
def isSubtype (g : SubtypeGraph) (subtype supertype : String) : Bool :=
  g.nodes.contains subtype && g.nodes.contains supertype &&
    (g.chain g.nodes.length subtype).contains supertype

/-- The nodes from which at most `fuel` links lead to a node, found from it against
the direction of the links. -/
def reaching (g : SubtypeGraph) (base : String) : Nat → List String
  | 0 => g.nodes.filter (· == base)
  | fuel + 1 =>
    let found := g.reaching base fuel
    g.nodes.filter fun name => found.contains name || (g.supertype? name).any found.contains

/-- The nodes other than the base that a path leads from to it. -/
def derived (g : SubtypeGraph) (base : String) : List String :=
  (g.reaching base (g.nodes.length - 1)).filter (· ≠ base)

end SubtypeGraph

/-! ## The graph of a hierarchy -/

namespace Hierarchy

/-- The types and links of some declarations; `known` says which supertypes are
declared. -/
def link (kind : String) (known : String → Bool) :
    List (String × Option String) → SubtypeGraph → Except Fault SubtypeGraph
  | [], g => .ok g
  | (name, none) :: rest, g => link kind known rest (g.addNode name)
  | (name, some supertype) :: rest, g =>
    if known supertype then link kind known rest (g.addLink name supertype)
    else .error (.unknownSupertype kind name supertype)

/-- The subtype graph, if every supertype is declared and no chain is closed. -/
def graph (h : Hierarchy) (kind : String) : Except Fault SubtypeGraph :=
  match link kind h.contains h.entries .empty with
  | .error fault => .error fault
  | .ok g =>
    match g.cycle? with
    | some names => .error (.cycle kind names)
    | none => .ok g

end Hierarchy

end FluidChip
