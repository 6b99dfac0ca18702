import FluidChip.Quantity
import FluidChip.Report

/-!
# Faults of topology and naming

What can be wrong with the structure of a schematic: an entity that is not
there, an attribute that is no quantity, a junction wired wrongly, two quantities
that share a symbol.
-/

namespace FluidChip

open Text

namespace Topology

inductive Fault where
  | noNode (schematic name : String)
  | foreignNode (schematic shown : String)
  | foreignConnection (schematic shown : String)
  | noPort (node port : String) (available : List String)
  | unreadable (key owner shown measure : String) (cause : Quantity.Fault)
  | notFinite (key owner shown : String)
  | missing (key owner : String)
  | notPositive (key owner shown : String)
  /-- A constraint that does not say what it is about; `role` is the attribute. -/
  | unnamed (constraint role : String)
  | notControlPoint (constraint node type : String)
  | noCoordinate (constraint : String)
  | notJunction (constraint node : String)
  | portLoad (node port : String) (connections : List String)
  | unknownShape (channel shape : String)
  | reported (details : String) (entity : Option String)

def ofConstraint (name : String) : String := "constraint '" ++ name ++ "'"

def Fault.details : Fault → String
  | .noNode schematic name =>
    "Schematic '" ++ schematic ++ "' has no node named '" ++ name ++ "'."
  | .foreignNode schematic shown =>
    "Node " ++ shown ++ " is not part of schematic '" ++ schematic ++ "'."
  | .foreignConnection schematic shown =>
    "Connection " ++ shown ++ " is not part of schematic '" ++ schematic ++ "'."
  | .noPort node port available =>
    "Node '" ++ node ++ "' has no port named '" ++ port ++ "'. Available ports: " ++
      quotedList (sorted available) ++ "."
  | .unreadable key owner shown measure cause =>
    "Attribute '" ++ key ++ "' of " ++ owner ++ " has value " ++ shown ++
      ", which is not a " ++ measure ++ " quantity: " ++ cause.message
  | .notFinite key owner shown =>
    "Attribute '" ++ key ++ "' of " ++ owner ++ " must be finite, got " ++ shown ++ "."
  | .missing key owner => owner ++ " is missing the required attribute '" ++ key ++ "'."
  | .notPositive key owner shown =>
    "Attribute '" ++ key ++ "' of " ++ owner ++ " must be positive, got " ++ shown ++ "."
  | .unnamed constraint role =>
    ofConstraint constraint ++ " does not name a '" ++ role ++ "'."
  | .notControlPoint constraint node type =>
    ofConstraint constraint ++ " places node '" ++ node ++
      "', which is not a control point (type '" ++ type ++ "')."
  | .noCoordinate constraint => ofConstraint constraint ++ " gives neither 'x' nor 'y'."
  | .notJunction constraint node =>
    ofConstraint constraint ++ " references node '" ++ node ++
      "', which is not a tJunction."
  | .portLoad node port connections =>
    "Port '" ++ port ++ "' of T-junction '" ++ node ++
      "' must carry exactly one channel, found " ++ Number.intText connections.length ++
      ": " ++ quotedList connections ++ "."
  | .unknownShape channel shape =>
    "channel '" ++ channel ++ "' has unknown shape '" ++ shape ++
      "'; expected 'rectangular' or 'circular'."
  | .reported details _ => details

def Fault.entity : Fault → Option String
  | .noNode _ name => some name
  | .foreignNode _ shown => some shown
  | .foreignConnection _ shown => some shown
  | .noPort node port _ => some (node ++ "." ++ port)
  | .unreadable _ owner _ _ _ => some owner
  | .notFinite _ owner _ => some owner
  | .missing _ owner => some owner
  | .notPositive _ owner _ => some owner
  | .unnamed constraint _ => some constraint
  | .notControlPoint constraint _ _ => some constraint
  | .noCoordinate constraint => some constraint
  | .notJunction constraint _ => some constraint
  | .portLoad node port _ => some (node ++ "." ++ port)
  | .unknownShape channel _ => some channel
  | .reported _ entity => entity

end Topology

namespace Naming

inductive Fault where
  | unregistered (node : String)
  | collision (schematic symbol first second : String)
  deriving Repr, DecidableEq

def Fault.details : Fault → String
  | .unregistered node => "Could not map port to name for node '" ++ node ++ "'."
  | .collision schematic symbol first second =>
    "Symbol '" ++ symbol ++ "' would be generated for both " ++ first ++ " and " ++ second ++
      ". Rename one of the entities in schematic '" ++ schematic ++ "'."

def Fault.entity : Fault → String
  | .unregistered node => node
  | .collision _ symbol _ _ => symbol

end Naming

end FluidChip
