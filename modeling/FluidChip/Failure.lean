import FluidChip.Hierarchy
import FluidChip.Sexp.Build
import FluidChip.Topology

/-!
# Failures

Everything that building a schematic or compiling it can fail with.  A failure
has a kind, a message, and, if a user is to see it, a diagnostic report.
-/

namespace FluidChip

inductive CacheState where
  | uncached
  | computing
  | cached
  deriving DecidableEq, Repr

def CacheState.word : CacheState → String
  | .uncached => "uncached"
  | .computing => "computing"
  | .cached => "cached"

inductive Duplicate where
  | node (schematic name : String)
  | connection (schematic name : String)
  | constraint (schematic name : String)
  | port (name : String)
  deriving Repr, DecidableEq

def Duplicate.message : Duplicate → String
  | .node schematic name =>
    "Node '" ++ name ++ "' is already defined in schematic '" ++ schematic ++ "'."
  | .connection schematic name =>
    "Connection '" ++ name ++ "' is already defined in schematic '" ++ schematic ++ "'."
  | .constraint schematic name =>
    "Constraint '" ++ name ++ "' is already defined in schematic '" ++ schematic ++ "'."
  | .port name => "Port '" ++ name ++ "' is already registered on this node."

inductive Failure where
  | topology (fault : Topology.Fault)
  | naming (fault : Naming.Fault)
  | hierarchy (fault : Hierarchy.Fault) (schematic : Option String)
  | noResult (rule : String) (state : CacheState)
  | expression (fault : Sexp.Fault)
  | duplicate (fault : Duplicate)
  | quantity (fault : Quantity.Fault)
  | arithmetic (fault : Quantity.ArithmeticFault)
  | foreignMember (set kind : String)
  | noParameters (kind : String)
  /-- A value without a text, where its text was needed. -/
  | unprinted (limit : Number.Limit)
  /-- A failure that was to be told with a value that has no text. -/
  | untold (limit : Number.Limit) (failure : Failure)
  /-- What is raised to end the program, and is no exception. -/
  | interrupt (kind message : String)

namespace Failure

/-- Whether what is raised is an exception. -/
def isException : Failure → Bool
  | .interrupt .. => false
  | _ => true

/-- A failure that is told with values that `limit?` may keep from being printed. -/
def told (limit? : Option Number.Limit) (failure : Failure) : Failure :=
  match limit? with
  | none => failure
  | some limit => .untold limit failure

/-! ## Kinds -/

def expressionKind : Sexp.Fault → String
  | .badSymbol _ => "ValueError"
  | .notFinite _ => "ValueError"
  | .truthLiteral => "TypeError"
  | .emptyForm => "ValueError"
  | .foreignMember _ => "TypeError"
  | .foreignOperand .. => "TypeError"
  | .undeclarable _ => "TypeError"
  | .fewTerms => "ValueError"
  | .fewFactors => "ValueError"
  | .unreadable _ => "ValueError"
  | .notNumber _ => "TypeError"
  | .tooLarge => "OverflowError"
  | .operandCount => "TypeError"
  | .unprinted limit => limit.kind

def kind : Failure → String
  | .topology _ => "TopologyError"
  | .naming _ => "SymbolNamingError"
  | .hierarchy .. => "TypeHierarchyError"
  | .noResult .. => "TranslationStateError"
  | .expression fault => expressionKind fault
  | .duplicate _ => "ValueError"
  | .quantity fault => fault.kind
  | .arithmetic fault => fault.kind
  | .foreignMember .. => "TypeError"
  | .noParameters _ => "TypeError"
  | .unprinted limit => limit.kind
  | .untold limit _ => limit.kind
  | .interrupt kind _ => kind

/-! ## Texts -/

def message : Failure → String
  | .topology fault => fault.details
  | .naming fault => fault.details
  | .hierarchy fault _ => "schematic type incompatibility: " ++ fault.details
  | .noResult rule state =>
    "Strategy '" ++ rule ++ "' has no cached translation (state: " ++ state.word ++ ")."
  | .expression fault => fault.message
  | .duplicate fault => fault.message
  | .quantity fault => fault.message
  | .arithmetic fault => fault.message
  | .foreignMember set kind =>
    set ++ " members must be TranslationStrategy instances, got " ++ kind ++ "."
  | .noParameters kind =>
    "MicrofluidicsBackend requires ProcessParameters, got " ++ kind ++ "."
  | .unprinted limit => limit.message
  | .untold limit _ => limit.message
  | .interrupt _ message => message

def optional : Option String → Value
  | none => .null
  | some s => .text s

def report? : Failure → Option Report
  | .topology fault => some {
      title := "Schematic Topology Error"
      details := fault.details
      advice := "Check that the named node, port or channel exists and is wired as the device type requires."
      subject := { entity := optional fault.entity } }
  | .naming fault => some {
      title := "Symbol Naming Error"
      details := fault.details
      advice := "Every port must be registered by name on the node it belongs to. Rebuild the schematic so that the port appears in its parent's port mapping."
      subject := { entity := .text fault.entity } }
  | .hierarchy fault schematic => some {
      title := "Schematic Type Hierarchy Error"
      details := fault.details
      advice := "Fix the 'types' section of the schematic so that every supertype is declared, the hierarchy is acyclic, and pressure/voltage control points derive from controlPoint."
      subject := { schematic := optional schematic, entity := .text fault.typeName } }
  | failure@(.noResult rule _) => some {
      title := "Translation State Error"
      details := failure.message
      advice := "Call translate() on the strategy and let it complete before reading its expressions."
      subject := { entity := .text rule } }
  | _ => none

end Failure

/-! ## Lifting -/

instance : MonadLift (Except Sexp.Fault) (Except Failure) := ⟨fun r => r.mapError .expression⟩

instance : MonadLift (Except Hierarchy.Fault) (Except Failure) :=
  ⟨fun r => r.mapError fun fault => .hierarchy fault none⟩

instance : MonadLift (Except Quantity.ArithmeticFault) (Except Failure) :=
  ⟨fun r => r.mapError .arithmetic⟩

end FluidChip
