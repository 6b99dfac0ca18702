import FluidChip.Program
import FluidChip.Rule.Droplet
import FluidChip.Rule.Hydraulic
import FluidChip.Rule.Placement
import FluidChip.Rule.Tree

/-!
# From a schematic to its program

A schematic whose types resolve and whose symbols are distinct is put through the
groups of rules in order; what they contribute, sorted, makes the program.
-/

namespace FluidChip

/-! ## The standard sets of rules -/

namespace Rule

structure Group where
  name : String
  rules : List Rule

def placementGroup : Group := ⟨"PlacementTranslationStrategySet", placementRules⟩

def dropletGroup : Group := ⟨"MultiPhaseStrategySet", dropletRules⟩

def hydraulicGroup : Group := ⟨"PressureFlowStrategySet", hydraulicRules⟩

def openGroup : Group := ⟨"TranslationStrategySet", []⟩

def programGroups : List Group := [placementGroup, dropletGroup, hydraulicGroup]

def all : List Rule := placementRules ++ dropletRules ++ hydraulicRules

def ofName? (name : String) : Option Rule := all.find? (·.name == name)

def Group.ofName? (name : String) : Option Group :=
  (programGroups ++ [openGroup]).find? (·.name == name)

/-- A fresh tree of a group, with the identities from `first` on. -/
def Group.tree (group : Group) (first : Nat := 0) : RuleTree :=
  .ofRules first group.name group.rules

end Rule

/-! ## Compiling -/

namespace Schematic

open Text

def typeTable (s : Schematic) : Run Failure TypeTable := do
  Run.info ("Constructing type table for schematic '" ++ s.name ++ "'...")
  let table ← (Run.ofExcept (TypeTable.ofSchematic s)).onError fun failure =>
    [⟨Log.error, "Type table construction failed: " ++ failure.message⟩]
  Run.debug ("Derived pressure control point types: " ++
    quotedList (sorted table.derivedPressure) ++ "; derived voltage control point types: " ++
    quotedList (sorted table.derivedVoltage) ++ ".")
  return table

def checkedNamespace (s : Schematic) : Run Failure (Catalog String) := do
  let names ← Run.ofExcept s.namespace?
  Run.debug ("Symbol namespace of '" ++ s.name ++ "' holds " ++
    Number.intText names.size ++ " distinct names.")
  return names

def contribution (g : Setting) (group : Rule.Group) : Run Failure (List Sexp) := do
  let es ← (group.tree.run g {}).2
  Run.info (group.name ++ " contributed " ++ Number.intText es.length ++ " expression(s).")
  return es

def piForms : List Sexp :=
  [Formula.declare pi,
    Formula.assert .equal (.symbol pi) (.literal ⟨Parameters.piValue, by decide⟩)]

/-- The program of a schematic: the logic, everything declared and asserted, and
the closing directives. -/
def compile (host : Host) (s : Schematic) (p : Parameters) : Run Failure (List Sexp) := do
  let table ← s.typeTable
  let names ← s.checkedNamespace
  Run.debug ("Symbol namespace checked: " ++ Number.intText names.size ++ " reserved name(s).")
  let contributions ← Rule.programGroups.mapM (contribution ⟨s, p, table, host⟩)
  return Formula.setLogic ::
    (Program.arrange (piForms ++ contributions.flatten) ++ [Formula.checkSat, Formula.exit])

end Schematic

end FluidChip
