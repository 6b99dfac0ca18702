import FluidChip.CommandLine.Arguments
import FluidChip.Generation
import FluidChip.Parameters.Load
import FluidChip.Schematic.Load

/-!
# The program

Process parameters and a schematic are loaded, and the program of the schematic is
written.  A fault is reported, and the first one ends the run.
-/

namespace FluidChip.CommandLine

/-! ## Results -/

inductive Failure where
  | usage (fault : Fault)
  | reported (report : Report)
  /-- A fault that nothing reports, by the word for its kind. -/
  | escaped (kind : String)

inductive Success where
  | help
  | wrote (path : Path)

def exitCode? : Except Failure Success → Option Nat
  | .ok _ => some 0
  | .error (.reported _) => some 1
  | .error (.usage _) => some 2
  | .error (.escaped _) => none

def complaint : Except Failure Success → String
  | .ok _ => ""
  | .error (.usage fault) => "mfsmt-compile: error: " ++ fault.message ++ "\n"
  | .error (.reported report) => report.text ++ "\n"
  | .error (.escaped _) => ""

def printed : Except Failure Success → String
  | .ok (.wrote path) => "Wrote " ++ path.text ++ "\n"
  | _ => ""

/-! ## Steps -/

section

variable (host : Host)

def parametersOf (a : Arguments) (tree : FileTree) : Run Parameters.Failure Parameters :=
  match a.processFile with
  | some path => Parameters.load host (.ofText path) tree
  | none => do
    Run.debug "No process file specified, reading process parameters from the command line."
    Parameters.ofValues host (.ofList (Parameters.Field.all.map fun f =>
        (f.name, ((a.value? f).map Value.text).getD .null))) (.named "command line")

def parametersFailure : Parameters.Failure → Failure
  | .rejected r => .reported r.report
  | failure => .escaped failure.kind

def parametersRecords : Parameters.Failure → List Log.Record
  | .rejected r => [⟨Log.error, "Process parameters could not be loaded: " ++ r.message⟩]
  | _ => []

def loadParameters (a : Arguments) (tree : FileTree) : Run Failure Parameters :=
  ((parametersOf host a tree).onError parametersRecords).mapError parametersFailure

def schematicFailure (fault : Schematic.LoadFault) : Failure :=
  match fault.report? with
  | some report => .reported report
  | none => .escaped (fault.obstacle?.elim fault.kind Obstacle.kind)

def schematicRecords (path : Path) (fault : Schematic.LoadFault) : List Log.Record :=
  match fault.message? with
  | some message =>
    if fault.isExplained then
      [⟨Log.error, "Schematic '" ++ path.text ++ "' could not be loaded: " ++ message⟩]
    else []
  | none => []

def loadSchematic (path : Path) (tree : FileTree) : Run Failure Schematic :=
  ((Schematic.load host path tree).onError (schematicRecords path)).mapError schematicFailure

/-- Loads, compiles and writes; the tree of files afterwards comes first. -/
def execute (schematic : String) (a : Arguments) (tree : FileTree) :
    FileTree × Run Failure Success :=
  let loaded : Run Failure (Parameters × Schematic) := do
    let p ← loadParameters host a tree
    let s ← loadSchematic host (.ofText schematic) tree
    return (p, s)
  match loaded.outcome with
  | .error failure => (tree, ⟨loaded.records, .error failure⟩)
  | .ok (p, s) =>
    let (tree, r) := s.generate host p a.outputDir tree
    (tree, ⟨loaded.records ++ r.records, match r.outcome with
      | .ok path => .ok (.wrote path)
      | .error fault => .error (.reported (fault.report s.name))⟩)

def run (texts : List String) (tree : FileTree) : FileTree × Run Failure Success :=
  match Arguments.ofTexts texts with
  | .error .help => (tree, pure .help)
  | .error (.fault fault) => (tree, .fail (.usage fault))
  | .ok (schematic, a) => execute host schematic a tree

end

/-! ## The log -/

def consoleLines (texts : List String) (records : List Log.Record) : List String :=
  match Arguments.ofTexts texts with
  | .error _ => []
  | .ok (_, a) =>
    (records.foldl (fun c r => c.log r.level "mfsmt_core" r.message)
      (Log.Console.open ((Log.levelOf? a.logLevel).getD Log.info))).text

/-! ## Paths -/

def readPaths (texts : List String) : List Path :=
  match Arguments.ofTexts texts with
  | .error _ => []
  | .ok (schematic, a) => (schematic :: a.processFile.toList).map .ofText

def outputDir (texts : List String) : Path :=
  match Arguments.ofTexts texts with
  | .error _ => .ofText "."
  | .ok (_, a) => .ofText a.outputDir

end FluidChip.CommandLine
