import FluidChip.FileTree
import FluidChip.Compilation

/-!
# Writing programs

The program of a schematic is written to a file named after the schematic.
Whatever fails on the way ends in one report.
-/

namespace FluidChip

namespace Generation

inductive Fault where
  | compilation (failure : Failure)
  | output (fault : FileTree.Fault)

namespace Fault

def kind : Fault → String
  | .compilation failure => failure.kind
  | .output fault => fault.kind

def message : Fault → String
  | .compilation failure => failure.message
  | .output fault => fault.message

def unexpected (fault : Fault) (schematic : String) : Report where
  title := "An Unexpected Error Occurred (" ++ fault.kind ++ ")"
  details := "The backend encountered an unexpected internal error: " ++ fault.message
  advice := "This may indicate a bug in mfsmt-core. Please review the traceback."
  subject := { schematic := .text schematic }

def notWritten (fault : FileTree.Fault) (schematic : String) : Report where
  title := "Output File Error"
  details := "The solver program could not be written: " ++ fault.message
  advice := "Check that the output directory exists and is writable."
  subject := { schematic := .text schematic }

def report (fault : Fault) (schematic : String) : Report :=
  match fault with
  | .compilation failure => failure.report?.getD (fault.unexpected schematic)
  | .output .zeroCharacter => fault.unexpected schematic
  | .output cause => notWritten cause schematic

def records (fault : Fault) (schematic : String) : List Log.Record :=
  let expected := match fault with
    | .compilation failure => failure.report?.isSome
    | .output _ => false
  if expected then
    [⟨Log.error, "Code generation for '" ++ schematic ++ "' failed: " ++ fault.message⟩,
     ⟨Log.error, "Stopping code generation due to error."⟩]
  else [⟨Log.error, "Unexpected error while generating code for '" ++ schematic ++ "'."⟩]

end Fault

end Generation

namespace Schematic

def outputPath (s : Schematic) (directory : String) : Path :=
  (Path.ofText directory).append (.ofText (s.name ++ ".smt2"))

/-- Where it stands until it is complete. -/
def partialPath (s : Schematic) (directory : String) : Path :=
  let path := s.outputPath directory
  path.withBase (path.stem ++ ".smt2.partial")

def openingRecords (s : Schematic) (p : Parameters) : List Log.Record :=
  [⟨Log.info, "--- Starting code generation for schematic '" ++ s.name ++ "' ---"⟩,
   ⟨Log.debug, "Process parameters: " ++ Value.shownCatalog p.toValues⟩]

/-- Compiles a schematic and writes its program into a directory; answers the
path written. -/
def generate (host : Host) (s : Schematic) (p : Parameters) (directory : String)
    (tree : FileTree) : FileTree × Run Generation.Fault Path :=
  let compiled := s.compile host p
  let before := s.openingRecords p ++ compiled.records
  let failed (fault : Generation.Fault) : Run Generation.Fault Path :=
    ⟨before ++ fault.records s.name, .error fault⟩
  match compiled.outcome with
  | .error failure => (tree, failed (.compilation failure))
  | .ok program =>
    let path := s.outputPath directory
    let content := (Program.text program).toUTF8.toList
    match tree.replace (s.partialPath directory) path content with
    | (tree, .error fault) => (tree, failed (.output fault))
    | (tree, .ok ()) =>
      (tree, ⟨before ++ [⟨Log.info, "--- Wrote " ++ Number.intText program.length ++
        " form(s) to '" ++ path.text ++ "'. ---"⟩], .ok path⟩)

end Schematic

end FluidChip
