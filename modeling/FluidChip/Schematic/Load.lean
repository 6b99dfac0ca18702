import FluidChip.Document.Arrangement
import FluidChip.Document.Outline
import FluidChip.FileTree
import FluidChip.Host
import FluidChip.Run
import FluidChip.Schematic.Assembly
import FluidChip.Yaml.Document

/-!
# Loading schematics

A schematic file is read, checked against the format, and assembled.
-/

namespace FluidChip

open Document

namespace Schematic

/-! ## Faults -/

inductive Flaw where
  | missing (path : String)
  | empty
  | notMapping
  | syntaxFault (detail : String)
  | encodingFault (detail : String)
  | misfit (m : Misfit)

def Flaw.details : Flaw → String
  | .missing path => "Schematic file not found at path: " ++ path
  | .empty => "The file is empty or contains no valid content."
  | .notMapping => "The root of the schematic file must be a dictionary (mapping)."
  | .syntaxFault detail => "Invalid YAML syntax: " ++ detail
  | .encodingFault detail => "File is not valid UTF-8 text: " ++ detail
  | .misfit m => m.details

inductive LoadFault where
  | flawed (path : String) (flaw : Flaw)
  | unfit (path : String) (issues : List (Value × Outline))
  /-- A check could not be carried out, or its problems not be gathered. -/
  | undecidable (obstacle : Obstacle)
  | badValue (fault : Yaml.Fault)
  | inaccessible (fault : FileTree.Fault)

namespace LoadFault

def message? : LoadFault → Option String
  | .flawed path flaw =>
    some ("Parsing error in file '" ++ path ++ "': " ++ flaw.details)
  | .unfit path issues => (Outline.inOrder issues).toOption.map fun issues =>
    "Schematic schema validation failed for file '" ++ path ++ "':\n" ++
      "\n".intercalate ((Outline.texts issues).map fun (key, text) =>
        "  - In field '" ++ key ++ "': " ++ text)
  | .undecidable _ => none
  | .badValue fault => some fault.message
  | .inaccessible fault => some fault.message

/-- The report of a fault that is laid out for a user, if its fields can be told. -/
def report? : LoadFault → Option Report
  | .flawed _ (.misfit (.taken _)) => none
  | .flawed path flaw => some {
      title := "Schematic Parsing or File Error"
      details := flaw.details
      advice := "Ensure the file exists, contains valid YAML or JSON, and that every referenced type, node and port is declared."
      subject := { sourceFile := .text path } }
  | .unfit path issues => (Outline.inOrder issues).toOption.map fun issues => {
      title := "Schematic Schema Validation Error"
      details := "The structure of the schematic file does not conform to the required schema.\nSee details for " ++
        Number.intText issues.length ++ " issue(s) below:\n\n" ++
        "\n".intercalate ((Outline.texts issues).map fun (key, text) =>
          "  - Field '" ++ key ++ "': " ++ text)
      advice := "Correct the listed fields. Identifiers may only contain letters, digits and underscores, ids must be unique, and endpoints are written 'node.port'."
      subject := { sourceFile := .text path } }
  | _ => none

/-- Whether a fault is one of the file, which the loader explains. -/
def isExplained : LoadFault → Bool
  | .flawed _ (.misfit (.taken _)) => false
  | .flawed .. => true
  | .unfit .. => true
  | _ => false

def kind : LoadFault → String
  | .flawed _ (.misfit (.taken failure)) => failure.kind
  | .flawed .. => "ParsingError"
  | .unfit .. => "SchemaValidationError"
  | .undecidable obstacle => obstacle.kind
  | .badValue fault => fault.kind
  | .inaccessible fault => fault.kind

/-- What keeps the text of a fault from being made. -/
def obstacle? : LoadFault → Option Obstacle
  | .unfit _ issues =>
    match Outline.inOrder issues with
    | .ok _ => none
    | .error obstacle => some obstacle
  | _ => none

end LoadFault

/-! ## From values -/

def draftOf (host : Host) (path : String) (document : Value) : Except LoadFault Draft :=
  match document with
  | .null => .error (.flawed path .empty)
  | .map entries =>
    let filled := Format.fillFields format entries
    match arrange? (Format.recordProblems format filled) with
    | none =>
      .error (.undecidable (Problem.firstObstacle (Format.recordProblems format filled)))
    | some [] => .ok (.ofDocument filled)
    | some problems =>
      if host.collects document then .error (.unfit path (Outline.ofProblems problems))
      else .error (.undecidable (.noText .nesting))
  | _ => .error (.flawed path .notMapping)

/-- The schematic of a document; one without a name is named after its file. -/
def ofDocument (host : Host) (path fallback : String) (document : Value) :
    Except LoadFault Schematic := do
  let draft ← draftOf host path document
  (draft.assemble fallback).mapError fun m => .flawed path (.misfit m)

/-! ## From files -/

def ofBytes (host : Host) (path fallback : String) (content : List UInt8) :
    Except LoadFault Schematic :=
  match String.fromUTF8? (ByteArray.mk content.toArray) with
  | none => .error (.flawed path (.encodingFault "not all bytes form characters"))
  | some text =>
    match Yaml.documentOf (host.levels text.toList) text.toList with
    | .error fault =>
      if fault.isMalformed then .error (.flawed path (.syntaxFault fault.message))
      else .error (.badValue fault)
    | .ok document => ofDocument host path fallback document

def ofFile (host : Host) (path : Path) (tree : FileTree) : Except LoadFault Schematic :=
  let full := tree.fullPath path
  match tree.read? path with
  | .error fault => .error (.inaccessible fault)
  | .ok none => .error (.flawed full.text (.missing full.text))
  | .ok (some content) => ofBytes host full.text full.stem content

def loadedRecord (s : Schematic) : Log.Record where
  level := Log.info
  message := "Parsed schematic '" ++ s.name ++ "': " ++ Number.intText s.nodes.size ++
    " node(s), " ++ Number.intText s.connections.size ++ " connection(s), " ++
    Number.intText s.constraints.size ++ " constraint(s)."

def load (host : Host) (path : Path) (tree : FileTree) : Run LoadFault Schematic := do
  Run.info "SchematicParser initialized with strict structural validation rules."
  Run.info ("Parsing schematic file: " ++ (tree.fullPath path).text)
  let s ← Run.ofExcept (ofFile host path tree)
  ⟨[s.loadedRecord], .ok s⟩

end Schematic

end FluidChip
