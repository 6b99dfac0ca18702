import FluidChip.Document.Arrangement
import FluidChip.Document.Check
import FluidChip.Document.Outline
import FluidChip.FileTree
import FluidChip.Parameters
import FluidChip.Yaml.Document

/-!
# Loading process parameters

A process file maps the key of every field to a number or a text.
-/

namespace FluidChip.Parameters

open Document

def format : List (Document.Field × Format) :=
  Field.all.map fun f =>
    ({ name := f.key, required := true }, .scalar [.number, .text] false true none)

def Field.ofKey? (key : Value) : Option Field :=
  Field.all.find? fun f => key.sameKey (.text f.key)

def rawValues (entries : List (Value × Value)) : Catalog Value :=
  .ofList (Field.all.filterMap fun f => (Value.get? entries f.key).map (f.name, ·))

def rejected (path : String) (cause : Cause) : Failure :=
  .rejected { cause := cause, source := .file path }

def ofDocument (host : Host) (path : String) (document : Value) :
    Except Failure (Catalog Value) :=
  match document with
  | .map entries =>
    match arrange? (Format.recordProblems format entries) with
    | none => .error (.untellable .kinds)
    | some [] => .ok (rawValues entries)
    | some problems =>
      if host.collects document then
        match Outline.inOrder (Outline.ofProblems problems) with
        | .error obstacle => .error (.untellable obstacle)
        | .ok issues => .error (rejected path (.badFields (Outline.texts issues)
            (issues.filterMap fun (key, _) => Field.ofKey? key)))
      else .error (.untellable (.noText .nesting))
  | _ => .error (rejected path .notMapping)

def ofBytes (host : Host) (path : String) (content : List UInt8) :
    Except Failure (Catalog Value) :=
  match String.fromUTF8? (ByteArray.mk content.toArray) with
  | none => .error (rejected path (.badEncoding "not all bytes form characters"))
  | some text =>
    match Yaml.documentOf (host.levels text.toList) text.toList with
    | .error fault =>
      if fault.isMalformed then .error (rejected path (.badSyntax fault.message))
      else .error (.badValue fault.kind fault.message)
    | .ok document => ofDocument host path document

def ofFile (host : Host) (path : Path) (tree : FileTree) : Except Failure (Catalog Value) :=
  let full := (tree.fullPath path).text
  match tree.read? path with
  | .error fault => .error (.badValue fault.kind fault.message)
  | .ok none => .error (rejected full (.noFile full))
  | .ok (some content) => ofBytes host full content

def load (host : Host) (path : Path) (tree : FileTree) : Run Failure Parameters := do
  let full := (tree.fullPath path).text
  Run.info ("Loading process parameters from file: " ++ full)
  let raw ← Run.ofExcept (ofFile host path tree)
  ofValues host raw (.file full)

end FluidChip.Parameters
