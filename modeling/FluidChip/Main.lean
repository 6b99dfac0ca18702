import FluidChip.CommandLine.Run
import FluidChip.Host

/-!
# The command

Reads the files that the command line names, runs the program on them, and puts
what it wrote on the disk.
-/

namespace FluidChip.Command

/-- What stands at a place of the disk.  Every directory holds itself under the
name of one point. -/
def look (place : String) : IO (Option FileTree.Entry) := do
  try
    discard <| IO.FS.realPath (place ++ "/.")
    return some .directory
  catch _ =>
    try
      return some (.file (← IO.FS.readBinFile place).toList)
    catch _ => return none

def lookAlong (t : FileTree) (place : List String) : List String → IO FileTree
  | [] => return t
  | name :: rest => do
    let here := place ++ [name]
    match ← look ("/" ++ FileTree.key here) with
    | some entry => lookAlong (t.put here entry) here rest
    | none => return t

def lookInside (t : FileTree) (p : Path) : IO FileTree := do
  let place := (t.fullPath p).names
  match t.find? place with
  | some .directory =>
    (← (← IO.FS.realPath ("/" ++ FileTree.key place)).readDir).toList.foldlM (fun t entry => do
      match ← look ("/" ++ FileTree.key (place ++ [entry.fileName])) with
      | some .directory => return t.put (place ++ [entry.fileName]) .directory
      | _ => return t) t
  | _ => return t

def treeOf (paths : List Path) (outputDir : Path) : IO FileTree := do
  let start : FileTree := { here := (Path.ofText (← IO.currentDir).toString).names }
  let t ← (outputDir :: paths).foldlM (fun t p => lookAlong t [] (t.fullPath p).names) start
  lookInside t outputDir

def store (t : FileTree) (p : Path) : IO Unit := do
  match t.read? p with
  | .ok (some content) =>
    let incomplete := p.text ++ ".partial"
    IO.FS.writeBinFile incomplete (ByteArray.mk content.toArray)
    IO.FS.rename incomplete p.text
  | _ => return ()

end FluidChip.Command

open FluidChip FluidChip.Command in
def main (texts : List String) : IO UInt32 := do
  let tree ← treeOf (CommandLine.readPaths texts) (CommandLine.outputDir texts)
  let (tree, r) := CommandLine.run .standard texts tree
  for line in CommandLine.consoleLines texts r.records do
    IO.println line
  match r.outcome with
  | .ok (.wrote path) => store tree path
  | _ => pure ()
  IO.print (CommandLine.printed r.outcome)
  IO.eprint (CommandLine.complaint r.outcome)
  return ((CommandLine.exitCode? r.outcome).getD 1).toUInt32
