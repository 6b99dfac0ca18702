import FluidChip.Catalog
import FluidChip.Number.Layout
import FluidChip.Text.Quoted

/-!
# File trees

Files and directories, with a working directory, as a value.  A file is put
in place in two steps, first under a neighbouring name and then by renaming, so
that a failure at any step leaves the tree as it was.
-/

namespace FluidChip

open Text

/-! ## Paths -/

structure Path where
  names : List String
  absolute : Bool := false
  deriving DecidableEq, Repr

namespace Path

def ofText (s : String) : Path where
  names := ((s.toList.splitOn '/').map String.ofList).filter fun name => name ≠ "" ∧ name ≠ "."
  absolute := s.startsWith "/"

def text (p : Path) : String :=
  if p.absolute then "/" ++ "/".intercalate p.names
  else if p.names = [] then "." else "/".intercalate p.names

def append (p q : Path) : Path :=
  if q.absolute then q else { p with names := p.names ++ q.names }

def base (p : Path) : String := p.names.getLastD ""

def withBase (p : Path) (name : String) : Path := { p with names := p.names.dropLast ++ [name] }

/-- A name without its last extension.  A point in front or at the end starts no
extension. -/
def stemOf (name : String) : String :=
  let (after, before) := name.toList.reverse.span (· ≠ '.')
  match before with
  | [] => name
  | _ :: stem => if after = [] ∨ stem = [] then name else .ofList stem.reverse

def stem (p : Path) : String := stemOf p.base

def normal (p : Path) : Path :=
  { p with names := p.names.foldl (fun names name =>
      if name = ".." then names.dropLast else names ++ [name]) [] }

end Path

/-! ## Trees -/

inductive FileTree.Entry where
  | file (content : List UInt8)
  | directory
  deriving DecidableEq, Repr

/-- What stands where, by the path from the root, and the working directory. -/
structure FileTree where
  entries : Catalog FileTree.Entry := {}
  here : List String := []

namespace FileTree

/-! ## Faults -/

inductive Fault where
  | missing (path : String)
  | notDirectory (path : String)
  | isDirectory (path : String)
  /-- A file cannot replace a directory. -/
  | overDirectory (source target : String)
  | nameTooLong (path : String)
  | zeroCharacter
  deriving DecidableEq, Repr

def Fault.message : Fault → String
  | .missing path => "[Errno 2] No such file or directory: " ++ quoted path
  | .notDirectory path => "[Errno 20] Not a directory: " ++ quoted path
  | .isDirectory path => "[Errno 21] Is a directory: " ++ quoted path
  | .overDirectory source target =>
    "[Errno 21] Is a directory: " ++ quoted source ++ " -> " ++ quoted target
  | .nameTooLong path => "[Errno 36] File name too long: " ++ quoted path
  | .zeroCharacter => "unlink: embedded null character in path"

def Fault.kind : Fault → String
  | .missing _ => "FileNotFoundError"
  | .notDirectory _ => "NotADirectoryError"
  | .isDirectory _ => "IsADirectoryError"
  | .overDirectory .. => "IsADirectoryError"
  | .nameTooLong _ => "OSError"
  | .zeroCharacter => "ValueError"

/-! ## Looking up -/

def key (names : List String) : String := "/".intercalate names

def find? (t : FileTree) (names : List String) : Option Entry :=
  if names = [] then some .directory else t.entries.find? (key names)

def longestName : Nat := 255
def longestPath : Nat := 4095

/-- Follows names one by one; each but the last has to be a directory. -/
def walk (t : FileTree) (path : String) : List String → List String → Except Fault (List String)
  | place, [] => .ok place
  | place, name :: rest =>
    match t.find? place with
    | none => .error (.missing path)
    | some (.file _) => .error (.notDirectory path)
    | some .directory =>
      if name = ".." then t.walk path place.dropLast rest
      else if longestName < name.utf8ByteSize then .error (.nameTooLong path)
      else t.walk path (place ++ [name]) rest

def fullPath (t : FileTree) (p : Path) : Path :=
  (Path.append { names := t.here, absolute := true } p).normal

def locate (t : FileTree) (p : Path) : Except Fault (List String) :=
  if p.text.toList.contains '\x00' then .error .zeroCharacter
  else if longestPath < p.text.utf8ByteSize then .error (.nameTooLong p.text)
  else t.walk p.text (if p.absolute then [] else t.here) p.names

/-- The content of the file that a path leads to, steps back undone first, if it
leads to one. -/
def read? (t : FileTree) (p : Path) : Except Fault (Option (List UInt8)) :=
  match t.locate (t.fullPath p) with
  | .ok place =>
    match t.find? place with
    | some (.file content) => .ok (some content)
    | _ => .ok none
  | .error (.missing _) => .ok none
  | .error (.notDirectory _) => .ok none
  | .error fault => .error fault

/-! ## Changing -/

def put (t : FileTree) (place : List String) (entry : Entry) : FileTree :=
  { t with entries := t.entries.set (key place) entry }

def remove (t : FileTree) (place : List String) : FileTree :=
  { t with entries := t.entries.erase (key place) }

def addDirectories (t : FileTree) (place : List String) : List String → FileTree
  | [] => t
  | name :: rest =>
    let here := place ++ [name]
    (if (t.find? here).isSome then t else t.put here .directory).addDirectories here rest

def add (t : FileTree) (p : Path) (entry : Entry) : FileTree :=
  let names := (t.fullPath p).names
  (t.addDirectories [] names.dropLast).put names entry

def write (t : FileTree) (p : Path) (content : List UInt8) : Except Fault FileTree := do
  let place ← t.locate p
  match t.find? place with
  | some .directory => .error (.isDirectory p.text)
  | _ => .ok (t.put place (.file content))

def rename (t : FileTree) (source target : Path) : Except Fault FileTree := do
  let origin ← t.locate source
  let place ← t.locate target
  match t.find? origin, t.find? place with
  | none, _ => .error (.missing source.text)
  | some _, some .directory => .error (.overDirectory source.text target.text)
  | some entry, _ => .ok ((t.remove origin).put place entry)

def discard (t : FileTree) (p : Path) : FileTree :=
  match t.locate p with
  | .ok place =>
    match t.find? place with
    | some (.file _) => t.remove place
    | _ => t
  | .error _ => t

/-- Puts a content at a path by way of a partial file. -/
def replace (t : FileTree) (source target : Path) (content : List UInt8) :
    FileTree × Except Fault Unit :=
  match t.write source content with
  | .error fault => (t, .error fault)
  | .ok written =>
    match written.rename source target with
    | .error fault => (written.discard source, .error fault)
    | .ok moved => (moved, .ok ())

end FileTree

end FluidChip
