import FluidChip.Parameters

/-!
# Words of the command line

A word that begins with a hyphen is an option if it can be one.  An option may be
spelled by any beginning that no other option shares, and may carry its value
behind an equals sign; a single letter carries it directly.
-/

namespace FluidChip.CommandLine

open Text

/-! ## Options -/

inductive Flag where
  | help
  | outputDir
  | logLevel
  | processFile
  | parameter (f : Parameters.Field)
  deriving DecidableEq, Repr

namespace Flag

def all : List Flag :=
  [help, outputDir, logLevel, processFile] ++ Parameters.Field.all.map parameter

def spellings : Flag → List String
  | help => ["-h", "--help"]
  | outputDir => ["-o", "--output-dir"]
  | logLevel => ["--log-level"]
  | processFile => ["--process-file"]
  | parameter f => ["--" ++ f.flag]

def title (f : Flag) : String := "/".intercalate f.spellings

def table : List (String × Flag) := all.flatMap fun f => f.spellings.map (·, f)

def ofSpelling? (s : String) : Option Flag := (table.find? (·.1 = s)).map (·.2)

end Flag

/-! ## Words -/

inductive Joined where
  | none
  | byEquals (value : String)
  | directly (value : String)
  deriving DecidableEq, Repr

inductive Word where
  | plain (s : String)
  | ending
  | option (flag : Flag) (spelling : String) (joined : Joined)
  | unknown (s : String)
  deriving DecidableEq, Repr

/-- A beginning that several options share. -/
structure Ambiguity where
  word : String
  spellings : List String
  deriving DecidableEq, Repr

def equalsSides (s : List Char) : List Char × Joined :=
  match s.span (· ≠ '=') with
  | (before, _ :: after) => (before, .byEquals (.ofList after))
  | (before, []) => (before, .none)

def isNegativeNumber (s : List Char) : Bool :=
  let isDigit (c : Char) : Bool := (digitValue? c).isSome
  match withoutFinalNewline s with
  | '-' :: body =>
    let (whole, rest) := body.span isDigit
    match rest with
    | [] => !whole.isEmpty
    | '.' :: digits => !digits.isEmpty && digits.all isDigit
    | _ => false
  | _ => false

def candidates (s : List Char) : List (Flag × String × Joined) :=
  match s with
  | '-' :: '-' :: _ =>
    let (beginning, joined) := equalsSides s
    (Flag.table.filter fun entry => beginning.isPrefixOf entry.1.toList).map fun (spelling, flag) =>
      (flag, spelling, joined)
  | '-' :: letter :: value =>
    (Flag.table.filter fun entry => entry.1 = .ofList ['-', letter]).map fun (spelling, flag) =>
      (flag, spelling, .directly (.ofList value))
  | _ => []

def inFull? (s : String) : Option Word :=
  match Flag.ofSpelling? s with
  | some flag => some (.option flag s .none)
  | none =>
    let (before, joined) := equalsSides s.toList
    match joined, Flag.ofSpelling? (.ofList before) with
    | .byEquals value, some flag => some (.option flag (.ofList before) (.byEquals value))
    | _, _ => none

def Word.ofText (s : String) : Except Ambiguity Word :=
  match s.toList with
  | '-' :: second :: rest =>
    match inFull? s with
    | some word => .ok word
    | none =>
      match candidates ('-' :: second :: rest) with
      | [] =>
        if isNegativeNumber ('-' :: second :: rest) || s.toList.contains ' ' then .ok (.plain s)
        else .ok (.unknown s)
      | [(flag, spelling, joined)] => .ok (.option flag spelling joined)
      | several => .error ⟨s, several.map fun (_, spelling, _) => spelling⟩
  | _ => .ok (.plain s)

def words : List String → Except Ambiguity (List Word)
  | [] => .ok []
  | "--" :: rest => .ok (.ending :: rest.map .plain)
  | s :: rest => do
    let word ← Word.ofText s
    let others ← words rest
    return word :: others

end FluidChip.CommandLine
