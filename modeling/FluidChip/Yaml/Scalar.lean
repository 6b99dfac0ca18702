import FluidChip.Yaml.Cursor

/-!
# The text of scalars

A scalar is written plain, in single or double quotes, or as a block.  Line
breaks inside the first three are folded: one becomes a space, each further one
stays.
-/

namespace FluidChip.Yaml

def folded (first : Char) (more : List Char) : List Char :=
  if first ≠ '\n' then first :: more else if more.isEmpty then [' '] else more

/-! ## Plain scalars -/

def endsPlain (flow : Bool) (ch next : Char) : Bool :=
  isGap ch || (ch == ':' && (isGap next || (flow && ",[]\x7b\x7d".toList.contains next))) ||
    (flow && ",?[]\x7b\x7d".toList.contains ch)

def plainRun (flow : Bool) : List Char → List Char
  | [] => []
  | ch :: rest =>
    if endsPlain flow ch (rest.headD endMark) then [] else ch :: plainRun flow rest

/-- Spaces and line breaks after the first break of a plain scalar; nothing where
a document mark is met. -/
def plainBreaks : Nat → List Char → Cursor → Option (List Char) × Cursor
  | 0, _, c => (none, c)
  | fuel + 1, breaks, c =>
    if c.peek == ' ' then plainBreaks fuel breaks c.next
    else match c.lineBreak? with
      | none => (some breaks, c)
      | some (ch, c) =>
        if c.atDocumentMark then (none, c) else plainBreaks fuel (breaks ++ [ch]) c

def plainBlanks (c : Cursor) : List Char × Bool × Cursor :=
  let spaces := c.run (· == ' ')
  let c := c.skipSpaces
  match c.lineBreak? with
  | none => (spaces, false, c)
  | some (first, c) =>
    if c.atDocumentMark then ([], true, c)
    else match plainBreaks (c.rest.length + 1) [] c with
      | (none, c) => ([], true, c)
      | (some breaks, c) => (folded first breaks, true, c)

/-- The rest of a plain scalar, given what was read and the blanks after it.  The
second answer says whether the scalar ends behind a line break. -/
def plainFrom (flow : Bool) (indent : Int) :
    Nat → List Char → List Char → Bool → Cursor → (List Char × Bool) × Cursor
  | 0, text, _, broken, c => ((text, broken), c)
  | fuel + 1, text, blanks, broken, c =>
    if c.peek == '#' then ((text, broken), c)
    else
      let run := plainRun flow c.rest
      if run.isEmpty then ((text, broken), c)
      else
        let text := text ++ blanks ++ run
        let (blanks, broken, c) := plainBlanks (c.skip run.length)
        if blanks.isEmpty || c.peek == '#' || (!flow && (c.column : Int) < indent) then
          ((text, broken), c)
        else plainFrom flow indent fuel text blanks broken c

/-- A plain scalar; in a block its lines stand right of the block around it. -/
def plainScalar (flow : Bool) (indent : Int) (c : Cursor) : (List Char × Bool) × Cursor :=
  plainFrom flow indent (c.rest.length + 1) [] [] false c

/-! ## Quoted scalars -/

def quotedBreaks : Nat → List Char → Cursor → Except Fault (List Char × Cursor)
  | 0, breaks, c => .ok (breaks, c)
  | fuel + 1, breaks, c =>
    if c.atDocumentMark then c.fail "a document mark inside quotes"
    else
      let c := c.skipWhile fun ch => ch == ' ' || ch == '\t'
      match c.lineBreak? with
      | none => .ok (breaks, c)
      | some (ch, c) => quotedBreaks fuel (breaks ++ [ch]) c

def escaped? : Char → Option Char
  | '0' => some '\x00'
  | 'a' => some '\x07'
  | 'b' => some '\x08'
  | 't' => some '\t'
  | '\t' => some '\t'
  | 'n' => some '\n'
  | 'v' => some '\x0b'
  | 'f' => some '\x0c'
  | 'r' => some '\r'
  | 'e' => some '\x1b'
  | ' ' => some ' '
  | '"' => some '"'
  | '\\' => some '\\'
  | '/' => some '/'
  | 'N' => some '\x85'
  | '_' => some '\xa0'
  | 'L' => some '\u2028'
  | 'P' => some '\u2029'
  | _ => none

def escapeDigits? : Char → Option Nat
  | 'x' => some 2
  | 'u' => some 4
  | 'U' => some 8
  | _ => none

def hexNumber? (count : Nat) (s : List Char) : Option Nat := do
  let digits ← (s.take count).mapM Text.hexValue?
  if digits.length < count then none
  else some (digits.foldl (fun n d => 16 * n + d) 0)

def lowHalf? : List Char → Option Nat
  | '\\' :: 'u' :: digits =>
    (hexNumber? 4 digits).bind fun low =>
      if 0xdc00 ≤ low && low < 0xe000 then some (low - 0xdc00) else none
  | _ => none

/-- The character with a number, and how much of the text goes with it: a first
half takes the second one along. -/
def numbered (code : Nat) (rest : List Char) : Char × Nat :=
  match if 0xd800 ≤ code && code < 0xdc00 then lowHalf? rest else none with
  | some low => (Char.ofNat (0x10000 + (code - 0xd800) * 0x400 + low), 6)
  | none => (Char.ofNat code, 0)

def escape (c : Cursor) : Except Fault (List Char × Cursor) :=
  match escaped? c.peek, escapeDigits? c.peek with
  | some ch, _ => .ok ([ch], c.next)
  | none, some count =>
    let c := c.next
    match hexNumber? count c.rest with
    | none => c.fail "an escape without its hexadecimal digits"
    | some code =>
      if 0x10ffff < code then .error (.noCharacter code)
      else
        let c := c.skip count
        let (ch, more) := numbered code c.rest
        .ok ([ch], c.skip more)
  | none, none =>
    match c.lineBreak? with
    | some (_, c) => quotedBreaks (c.rest.length + 1) [] c
    | none => c.fail "an unknown escape"

def quotedFrom (mark : Char) : Nat → List Char → Cursor → Except Fault (List Char × Cursor)
  | 0, _, c => c.fail "quotes that are not closed"
  | fuel + 1, text, c =>
    let ch := c.peek
    if ch == endMark then c.fail "quotes that are not closed"
    else if ch == ' ' || ch == '\t' then
      let blanks := c.run fun ch => ch == ' ' || ch == '\t'
      let c := c.skip blanks.length
      if isBreak c.peek then quotedFrom mark fuel text c
      else quotedFrom mark fuel (text ++ blanks) c
    else if isBreak ch then
      match c.lineBreak? with
      | none => c.fail "quotes that are not closed"
      | some (first, c) => do
        let (breaks, c) ← quotedBreaks (c.rest.length + 1) [] c
        quotedFrom mark fuel (text ++ folded first breaks) c
    else if ch == mark then
      if mark == '\'' && c.ahead 1 == '\'' then quotedFrom mark fuel (text ++ ['\'']) (c.skip 2)
      else .ok (text, c.next)
    else if ch == '\\' && mark == '"' then do
      let (chars, c) ← escape c.next
      quotedFrom mark fuel (text ++ chars) c
    else
      let run := c.run fun ch => !(isGap ch || ch == '\'' || ch == '"' || ch == '\\')
      let run := if run.isEmpty then [ch] else run
      quotedFrom mark fuel (text ++ run) (c.skip run.length)

def quotedScalar (c : Cursor) : Except Fault (List Char × Cursor) :=
  quotedFrom c.peek (c.rest.length + 1) [] c.next

/-! ## Block scalars -/

/-- How a block scalar ends: with one line break, with none, or with all. -/
inductive Chomping where
  | clip
  | strip
  | keep
  deriving DecidableEq, Repr

def chomping? : Char → Option Chomping
  | '+' => some .keep
  | '-' => some .strip
  | _ => none

def increment? (c : Cursor) : Except Fault (Option Nat × Cursor) :=
  if Text.isDigit c.peek then
    if c.peek == '0' then c.fail "an indentation of zero"
    else .ok (some (c.peek.toNat - '0'.toNat), c.next)
  else .ok (none, c)

def blockHeader (c : Cursor) : Except Fault ((Chomping × Option Nat) × Cursor) := do
  let (first, c) := match chomping? c.peek with
    | some chomping => (some chomping, c.next)
    | none => (none, c)
  let (increment, c) ← increment? c
  let (chomping, c) := match first, increment, chomping? c.peek with
    | some chomping, _, _ => (chomping, c)
    | none, some _, some chomping => (chomping, c.next)
    | none, _, _ => (.clip, c)
  if !endsWord c.peek then c.fail "an unknown mark of a block scalar"
  else
    let c := c.skipSpaces.skipComment
    if !endsLine c.peek then c.fail "text after the marks of a block scalar"
    else .ok ((chomping, increment), (c.lineBreak?.map (·.2)).getD c)

def blockIndent : Nat → List Char → Nat → Cursor → List Char × Nat × Cursor
  | 0, breaks, deepest, c => (breaks, deepest, c)
  | fuel + 1, breaks, deepest, c =>
    if c.peek == ' ' then
      let c := c.next
      blockIndent fuel breaks (max deepest c.column) c
    else match c.lineBreak? with
      | some (ch, c) => blockIndent fuel (breaks ++ [ch]) deepest c
      | none => (breaks, deepest, c)

def skipIndent (indent : Nat) (c : Cursor) : Cursor :=
  c.skip ((c.rest.take (indent - c.column)).takeWhile (· == ' ')).length

def blockBreaks (indent : Nat) : Nat → List Char → Cursor → List Char × Cursor
  | 0, breaks, c => (breaks, c)
  | fuel + 1, breaks, c =>
    let c := skipIndent indent c
    match c.lineBreak? with
    | some (ch, c) => blockBreaks indent fuel (breaks ++ [ch]) c
    | none => (breaks, c)

/-- The lines of a block scalar from a line on: the text with the line break that
ends it, and the empty lines after it. -/
def blockLines (fold : Bool) (indent : Nat) :
    Nat → List Char → List Char → Cursor → (List Char × List Char × List Char) × Cursor
  | 0, text, breaks, c => ((text, [], breaks), c)
  | fuel + 1, text, breaks, c =>
    if c.column ≠ indent || c.peek == endMark then ((text, [], breaks), c)
    else
      let startsBlank := c.peek == ' ' || c.peek == '\t'
      let line := c.run (!endsLine ·)
      let text := text ++ breaks ++ line
      let c := c.skip line.length
      let (ending, c) := match c.lineBreak? with
        | some (ch, c) => ([ch], c)
        | none => ([], c)
      let (breaks, c) := blockBreaks indent (c.rest.length + 1) [] c
      if c.column = indent && c.peek != endMark then
        let nextBlank := c.peek == ' ' || c.peek == '\t'
        let joint :=
          if fold && ending == ['\n'] && !startsBlank && !nextBlank then
            if breaks.isEmpty then [' '] else []
          else ending
        blockLines fold indent fuel (text ++ joint) breaks c
      else ((text, ending, breaks), c)

def blockScalar (around : Int) (c : Cursor) : Except Fault (List Char × Cursor) := do
  let fold := c.peek == '>'
  let ((chomping, increment), c) ← blockHeader c.next
  let least := max 1 (around + 1).toNat
  let (breaks, indent, c) := match increment with
    | none =>
      let (breaks, deepest, c) := blockIndent (c.rest.length + 1) [] 0 c
      (breaks, max least deepest, c)
    | some increment =>
      let indent := least + increment - 1
      let (breaks, c) := blockBreaks indent (c.rest.length + 1) [] c
      (breaks, indent, c)
  let ((text, ending, breaks), c) := blockLines fold indent (c.rest.length + 1) [] breaks c
  .ok (match chomping with
    | .strip => text
    | .clip => text ++ ending
    | .keep => text ++ ending ++ breaks, c)

end FluidChip.Yaml
