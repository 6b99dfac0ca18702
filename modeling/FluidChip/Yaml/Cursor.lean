import FluidChip.Text.Character

/-!
# Reading YAML text

A cursor is the text still to be read with its place in the document.  The zero
character, which no document holds, stands for the end of the text.
-/

namespace FluidChip.Yaml

/-! ## Faults -/

inductive Fault where
  /-- The text is no document; lines count from one. -/
  | malformed (problem : String) (line : Nat)
  | noCharacter (code : Nat)
  | noNumber (text : String)
  | emptyNumber
  | noTruthValue (text : String)
  | noMoment (text : String)
  | outsideCalendar (text : String)
  /-- Nodes are nested deeper than they can be read. -/
  | tooDeep
  deriving DecidableEq, Repr

namespace Fault

/-- Whether the fault lies in the text as YAML, not in the value of a scalar. -/
def isMalformed : Fault → Bool
  | .malformed .. => true
  | _ => false

def message : Fault → String
  | .malformed problem line => problem ++ " (line " ++ toString line ++ ")"
  | .noCharacter code => "no character has the number " ++ toString code
  | .noNumber text => "not a number: " ++ text
  | .emptyNumber => "an empty number"
  | .noTruthValue text => "not a truth value: " ++ text
  | .noMoment text => "not a date: " ++ text
  | .outsideCalendar text => "no such date or time: " ++ text
  | .tooDeep => "maximum recursion depth exceeded"

def kind : Fault → String
  | .malformed .. => "YAMLError"
  | .noCharacter code => if code < 0x80000000 then "ValueError" else "OverflowError"
  | .noNumber _ => "ValueError"
  | .emptyNumber => "IndexError"
  | .noTruthValue _ => "KeyError"
  | .noMoment _ => "AttributeError"
  | .outsideCalendar _ => "ValueError"
  | .tooDeep => "RecursionError"

end Fault

/-! ## Classes of characters -/

def endMark : Char := '\x00'

def byteOrderMark : Char := '\ufeff'

def isBreak (c : Char) : Bool :=
  c == '\n' || c == '\x85' || c == '\u2028' || c == '\u2029'

def endsLine (c : Char) : Bool := c == endMark || isBreak c

def endsWord (c : Char) : Bool := c == ' ' || endsLine c

/-- What may follow an indicator: a blank, the end of the line, or that of the
text. -/
def isGap (c : Char) : Bool := c == '\t' || endsWord c

def isAllowed (c : Char) : Bool :=
  let n := c.toNat
  n == 0x9 || n == 0xa || n == 0xd || (0x20 ≤ n && n ≤ 0x7e) || n == 0x85 ||
    (0xa0 ≤ n && n ≤ 0xd7ff) || (0xe000 ≤ n && n ≤ 0xfffd) || 0x10000 ≤ n

def isNameChar (c : Char) : Bool :=
  Text.isLetter c || Text.isDigit c || c == '-' || c == '_'

/-! ## Cursors -/

structure Cursor where
  rest : List Char
  index : Nat := 0
  line : Nat := 0
  column : Nat := 0

namespace Cursor

def ahead (c : Cursor) (places : Nat) : Char := c.rest.getD places endMark

def peek (c : Cursor) : Char := c.rest.headD endMark

def next (c : Cursor) : Cursor :=
  match c.rest with
  | [] => c
  | ch :: rest =>
    if isBreak ch then ⟨rest, c.index + 1, c.line + 1, 0⟩
    else ⟨rest, c.index + 1, c.line, if ch = byteOrderMark then c.column else c.column + 1⟩

def skip (c : Cursor) : Nat → Cursor
  | 0 => c
  | n + 1 => c.next.skip n

def fail {α : Type} (c : Cursor) (problem : String) : Except Fault α :=
  .error (.malformed problem (c.line + 1))

def run (c : Cursor) (belongs : Char → Bool) : List Char := c.rest.takeWhile belongs

def skipWhile (c : Cursor) (belongs : Char → Bool) : Cursor := c.skip (c.run belongs).length

def skipSpaces (c : Cursor) : Cursor := c.skipWhile (· == ' ')

def skipComment (c : Cursor) : Cursor :=
  if c.peek == '#' then c.skipWhile (!endsLine ·) else c

def lineBreak? (c : Cursor) : Option (Char × Cursor) :=
  match c.rest with
  | [] => none
  | ch :: _ =>
    if ch == '\n' || ch == '\x85' then some ('\n', c.next)
    else if isBreak ch then some (ch, c.next)
    else none

/-- Whether three equal marks, and a gap after them, lie ahead. -/
def atMarks (c : Cursor) (mark : Char) : Bool :=
  c.ahead 0 == mark && c.ahead 1 == mark && c.ahead 2 == mark && isGap (c.ahead 3)

/-- Whether a document begins or ends here, if this is the start of a line. -/
def atDocumentMark (c : Cursor) : Bool := c.atMarks '-' || c.atMarks '.'

end Cursor

end FluidChip.Yaml
