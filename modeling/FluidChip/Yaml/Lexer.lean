import FluidChip.Yaml.Token

/-!
# Cutting a text into tokens

Indentation opens and closes block collections.  Whether a node is a key shows
only at the colon after it: the lexer remembers where a key may have begun and
puts the marks of the mapping in front of it afterwards.
-/

namespace FluidChip.Yaml

/-- A place where a key may have begun. -/
structure KeyStart where
  position : Nat
  /-- Nothing but a key may stand here. -/
  required : Bool
  index : Nat
  line : Nat
  column : Nat

structure Lexer where
  cursor : Cursor
  found : List Token := []
  flow : Nat := 0
  indent : Int := -1
  outer : List Int := []
  keyAllowed : Bool := true
  keys : List (Nat × KeyStart) := []

namespace Lexer

def emit (x : Lexer) (token : Token) : Lexer := { x with found := token :: x.found }

def insert (x : Lexer) (position : Nat) (token : Token) : Lexer :=
  let later := x.found.length - position
  { x with found := x.found.take later ++ token :: x.found.drop later }

def fail {α : Type} (x : Lexer) (problem : String) : Except Fault α := x.cursor.fail problem

/-! ## Keys -/

def key? (x : Lexer) : Option KeyStart := (x.keys.find? (·.1 == x.flow)).map (·.2)

def withoutKey (x : Lexer) : Lexer := { x with keys := x.keys.filter (·.1 != x.flow) }

def keyMissing {α : Type} (k : KeyStart) : Except Fault α :=
  .error (.malformed "a key without its colon" (k.line + 1))

def dropKey (x : Lexer) : Except Fault Lexer :=
  match x.key? with
  | some k => if k.required then keyMissing k else .ok x.withoutKey
  | none => .ok x

def saveKey (x : Lexer) : Except Fault Lexer :=
  if !x.keyAllowed then .ok x
  else do
    let x ← x.dropKey
    let c := x.cursor
    let start : KeyStart := {
      position := x.found.length
      required := x.flow == 0 && x.indent == c.column
      index := c.index, line := c.line, column := c.column }
    .ok { x with keys := (x.flow, start) :: x.keys }

/-- Whether a key that began there has run over its line or its length. -/
def isStale (x : Lexer) (k : KeyStart) : Bool :=
  k.line != x.cursor.line || 1024 < x.cursor.index - k.index

def dropStaleKeys (x : Lexer) : Except Fault Lexer :=
  match (x.keys.reverse.map (·.2)).find? fun k => x.isStale k && k.required with
  | some k => keyMissing k
  | none => .ok { x with keys := x.keys.filter fun (_, k) => !x.isStale k }

/-! ## Indentation -/

/-- Closes the blocks that stand right of a column. -/
def closeFrom (column : Int) : List Int → Lexer → Lexer
  | [], x => x
  | outer :: rest, x =>
    if column < x.indent then
      closeFrom column rest { x.emit .blockEnd with indent := outer, outer := rest }
    else x

def closeBlocks (x : Lexer) (column : Int) : Lexer :=
  if x.flow == 0 then closeFrom column x.outer x else x

def openBlock (x : Lexer) (column : Int) (position : Nat) (token : Token) : Lexer :=
  if x.indent < column then
    { x.insert position token with indent := column, outer := x.indent :: x.outer }
  else x

/-! ## Steps -/

def take (x : Lexer) (count : Nat) (token : Token) : Lexer :=
  { x.emit token with cursor := x.cursor.skip count }

def allowKey (x : Lexer) (allowed : Bool) : Lexer := { x with keyAllowed := allowed }

def skipBlanks : Nat → Lexer → Lexer
  | 0, x => x
  | fuel + 1, x =>
    let c := x.cursor.skipSpaces.skipComment
    match c.lineBreak? with
    | some (_, c) =>
      skipBlanks fuel { x with cursor := c, keyAllowed := x.keyAllowed || x.flow == 0 }
    | none => { x with cursor := c }

def skipToToken (x : Lexer) : Lexer :=
  let c := x.cursor
  let c := if c.index == 0 && c.peek == byteOrderMark then c.next else c
  skipBlanks (c.rest.length + 1) { x with cursor := c }

def documentMark (x : Lexer) (token : Token) : Except Fault Lexer := do
  let x ← (x.closeBlocks (-1)).dropKey
  .ok ((x.allowKey false).take 3 token)

def directiveLine (x : Lexer) : Except Fault Lexer := do
  let x ← (x.closeBlocks (-1)).dropKey
  let (token, c) ← directive x.cursor
  .ok { (x.allowKey false).emit token with cursor := c }

def openFlow (x : Lexer) (token : Token) : Except Fault Lexer := do
  let x ← x.saveKey
  .ok (({ x with flow := x.flow + 1 }.allowKey true).take 1 token)

def closeFlow (x : Lexer) (token : Token) : Except Fault Lexer :=
  if x.flow == 0 then x.fail "a bracket that was not opened"
  else do
    let x ← x.dropKey
    .ok (({ x with flow := x.flow - 1 }.allowKey false).take 1 token)

def comma (x : Lexer) : Except Fault Lexer := do
  let x ← (x.allowKey true).dropKey
  .ok (x.take 1 .comma)

def dash (x : Lexer) : Except Fault Lexer := do
  let x ←
    if x.flow != 0 then pure x
    else if !x.keyAllowed then x.fail "a sequence entry that is not allowed here"
    else pure (x.openBlock x.cursor.column x.found.length .blockSequence)
  let x ← (x.allowKey true).dropKey
  .ok (x.take 1 .dash)

def keyMark (x : Lexer) : Except Fault Lexer := do
  let x ←
    if x.flow != 0 then pure x
    else if !x.keyAllowed then x.fail "a mapping key that is not allowed here"
    else pure (x.openBlock x.cursor.column x.found.length .blockMapping)
  let x ← (x.allowKey (x.flow == 0)).dropKey
  .ok (x.take 1 .key)

def valueMark (x : Lexer) : Except Fault Lexer :=
  match x.key? with
  | some k =>
    let x := x.withoutKey.insert k.position .key
    let x := if x.flow == 0 then x.openBlock k.column k.position .blockMapping else x
    .ok ((x.allowKey false).take 1 .value)
  | none =>
    if x.flow == 0 && !x.keyAllowed then x.fail "a mapping value that is not allowed here"
    else
      let x := if x.flow == 0 then
          x.openBlock x.cursor.column x.found.length .blockMapping
        else x
      .ok ((x.allowKey (x.flow == 0)).take 1 .value)

/-- A node's property or text, which may begin a key. -/
def nodePart (x : Lexer) (read : Cursor → Except Fault (Token × Cursor)) :
    Except Fault Lexer := do
  let x ← x.saveKey
  let (token, c) ← read x.cursor
  .ok { (x.allowKey false).emit token with cursor := c }

def block (x : Lexer) : Except Fault Lexer := do
  let x ← (x.allowKey true).dropKey
  let (text, c) ← blockScalar x.indent x.cursor
  .ok { x.emit (.scalar (.ofList text) false) with cursor := c }

def plain (x : Lexer) : Except Fault Lexer := do
  let x ← x.saveKey
  let ((text, broken), c) := plainScalar (x.flow != 0) (x.indent + 1) x.cursor
  .ok { (x.allowKey broken).emit (.scalar (.ofList text) true) with cursor := c }

def quoted (c : Cursor) : Except Fault (Token × Cursor) := do
  let (text, c) ← quotedScalar c
  .ok (.scalar (.ofList text) false, c)

def startsPlain (x : Lexer) : Bool :=
  let ch := x.cursor.peek
  !(isGap ch || "-?:,[]\x7b\x7d#&*!|>'\"%@`".toList.contains ch) ||
    (!isGap (x.cursor.ahead 1) && (ch == '-' || (x.flow == 0 && (ch == '?' || ch == ':'))))

/-- Reads one token, with the marks that come before it. -/
def step (x : Lexer) : Except Fault Lexer := do
  let x ← x.skipToToken.dropStaleKeys
  let c := x.cursor
  let x := x.closeBlocks c.column
  let atStart := c.column == 0
  let inFlow := x.flow != 0
  let gapAhead := isGap (c.ahead 1)
  let ch := c.peek
  if ch == endMark then
    let x ← (x.closeBlocks (-1)).dropKey
    .ok (x.emit .streamEnd)
  else if ch == '%' && atStart then x.directiveLine
  else if atStart && c.atMarks '-' then x.documentMark .documentStart
  else if atStart && c.atMarks '.' then x.documentMark .documentEnd
  else if ch == '[' then x.openFlow .openSequence
  else if ch == '\x7b' then x.openFlow .openMapping
  else if ch == ']' then x.closeFlow .closeSequence
  else if ch == '\x7d' then x.closeFlow .closeMapping
  else if ch == ',' then x.comma
  else if ch == '-' && gapAhead then x.dash
  else if ch == '?' && (inFlow || gapAhead) then x.keyMark
  else if ch == ':' && (inFlow || gapAhead) then x.valueMark
  else if ch == '*' then x.nodePart fun c => do
    let (name, c) ← nodeName c.next
    .ok (.alias name, c)
  else if ch == '&' then x.nodePart fun c => do
    let (name, c) ← nodeName c.next
    .ok (.anchor name, c)
  else if ch == '!' then x.nodePart tagToken
  else if (ch == '|' || ch == '>') && !inFlow then x.block
  else if ch == '\'' || ch == '"' then x.nodePart quoted
  else if x.startsPlain then x.plain
  else x.fail "a character that no token begins with"

def isEnd : Token → Bool
  | .streamEnd => true
  | _ => false

/-- Reads tokens to the end; where the text cannot be read on, a fault stands in
their place. -/
def steps : Nat → Lexer → Lexer
  | 0, x => x
  | fuel + 1, x =>
    match x.step with
    | .error fault => x.emit (.fault fault)
    | .ok next => if (next.found.head?.map isEnd).getD false then next else steps fuel next

end Lexer

def tokens (text : List Char) : List Token :=
  (Lexer.steps (text.length + 2) { cursor := { rest := text } }).found.reverse

end FluidChip.Yaml
