import FluidChip.Yaml.Scalar

/-!
# Tokens

The tokens of a document: its marks, the brackets of flow collections, the starts
and ends of block collections that follow from indentation, and properties and
text of nodes.
-/

namespace FluidChip.Yaml

inductive Token where
  | yamlDirective (major : Nat)
  | tagDirective (handle start : String)
  | otherDirective
  | documentStart
  | documentEnd
  | streamEnd
  | blockSequence
  | blockMapping
  | blockEnd
  | openSequence
  | closeSequence
  | openMapping
  | closeMapping
  | comma
  | dash
  | key
  | value
  | alias (name : String)
  | anchor (name : String)
  | tag (handle : Option String) (suffix : String)
  | scalar (text : String) (plain : Bool)
  /-- The text cannot be read from here on. -/
  | fault (f : Fault)
  deriving DecidableEq, Repr

/-! ## Properties of nodes -/

def nodeName (c : Cursor) : Except Fault (String × Cursor) :=
  let name := c.run isNameChar
  let c := c.skip name.length
  if name.isEmpty then c.fail "an anchor without a name"
  else if isGap c.peek || "?:,]\x7d%@`".toList.contains c.peek then .ok (.ofList name, c)
  else c.fail "an anchor with an unexpected character"

/-- A tag handle: one exclamation mark, or a name between two. -/
def tagHandle (c : Cursor) : Except Fault (String × Cursor) :=
  if c.peek != '!' then c.fail "a tag handle without its mark"
  else if c.ahead 1 == ' ' then .ok ("!", c.next)
  else
    let name := c.next.run isNameChar
    let after := c.skip (name.length + 1)
    if after.peek != '!' then after.fail "a tag handle that is not closed"
    else .ok (.ofList ('!' :: name ++ ['!']), after.next)

def isTagChar (c : Char) : Bool :=
  Text.isLetter c || Text.isDigit c || "-;/?:@&=+$,_.!~*'()[]".toList.contains c

/-- The bytes written by escapes such as `%41`. -/
def tagBytes : Nat → List UInt8 → Cursor → Except Fault (List UInt8 × Cursor)
  | 0, bytes, c => .ok (bytes, c)
  | fuel + 1, bytes, c =>
    if c.peek != '%' then .ok (bytes, c)
    else match Text.hexValue? (c.ahead 1), Text.hexValue? (c.ahead 2) with
      | some high, some low =>
        tagBytes fuel (bytes ++ [UInt8.ofNat (16 * high + low)]) (c.skip 3)
      | _, _ => c.fail "a tag with an escape that is not hexadecimal"

def tagSuffixFrom : Nat → List Char → Cursor → Except Fault (List Char × Cursor)
  | 0, text, c => .ok (text, c)
  | fuel + 1, text, c =>
    if c.peek == '%' then do
      let (bytes, c) ← tagBytes (c.rest.length + 1) [] c
      match String.fromUTF8? ⟨bytes.toArray⟩ with
      | some s => tagSuffixFrom fuel (text ++ s.toList) c
      | none => c.fail "a tag with escapes that are no text"
    else
      let run := c.run isTagChar
      if run.isEmpty then .ok (text, c)
      else tagSuffixFrom fuel (text ++ run) (c.skip run.length)

def tagSuffix (c : Cursor) : Except Fault (String × Cursor) := do
  let (text, after) ← tagSuffixFrom (c.rest.length + 1) [] c
  if text.isEmpty then c.fail "a tag without a name"
  else .ok (.ofList text, after)

/-- Whether an exclamation mark stands in the word ahead, its first character left
out. -/
def hasHandle (c : Cursor) : Bool :=
  (c.next.run fun ch => !endsWord ch).contains '!'

def tagToken (c : Cursor) : Except Fault (Token × Cursor) := do
  let (token, c) ←
    if c.ahead 1 == '<' then do
      let (suffix, c) ← tagSuffix (c.skip 2)
      if c.peek != '>' then c.fail "a tag that is not closed"
      else .ok (Token.tag none suffix, c.next)
    else if isGap (c.ahead 1) then .ok (Token.tag none "!", c.next)
    else do
      let (handle, c) ← if hasHandle c then tagHandle c else .ok ("!", c.next)
      let (suffix, c) ← tagSuffix c
      .ok (Token.tag (some handle) suffix, c)
  if endsWord c.peek then .ok (token, c) else c.fail "a tag with an unexpected character"

/-! ## Directives -/

def directiveNumber (c : Cursor) : Except Fault (Nat × Cursor) :=
  let digits := c.run Text.isDigit
  if digits.isEmpty then c.fail "a version without its number"
  else .ok (digits.foldl (fun n d => 10 * n + (d.toNat - '0'.toNat)) 0, c.skip digits.length)

def versionDirective (c : Cursor) : Except Fault (Token × Cursor) := do
  let (major, c) ← directiveNumber c.skipSpaces
  if c.peek != '.' then c.fail "a version without its point"
  else
    let (_, c) ← directiveNumber c.next
    if endsWord c.peek then .ok (.yamlDirective major, c)
    else c.fail "a version with an unexpected character"

def handleDirective (c : Cursor) : Except Fault (Token × Cursor) := do
  let (handle, c) ← tagHandle c.skipSpaces
  if c.peek != ' ' then c.fail "a tag handle without its meaning"
  else
    let (start, c) ← tagSuffix c.skipSpaces
    if endsWord c.peek then .ok (.tagDirective handle start, c)
    else c.fail "the meaning of a tag handle with an unexpected character"

def directive (c : Cursor) : Except Fault (Token × Cursor) := do
  let name := c.next.run isNameChar
  let c := c.skip (name.length + 1)
  if name.isEmpty then c.fail "a directive without a name"
  else if !endsWord c.peek then c.fail "a directive with an unexpected character"
  else
    let (token, c) ←
      if name == "YAML".toList then versionDirective c
      else if name == "TAG".toList then handleDirective c
      else .ok (Token.otherDirective, c.skipWhile (!endsLine ·))
    let c := c.skipSpaces.skipComment
    if endsLine c.peek then .ok (token, (c.lineBreak?.map (·.2)).getD c)
    else c.fail "text after a directive"

end FluidChip.Yaml
