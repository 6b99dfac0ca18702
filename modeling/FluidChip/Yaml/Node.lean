import FluidChip.Yaml.Lexer
import FluidChip.Yaml.Tag

/-!
# Nodes

The tree that tokens describe: scalars, sequences and mappings with their tags.
An alias is replaced by the node of its anchor; inside that very node it stands for
an empty collection.
-/

namespace FluidChip.Yaml

inductive Node where
  | scalar (tag : Tag) (text : String)
  | sequence (tag : Tag) (items : List Node)
  /-- The entries, those merged from elsewhere in front, and what was wrong with a
  merge. -/
  | mapping (tag : Tag) (entries : List (Node × Node)) (fault : Option Fault)

namespace Node

instance : Inhabited Node := ⟨.scalar .null ""⟩

def isMerge : Node → Bool
  | scalar tag _ => tag = .merge
  | _ => false

/-- The key of a stand-in is plain text inside a mapping. -/
def asKey : Node → Node
  | scalar .standIn text => scalar .text text
  | node => node

/-- The entries that a merged value brings along; of several mappings the first
comes last, so that it wins. -/
def mergedEntries (line : Nat) : Node → Except Fault (List (Node × Node))
  | mapping _ _ (some fault) => .error fault
  | mapping _ entries none => .ok entries
  | sequence _ items => do
    let parts ← items.mapM fun item => match item with
      | mapping _ _ (some fault) => .error fault
      | mapping _ entries none => .ok entries
      | _ => .error (.malformed "a merge of something that is no mapping" line)
    .ok parts.reverse.flatten
  | scalar .. => .error (.malformed "a merge of something that is no mapping" line)

def ofEntries (tag : Tag) (entries : List (Node × Node)) : Node :=
  let own := (entries.filter fun entry => !entry.1.isMerge).map fun (key, value) =>
    (key.asKey, value)
  match (entries.filter (·.1.isMerge)).mapM fun entry => mergedEntries 1 entry.2 with
  | .ok parts => mapping tag (parts.flatten ++ own) none
  | .error fault => mapping tag own (some fault)

end Node

/-! ## Reading nodes -/

/-- What is left to read, what has been given names, and how many levels of nodes may
still be entered. -/
structure Reader where
  tokens : List Token
  levels : Nat
  anchors : List (String × Node) := []
  handles : List (String × String) := []

abbrev Reading := StateT Reader (Except Fault)

namespace Reading

def fail {α : Type} (problem : String) : Reading α := throw (.malformed problem 1)

/-- The next token; where the text cannot be read on, its fault. -/
def peek : Reading Token := do
  match (← get).tokens with
  | [] => return .streamEnd
  | .fault f :: _ => throw f
  | token :: _ => return token

def skip : Reading Unit := modify fun r => { r with tokens := r.tokens.drop 1 }

def accept (token : Token) : Reading Bool := do
  if (← peek) = token then
    skip
    return true
  else return false

def expect (token : Token) (problem : String) : Reading Unit := do
  if !(← accept token) then fail problem

def find? (name : String) : Reading (Option Node) := do
  return ((← get).anchors.find? (·.1 = name)).map (·.2)

def bindAnchor (anchor : Option String) (node : Node) : Reading Unit :=
  match anchor with
  | none => return
  | some name => modify fun r => { r with anchors := (name, node) :: r.anchors }

def tagName (handle : Option String) (suffix : String) : Reading String := do
  match handle with
  | none => return suffix
  | some handle =>
    match (← get).handles.find? (·.1 = handle) with
    | some entry => return entry.2 ++ suffix
    | none => fail "a tag handle without a meaning"

/-- Reads what stands one level deeper. -/
def inside {α : Type} (reading : Reading α) : Reading α := do
  match (← get).levels with
  | 0 => throw .tooDeep
  | left + 1 =>
    modify fun r => { r with levels := left }
    let a ← reading
    modify fun r => { r with levels := left + 1 }
    return a

def takeAnchor : Reading (Option String) := do
  match ← peek with
  | .anchor name =>
    skip
    return some name
  | _ => return none

def takeTag : Reading (Option (Option String × String)) := do
  match ← peek with
  | .tag handle suffix =>
    skip
    return some (handle, suffix)
  | _ => return none

def properties : Reading (Option String × Option String) := do
  let first ← takeAnchor
  let tag ← takeTag
  let anchor ← if first.isSome || tag.isNone then pure first else takeAnchor
  match tag with
  | none => return (anchor, none)
  | some (handle, suffix) => return (anchor, some (← tagName handle suffix))

/-- The tag of a scalar: the one given, or the one that plain text suggests. -/
def scalarTag (tag : Option String) (text : String) (plain : Bool) : Tag :=
  match tag with
  | none => if plain then .ofPlain text.toList else .text
  | some name => if name = "!" then .ofPlain text.toList else .ofName name

def collectionTag (tag : Option String) (standard : Tag) : Tag :=
  match tag with
  | none => standard
  | some name => if name = "!" then standard else .ofName name

def empty : Node := .scalar .null ""

def endsEntry : Token → Bool
  | .key => true
  | .value => true
  | .blockEnd => true
  | _ => false

def endsItem : Token → Bool
  | .dash => true
  | token => endsEntry token

mutual

/-- A node.  In a block it may be a block collection; as a part of a mapping, a
sequence that is not indented. -/
def node (block unindented : Bool) : Nat → Reading Node
  | 0 => fail "too many nodes"
  | fuel + 1 => do
    if let .alias name ← peek then
      skip
      match ← find? name with
      | some found => return found
      | none => fail "an alias without its anchor"
    let (anchor, tag) ← properties
    if let some name := anchor then
      if (← find? name).isSome then fail "an anchor given twice"
    let token ← peek
    let collection (standard : Tag) (isMapping : Bool) (content : Tag → Reading Node) :
        Reading Node := do
      let tag := collectionTag tag standard
      bindAnchor anchor (if isMapping then .mapping tag [] none else .sequence tag [])
      let made ← inside (content tag)
      bindAnchor anchor made
      return made
    if unindented && token == .dash then
      collection .sequence false fun tag => unindentedItems tag [] fuel
    else match token with
      | .scalar text plain =>
        skip
        let made := Node.scalar (scalarTag tag text plain) text
        bindAnchor anchor made
        return made
      | .openSequence =>
        skip
        collection .sequence false fun tag => flowItems tag true [] fuel
      | .openMapping =>
        skip
        collection .mapping true fun tag => flowEntries tag true [] fuel
      | .blockSequence =>
        if !block then fail "a block sequence inside brackets"
        else
          skip
          collection .sequence false fun tag => blockItems tag [] fuel
      | .blockMapping =>
        if !block then fail "a block mapping inside brackets"
        else
          skip
          collection .mapping true fun tag => blockEntries tag [] fuel
      | _ =>
        if anchor.isNone && tag.isNone then fail "a node that is missing"
        else
          let made := Node.scalar (scalarTag tag "" true) ""
          bindAnchor anchor made
          return made

def blockItems (tag : Tag) (items : List Node) : Nat → Reading Node
  | 0 => fail "too many nodes"
  | fuel + 1 => do
    if ← accept .dash then
      let next ← peek
      let item ← if next == .dash || next == .blockEnd then pure empty else node true false fuel
      blockItems tag (item :: items) fuel
    else
      expect .blockEnd "an entry that is not part of the block sequence"
      return .sequence tag items.reverse

/-- The items of a sequence that stands no deeper than its key. -/
def unindentedItems (tag : Tag) (items : List Node) : Nat → Reading Node
  | 0 => fail "too many nodes"
  | fuel + 1 => do
    if ← accept .dash then
      let item ← if endsItem (← peek) then pure empty else node true false fuel
      unindentedItems tag (item :: items) fuel
    else return .sequence tag items.reverse

def blockEntries (tag : Tag) (entries : List (Node × Node)) : Nat → Reading Node
  | 0 => fail "too many nodes"
  | fuel + 1 => do
    if ← accept .key then
      let key ← if endsEntry (← peek) then pure empty else node true true fuel
      let value ←
        if ← accept .value then
          if endsEntry (← peek) then pure empty else node true true fuel
        else pure empty
      blockEntries tag ((key, value) :: entries) fuel
    else
      expect .blockEnd "an entry that is not part of the block mapping"
      return .ofEntries tag entries.reverse

/-- The items of a flow sequence, to its bracket.  An item may be a mapping of one
entry. -/
def flowItems (tag : Tag) (first : Bool) (items : List Node) : Nat → Reading Node
  | 0 => fail "too many nodes"
  | fuel + 1 => do
    if ← accept .closeSequence then return .sequence tag items.reverse
    if !first then expect .comma "a sequence that is not closed"
    if ← accept .key then
      let ends (token : Token) : Bool := token == .comma || token == .closeSequence
      let next ← peek
      let key ← if next == .value || ends next then pure empty else node false false fuel
      let value ←
        if ← accept .value then
          if ends (← peek) then pure empty else node false false fuel
        else pure empty
      flowItems tag false (.ofEntries .mapping [(key, value)] :: items) fuel
    else if ← accept .closeSequence then return .sequence tag items.reverse
    else
      let item ← node false false fuel
      flowItems tag false (item :: items) fuel

def flowEntries (tag : Tag) (first : Bool) (entries : List (Node × Node)) :
    Nat → Reading Node
  | 0 => fail "too many nodes"
  | fuel + 1 => do
    if ← accept .closeMapping then return .ofEntries tag entries.reverse
    if !first then expect .comma "a mapping that is not closed"
    let ends (token : Token) : Bool := token == .comma || token == .closeMapping
    if ← accept .key then
      let next ← peek
      let key ← if next == .value || ends next then pure empty else node false false fuel
      let value ←
        if ← accept .value then
          if ends (← peek) then pure empty else node false false fuel
        else pure empty
      flowEntries tag false ((key, value) :: entries) fuel
    else if ← accept .closeMapping then return .ofEntries tag entries.reverse
    else
      let key ← node false false fuel
      flowEntries tag false ((key, empty) :: entries) fuel

end

/-! ## Documents -/

def standardHandles : List (String × String) := [("!", "!"), ("!!", Tag.standard)]

/-- The directives in front of a document; `version` says whether one was given. -/
def directives (version : Bool) : Nat → Reading Unit
  | 0 => return
  | fuel + 1 => do
    match ← peek with
    | .yamlDirective major =>
      if version then fail "a version given twice"
      else if major != 1 then fail "a version that is not known"
      else
        skip
        directives true fuel
    | .tagDirective handle start =>
      if ((← get).handles.find? (·.1 = handle)).isSome then fail "a tag handle given twice"
      else
        skip
        modify fun r => { r with handles := (handle, start) :: r.handles }
        directives version fuel
    | .otherDirective =>
      skip
      directives version fuel
    | _ => return

def startsDocument : Token → Bool
  | .yamlDirective _ => true
  | .tagDirective .. => true
  | .otherDirective => true
  | .documentStart => true
  | _ => false

def endsDocument : Token → Bool
  | .documentEnd => true
  | .streamEnd => true
  | token => startsDocument token

def addStandardHandles : Reading Unit :=
  modify fun r => { r with handles := r.handles ++ standardHandles }

def skipDocumentEnds : Nat → Reading Unit
  | 0 => return
  | fuel + 1 => do
    if ← accept .documentEnd then skipDocumentEnds fuel

def document : Reading (Option Node) := do
  let count := (← get).tokens.length + 1
  let fuel := 4 * count + 16
  let next ← peek
  if next == .streamEnd then return none
  let root ←
    if startsDocument next then do
      directives false count
      addStandardHandles
      expect .documentStart "a document that does not start"
      if endsDocument (← peek) then pure empty else node true false fuel
    else do
      addStandardHandles
      node true false fuel
  skipDocumentEnds count
  if (← peek) == .streamEnd then return some root else fail "more than one document"

end Reading

/-- The root of a text, in which so many levels of nodes can be read. -/
def Node.ofText (levels : Nat) (text : List Char) : Except Fault (Option Node) :=
  match text.find? (!isAllowed ·) with
  | some c => .error (.malformed ("the character number " ++ toString c.toNat) 1)
  | none => (·.1) <$> Reading.document.run { tokens := tokens text, levels := levels }

end FluidChip.Yaml
