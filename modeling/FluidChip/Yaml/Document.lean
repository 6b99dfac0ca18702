import FluidChip.Number.Read
import FluidChip.Value.Order
import FluidChip.Yaml.Node

/-!
# Documents

The value of a document.  Collections are filled level by level, so of several
faults the one nearest to the root is reported, and among those the first.
-/

namespace FluidChip.Yaml

open Number Text

/-! ## Numbers -/

def digitTo? (base : Nat) (c : Char) : Option Nat :=
  match digitValue? c with
  | some d => if d < base then some d else none
  | none => (hexValue? c).bind fun d => if d < base then some d else none

/-- An integer to a base: blanks around it, a sign and the mark of its base are
let through. -/
def integer? (base : Nat) (mark : List Char) (s : List Char) : Option Int := do
  let (negative, body) := takeSign (trim s)
  let body := if mark.isPrefixOf (body.map lower) && !mark.isEmpty then body.drop mark.length
    else body
  if body.isEmpty then none
  else
    let digits ← body.mapM (digitTo? base)
    let magnitude : Int := (digits.foldl (fun n d => base * n + d) 0 : Nat)
    some (if negative then -magnitude else magnitude)

def decimal? (s : List Char) : Option Int :=
  if longestInteger < (s.filter fun c => (digitValue? c).isSome).length then none
  else integer? 10 [] s

def sixtieths (parts : List Int) : Int := parts.foldl (fun n d => 60 * n + d) 0

def bodyOf (s : List Char) : Bool × List Char := takeSign (s.filter (· != '_'))

def intOf (text : String) : Except Fault Int :=
  let (negative, body) := bodyOf text.toList
  let read : Option Int :=
    match body with
    | ['0'] => some 0
    | '0' :: 'b' :: rest => integer? 2 ['0', 'b'] rest
    | '0' :: 'x' :: rest => integer? 16 ['0', 'x'] rest
    | '0' :: _ => integer? 8 ['0', 'o'] body
    | _ =>
      if body.contains ':' then ((colonParts body).mapM decimal?).map sixtieths
      else decimal? body
  if (text.toList.filter (· != '_')).isEmpty then .error .emptyNumber
  else if body.isEmpty then .error .emptyNumber
  else match read with
    | some n => .ok (if negative then -n else n)
    | none => .error (.noNumber text)

/-- Doubles as places to the base sixty, added up from the last place on. -/
def sumSixtieths (parts : List Float) : Float :=
  (parts.reverse.foldl (fun (acc : Float × Nat) x =>
    (acc.1 + x * ofInt (Nat.pow 60 acc.2), acc.2 + 1)) (0.0, 0)).1

def floatOf (text : String) : Except Fault Float :=
  let (negative, body) := bodyOf (text.toList.map lower)
  let signed (x : Float) : Float := if negative then -x else x
  if body.isEmpty then .error .emptyNumber
  else if body == ".inf".toList then .ok (signed (1.0 / 0.0))
  else if body == ".nan".toList then .ok (0.0 / 0.0)
  else if body.contains ':' then
    match (colonParts body).mapM fun part => readFloat? (.ofList part) with
    | some parts => .ok (signed (sumSixtieths parts))
    | none => .error (.noNumber text)
  else match readFloat? (.ofList body) with
    | some x => .ok (signed x)
    | none => .error (.noNumber text)

/-! ## Other scalars -/

def truthOf (text : String) : Except Fault Bool :=
  let word := String.ofList (text.toList.map lower)
  if truths.contains word then .ok true
  else if untruths.contains word then .ok false
  else .error (.noTruthValue text)

def isLeapYear (year : Nat) : Bool := year % 4 == 0 && (year % 100 != 0 || year % 400 == 0)

def daysIn (year month : Nat) : Nat :=
  if month == 2 then if isLeapYear year then 29 else 28
  else if month == 4 || month == 6 || month == 9 || month == 11 then 30 else 31

def microseconds (digits : List Char) : Nat :=
  digitsValue ((digits ++ List.replicate 6 '0').take 6)

def momentOf (text : String) : Except Fault Moment :=
  match momentText? text.toList with
  | none => .error (.noMoment text)
  | some m =>
    let month := digitsValue m.month
    let day := digitsValue m.day
    let dayFits := 1 ≤ m.year && 1 ≤ month && month ≤ 12 && 1 ≤ day &&
      day ≤ daysIn m.year month
    match m.time with
    | none =>
      if dayFits then .ok { year := m.year, month, day } else .error (.outsideCalendar text)
    | some (hour, minute, second, fraction) =>
      let offsetFits := match m.offset with
        | none => true
        | some minutes => minutes.natAbs < 1440
      if dayFits && hour < 24 && minute < 60 && second < 60 && offsetFits then
        .ok { year := m.year, month, day, time := some (hour, minute, second,
                microseconds fraction), offset := m.offset }
      else .error (.outsideCalendar text)

def sixBits? (c : Char) : Option Nat :=
  if 'A' ≤ c && c ≤ 'Z' then some (c.toNat - 65)
  else if 'a' ≤ c && c ≤ 'z' then some (c.toNat - 71)
  else if isDigit c then some (c.toNat + 4)
  else if c == '+' then some 62
  else if c == '/' then some 63
  else none

/-- Decodes letters of six bits each: how many of a group of four were read, the
bits left over, and the padding seen.  Other characters are skipped. -/
def decodeSixBits (place left pads : Nat) : List Char → Option (List UInt8)
  | [] => if place = 0 then some [] else none
  | c :: rest =>
    if c == '=' then
      if 2 ≤ place then
        if 4 ≤ place + (pads + 1) then some [] else decodeSixBits place left (pads + 1) rest
      else decodeSixBits place left pads rest
    else match sixBits? c with
      | none => decodeSixBits place left pads rest
      | some bits =>
        if place = 0 then decodeSixBits 1 bits 0 rest
        else if place = 1 then
          (decodeSixBits 2 (bits % 16) 0 rest).map (UInt8.ofNat (left * 4 + bits / 16) :: ·)
        else if place = 2 then
          (decodeSixBits 3 (bits % 4) 0 rest).map (UInt8.ofNat (left * 16 + bits / 4) :: ·)
        else (decodeSixBits 0 0 0 rest).map (UInt8.ofNat (left * 64 + bits) :: ·)

def bytesOf (text : String) : Except Fault (List UInt8) :=
  if text.toList.any fun c => 127 < c.toNat then
    .error (.malformed "encoded bytes that are no plain text" 1)
  else match decodeSixBits 0 0 0 text.toList with
    | some bytes => .ok bytes
    | none => .error (.malformed "encoded bytes that are cut off" 1)

def scalarOf (tag : Tag) (text : String) : Except Fault Value :=
  match tag with
  | .null => .ok .null
  | .truth => .bool <$> truthOf text
  | .int => .int <$> intOf text
  | .float => .float <$> floatOf text
  | .binary => .bytes <$> bytesOf text
  | .moment => .moment <$> momentOf text
  | .text => .ok (.text text)
  | _ => .error (.malformed "a tag that does not fit its scalar" 1)

/-! ## Collections -/

/-- A value with the faults met while it was built, each with its level. -/
structure Built (α : Type) where
  value : α
  faults : List (Nat × Fault) := []

namespace Built

variable {α β : Type}

def fail (value : α) (level : Nat) (problem : String) : Built α :=
  ⟨value, [(level, .malformed problem 1)]⟩

def firstFault? : List (Nat × Fault) → Option (Nat × Fault)
  | [] => none
  | fault :: rest =>
    match firstFault? rest with
    | none => some fault
    | some later => if later.1 < fault.1 then some later else some fault

def result (b : Built α) : Except Fault α :=
  match firstFault? b.faults with
  | none => .ok b.value
  | some (_, fault) => .error fault

end Built

/-- Whether a tag belongs to collections, which are filled one level later. -/
def Tag.isCollection : Tag → Bool
  | .sequence => true
  | .mapping => true
  | .members => true
  | .orderedMap => true
  | .pairs => true
  | _ => false

mutual

def build (level : Nat) : Node → Built Value
  | .scalar tag text =>
    if tag.isCollection then .fail .null (level + 1) "a scalar tagged as a collection"
    else match scalarOf tag text with
      | .ok v => ⟨v, []⟩
      | .error fault => ⟨.null, [(level, fault)]⟩
  | .sequence tag items =>
    if tag = .sequence then
      let made := buildItems (level + 1) items
      ⟨.list made.value, made.faults⟩
    else if tag = .orderedMap ∨ tag = .pairs then
      let made := buildPairs (level + 1) items
      ⟨.list made.value, made.faults⟩
    else .fail .null (if tag.isCollection then level + 1 else level)
      "a sequence with a tag that does not fit"
  | .mapping tag entries fault =>
    if tag = .mapping ∨ tag = .members then
      match fault with
      | some fault => ⟨.null, [(level + 1, fault)]⟩
      | none =>
        let made := buildEntries (level + 1) entries
        let written := Value.ofWritten made.value
        ⟨if tag = .mapping then .map written else .members (written.map (·.1)), made.faults⟩
    else .fail .null (if tag.isCollection then level + 1 else level)
      "a mapping with a tag that does not fit"

def buildItems (level : Nat) : List Node → Built (List Value)
  | [] => ⟨[], []⟩
  | item :: rest =>
    let first := build level item
    let others := buildItems level rest
    ⟨first.value :: others.value, first.faults ++ others.faults⟩

def buildEntries (level : Nat) : List (Node × Node) → Built (List (Value × Value))
  | [] => ⟨[], []⟩
  | (key, value) :: rest =>
    let k := build level key
    let unfit : List (Nat × Fault) :=
      if k.value.isKey then [] else [(level, .malformed "a key that is a collection" 1)]
    let v := build level value
    let others := buildEntries level rest
    ⟨(k.value, v.value) :: others.value, k.faults ++ unfit ++ v.faults ++ others.faults⟩

/-- Pairs written as mappings of one entry each. -/
def buildPairs (level : Nat) : List Node → Built (List Value)
  | [] => ⟨[], []⟩
  | .mapping _ [(key, value)] _ :: rest =>
    let k := build level key
    let v := build level value
    let others := buildPairs level rest
    ⟨.list [k.value, v.value] :: others.value, k.faults ++ v.faults ++ others.faults⟩
  | _ :: rest =>
    let others := buildPairs level rest
    ⟨others.value, (level, .malformed "an item that is not a single pair" 1) :: others.faults⟩

end

/-! ## Texts -/

def normalBreaks : List Char → List Char
  | [] => []
  | '\r' :: '\n' :: rest => '\n' :: normalBreaks rest
  | c :: rest => (if c == '\r' then '\n' else c) :: normalBreaks rest

def documentOf (levels : Nat) (text : List Char) : Except Fault Value := do
  match ← Node.ofText levels (normalBreaks text) with
  | none => .ok .null
  | some root => (build 0 root).result

end FluidChip.Yaml
