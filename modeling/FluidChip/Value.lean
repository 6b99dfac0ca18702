import FluidChip.Number.Layout
import FluidChip.Text.Quoted

/-!
# Values

Attributes and documents hold values whose kind is known only when they are
read.  `Value.shown` is the text of a value inside a report, `Value.plain` its
text where it is named as such.  Both are meant for values that `Value.limit?` lets
pass; what it stops is not printed.
-/

namespace FluidChip

open Number Text

/-- A calendar date, with a time of day and an offset from universal time where
they are given. -/
structure Moment where
  year : Nat
  month : Nat
  day : Nat
  /-- Hour, minute, second and microsecond. -/
  time : Option (Nat × Nat × Nat × Nat) := none
  /-- Minutes east of universal time. -/
  offset : Option Int := none
  deriving Repr, DecidableEq

inductive Value where
  | null
  | bool (b : Bool)
  | int (n : Int)
  | float (x : Float)
  | text (s : String)
  | bytes (bs : List UInt8)
  | moment (m : Moment)
  | list (items : List Value)
  | map (entries : List (Value × Value))
  | members (items : List Value)

namespace Value

instance : Inhabited Value := ⟨.null⟩

def kindName : Value → String
  | .null => "NoneType"
  | .bool _ => "bool"
  | .int _ => "int"
  | .float _ => "float"
  | .text _ => "str"
  | .bytes _ => "bytes"
  | .moment m => if m.time.isSome then "datetime" else "date"
  | .list _ => "list"
  | .map _ => "dict"
  | .members _ => "set"

/-! ## The text of a value -/

def boolText (b : Bool) : String := if b then "True" else "False"

def byteChars (mark : Char) (b : UInt8) : List Char :=
  let c := Char.ofNat b.toNat
  if c = mark ∨ c = '\\' then ['\\', c]
  else if c = '\n' then ['\\', 'n']
  else if c = '\t' then ['\\', 't']
  else if c = '\r' then ['\\', 'r']
  else if 32 ≤ b.toNat ∧ b.toNat < 127 then [c]
  else '\\' :: 'x' :: hexDigits 2 b.toNat

def bytesShown (bs : List UInt8) : String :=
  let mark := quoteMark (bs.map fun b => Char.ofNat b.toNat)
  .ofList ('b' :: mark :: bs.flatMap (byteChars mark) ++ [mark])

def pad2 (n : Nat) : String :=
  let digits := natDigits n
  .ofList (if digits.length < 2 then '0' :: digits else digits)

def padTo (width n : Nat) : String :=
  let digits := natDigits n
  .ofList (List.replicate (width - digits.length) '0' ++ digits)

def natText (n : Nat) : String := .ofList (natDigits n)

def offsetShown (minutes : Int) : String :=
  if minutes = 0 then "datetime.timezone.utc"
  else
    let seconds := (minutes.emod 1440) * 60
    let inner := if minutes < 0 then "days=-1, seconds=" ++ intText seconds
      else "seconds=" ++ intText seconds
    "datetime.timezone(datetime.timedelta(" ++ inner ++ "))"

def momentShown (m : Moment) : String :=
  let date := [natText m.year, natText m.month, natText m.day]
  match m.time with
  | none => "datetime.date(" ++ ", ".intercalate date ++ ")"
  | some (h, mi, s, us) =>
    let time := [natText h, natText mi] ++
      (if us ≠ 0 then [natText s, natText us] else if s ≠ 0 then [natText s] else [])
    let zone := match m.offset with
      | none => []
      | some minutes => ["tzinfo=" ++ offsetShown minutes]
    "datetime.datetime(" ++ ", ".intercalate (date ++ time ++ zone) ++ ")"

def momentPlain (m : Moment) : String :=
  let date := padTo 4 m.year ++ "-" ++ pad2 m.month ++ "-" ++ pad2 m.day
  match m.time with
  | none => date
  | some (h, mi, s, us) =>
    let fraction := if us = 0 then "" else "." ++ padTo 6 us
    let zone := match m.offset with
      | none => ""
      | some minutes => (if minutes < 0 then "-" else "+") ++ pad2 (minutes.natAbs / 60) ++
          ":" ++ pad2 (minutes.natAbs % 60)
    date ++ " " ++ pad2 h ++ ":" ++ pad2 mi ++ ":" ++ pad2 s ++ fraction ++ zone

mutual

def shown : Value → String
  | .null => "None"
  | .bool b => boolText b
  | .int n => intText n
  | .float x => floatText x
  | .text s => quoted s
  | .bytes bs => bytesShown bs
  | .moment m => momentShown m
  | .list items => bracketed (shownItems items)
  | .map entries => "\x7b" ++ ", ".intercalate (shownEntries entries) ++ "\x7d"
  | .members [] => "set()"
  | .members (item :: items) =>
    "\x7b" ++ ", ".intercalate (shown item :: shownItems items) ++ "\x7d"

def shownItems : List Value → List String
  | [] => []
  | item :: items => shown item :: shownItems items

def shownEntries : List (Value × Value) → List String
  | [] => []
  | (key, value) :: entries => (shown key ++ ": " ++ shown value) :: shownEntries entries

end

/-- The text of a value where it stands for itself: a text without its quotes. -/
def plain : Value → String
  | .text s => s
  | .moment m => momentPlain m
  | v => v.shown

/-! ## Values without a text -/

mutual

/-- What keeps a value from being printed, the first thing that is met: an integer
with too many digits, or a part nested deeper than the levels left below the value.
No number of levels is no bound. -/
def limit? (levels : Option Nat) : Value → Option Limit
  | .int n => intLimit? n
  | .list items => itemsLimit? levels items
  | .map entries => entriesLimit? levels entries
  | .members items => itemsLimit? levels items
  | _ => none

def itemsLimit? (levels : Option Nat) : List Value → Option Limit
  | [] => none
  | item :: items =>
    if levels = some 0 then some .nesting
    else (item.limit? (levels.map (· - 1))).or (itemsLimit? levels items)

def entriesLimit? (levels : Option Nat) : List (Value × Value) → Option Limit
  | [] => none
  | (key, value) :: entries =>
    if levels = some 0 then some .nesting
    else ((key.limit? (levels.map (· - 1))).or (value.limit? (levels.map (· - 1)))).or
      (entriesLimit? levels entries)

end

def shownCatalog (entries : List (String × Value)) : String :=
  "\x7b" ++ ", ".intercalate (entries.map fun e => quoted e.1 ++ ": " ++ e.2.shown) ++ "\x7d"

end Value

end FluidChip
