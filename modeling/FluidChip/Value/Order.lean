import FluidChip.Value

/-!
# Equality and order of values

Values serve as keys.  Numbers of all kinds compare by what they stand for; values
of different kinds have no order, nor have lists and mappings.
-/

namespace FluidChip

open Number

/-- Why something cannot be done with values: they are of kinds that do not go
together, or one of them has no text. -/
inductive Obstacle where
  | kinds
  | noText (limit : Limit)
  deriving Repr, DecidableEq

def Obstacle.kind : Obstacle → String
  | .kinds => "TypeError"
  | .noText limit => limit.kind

namespace Moment

/-- Days before a month of a year that begins in March. -/
def daysBefore (month : Nat) : Nat := (153 * month + 2) / 5

def dayNumber (m : Moment) : Int :=
  let shifted := (m.month + 9) % 12
  let year : Int := if m.month ≤ 2 then (m.year : Int) - 1 else m.year
  365 * year + year / 4 - year / 100 + year / 400 + daysBefore shifted + m.day

/-- Microseconds from a fixed instant on, in universal time where an offset is
given. -/
def instant (m : Moment) : Int :=
  match m.time with
  | none => m.dayNumber
  | some (h, mi, s, us) =>
    (((m.dayNumber * 24 + h) * 60 + mi - m.offset.getD 0) * 60 + s) * 1000000 + us

end Moment

namespace Value

inductive Order where
  | number
  | text
  | bytes
  | date
  | localTime
  | universalTime
  deriving DecidableEq, Repr

def order? : Value → Option Order
  | .bool _ => some .number
  | .int _ => some .number
  | .float _ => some .number
  | .text _ => some .text
  | .bytes _ => some .bytes
  | .moment m =>
    if m.time.isNone then some .date
    else if m.offset.isNone then some .localTime else some .universalTime
  | _ => none

def isKey : Value → Bool
  | .list _ => false
  | .map _ => false
  | .members _ => false
  | _ => true

/-! ## Numbers -/

/-- A number as a numerator over a power of two, or what else a double may be. -/
inductive Measured where
  | exact (numerator : Int) (halvings : Nat)
  | infinite (negative : Bool)
  | nan

def measured? : Value → Option Measured
  | .bool b => some (.exact (if b then 1 else 0) 0)
  | .int n => some (.exact n 0)
  | .float x =>
    match Reading.ofFloat x with
    | .nan => some .nan
    | .infinite negative => some (.infinite negative)
    | .finite negative mantissa exponent =>
      let magnitude : Int := mantissa
      let signed := if negative then -magnitude else magnitude
      if 0 ≤ exponent then some (.exact (signed * twoTo exponent.toNat) 0)
      else some (.exact signed (-exponent).toNat)
  | _ => none

/-- Equality of numbers.  What is no number equals nothing. -/
def Measured.same : Measured → Measured → Bool
  | .exact a m, .exact b n => a * twoTo n == b * twoTo m
  | .infinite a, .infinite b => a == b
  | _, _ => false

def Measured.less : Measured → Measured → Bool
  | .exact a m, .exact b n => a * twoTo n < b * twoTo m
  | .exact _ _, .infinite negative => !negative
  | .infinite negative, .exact _ _ => negative
  | .infinite a, .infinite b => a && !b
  | _, _ => false

/-! ## Keys -/

def sameKey (a b : Value) : Bool :=
  match a, b with
  | .null, .null => true
  | .text s, .text t => s == t
  | .bytes s, .bytes t => s == t
  | .moment m, .moment n => a.order? == b.order? && m.instant == n.instant
  | a, b =>
    match a.measured?, b.measured? with
    | some x, some y => x.same y
    | _, _ => false

def lessKey (a b : Value) : Bool :=
  match a, b with
  | .text s, .text t => s < t
  | .bytes s, .bytes t => s < t
  | .moment m, .moment n => m.instant < n.instant
  | a, b =>
    match a.measured?, b.measured? with
    | some x, some y => x.less y
    | _, _ => false

/-- Sets the value under a key; a key that is there keeps its place and its
form. -/
def setKey (key value : Value) : List (Value × Value) → List (Value × Value)
  | [] => [(key, value)]
  | entry :: rest =>
    if entry.1.sameKey key then (entry.1, value) :: rest else entry :: setKey key value rest

def ofWritten (entries : List (Value × Value)) : List (Value × Value) :=
  entries.foldl (fun made entry => setKey entry.1 entry.2 made) []

def get? (entries : List (Value × Value)) (name : String) : Option Value :=
  (entries.find? fun entry => entry.1.sameKey (.text name)).map (·.2)

def sortKeys? {α : Type} (key : α → Value) (items : List α) : Option (List α) :=
  match items with
  | [] => some []
  | [item] => some [item]
  | first :: rest =>
    match (key first).order? with
    | none => none
    | some s =>
      if rest.all fun item => (key item).order? == some s then
        some (items.mergeSort fun a b => !(key b).lessKey (key a))
      else none

end Value

end FluidChip
