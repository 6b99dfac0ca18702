import FluidChip.Number.Binary

/-!
# The fewest digits that read back

Among the decimals that round to a given double, `shortest` picks one with the
fewest digits, and of those the nearest.
-/

namespace FluidChip.Number

structure Decimal where
  digits : Nat
  exponent : Int
  deriving Repr, DecidableEq

/-! ## The decimals of a grid -/

def quotientOf (mantissa : Nat) (exponent : Int) : Nat × Nat :=
  if 0 ≤ exponent then (mantissa * twoTo exponent.toNat, 1)
  else (mantissa, twoTo (-exponent).toNat)

def inPlaces (value : Nat × Nat) (place : Int) : Nat × Nat :=
  if 0 ≤ place then (value.1, value.2 * tenTo place.toNat)
  else (value.1 * tenTo (-place).toNat, value.2)

/-- The number of decimal digits before the point: least `k` with the value
below `10 ^ k`, where `k` may be negative. -/
def pointPlace (value : Nat × Nat) : Int :=
  let guess : Int := ((value.1.log2 : Int) - value.2.log2) * 30103 / 100000
  let below (k : Int) : Bool := let scaled := inPlaces value k; scaled.1 < scaled.2
  if below (guess - 1) then guess - 1
  else if below guess then guess
  else if below (guess + 1) then guess + 1
  else guess + 2

/-- Whether `n` units of the grid round to the double: half the gap to the
neighbour below or above, the ends included for an even mantissa. -/
def roundsBack (mantissa : Nat) (least : Bool) (gap scaled : Nat × Nat) (n : Nat) : Bool :=
  -- all distances in units of `1 / (scaled.2 * gap.2)`
  let here := n * scaled.2 * gap.2
  let value := scaled.1 * gap.2
  let room := gap.1 * scaled.2
  let below := mantissa = twoTo 52 ∧ ¬ least
  let low := if below then 4 * (value - here) else 2 * (value - here)
  if here ≤ value then
    if mantissa % 2 = 0 then low ≤ room else low < room
  else if mantissa % 2 = 0 then 2 * (here - value) ≤ room else 2 * (here - value) < room

/-- The nearer of the two grid neighbours of a quotient that round back. -/
def nearest? (back : Nat → Bool) (scaled : Nat × Nat) : Option Nat :=
  let low := scaled.1 / scaled.2
  let twice := 2 * (scaled.1 % scaled.2)
  let up := scaled.2 < twice ∨ twice = scaled.2 ∧ low % 2 = 1
  let (first, second) := if up then (low + 1, low) else (low, low + 1)
  if back first then some first else if back second then some second else none

def Decimal.trim : Nat → Decimal → Decimal
  | 0, d => d
  | fuel + 1, d =>
    if d.digits ≠ 0 ∧ d.digits % 10 = 0 then
      Decimal.trim fuel ⟨d.digits / 10, d.exponent + 1⟩
    else d

/-- Tries grids of one digit more each time; seventeen digits always suffice. -/
def shortestFrom (mantissa : Nat) (exponent : Int) (point : Int) : Nat → Nat → Decimal
  | 0, count =>
    let place := point - count
    let scaled := inPlaces (quotientOf mantissa exponent) place
    ⟨roundDiv scaled.1 scaled.2, place⟩
  | fuel + 1, count =>
    let place := point - count
    let scaled := inPlaces (quotientOf mantissa exponent) place
    let gap := inPlaces (quotientOf 1 exponent) place
    match nearest? (roundsBack mantissa (exponent == -1074) gap scaled) scaled with
    | some n => ⟨n, place⟩
    | none => shortestFrom mantissa exponent point fuel (count + 1)

/-- The shortest decimal that rounds to `mantissa · 2 ^ exponent`. -/
def shortest (mantissa : Nat) (exponent : Int) : Decimal :=
  if mantissa = 0 then ⟨0, 0⟩ else
  (shortestFrom mantissa exponent (pointPlace (quotientOf mantissa exponent)) 16 1).trim 20

end FluidChip.Number
