/-!
# Binary floating point as exact numbers

A finite double is an integer mantissa times a power of two.  `Reading.ofFloat`
takes a double apart, `roundRatio` puts the nearest double to a quotient of
naturals together, ties going to the even mantissa.
-/

namespace FluidChip.Number

def twoTo (n : Nat) : Nat := Nat.pow 2 n

def tenTo (n : Nat) : Nat := Nat.pow 10 n

inductive Reading where
  | nan
  | infinite (negative : Bool)
  | finite (negative : Bool) (mantissa : Nat) (exponent : Int)
  deriving Repr, DecidableEq

def Reading.ofBits (bits : Nat) : Reading :=
  let negative := bits / twoTo 63 == 1
  let biased : Nat := bits / twoTo 52 % twoTo 11
  let fraction := bits % twoTo 52
  if biased = twoTo 11 - 1 then
    if fraction = 0 then .infinite negative else .nan
  else if biased = 0 then .finite negative fraction (-1074)
  else .finite negative (twoTo 52 + fraction) ((biased : Int) - 1075)

def Reading.ofFloat (x : Float) : Reading := .ofBits x.toBits.toNat

def isFinite (x : Float) : Bool := x.toBits.toNat / twoTo 52 % twoTo 11 != twoTo 11 - 1

/-! ## Rounding a quotient -/

/-- The quotient of two naturals, a half going to the even neighbour. -/
def roundDiv (numerator denominator : Nat) : Nat :=
  let quotient := numerator / denominator
  let twice := 2 * (numerator % denominator)
  if twice < denominator then quotient
  else if denominator < twice then quotient + 1
  else quotient + quotient % 2

/-- The binary exponent of the last place of the double nearest to the
quotient: 53 bits are kept, and never a place below `2 ^ (-1074)`. -/
def lastPlace (numerator denominator : Nat) : Int :=
  let guess : Int := (numerator.log2 : Int) - denominator.log2 - 52
  let scaled := if 0 ≤ guess then numerator / (denominator * twoTo guess.toNat)
    else numerator * twoTo (-guess).toNat / denominator
  max (-1074) (if scaled < twoTo 52 then guess - 1 else guess)

def infiniteBits : Nat := (twoTo 11 - 1) * twoTo 52

/-- The bits of the double nearest to a quotient of naturals; all ones in the
exponent where it lies beyond the largest double. -/
def roundBits (numerator denominator : Nat) : Nat :=
  if numerator = 0 then 0 else
  let place := lastPlace numerator denominator
  let mantissa := if 0 ≤ place then roundDiv numerator (denominator * twoTo place.toNat)
    else roundDiv (numerator * twoTo (-place).toNat) denominator
  min infiniteBits ((place + 1074).toNat * twoTo 52 + mantissa)

def roundRatio (negative : Bool) (numerator denominator : Nat) : Float :=
  .ofBits (.ofNat ((if negative then twoTo 63 else 0) + roundBits numerator denominator))

def ofInt (n : Int) : Float := roundRatio (n < 0) n.natAbs 1

def ofQuotient (numerator denominator : Int) : Float :=
  roundRatio ((numerator < 0) != (denominator < 0)) numerator.natAbs denominator.natAbs

def ofDecimal (negative : Bool) (digits : Nat) (exponent : Int) : Float :=
  if 0 ≤ exponent then roundRatio negative (digits * tenTo exponent.toNat) 1
  else roundRatio negative digits (tenTo (-exponent).toNat)

end FluidChip.Number
