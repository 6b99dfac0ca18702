import FluidChip.Number.Binary

/-!
# Powers and the cosine of doubles

Each is the double nearest to the exact value.  A power that leaves the range of
doubles is an error, not an infinity.  Other libraries may be one unit in the last
place off, as for the square of 6e-05 or the cosine of 0.473, so no proof about a rule
rests on these definitions: what a rule needs of powers is asked of its host.
-/

namespace FluidChip.Number

/-! ## Powers -/

def power (x : Float) (n : Nat) : Float :=
  match Reading.ofFloat x with
  | .nan => if n = 0 then 1.0 else x
  | .infinite negative =>
    if n = 0 then 1.0 else if negative && n % 2 == 0 then -x else x
  | .finite negative mantissa exponent =>
    let sign := negative && n % 2 == 1
    if 0 ≤ exponent then roundRatio sign (Nat.pow mantissa n * twoTo (exponent.toNat * n)) 1
    else roundRatio sign (Nat.pow mantissa n) (twoTo ((-exponent).toNat * n))

def power? (x : Float) (n : Nat) : Option Float :=
  let y := power x n
  if y.isInf && !x.isInf then none else some y

def powerInt (x : Float) (n : Int) : Float :=
  if 0 ≤ n then power x n.toNat else
  match Reading.ofFloat x with
  | .finite negative mantissa exponent =>
    let k := n.natAbs
    let sign := negative && k % 2 == 1
    if mantissa = 0 then 1.0 / power x k
    else if 0 ≤ exponent then roundRatio sign 1 (Nat.pow mantissa k * twoTo (exponent.toNat * k))
    else roundRatio sign (twoTo ((-exponent).toNat * k)) (Nat.pow mantissa k)
  | _ => 1.0 / power x n.natAbs

/-! ## The cosine -/

def cosinePlaces : Nat := 256

/-- The terms of the cosine series in fixed point, from the `k`-th on, given the
square of the angle and the term before. -/
def cosineSeries (square : Nat) : Nat → Nat → Nat → Int
  | 0, _, _ => 0
  | fuel + 1, k, term =>
    let next := term * square / twoTo cosinePlaces / ((2 * k + 1) * (2 * k + 2))
    if next = 0 then term else (term : Int) - cosineSeries square fuel (k + 1) next

/-- The cosine of an angle between zero and four, summed in fixed point. -/
def cosine (x : Float) : Float :=
  match Reading.ofFloat x with
  | .finite _ mantissa exponent =>
    let angle := if 0 ≤ exponent then mantissa * twoTo exponent.toNat * twoTo cosinePlaces
      else mantissa * twoTo cosinePlaces / twoTo (-exponent).toNat
    let total := cosineSeries (angle * angle / twoTo cosinePlaces) 100 0 (twoTo cosinePlaces)
    roundRatio (total < 0) total.natAbs (twoTo cosinePlaces)
  | _ => 0.0 / 0.0

end FluidChip.Number
