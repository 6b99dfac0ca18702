import FluidChip.Number.Binary
import FluidChip.Text.Character

/-!
# Reading a double

Blanks around the number are dropped; single underscores may stand between
digits; `inf`, `infinity` and `nan` are read in any case.
-/

namespace FluidChip.Number

open Text

/-! ## Runs of digits -/

structure Digits where
  value : Nat
  count : Nat
  rest : List Char

/-- Reads digits, and single underscores between them, after a run so far. -/
def digitsAfter (value count : Nat) : List Char → Digits
  | [] => ⟨value, count, []⟩
  | '_' :: c :: rest =>
    match digitValue? c with
    | some d => if count = 0 then ⟨value, count, '_' :: c :: rest⟩
      else digitsAfter (10 * value + d) (count + 1) rest
    | none => ⟨value, count, '_' :: c :: rest⟩
  | c :: rest =>
    match digitValue? c with
    | some d => digitsAfter (10 * value + d) (count + 1) rest
    | none => ⟨value, count, c :: rest⟩

def takeSign : List Char → Bool × List Char
  | '-' :: rest => (true, rest)
  | '+' :: rest => (false, rest)
  | rest => (false, rest)

/-! ## Numbers -/

def readExponent? : List Char → Option Int
  | [] => some 0
  | e :: rest =>
    if lower e ≠ 'e' then none else
    let (negative, rest) := takeSign rest
    let digits := digitsAfter 0 0 rest
    if digits.count = 0 ∨ digits.rest ≠ [] then none
    else some (if negative then -(digits.value : Int) else digits.value)

/-- The digits of a mantissa as one natural, how many of them follow the point,
and the text after the mantissa. -/
def readMantissa? (s : List Char) : Option (Nat × Nat × List Char) :=
  let whole := digitsAfter 0 0 s
  match whole.rest with
  | '.' :: rest =>
    let part := digitsAfter 0 0 rest
    if whole.count + part.count = 0 then none
    else some (whole.value * tenTo part.count + part.value, part.count, part.rest)
  | rest => if whole.count = 0 then none else some (whole.value, 0, rest)

/-- The double nearest to a decimal.  An exponent far out of reach is cut off
before the power of ten is formed. -/
def ofReadDecimal (negative : Bool) (digits places : Nat) (exponent : Int) : Float :=
  let size : Int := (digits.log2 : Int) / 3 + 1
  if digits = 0 then ofDecimal negative 0 0
  else if 400 < exponent - places then .ofBits (.ofNat
    ((if negative then twoTo 63 else 0) + infiniteBits))
  else if exponent - places + size < -400 then ofDecimal negative 0 0
  else ofDecimal negative digits (exponent - places)

def readFloat? (s : String) : Option Float :=
  let (negative, body) := takeSign (trim s.toList)
  let name := String.ofList (body.map lower)
  if name = "inf" ∨ name = "infinity" then
    some (if negative then -(1.0 / 0.0) else 1.0 / 0.0)
  else if name = "nan" then some (0.0 / 0.0)
  else do
    let (digits, places, rest) ← readMantissa? body
    let exponent ← readExponent? rest
    some (ofReadDecimal negative digits places exponent)

end FluidChip.Number
