import FluidChip.Number.Layout
import FluidChip.Number.Power

/-!
# Magnitudes

A number written without a point is an exact integer and stays one under sums,
products and powers; division, and any double among the operands, makes a double.
-/

namespace FluidChip.Quantity

open Number

inductive Magnitude where
  | int (n : Int)
  | float (x : Float)
  deriving DecidableEq

inductive ArithmeticFault where
  | tooLarge
  | overflow
  | divisionByZero
  | integerDivisionByZero
  | zeroPower
  deriving Repr, DecidableEq

namespace ArithmeticFault

def message : ArithmeticFault → String
  | .tooLarge => "int too large to convert to float"
  | .overflow => "(34, 'Numerical result out of range')"
  | .divisionByZero => "float division by zero"
  | .integerDivisionByZero => "division by zero"
  | .zeroPower => "0.0 cannot be raised to a negative power"

def kind : ArithmeticFault → String
  | .tooLarge => "OverflowError"
  | .overflow => "OverflowError"
  | .divisionByZero => "ZeroDivisionError"
  | .integerDivisionByZero => "ZeroDivisionError"
  | .zeroPower => "ZeroDivisionError"

end ArithmeticFault

namespace Magnitude

def text : Magnitude → String
  | .int n => intText n
  | .float x => floatText x

/-- The double nearest to a magnitude; an integer beyond all doubles has none. -/
def toFloat : Magnitude → Except ArithmeticFault Float
  | .float x => .ok x
  | .int n =>
    let x := ofInt n
    if isFinite x then .ok x else .error .tooLarge

def neg : Magnitude → Magnitude
  | .int n => .int (-n)
  | .float x => .float (-x)

/-- An operation exact on integers, and otherwise one on the nearest doubles. -/
def combine (exact : Int → Int → Int) (rounded : Float → Float → Float) :
    Magnitude → Magnitude → Except ArithmeticFault Magnitude
  | .int m, .int n => .ok (.int (exact m n))
  | a, b => do
    let x ← a.toFloat
    let y ← b.toFloat
    .ok (.float (rounded x y))

def add : Magnitude → Magnitude → Except ArithmeticFault Magnitude :=
  combine (· + ·) (· + ·)

def sub : Magnitude → Magnitude → Except ArithmeticFault Magnitude :=
  combine (· - ·) (· - ·)

def mul : Magnitude → Magnitude → Except ArithmeticFault Magnitude :=
  combine (· * ·) (· * ·)

def div : Magnitude → Magnitude → Except ArithmeticFault Magnitude
  | .int m, .int n =>
    if n = 0 then .error .integerDivisionByZero
    else
      let x := ofQuotient m n
      if isFinite x then .ok (.float x) else .error .tooLarge
  | a, b => do
    let x ← a.toFloat
    let y ← b.toFloat
    if y == 0.0 then .error .divisionByZero else .ok (.float (x / y))

/-- A power of an integer; those of zero and the units are told at once, however large
the exponent. -/
def intPower (m : Int) (n : Nat) : Int :=
  if m = 1 then 1
  else if m = -1 then (if n % 2 = 0 then 1 else -1)
  else if m = 0 then (if n = 0 then 1 else 0)
  else if m < 0 ∧ n % 2 = 1 then -(Nat.pow m.natAbs n : Int)
  else (Nat.pow m.natAbs n : Int)

/-- A power of a double.  The exponent is taken as a double too. -/
def floatPower (x : Float) (n : Int) : Except ArithmeticFault Float :=
  if !isFinite (ofInt n) then .error .tooLarge
  else if n < 0 ∧ x == 0.0 then .error .zeroPower
  else if x == 1.0 then .ok 1.0
  else
    let y := powerInt x n
    if isFinite x && !isFinite y then .error .overflow else .ok y

/-- A power with an integer exponent: exact for an integer and an exponent that
is not negative. -/
def pow (a : Magnitude) (n : Int) : Except ArithmeticFault Magnitude :=
  match a with
  | .int m =>
    if 0 ≤ n then .ok (.int (intPower m n.toNat))
    else do
      let x ← a.toFloat
      return .float (← floatPower x n)
  | .float x => return .float (← floatPower x n)

end Magnitude

end FluidChip.Quantity
