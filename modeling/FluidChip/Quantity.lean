import FluidChip.Quantity.Unit
import FluidChip.Value

/-!
# Reading quantities

A value is read as a number in a given measure.  A bare number, and what comes to a
mere number, is taken to be in that measure already; anything else is converted.

What a value is as a quantity is left to a library of units, which a reader asks for
no more than it needs: whether a quantity is a mere number, which number it shows,
and which number it is in a measure.  `Registry.parsed` says how a library answers
that keeps a magnitude and a product of units, and looks the units up in a registry.
-/

namespace FluidChip.Quantity

open Number

/-! ## Faults -/

/-- A fault that a library raises: its class, its text, and whether its class is among
those that a reader explains. -/
structure Foreign where
  kind : String
  message : String
  limit? : Option Limit := none
  handled : Bool

inductive Fault where
  | empty
  | undefined (name : String)
  | dimensions (source sourceDimension target targetDimension : Powers)
  | unclosed
  | malformed
  | arithmetic (fault : ArithmeticFault)
  | truth (shown : String)
  | notNumber (kind : String)
  | foreign (fault : Foreign)

namespace Fault

def kind : Fault → String
  | .empty => "ValueError"
  | .undefined _ => "UndefinedUnitError"
  | .dimensions .. => "DimensionalityError"
  | .unclosed => "TokenError"
  | .malformed => "DefinitionSyntaxError"
  | .arithmetic fault => fault.kind
  | .truth _ => "TypeError"
  | .notNumber _ => "TypeError"
  | .foreign fault => fault.kind

def message : Fault → String
  | .empty => "the text of a quantity is empty"
  | .undefined name => "'" ++ name ++ "' is not defined in the unit registry"
  | .dimensions source sourceDimension target targetDimension =>
    "Cannot convert from '" ++ source.text ++ "' (" ++ sourceDimension.text ++ ") to '" ++
      target.text ++ "' (" ++ targetDimension.text ++ ")"
  | .unclosed => "('EOF in multi-line statement', (2, 0))"
  | .malformed => "the text is not an expression"
  | .arithmetic fault => fault.message
  | .truth shown => "Boolean value '" ++ shown ++ "' is not a physical quantity."
  | .notNumber kind => "a value of kind " ++ kind ++ " is not a quantity"
  | .foreign fault => fault.message

/-- What keeps the text of a fault from being printed. -/
def limit? : Fault → Option Limit
  | .dimensions source sourceDimension target targetDimension =>
    ((source.limit?.or sourceDimension.limit?).or target.limit?).or targetDimension.limit?
  | .foreign fault => fault.limit?
  | _ => none

/-- Whether a fault is of no class that a reader explains, and passes every reader. -/
def escapes : Fault → Bool
  | .unclosed => true
  | .arithmetic _ => true
  | .foreign fault => !fault.handled
  | _ => false

end Fault

def liftArithmetic {α : Type} (r : Except ArithmeticFault α) : Except Fault α :=
  r.mapError .arithmetic

/-! ## Libraries of units -/

/-- A quantity, by what a reader asks it. -/
structure Parsed where
  unitless : Except Fault Bool
  magnitude : Except Fault Float
  converted : Measure → Except Fault Float

/-- A mere number, shown as it is. -/
structure Parsed.IsBare (q : Parsed) (m : Magnitude) : Prop where
  unitless : q.unitless = .ok true
  magnitude : q.magnitude = liftArithmetic m.toFloat

/-- What a library makes of values.  A bare number is a quantity without units. -/
structure UnitLibrary where
  parse : Value → Except Fault Parsed
  int : ∀ n, ∃ q, parse (.int n) = .ok q ∧ q.IsBare (.int n)
  float : ∀ x, ∃ q, parse (.float x) = .ok q ∧ q.IsBare (.float x)

/-- A value as a number in a measure. -/
def UnitLibrary.toMagnitude (units : UnitLibrary) (v : Value) (m : Measure) :
    Except Fault Float :=
  match v with
  | .bool b => .error (.truth (Value.boolText b))
  | v => do
    let q ← units.parse v
    if ← q.unitless then q.magnitude else q.converted m

/-! ## Amounts -/

structure Amount where
  magnitude : Magnitude
  units : Powers := []
  deriving DecidableEq

namespace Registry

variable (R : Registry)

def mismatch (source target : Powers) : Fault :=
  .dimensions source (R.dimension source) target (R.dimension target)

/-- The magnitude of an amount in units of the same dimension. -/
def rescaled (a : Amount) (target : Powers) : Except ArithmeticFault Magnitude :=
  if a.units.same target then .ok a.magnitude
  else do a.magnitude.mul (← R.factor a.units target)

def magnitudeIn (a : Amount) (target : Powers) : Except Fault Magnitude :=
  if a.units.same target || (R.dimension a.units).same (R.dimension target) then
    liftArithmetic (R.rescaled a target)
  else .error (R.mismatch a.units target)

/-- An amount as a quantity.  It is put into base units to see whether it has any. -/
def parsed (a : Amount) : Parsed where
  unitless := do
    let _ ← liftArithmetic (R.rescaled a (R.rootUnits a.units))
    return R.isNumber a.units
  magnitude := liftArithmetic a.magnitude.toFloat
  converted m := do
    let x ← R.magnitudeIn a m.units
    liftArithmetic x.toFloat

end Registry

end FluidChip.Quantity
