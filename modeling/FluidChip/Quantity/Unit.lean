import FluidChip.Quantity.Magnitude

/-!
# Units

A unit is a base unit or a multiple of a product of other units.  A registry says
which it is; reducing a product by a registry gives the scales it multiplies, its
base units and its dimension, and so decides whether one product can be expressed in
another.
-/

namespace FluidChip.Quantity

open Number

/-! ## Products of powers -/

/-- A product of powers, in the order in which its members came. -/
abbrev Powers := List (String × Rat)

namespace Powers

/-- Multiplies a product by one power; a member of exponent zero goes. -/
def times (name : String) (exponent : Rat) : Powers → Powers
  | [] => if exponent = 0 then [] else [(name, exponent)]
  | (other, e) :: rest =>
    if other = name then
      if e + exponent = 0 then rest else (other, e + exponent) :: rest
    else (other, e) :: times name exponent rest

def mul (a b : Powers) : Powers :=
  b.foldl (fun product (name, exponent) => product.times name exponent) a

def raise (a : Powers) (n : Rat) : Powers :=
  if n = 0 then [] else a.map fun (name, exponent) => (name, exponent * n)

def inverse (a : Powers) : Powers := a.raise (-1)

def same (a b : Powers) : Bool :=
  a.length == b.length && a.all fun power => b.contains power

/-! ### The text of a product -/

def exponentText (e : Rat) : String :=
  if e.den = 1 then intText e.num else floatText (ofQuotient e.num e.den)

def powerText (name : String) (exponent : Rat) : String :=
  if exponent = 1 then name else name ++ " ** " ++ exponentText exponent

/-- The members with positive exponents, then each other one after a slash. -/
def text (a : Powers) : String :=
  let above := a.filter (0 < ·.2)
  let below := a.filter (·.2 < 0)
  let numerator := if above.isEmpty then "1"
    else " * ".intercalate (above.map fun (name, e) => powerText name e)
  if a.isEmpty then "dimensionless"
  else numerator ++ String.join (below.map fun (name, e) => " / " ++ powerText name (-e))

def limit? (a : Powers) : Option Limit :=
  a.findSome? fun (_, e) => if e.den = 1 then intLimit? e.num else none

end Powers

/-! ## Measures -/

structure Measure where
  name : String
  units : Powers

namespace Measure

def length : Measure := ⟨"meter", [("meter", 1)]⟩
def angle : Measure := ⟨"radian", [("radian", 1)]⟩
def ratio : Measure := ⟨"dimensionless", []⟩
def pressure : Measure := ⟨"pascal", [("pascal", 1)]⟩
def viscosity : Measure := ⟨"pascal * second", [("pascal", 1), ("second", 1)]⟩
def volume : Measure := ⟨"meter ** 3", [("meter", 3)]⟩

def all : List Measure := [length, angle, ratio, pressure, viscosity, volume]

def ofName? (name : String) : Option Measure := all.find? (·.name == name)

end Measure

/-! ## Registries -/

/-- What a unit stands for: a base unit with its dimension, if it has one, or a
multiple of other units. -/
inductive Meaning where
  | base (dimension : Option String)
  | derived (scale : Magnitude) (reference : Powers)

def Meaning.reference : Meaning → Powers
  | .base _ => []
  | .derived _ reference => reference

/-- Whether a product and all that it is built on are known, at most `fuel` deep. -/
def settles (meaning? : String → Option Meaning) : Nat → Powers → Bool
  | 0, p => p.isEmpty
  | fuel + 1, p => p.all fun q =>
    (meaning? q.1).any fun meaning => settles meaning? fuel meaning.reference

/-- What the names of units stand for, and how a scale is raised to a power.  Units are
built on each other no more than `depth` deep, and those of the measures are known. -/
structure Registry where
  meaning? : String → Option Meaning
  raised : Magnitude → Rat → Except ArithmeticFault Magnitude
  depth : Nat
  settled : ∀ {name meaning}, meaning? name = some meaning →
    settles meaning? depth meaning.reference = true
  measured : ∀ m ∈ Measure.all, ∀ q ∈ m.units, (meaning? q.1).isSome

/-! ## Reducing to base units -/

/-- A part that a product comes apart into, with the exponent that it gets. -/
inductive Part where
  | scale (scale : Magnitude) (exponent : Rat)
  | base (name : String) (dimension : Option String) (exponent : Rat)

namespace Part

def scale? : Part → Option (Magnitude × Rat)
  | .scale m e => some (m, e)
  | .base .. => none

def unit? : Part → Option (String × Rat)
  | .scale .. => none
  | .base name _ e => some (name, e)

def dimension? : Part → Option (String × Rat)
  | .scale .. => none
  | .base _ dimension e => dimension.map (·, e)

end Part

namespace Registry

variable (R : Registry)

/-- The parts of a product, each member of it to the power `n`; what is built on
others is followed less than `fuel` deep. -/
def parts : Nat → Powers → Rat → List Part
  | 0, _, _ => []
  | fuel + 1, p, n => p.flatMap fun (name, e) =>
    match R.meaning? name with
    | none => []
    | some (.base dimension) => [.base name dimension (e * n)]
    | some (.derived scale reference) => .scale scale (e * n) :: parts fuel reference (e * n)

def reduced (p : Powers) : List Part := R.parts (R.depth + 1) p 1

def steps (p : Powers) : List (Magnitude × Rat) := (R.reduced p).filterMap Part.scale?

def rootUnits (p : Powers) : Powers := Powers.mul [] ((R.reduced p).filterMap Part.unit?)

def dimension (p : Powers) : Powers := Powers.mul [] ((R.reduced p).filterMap Part.dimension?)

/-- A product without base units stands for a number. -/
def isNumber (p : Powers) : Bool := (R.rootUnits p).isEmpty

/-- Powers of scales, multiplied one after the other. -/
def product (steps : List (Magnitude × Rat)) : Except ArithmeticFault Magnitude :=
  steps.foldlM (fun x (scale, e) => do x.mul (← R.raised scale e)) (.int 1)

/-- How many of one product go into another, both of the same dimension. -/
def factor (source target : Powers) : Except ArithmeticFault Magnitude :=
  R.product (R.steps (source.mul target.inverse))

end Registry

end FluidChip.Quantity
