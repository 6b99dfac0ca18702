import FluidChip.Number.Power
import FluidChip.Quantity.Standard

/-!
# Hosts

What a run takes from the machine it runs on and does not work out itself: the
library of units, powers and cosines of doubles, and how deep what is nested may be.
What is proved holds on any host.
-/

namespace FluidChip

structure Host where
  units : Quantity.UnitLibrary
  /-- A power with a whole exponent; one that leaves the range of doubles is none. -/
  power? : Float → Nat → Option Float
  cosine : Float → Float
  /-- The levels below a value that can be printed. -/
  printed : Nat
  /-- The levels of nodes that can be read in a text. -/
  levels : List Char → Nat
  /-- Whether the problems of a document can be gathered; each keeps a copy of the
  value at fault. -/
  collects : Value → Bool

/-- What keeps a value from being printed. -/
def Host.limit? (host : Host) (v : Value) : Option Number.Limit := v.limit? (some host.printed)

/-- The host that the program runs on: the standard units, powers and cosines that are the
doubles nearest to the exact values, and a stack of a thousand frames, of which some stand
below a run. -/
def Host.standard : Host where
  units := Quantity.Spelling.standard.library
  power? := Number.power?
  cosine := Number.cosine
  printed := 950
  levels _ := 485
  collects v := v.limit? (some 470) != some .nesting

end FluidChip
