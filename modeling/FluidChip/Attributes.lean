import FluidChip.Host
import FluidChip.Schematic

/-!
# Quantities among attributes

An attribute is read as a finite double in a measure, with the units of the host.  An
attribute that is not there, or null, is no fault in itself.
-/

namespace FluidChip.Attributes

open Quantity

variable (host : Host)

/-- The quantity under a key, if there is one; `owner` says whose attributes
these are. -/
def quantity? (attributes : Attributes) (key : String) (m : Measure) (owner : String) :
    Except Failure (Option Float) :=
  match attributes.find? key with
  | none => .ok none
  | some .null => .ok none
  | some raw =>
    match host.units.toMagnitude raw m with
    | .error fault =>
      if fault.escapes then .error (.quantity fault)
      else .error (.told ((host.limit? raw).or fault.limit?)
        (.topology (.unreadable key owner raw.shown m.name fault)))
    | .ok x =>
      if Number.isFinite x then .ok (some x)
      else .error (.told (host.limit? raw) (.topology (.notFinite key owner raw.shown)))

def quantity (attributes : Attributes) (key : String) (m : Measure) (owner : String) :
    Except Failure Float := do
  match ← attributes.quantity? host key m owner with
  | some x => .ok x
  | none => .error (.topology (.missing key owner))

def positive (attributes : Attributes) (key : String) (m : Measure) (owner : String) :
    Except Failure Float := do
  let x ← attributes.quantity host key m owner
  if x ≤ 0.0 then
    let raw := (attributes.find? key).getD .null
    .error (.told (host.limit? raw) (.topology (.notPositive key owner raw.shown)))
  else .ok x

end FluidChip.Attributes
