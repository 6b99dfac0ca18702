import FluidChip.Proofs.Number.Double
import FluidChip.Proofs.Number.Shortest

/-!
# What a double writes

The number that the digits of a double write lies in the interval of the double,
so it has the sign of the double and reads back as it.
-/

namespace FluidChip.Number

variable {mantissa : Nat} {exponent : Int} {negative : Bool} {x : Float}

/-- The number that the digits of a double write; zero where there are none. -/
def written (x : Float) : ℚ :=
  match Reading.ofFloat x with
  | .finite negative mantissa exponent =>
    let magnitude := (shortest mantissa exponent).number
    if negative then -magnitude else magnitude
  | _ => 0

theorem shortest_zero (exponent : Int) : shortest 0 exponent = ⟨0, 0⟩ := rfl

theorem written_pos {x : Float} (finite : isFinite x = true) (h : ¬ x ≤ 0.0) :
    0 < written x := by
  obtain ⟨negative, mantissa, exponent, reading⟩ := finite_of_isFinite finite
  obtain ⟨positive, nonzero⟩ := not_or.mp (mt reading.le_zero_iff.mpr h)
  have digits : 0 < (shortest mantissa exponent).number := by
    cases reading with
    | zero => exact absurd rfl nonzero
    | canonical c => exact (shortest_inInterval c).pos c
  simp only [written, reading.ofFloat, positive]
  exact digits

theorem written_zero : written 0.0 = 0 := by
  have reading : Reading.ofFloat 0.0 = .finite false 0 (-1074) := by decide
  simp [written, reading, shortest, Decimal.number]

theorem written_minusOne : written (-1.0) = -1 := by
  have reading : Reading.ofFloat (-1.0) = .finite true 4503599627370496 (-52) := by
    decide
  have digits : shortest 4503599627370496 (-52) = ⟨1, 0⟩ := by decide
  simp [written, reading, digits, Decimal.number]

/-! ## Reading back -/

/-- A decimal whose digits are those of a magnitude reads back as the magnitude,
whatever power of ten it is written over. -/
theorem ofDecimal_eq_abs (h : Finite x negative mantissa exponent) {digits places : Nat}
    (value : ratio (digits, tenTo places) = (shortest mantissa exponent).number) :
    ofDecimal false digits (-(places : Int)) = x.abs := by
  have rounded : ofDecimal false digits (-(places : Int)) =
      roundRatio false digits (tenTo places) := by
    unfold ofDecimal
    split
    · obtain rfl : places = 0 := by omega
      simp [tenTo]
    · simp
  have magnitude := h.abs
  rw [rounded, roundRatio, magnitude.ofBits]
  simp only [Bool.false_eq_true, if_false, Nat.zero_add]
  congr 2
  cases h with
  | zero bits =>
    have none : digits = 0 := by
      have pos : (tenTo places : ℚ) ≠ 0 := by simp [tenTo]
      simpa [ratio, shortest_zero, Decimal.number, pos] using value
    rw [none, if_pos rfl, roundBits, if_pos rfl]
  | canonical c bits =>
    rw [if_neg c.pos.ne']
    refine roundBits_of_inInterval c (Nat.pow_pos (by norm_num)) ?_
    rw [value]
    exact shortest_inInterval c

end FluidChip.Number
