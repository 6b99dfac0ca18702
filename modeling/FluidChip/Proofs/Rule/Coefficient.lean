import FluidChip.Proofs.Host
import FluidChip.Proofs.Rule.Resistance

/-!
# Coefficients that are rounded

Every operation in a coefficient of resistance rounds, and rounding is off by less than a
factor of two as long as nothing comes near the ends of the doubles.  So where the exact
parts of the formula keep clear of both ends, what is rounded last is within constant
factors of the exact coefficient.  The cube is that of a host, and need only be as close.
-/

namespace FluidChip.Number

variable {x y : Float} {q : ℚ}

/-! ## Doubles away from the least -/

/-- No positive double is less than the least. -/
theorem NonNegative.least (h : NonNegative x) (pos : 0 < rationalOf x) :
    2 * leastHalf ≤ rationalOf x := by
  rcases h.unpacked with ⟨zero, -⟩ | ⟨mantissa, exponent, c, number, -⟩
  · exact absurd zero pos.ne'
  · have one : (1 : ℚ) ≤ mantissa := by exact_mod_cast c.pos
    have double : 2 * leastHalf = 1 * 2 ^ (-1074 : Int) := by
      rw [leastHalf, show (-1074 : Int) = -1075 + 1 by norm_num, zpow_add_one₀ two_ne_zero]
      ring
    rw [double, number]
    exact mul_le_mul one (zpow_le_zpow_right₀ one_le_two c.low) (by positivity) (by positivity)

/-- A side whose cube is no subnormal is far from the least double. -/
theorem far_of_cube (nonneg : 0 ≤ q) (cube : 4 * leastHalf ≤ q ^ 3) : 1000 * leastHalf ≤ q := by
  by_contra near
  have least := leastHalf_pos
  have small : leastHalf ≤ 1 / 1000000 := leastHalf_le.trans (by norm_num)
  have below : q ^ 3 < (1000 * leastHalf) ^ 3 :=
    pow_lt_pow_left₀ (not_le.mp near) nonneg (by decide)
  have square : leastHalf * leastHalf ≤ 1 / 1000000 * (1 / 1000000) :=
    mul_le_mul small small least.le (by norm_num)
  have third : leastHalf * (leastHalf * leastHalf) ≤ leastHalf * (1 / 1000000 * (1 / 1000000)) :=
    mul_le_mul_of_nonneg_left square least.le
  have same : (1000 * leastHalf) ^ 3 = 1000000000 * (leastHalf * (leastHalf * leastHalf)) := by
    ring
  linarith

/-! ## The numbers in the formulas -/

theorem rationalOf_of_reading {mantissa : Nat} {exponent : Int} (finite : isFinite x = true)
    (reading : Reading.ofFloat x = .finite false mantissa exponent) :
    NonNegative x ∧ rationalOf x = mantissa * 2 ^ exponent := by
  obtain ⟨negative, mantissa', exponent', found⟩ := finite_of_isFinite finite
  obtain ⟨rfl, rfl, rfl⟩ := Reading.finite.inj (found.ofFloat.symm.trans reading)
  exact ⟨⟨_, _, found⟩, found.rationalOf⟩

/-- A double that is not subnormal lies between two powers of two. -/
theorem rationalOf_mem {mantissa : Nat} {exponent : Int} (finite : isFinite x = true)
    (reading : Reading.ofFloat x = .finite false mantissa exponent) (normal : -1074 < exponent) :
    2 ^ (exponent + 52) ≤ rationalOf x ∧ rationalOf x < 2 ^ (exponent + 53) := by
  obtain ⟨⟨_, _, found⟩, number⟩ := rationalOf_of_reading finite reading
  obtain ⟨-, rfl, rfl⟩ := Reading.finite.inj (found.ofFloat.symm.trans reading)
  rw [number]
  cases found with
  | zero => exact absurd normal (lt_irrefl _)
  | canonical c =>
      have place := atPlace_canonical c
      exact ⟨place.full.resolve_left normal.ne', place.below⟩

theorem rational_one : NonNegative 1.0 ∧ rationalOf 1.0 = 1 := by
  obtain ⟨nonNegative, number⟩ := rationalOf_of_reading (x := 1.0) (by decide)
    (show _ = Reading.finite false 4503599627370496 (-52) by decide)
  exact ⟨nonNegative, by rw [number]; norm_num⟩

theorem rational_eight : NonNegative 8.0 ∧ rationalOf 8.0 = 8 := by
  obtain ⟨nonNegative, number⟩ := rationalOf_of_reading (x := 8.0) (by decide)
    (show _ = Reading.finite false 4503599627370496 (-49) by decide)
  exact ⟨nonNegative, by rw [number]; norm_num⟩

theorem rational_twelve : NonNegative 12.0 ∧ rationalOf 12.0 = 12 := by
  obtain ⟨nonNegative, number⟩ := rationalOf_of_reading (x := 12.0) (by decide)
    (show _ = Reading.finite false 6755399441055744 (-49) by decide)
  exact ⟨nonNegative, by rw [number]; norm_num⟩

/-- The factor of the aspect correction is rounded itself. -/
theorem rational_correction :
    NonNegative 0.63 ∧ 0 < rationalOf 0.63 ∧ rationalOf 0.63 ≤ 631 / 1000 := by
  obtain ⟨nonNegative, number⟩ := rationalOf_of_reading (x := 0.63) (by decide)
    (show _ = Reading.finite false 5674535530486825 (-53) by decide)
  refine ⟨nonNegative, ?_, ?_⟩ <;> rw [number] <;> norm_num

end FluidChip.Number

namespace FluidChip.Rule

open Number Outcome

variable {width height viscosity larger smaller : Float}

/-! ## The sides -/

theorem rational_sides (hw : NonNegative width) (hh : NonNegative height) :
    NonNegative (sides width height).1 ∧ NonNegative (sides width height).2 ∧
      rationalOf (sides width height).1 = max (rationalOf width) (rationalOf height) ∧
      rationalOf (sides width height).2 = min (rationalOf width) (rationalOf height) := by
  unfold sides
  rw [max_def_lt, min_def_lt]
  simp only [hw.lt_iff hh, hh.lt_iff hw]
  rcases lt_trichotomy (rationalOf width) (rationalOf height) with less | equal | more
  · simp [less, less.not_gt, hw, hh]
  · simp [equal, hw]
  · simp [more, more.not_gt, hw, hh]

theorem rational_sides_le (hw : NonNegative width) (hh : NonNegative height) :
    rationalOf (sides width height).2 ≤ rationalOf (sides width height).1 := by
  obtain ⟨-, -, larger_eq, smaller_eq⟩ := rational_sides hw hh
  rw [larger_eq, smaller_eq]
  exact min_le_max

/-- The correction for the aspect stays well away from zero. -/
theorem correction_within (hl : NonNegative larger) (hs : NonNegative smaller)
    (order : rationalOf smaller ≤ rationalOf larger)
    (far : 1000 * leastHalf ≤ rationalOf smaller) :
    NonNegative (1.0 - 0.63 * smaller / larger) ∧
      1 / 8 ≤ rationalOf (1.0 - 0.63 * smaller / larger) ∧
      rationalOf (1.0 - 0.63 * smaller / larger) ≤ 2 := by
  have least := leastHalf_pos
  have small : leastHalf ≤ 1 / 1000000 := leastHalf_le.trans (by norm_num)
  have one : 1 < limit := lt_of_lt_of_le (by norm_num) le_limit
  obtain ⟨factor, factor_pos, factor_le⟩ := rational_correction
  obtain ⟨unit, unit_eq⟩ := rational_one
  have pos : 0 < rationalOf smaller := by linarith
  have pos' : 0 < rationalOf larger := pos.trans_le order
  -- the corrected smaller side
  have scaled := mul_rounds factor hs
  have scaled_nonneg : 0 ≤ rationalOf 0.63 * rationalOf smaller := by positivity
  have scaled_le : rationalOf 0.63 * rationalOf smaller ≤ 631 / 1000 * rationalOf smaller :=
    mul_le_mul_of_nonneg_right factor_le pos.le
  have scaled_lt : rationalOf 0.63 * rationalOf smaller < limit := by
    linarith [hs.lt_limit]
  have side := scaled.nonNegative scaled_lt
  have side_error := (abs_le.mp (scaled.error scaled_nonneg scaled_lt)).2
  have side_le : rationalOf (0.63 * smaller) ≤ 64 / 100 * rationalOf smaller := by linarith
  -- its share of the larger side
  have quotient := div_rounds side hl pos'
  have quotient_nonneg : 0 ≤ rationalOf (0.63 * smaller) / rationalOf larger :=
    div_nonneg side.rationalOf_nonneg pos'.le
  have quotient_le : rationalOf (0.63 * smaller) / rationalOf larger ≤ 64 / 100 := by
    rw [div_le_iff₀ pos']
    linarith
  have quotient_lt : rationalOf (0.63 * smaller) / rationalOf larger < limit := by linarith
  have share := quotient.nonNegative quotient_lt
  have share_error := (abs_le.mp (quotient.error quotient_nonneg quotient_lt)).2
  have share_le : rationalOf (0.63 * smaller / larger) ≤ 3 / 4 := by linarith
  -- what remains of the unit
  have share_nonneg := share.rationalOf_nonneg
  have rest := sub_rounds unit share (by linarith)
  rw [unit_eq] at rest
  have rest_lt : 1 - rationalOf (0.63 * smaller / larger) < limit := by linarith
  obtain ⟨low, high⟩ := rest.within (by linarith) rest_lt
  exact ⟨rest.nonNegative rest_lt, by linarith, by linarith⟩

/-! ## The rectangular coefficient -/

/-- The exact parts of the coefficient keep clear of the ends of the doubles. -/
structure RectangularParts (larger smaller viscosity : ℚ) : Prop where
  cube_low : 4 * leastHalf ≤ smaller ^ 3
  cube_high : smaller ^ 3 < limit
  product_low : 128 * leastHalf ≤ larger * smaller ^ 3
  product_high : 8 * (larger * smaller ^ 3) < limit
  viscosity_high : 12 * viscosity < limit

variable {cube denominator : Float} {μ exact : ℚ}

theorem denominator_within (hl : NonNegative larger) (hs : NonNegative smaller)
    (order : rationalOf smaller ≤ rationalOf larger)
    (cubed : Approximates (rationalOf smaller ^ 3) cube)
    (parts : RectangularParts (rationalOf larger) (rationalOf smaller) μ) :
    NonNegative (rectangularDenominator larger smaller cube) ∧
      rationalOf larger * rationalOf smaller ^ 3 / 64 ≤
        rationalOf (rectangularDenominator larger smaller cube) ∧
      rationalOf (rectangularDenominator larger smaller cube) ≤
        16 * (rationalOf larger * rationalOf smaller ^ 3) := by
  obtain ⟨cube_low, -, product_low, product_high, -⟩ := parts
  have least := leastHalf_pos
  have nonneg := hl.rationalOf_nonneg
  obtain ⟨corrected, correction_low, correction_high⟩ :=
    correction_within hl hs order (far_of_cube hs.rationalOf_nonneg cube_low)
  obtain ⟨low, high⟩ := cubed.within cube_low
  have product := mul_rounds hl cubed.nonNegative
  have product_ge := mul_le_mul_of_nonneg_left low nonneg
  have product_le := mul_le_mul_of_nonneg_left high nonneg
  have product_lt : rationalOf larger * rationalOf cube < limit := by linarith
  obtain ⟨low, high⟩ := product.within (by linarith) product_lt
  have area := product.nonNegative product_lt
  have denominator := mul_rounds area corrected
  have denominator_ge := mul_le_mul_of_nonneg_left correction_low area.rationalOf_nonneg
  have denominator_le := mul_le_mul_of_nonneg_left correction_high area.rationalOf_nonneg
  have denominator_lt : rationalOf (larger * cube) *
      rationalOf (1.0 - 0.63 * smaller / larger) < limit := by linarith
  obtain ⟨low, high⟩ := denominator.within (by linarith) denominator_lt
  have made := denominator.nonNegative denominator_lt
  exact ⟨made, by unfold rectangularDenominator; linarith,
    by unfold rectangularDenominator; linarith⟩

/-- Two roundings, above and below the line, are within the factors of the result. -/
theorem overDenominator_within (hv : NonNegative viscosity) (pos : 0 < rationalOf viscosity)
    (below : 12 * rationalOf viscosity < limit) (exact_pos : 0 < exact)
    (made : NonNegative denominator) (low : exact / 64 ≤ rationalOf denominator)
    (high : rationalOf denominator ≤ 16 * exact) :
    ∃ quotient, Rounds quotient (overDenominator viscosity denominator) ∧
      12 * rationalOf viscosity / exact / 32 ≤ quotient ∧
      quotient ≤ 128 * (12 * rationalOf viscosity / exact) := by
  have denominator_pos : 0 < rationalOf denominator := by linarith
  obtain ⟨twelve, twelve_eq⟩ := rational_twelve
  have scaled := mul_rounds twelve hv
  rw [twelve_eq] at scaled
  have least := leastHalf_pos
  obtain ⟨scaled_low, scaled_high⟩ := scaled.within (by linarith [hv.least pos]) below
  refine ⟨_, div_rounds (scaled.nonNegative below) made denominator_pos, ?lower, ?upper⟩
  case lower =>
    rw [div_div, div_le_div_iff₀ (by positivity) denominator_pos]
    calc 12 * rationalOf viscosity * _ ≤ 12 * rationalOf viscosity * (16 * exact) := by gcongr
      _ = 12 * rationalOf viscosity / 2 * (exact * 32) := by ring
      _ ≤ rationalOf (12.0 * viscosity) * (exact * 32) := by gcongr
  case upper =>
    rw [← mul_div_assoc, div_le_div_iff₀ denominator_pos exact_pos]
    calc rationalOf (12.0 * viscosity) * exact ≤ 2 * (12 * rationalOf viscosity) * exact := by
          gcongr
      _ = 128 * (12 * rationalOf viscosity) * (exact / 64) := by ring
      _ ≤ 128 * (12 * rationalOf viscosity) * _ := by gcongr

variable (width height viscosity) in
/-- The exact parts of the formula for a rectangle keep clear of the ends. -/
def PartsInRange : Prop :=
  RectangularParts (max (rationalOf width) (rationalOf height))
    (min (rationalOf width) (rationalOf height)) (rationalOf viscosity)

variable (width height viscosity) in
/-- What the parts come to, but for the correction of the aspect. -/
def uncorrected : ℚ :=
  12 * rationalOf viscosity /
    (max (rationalOf width) (rationalOf height) * min (rationalOf width) (rationalOf height) ^ 3)

variable {host : Host} (powers : host.Powers)

include powers

/-- Where the parts keep clear of the ends, the coefficient is a number rounded that is
within constant factors of the exact one. -/
theorem rectangularCoefficient_rounds (hw : NonNegative width) (hh : NonNegative height)
    (hv : NonNegative viscosity) (pos : 0 < rationalOf viscosity)
    (parts : PartsInRange width height viscosity) :
    ∃ coefficient quotient,
      rectangularCoefficient host width height viscosity = .ok coefficient ∧
      Rounds quotient coefficient ∧ uncorrected width height viscosity / 32 ≤ quotient ∧
      quotient ≤ 128 * uncorrected width height viscosity := by
  obtain ⟨hl, hs, larger_eq, smaller_eq⟩ := rational_sides hw hh
  have order := rational_sides_le hw hh
  rw [PartsInRange, ← larger_eq, ← smaller_eq] at parts
  rw [uncorrected, ← larger_eq, ← smaller_eq]
  obtain ⟨cube, powered, cubed⟩ := powers.fits hs (n := 3) (by decide) parts.cube_high
  obtain ⟨made, low, high⟩ := denominator_within hl hs order cubed parts
  have least := leastHalf_pos
  have product_low := parts.product_low
  obtain ⟨quotient, rounds, within⟩ :=
    overDenominator_within hv pos parts.viscosity_high (by linarith) made low high
  refine ⟨_, quotient, rectangularCoefficient_ok_iff.mpr ⟨cube, powered, fun zero => ?_, rfl⟩,
    rounds, within⟩
  linarith [made.beq_zero_iff.mp zero]

/-! ## Outside the range -/

theorem rectangularCoefficient_overflow (hw : NonNegative width) (hh : NonNegative height)
    (large : limit ≤ min (rationalOf width) (rationalOf height) ^ 3) :
    rectangularCoefficient host width height viscosity = .error (.arithmetic .overflow) := by
  obtain ⟨-, hs, -, smaller_eq⟩ := rational_sides hw hh
  rw [← smaller_eq] at large
  have refused := powers.refused hs (n := 3) (by decide) large
  simp only [rectangularCoefficient, power, refused]
  rfl

/-- A side whose cube is lost makes the denominator zero. -/
theorem rectangularCoefficient_divisionByZero (hw : NonNegative width) (hh : NonNegative height)
    (far : 1000 * leastHalf ≤ min (rationalOf width) (rationalOf height))
    (small : min (rationalOf width) (rationalOf height) ^ 3 ≤ leastHalf) :
    rectangularCoefficient host width height viscosity =
      .error (.arithmetic .divisionByZero) := by
  obtain ⟨hl, hs, larger_eq, smaller_eq⟩ := rational_sides hw hh
  have order := rational_sides_le hw hh
  rw [← smaller_eq] at far small
  obtain ⟨cube, powered, cubed⟩ :=
    powers.fits hs (n := 3) (by decide) (small.trans_lt leastHalf_lt_limit)
  have product := mul_rounds hl cubed.nonNegative
  rw [cubed.lost small, mul_zero] at product
  obtain ⟨area, area_zero⟩ := product.lost leastHalf_pos.le
  have denominator := mul_rounds area (correction_within hl hs order far).1
  rw [area_zero, zero_mul] at denominator
  obtain ⟨made, zero⟩ := denominator.lost leastHalf_pos.le
  have vanishes : (rectangularDenominator (sides width height).1 (sides width height).2 cube ==
      0.0) = true := made.beq_zero_iff.mpr zero
  have computed : power host (sides width height).2 3 = .ok cube :=
    Setting.power_ok_iff.mpr powered
  simp only [rectangularCoefficient]
  refine bind_error_iff.mpr (.inr ⟨cube, computed, ?_⟩)
  rw [if_pos vanishes]
  rfl

end FluidChip.Rule
