import FluidChip.Proofs.Rule.Term
import FluidChip.Rule.Hydraulic
import Mathlib.Algebra.Order.Field.Rat
import Mathlib.Tactic.FieldSimp
import Mathlib.Tactic.Linarith
import Mathlib.Tactic.NormNum
import Mathlib.Tactic.Positivity
import Mathlib.Tactic.Ring

/-!
# The resistance of a rectangular channel

The formula for a rectangular cross-section, over numbers that are not rounded.  What
stands below the viscosity is positive and grows with either side of the channel.  The
side that grows may be the smaller one first and the larger one from the square on, so
growth is shown for each part and put together at the square.
-/

namespace FluidChip.Rule

open Outcome

/-! ## The formula -/

/-- The resistance for a unit of length, by what stands below the viscosity. -/
def overDenominator {α : Type} [Mul α] [Div α] [OfScientific α] (viscosity denominator : α) :
    α :=
  12.0 * viscosity / denominator

theorem rectangularCoefficient_ok_iff {host : Host}
    {width height viscosity coefficient : Float} :
    rectangularCoefficient host width height viscosity = .ok coefficient ↔
      ∃ cube, host.power? (sides width height).2 3 = some cube ∧
        ¬ (rectangularDenominator (sides width height).1 (sides width height).2 cube == 0.0) =
          true ∧
        overDenominator viscosity
          (rectangularDenominator (sides width height).1 (sides width height).2 cube) =
            coefficient := by
  simp only [rectangularCoefficient, bind_ok_iff, Setting.power_ok_iff]
  refine exists_congr fun cube => and_congr_right fun _ => ?_
  split
  · rename_i zero
    refine iff_of_false (fun h => ?_) fun h => h.1 zero
    obtain ⟨_, thrown, -⟩ := bind_ok_iff.mp h
    cases thrown
  · rename_i nonzero
    rw [pure_ok_iff]
    exact (and_iff_right nonzero).symm

def exactDenominator (width height : ℚ) : ℚ :=
  rectangularDenominator (sides width height).1 (sides width height).2
    ((sides width height).2 ^ 3)

/-- The resistance for a unit of length where nothing is rounded. -/
def exactCoefficient (width height viscosity : ℚ) : ℚ :=
  overDenominator viscosity (exactDenominator width height)

/-! ## The denominator -/

variable {larger larger' smaller smaller' width width' height height' viscosity : ℚ}

theorem sides_eq (width height : ℚ) :
    sides width height = (max width height, min width height) := by
  unfold sides
  rw [max_def_lt, min_def_lt]
  rcases lt_trichotomy width height with h | rfl | h
  · simp [h, h.not_gt]
  · simp
  · simp [h, h.not_gt]

theorem rectangularDenominator_eq (h : larger ≠ 0) :
    rectangularDenominator larger smaller (smaller ^ 3) =
      smaller ^ 3 * (larger - 63 / 100 * smaller) := by
  have correction : (0.63 : ℚ) = 63 / 100 := by norm_num
  have one : (1.0 : ℚ) = 1 := by norm_num
  rw [rectangularDenominator, correction, one]
  field_simp

theorem exactDenominator_comm (width height : ℚ) :
    exactDenominator width height = exactDenominator height width := by
  simp only [exactDenominator, sides_eq, max_comm, min_comm]

theorem exactDenominator_of_le (width_pos : 0 < width) (h : height ≤ width) :
    exactDenominator width height = height ^ 3 * (width - 63 / 100 * height) := by
  rw [exactDenominator, sides_eq, max_eq_left h, min_eq_right h]
  exact rectangularDenominator_eq width_pos.ne'

theorem exactDenominator_pos (width_pos : 0 < width) (height_pos : 0 < height) :
    0 < exactDenominator width height := by
  have ordered {larger smaller : ℚ} (pos : 0 < smaller) (h : smaller ≤ larger) :
      0 < exactDenominator larger smaller := by
    have room : 0 < larger - 63 / 100 * smaller := by linarith
    rw [exactDenominator_of_le (pos.trans_le h) h]
    positivity
  rcases le_total height width with h | h
  · exact ordered height_pos h
  · rw [exactDenominator_comm]
    exact ordered width_pos h

/-! ## Growth -/

theorem denominator_lt_of_larger (pos : 0 < smaller) (grows : larger < larger') :
    smaller ^ 3 * (larger - 63 / 100 * smaller) <
      smaller ^ 3 * (larger' - 63 / 100 * smaller) := by
  have cube : 0 < smaller ^ 3 := by positivity
  exact mul_lt_mul_of_pos_left (by linarith) cube

/-- The smaller side may grow up to the square: the difference has the growth as a
factor, and the other factor is positive because the larger side is still the larger. -/
theorem denominator_lt_of_smaller (pos : 0 < smaller) (grows : smaller < smaller')
    (below : smaller' ≤ larger) :
    smaller ^ 3 * (larger - 63 / 100 * smaller) <
      smaller' ^ 3 * (larger - 63 / 100 * smaller') := by
  have pos' : 0 < smaller' := pos.trans grows
  have reach : smaller' * (smaller' ^ 2 + smaller' * smaller + smaller ^ 2) ≤
      larger * (smaller' ^ 2 + smaller' * smaller + smaller ^ 2) := by gcongr
  have cube : 0 < smaller ^ 3 := by positivity
  have first : smaller ^ 3 ≤ smaller' ^ 3 := by gcongr
  have second : smaller ^ 2 * smaller ≤ smaller' ^ 2 * smaller := by gcongr
  have third : smaller * smaller ^ 2 ≤ smaller' * smaller ^ 2 := by gcongr
  have factor : 0 < larger * (smaller' ^ 2 + smaller' * smaller + smaller ^ 2) -
      63 / 100 * (smaller' ^ 3 + smaller' ^ 2 * smaller + smaller' * smaller ^ 2 +
        smaller ^ 3) := by
    linarith
  have growth : 0 < smaller' - smaller := by linarith
  have difference : smaller' ^ 3 * (larger - 63 / 100 * smaller') -
      smaller ^ 3 * (larger - 63 / 100 * smaller) = (smaller' - smaller) *
        (larger * (smaller' ^ 2 + smaller' * smaller + smaller ^ 2) -
          63 / 100 * (smaller' ^ 3 + smaller' ^ 2 * smaller + smaller' * smaller ^ 2 +
            smaller ^ 3)) := by
    ring
  have positive := mul_pos growth factor
  linarith

theorem exactDenominator_lt (width_pos : 0 < width) (height_pos : 0 < height)
    (grows : width < width') : exactDenominator width height < exactDenominator width' height := by
  have width_pos' : 0 < width' := width_pos.trans grows
  -- to the square the width is the smaller side, from there on the larger one
  have before {width width' : ℚ} (pos : 0 < width) (grows : width < width')
      (below : width' ≤ height) :
      exactDenominator width height < exactDenominator width' height := by
    rw [exactDenominator_comm width, exactDenominator_comm width',
      exactDenominator_of_le height_pos (grows.le.trans below),
      exactDenominator_of_le height_pos below]
    exact denominator_lt_of_smaller pos grows below
  have after {width width' : ℚ} (grows : width < width') (above : height ≤ width) :
      exactDenominator width height < exactDenominator width' height := by
    rw [exactDenominator_of_le (height_pos.trans_le above) above,
      exactDenominator_of_le (height_pos.trans_le (above.trans grows.le)) (above.trans grows.le)]
    exact denominator_lt_of_larger height_pos grows
  rcases le_or_gt width' height with below | past
  · exact before width_pos grows below
  rcases le_or_gt height width with above | short
  · exact after grows above
  · exact (before width_pos short le_rfl).trans (after past le_rfl)

/-! ## The resistance -/

theorem overDenominator_eq (viscosity denominator : ℚ) :
    overDenominator viscosity denominator = 12 * viscosity / denominator := by
  have twelve : (12.0 : ℚ) = 12 := by norm_num
  rw [overDenominator, twelve]

theorem exactCoefficient_lt (width_pos : 0 < width) (height_pos : 0 < height)
    (viscosity_pos : 0 < viscosity) (grows : width < width') :
    exactCoefficient width' height viscosity < exactCoefficient width height viscosity := by
  simp only [exactCoefficient, overDenominator_eq]
  exact div_lt_div_of_pos_left (by positivity) (exactDenominator_pos width_pos height_pos)
    (exactDenominator_lt width_pos height_pos grows)

theorem exactCoefficient_comm (width height viscosity : ℚ) :
    exactCoefficient width height viscosity = exactCoefficient height width viscosity := by
  rw [exactCoefficient, exactDenominator_comm, exactCoefficient]

/-- A rectangular channel has a resistance by its formula, the same whichever side is
called its width, and less when either side alone is enlarged. -/
theorem resistance_falls (width_pos : 0 < width) (height_pos : 0 < height)
    (viscosity_pos : 0 < viscosity) :
    exactDenominator width height = max width height * min width height ^ 3 *
        (1 - 63 / 100 * min width height / max width height) ∧
      0 < exactDenominator width height ∧
      exactCoefficient width height viscosity =
        12 * viscosity / exactDenominator width height ∧
      0 < exactCoefficient width height viscosity ∧
      exactCoefficient height width viscosity = exactCoefficient width height viscosity ∧
      (∀ wider, width < wider →
        exactCoefficient wider height viscosity < exactCoefficient width height viscosity) ∧
      ∀ higher, height < higher →
        exactCoefficient width higher viscosity < exactCoefficient width height viscosity := by
  have denominator := exactDenominator_pos width_pos height_pos
  have formula := overDenominator_eq viscosity (exactDenominator width height)
  refine ⟨?_, denominator, formula, ?_, exactCoefficient_comm height width viscosity, ?_, ?_⟩
  · have correction : (0.63 : ℚ) = 63 / 100 := by norm_num
    have one : (1.0 : ℚ) = 1 := by norm_num
    rw [exactDenominator, sides_eq, rectangularDenominator, correction, one]
  · rw [exactCoefficient, formula]
    positivity
  · intro wider grows
    exact exactCoefficient_lt width_pos height_pos viscosity_pos grows
  · intro higher grows
    rw [exactCoefficient_comm width higher, exactCoefficient_comm width height]
    exact exactCoefficient_lt height_pos width_pos viscosity_pos grows

/-- A channel that is twice as high as wide, made wider than it is high. -/
theorem resistance_falls_past_square : (0 : ℚ) < 1 ∧ (0 : ℚ) < 2 ∧
    exactCoefficient 1 2 1 = 1200 / 137 ∧ exactCoefficient 3 2 1 = 25 / 29 ∧
    exactCoefficient 2 1 1 = exactCoefficient 1 2 1 ∧
    exactCoefficient 3 2 1 < exactCoefficient 1 2 1 := by
  have falls := resistance_falls (one_pos : (0 : ℚ) < 1) (two_pos : (0 : ℚ) < 2)
    (one_pos : (0 : ℚ) < 1)
  obtain ⟨-, -, -, -, turned, wider, -⟩ := falls
  refine ⟨one_pos, two_pos, ?_, ?_, turned, wider 3 (by norm_num)⟩
  · norm_num [exactCoefficient, overDenominator_eq, exactDenominator_comm 1,
      exactDenominator_of_le]
  · norm_num [exactCoefficient, overDenominator_eq, exactDenominator_of_le]

end FluidChip.Rule
