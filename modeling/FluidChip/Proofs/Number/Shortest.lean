import FluidChip.Proofs.Number.Rounding

/-!
# The shortest decimal rounds back

Whatever grid the search for the shortest decimal ends on, the decimal it answers
lies in the interval of the double: on a coarse grid because that is what it was
tested for, on the grid of seventeen digits because that is finer than the interval.
-/

namespace FluidChip.Number

variable {mantissa n : Nat} {exponent place point : Int}

/-! ## Decimals as numbers -/

def Decimal.number (d : Decimal) : ℚ := d.digits * 10 ^ d.exponent

theorem number_trim (fuel : Nat) (d : Decimal) : (Decimal.trim fuel d).number = d.number := by
  induction fuel generalizing d with
  | zero => rfl
  | succ fuel ih =>
      rw [Decimal.trim]
      split
      · rename_i tail
        have tenth : d.digits = 10 * (d.digits / 10) := by omega
        rw [ih]
        simp only [Decimal.number]
        rw [zpow_add_one₀ (by norm_num)]
        nth_rewrite 2 [tenth]
        push_cast
        ring
      · rfl

/-! ## Grids -/

/-- The unit of the last binary place, in units of a decimal place. -/
def unitIn (exponent place : Int) : ℚ := 2 ^ exponent / 10 ^ place

theorem unitIn_pos (exponent place : Int) : 0 < unitIn exponent place := by
  unfold unitIn
  positivity

theorem ratio_unit (exponent place : Int) :
    ratio (inPlaces (quotientOf 1 exponent) place) = unitIn exponent place := by
  rw [ratio_inPlaces, ratio_quotientOf, unitIn, Nat.cast_one, one_mul]

theorem ratio_scaled (mantissa : Nat) (exponent place : Int) :
    ratio (inPlaces (quotientOf mantissa exponent) place) = mantissa * unitIn exponent place := by
  rw [ratio_inPlaces, ratio_quotientOf, unitIn, mul_div_assoc]

theorem inInterval_grid : InInterval mantissa exponent (n * 10 ^ place) ↔
    (mantissa - downward mantissa exponent) * unitIn exponent place ≤ n ∧
    n ≤ (mantissa + 1 / 2) * unitIn exponent place ∧
    (mantissa % 2 = 1 → (mantissa - downward mantissa exponent) * unitIn exponent place < n ∧
      n < (mantissa + 1 / 2) * unitIn exponent place) := by
  have scale (x : ℚ) : x * unitIn exponent place = x * 2 ^ exponent / 10 ^ place :=
    (mul_div_assoc _ _ _).symm
  have power : (0 : ℚ) < 10 ^ place := by positivity
  simp only [scale, div_le_iff₀ power, le_div_iff₀ power, div_lt_iff₀ power, lt_div_iff₀ power]
  exact ⟨fun h => ⟨h.low, h.high, h.odd⟩, fun h => ⟨h.1, h.2.1, h.2.2⟩⟩

/-- A distance of naturals that is within a bound, the bound excluded for odd mantissas,
read over their common denominator. -/
theorem within_of_compare {k x y bound : Nat} {s t room common : ℚ} (pos : 0 < common)
    (order : y ≤ x) (hx : (x : ℚ) = s * common) (hy : (y : ℚ) = t * common)
    (hbound : (bound : ℚ) = room * common)
    (h : (if mantissa % 2 = 0 then decide (k * (x - y) ≤ bound)
      else decide (k * (x - y) < bound)) = true) :
    k * (s - t) ≤ room ∧ (mantissa % 2 = 1 → k * (s - t) < room) := by
  have distance : ((k * (x - y) : Nat) : ℚ) = k * (s - t) * common := by
    rw [Nat.cast_mul, Nat.cast_sub order, hx, hy]
    ring
  rw [← mul_le_mul_iff_left₀ pos, ← mul_lt_mul_iff_left₀ pos, ← distance, ← hbound,
    Nat.cast_le, Nat.cast_lt]
  split at h
  · exact ⟨by simpa using h, by omega⟩
  · exact ⟨(by simpa using h : _ < _).le, fun _ => by simpa using h⟩

/-- A grid point rounds back only if its distance, twice or, below a power of two,
four times, is within one unit of the last place. -/
theorem distance_of_roundsBack {least : Bool} {gap scaled : Nat × Nat} (gapDen : 0 < gap.2)
    (den : 0 < scaled.2) (h : roundsBack mantissa least gap scaled n = true) :
    let factor : ℚ := if mantissa = twoTo 52 ∧ ¬ least = true then 4 else 2
    if (n : ℚ) ≤ ratio scaled then
      factor * (ratio scaled - n) ≤ ratio gap ∧
        (mantissa % 2 = 1 → factor * (ratio scaled - n) < ratio gap)
    else 2 * (n - ratio scaled) ≤ ratio gap ∧
      (mantissa % 2 = 1 → 2 * (n - ratio scaled) < ratio gap) := by
  have gapDen' : (0 : ℚ) < gap.2 := by exact_mod_cast gapDen
  have den' : (0 : ℚ) < scaled.2 := by exact_mod_cast den
  have common : (0 : ℚ) < scaled.2 * gap.2 := by positivity
  have here : ((n * scaled.2 * gap.2 : Nat) : ℚ) = n * (scaled.2 * gap.2) := by
    push_cast
    ring
  have value : ((scaled.1 * gap.2 : Nat) : ℚ) = ratio scaled * (scaled.2 * gap.2) := by
    rw [ratio, ← mul_assoc, div_mul_cancel₀ _ den'.ne']
    push_cast
    rfl
  have room : ((gap.1 * scaled.2 : Nat) : ℚ) = ratio gap * (scaled.2 * gap.2) := by
    rw [ratio, mul_comm (scaled.2 : ℚ), ← mul_assoc, div_mul_cancel₀ _ gapDen'.ne']
    push_cast
    rfl
  have below : n * scaled.2 * gap.2 ≤ scaled.1 * gap.2 ↔ (n : ℚ) ≤ ratio scaled := by
    rw [← Nat.cast_le (α := ℚ), here, value, mul_le_mul_iff_left₀ common]
  unfold roundsBack at h
  simp only at h ⊢
  split at h
  · rename_i order
    rw [if_pos (below.mp order)]
    have product : (if mantissa = twoTo 52 ∧ ¬ least = true
        then 4 * (scaled.1 * gap.2 - n * scaled.2 * gap.2)
        else 2 * (scaled.1 * gap.2 - n * scaled.2 * gap.2)) =
        (if mantissa = twoTo 52 ∧ ¬ least = true then 4 else 2) *
          (scaled.1 * gap.2 - n * scaled.2 * gap.2) := by
      split <;> rfl
    rw [product] at h
    simpa using within_of_compare common order value here room h
  · rename_i order
    rw [if_neg (mt below.mpr order)]
    simpa using within_of_compare common (by omega) here value room h

/-- What rounds back by the test lies in the interval. -/
theorem inInterval_of_roundsBack
    (h : roundsBack mantissa (exponent == -1074) (inPlaces (quotientOf 1 exponent) place)
      (inPlaces (quotientOf mantissa exponent) place) n = true) :
    InInterval mantissa exponent (n * 10 ^ place) := by
  have distance := distance_of_roundsBack
    (inPlaces_snd_pos (quotientOf_snd_pos 1 exponent) place)
    (inPlaces_snd_pos (quotientOf_snd_pos mantissa exponent) place) h
  have unit := unitIn_pos exponent place
  rw [ratio_unit, ratio_scaled] at distance
  simp only [beq_iff_eq] at distance
  rw [inInterval_grid]
  generalize unitIn exponent place = unit at *
  unfold downward
  split at distance
  · obtain ⟨low, odd⟩ := distance
    split at low <;> rename_i power
    · rw [if_pos power] at odd ⊢
      refine ⟨by linarith, by linarith, fun h => ?_⟩
      have low' := odd h
      constructor <;> linarith
    · rw [if_neg power] at odd ⊢
      refine ⟨by linarith, by linarith, fun h => ?_⟩
      have low' := odd h
      constructor <;> linarith
  · obtain ⟨high, odd⟩ := distance
    have reach : 0 < (if mantissa = twoTo 52 ∧ exponent ≠ -1074 then 1 / 4 else 1 / 2 : ℚ) := by
      split <;> norm_num
    have down := mul_pos reach unit
    refine ⟨by linarith, by linarith, fun h => ?_⟩
    have high' := odd h
    constructor <;> linarith

/-! ## The grid of seventeen digits -/

/-- Where the grid is that fine, the nearest of its points lies in the interval. -/
theorem inInterval_of_fine (c : Canonical mantissa exponent)
    (fine : 10 ^ 16 ≤ mantissa * unitIn exponent place)
    (near : (n : ℚ) - 1 / 2 ≤ mantissa * unitIn exponent place ∧
      mantissa * unitIn exponent place ≤ n + 1 / 2) :
    InInterval mantissa exponent (n * 10 ^ place) := by
  have unit := unitIn_pos exponent place
  have small : (mantissa : ℚ) ≤ 2 ^ 53 := by exact_mod_cast c.small.le
  have one : 1 < unitIn exponent place := by nlinarith
  have reach : 1 / 2 < downward mantissa exponent * unitIn exponent place := by
    unfold downward
    split
    · rename_i power
      rw [power.1, cast_twoTo] at fine
      linarith
    · linarith
  obtain ⟨low, high⟩ := near
  rw [inInterval_grid]
  refine ⟨by linarith, by linarith, fun _ => ?_⟩
  constructor <;> linarith

/-! ## The search -/

theorem back_of_nearest? {back : Nat → Bool} {scaled : Nat × Nat}
    (h : nearest? back scaled = some n) : back n = true := by
  unfold nearest? at h
  simp only at h
  split at h <;> grind

theorem shortestFrom_inInterval (c : Canonical mantissa exponent)
    (leading : (10 : ℚ) ^ (point - 1) ≤ mantissa * 2 ^ exponent) (fuel count : Nat)
    (sum : fuel + count = 17) :
    InInterval mantissa exponent (shortestFrom mantissa exponent point fuel count).number := by
  induction fuel generalizing count with
  | zero =>
      obtain rfl : count = 17 := by omega
      have den := inPlaces_snd_pos (quotientOf_snd_pos mantissa exponent) (point - 17)
      have near := roundDiv_near den (a := (inPlaces (quotientOf mantissa exponent) (point - 17)).1)
      rw [Prod.mk.eta, ratio_scaled] at near
      have fine : 10 ^ 16 ≤ mantissa * unitIn exponent (point - 17) := by
        rw [unitIn, ← mul_div_assoc, le_div_iff₀ (by positivity)]
        calc (10 : ℚ) ^ 16 * 10 ^ (point - 17) = 10 ^ ((16 : Int) + (point - 17)) := by
              rw [zpow_add₀ (by norm_num)]
              norm_cast
          _ = 10 ^ (point - 1) := by rw [show (16 : Int) + (point - 17) = point - 1 by omega]
          _ ≤ mantissa * 2 ^ exponent := leading
      exact inInterval_of_fine c fine near
  | succ fuel ih =>
      rw [shortestFrom]
      split
      · rename_i found
        exact inInterval_of_roundsBack (back_of_nearest? found)
      · exact ih (count + 1) (by omega)

theorem shortest_inInterval (c : Canonical mantissa exponent) :
    InInterval mantissa exponent (shortest mantissa exponent).number := by
  obtain ⟨num, below, above⟩ := log2_quotientOf c.pos c.small c.low c.high
  have leading := ten_zpow_pointPlace_le num (quotientOf_snd_pos mantissa exponent) below above
  have positive : mantissa ≠ 0 := c.pos.ne'
  rw [ratio_quotientOf] at leading
  rw [shortest, if_neg positive, number_trim]
  exact shortestFrom_inInterval c leading 16 1 rfl

end FluidChip.Number
