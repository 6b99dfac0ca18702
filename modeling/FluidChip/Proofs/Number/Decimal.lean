import FluidChip.Number.Layout
import Mathlib.Algebra.Order.Field.Power
import Mathlib.Data.Rat.Cast.Order
import Mathlib.Tactic.Linarith
import Mathlib.Tactic.NormNum
import Mathlib.Tactic.Positivity
import Mathlib.Tactic.Ring

/-!
# Quotients of naturals

A double and a decimal of it are compared as quotients of naturals, in units of a
decimal place.  The place of the point is where the leading digit of a quotient
follows.
-/

namespace FluidChip.Number

/-! ## Quotients of naturals -/

theorem twoTo_pos (n : Nat) : 0 < twoTo n := Nat.pow_pos (by decide)

theorem tenTo_pos (n : Nat) : 0 < tenTo n := Nat.pow_pos (by decide)

theorem twoTo_add (j k : Nat) : twoTo (j + k) = twoTo j * twoTo k := Nat.pow_add 2 j k

theorem twoTo_le_twoTo {j k : Nat} (h : j ≤ k) : twoTo j ≤ twoTo k :=
  Nat.pow_le_pow_right (by decide) h

theorem twoTo_lt_tenTo {j k : Nat} (h : j < k) : twoTo j < tenTo k :=
  calc twoTo j < twoTo k := Nat.pow_lt_pow_right (by decide) h
    _ ≤ tenTo k := Nat.pow_le_pow_left (by decide) k

theorem cast_twoTo (n : Nat) : (twoTo n : ℚ) = 2 ^ n := by
  simp [twoTo]

theorem cast_tenTo (n : Nat) : (tenTo n : ℚ) = 10 ^ n := by
  simp [tenTo]

def ratio (q : Nat × Nat) : ℚ := q.1 / q.2

theorem ratio_lt_one_iff {q : Nat × Nat} (pos : 0 < q.2) :
    ratio q < 1 ↔ q.1 < q.2 := by
  have pos' : (0 : ℚ) < q.2 := by exact_mod_cast pos
  rw [ratio, div_lt_one pos']
  exact_mod_cast Iff.rfl

theorem ratio_quotientOf (mantissa : Nat) (exponent : Int) :
    ratio (quotientOf mantissa exponent) = mantissa * 2 ^ exponent := by
  unfold quotientOf ratio
  split
  · rename_i sign
    obtain ⟨n, rfl⟩ := Int.eq_ofNat_of_zero_le sign
    simp [cast_twoTo]
  · rename_i sign
    obtain ⟨n, rfl⟩ := Int.exists_eq_neg_ofNat (by omega : exponent ≤ 0)
    simp [cast_twoTo, div_eq_mul_inv]

theorem ratio_inPlaces (value : Nat × Nat) (place : Int) :
    ratio (inPlaces value place) = ratio value / 10 ^ place := by
  unfold inPlaces ratio
  split
  · rename_i sign
    obtain ⟨n, rfl⟩ := Int.eq_ofNat_of_zero_le sign
    simp [cast_tenTo, div_div]
  · rename_i sign
    obtain ⟨n, rfl⟩ := Int.exists_eq_neg_ofNat (by omega : place ≤ 0)
    simp [cast_tenTo, div_eq_mul_inv]
    ring

theorem quotientOf_snd_pos (mantissa : Nat) (exponent : Int) :
    0 < (quotientOf mantissa exponent).2 := by
  unfold quotientOf
  split <;> simp [twoTo_pos]

theorem inPlaces_snd_pos {value : Nat × Nat} (pos : 0 < value.2) (place : Int) :
    0 < (inPlaces value place).2 := by
  unfold inPlaces
  split <;> simp [pos, tenTo_pos]

/-! ## The place of the point -/

/-- Three decimal digits take at most ten bits, and 93 bits at most 28 digits. -/
theorem ten_zpow_le_two_zpow {a b : Int} (large : 10 * a ≤ 3 * b)
    (small : 93 * a ≤ 28 * b) : (10 : ℚ) ^ a ≤ 2 ^ b := by
  rcases le_total 0 a with sign | sign
  · obtain ⟨n, rfl⟩ := Int.eq_ofNat_of_zero_le sign
    obtain ⟨m, rfl⟩ := Int.eq_ofNat_of_zero_le (by omega : 0 ≤ b)
    have cubes : ((10 : ℚ) ^ n) ^ 3 ≤ (2 ^ m) ^ 3 := by
      calc ((10 : ℚ) ^ n) ^ 3 = (10 ^ 3) ^ n := by
            rw [← pow_mul, ← pow_mul, mul_comm]
        _ ≤ (2 ^ 10) ^ n := by gcongr; norm_num
        _ = 2 ^ (10 * n) := by rw [← pow_mul]
        _ ≤ 2 ^ (3 * m) := pow_le_pow_right₀ (by norm_num) (by omega)
        _ = (2 ^ m) ^ 3 := by rw [← pow_mul, mul_comm]
    have bound := le_of_pow_le_pow_left₀ (by norm_num) (by positivity) cubes
    simpa using bound
  · obtain ⟨n, rfl⟩ := Int.exists_eq_neg_ofNat sign
    rcases le_total 0 b with sign' | sign'
    · calc (10 : ℚ) ^ (-(n : Int)) ≤ 1 :=
            zpow_le_one_of_nonpos₀ (by norm_num) (by omega)
        _ ≤ 2 ^ b := one_le_zpow₀ (by norm_num) sign'
    · obtain ⟨m, rfl⟩ := Int.exists_eq_neg_ofNat sign'
      have powers : ((2 : ℚ) ^ m) ^ 28 ≤ (10 ^ n) ^ 28 := by
        calc ((2 : ℚ) ^ m) ^ 28 = 2 ^ (28 * m) := by rw [← pow_mul, mul_comm]
          _ ≤ 2 ^ (93 * n) := pow_le_pow_right₀ (by norm_num) (by omega)
          _ = (2 ^ 93) ^ n := by rw [← pow_mul]
          _ ≤ (10 ^ 28) ^ n := by gcongr; norm_num
          _ = (10 ^ n) ^ 28 := by rw [← pow_mul, ← pow_mul, mul_comm]
      have bound := le_of_pow_le_pow_left₀ (by norm_num) (by positivity) powers
      rw [zpow_neg, zpow_neg, zpow_natCast, zpow_natCast]
      exact inv_anti₀ (by positivity) bound

theorem two_zpow_log2_le {value : Nat × Nat} (num : 0 < value.1) (den : 0 < value.2) :
    (2 : ℚ) ^ ((value.1.log2 : Int) - (value.2.log2 + 1)) ≤ ratio value := by
  have top : (2 : ℚ) ^ value.1.log2 ≤ value.1 := by
    exact_mod_cast Nat.log2_self_le (by omega)
  have bottom : (value.2 : ℚ) ≤ 2 ^ (value.2.log2 + 1) := by
    exact_mod_cast (Nat.lt_log2_self (n := value.2)).le
  have den' : (0 : ℚ) < value.2 := by exact_mod_cast den
  have split : (2 : ℚ) ^ ((value.2.log2 : Int) + 1) = 2 ^ (value.2.log2 + 1) := by
    norm_cast
  rw [ratio, le_div_iff₀ den', zpow_sub₀ (by norm_num), zpow_natCast, split,
    div_mul_eq_mul_div, div_le_iff₀ (by positivity)]
  exact mul_le_mul top bottom (by positivity) (by positivity)

/-- The digit that follows the place of the point is not zero. -/
theorem ten_zpow_pointPlace_le {value : Nat × Nat} (num : 0 < value.1)
    (den : 0 < value.2) (low : -1100 ≤ (value.1.log2 : Int) - value.2.log2)
    (high : (value.1.log2 : Int) - value.2.log2 ≤ 1100) :
    (10 : ℚ) ^ (pointPlace value - 1) ≤ ratio value := by
  have reached {k : Int} (h : ¬ (inPlaces value k).1 < (inPlaces value k).2) :
      (10 : ℚ) ^ k ≤ ratio value := by
    rw [← ratio_lt_one_iff (inPlaces_snd_pos den k), ratio_inPlaces, not_lt,
      le_div_iff₀ (by positivity), one_mul] at h
    exact h
  have mono {j k : Int} (h : j ≤ k) : (10 : ℚ) ^ j ≤ 10 ^ k :=
    zpow_le_zpow_right₀ (by norm_num) h
  unfold pointPlace
  simp only [decide_eq_true_eq]
  -- only the first answer rests on the guess alone; the others passed a test
  split
  · refine le_trans (ten_zpow_le_two_zpow ?_ ?_) (two_zpow_log2_le num den) <;> omega
  split
  · rename_i below _
    exact (mono (by omega)).trans (reached below)
  split
  · rename_i below _
    exact (mono (by omega)).trans (reached below)
  · rename_i below
    exact (mono (by omega)).trans (reached below)

theorem log2_quotientOf {mantissa : Nat} {exponent : Int} (pos : 0 < mantissa)
    (small : mantissa < twoTo 53) (low : -1074 ≤ exponent) (high : exponent ≤ 971) :
    let value := quotientOf mantissa exponent
    0 < value.1 ∧ -1100 ≤ (value.1.log2 : Int) - value.2.log2 ∧
      (value.1.log2 : Int) - value.2.log2 ≤ 1100 := by
  unfold quotientOf
  split
  · rename_i sign
    obtain ⟨n, rfl⟩ := Int.eq_ofNat_of_zero_le sign
    have prod : 0 < mantissa * twoTo n := Nat.mul_pos pos (twoTo_pos n)
    have bound : mantissa * twoTo n < 2 ^ (53 + n) := by
      rw [pow_add]
      exact Nat.mul_lt_mul_of_pos_right small (twoTo_pos n)
    have bits := (Nat.log2_lt (by omega)).mpr bound
    have one : Nat.log2 1 = 0 := by decide
    simp only [Int.toNat_natCast, one]
    exact ⟨prod, by omega, by omega⟩
  · rename_i sign
    obtain ⟨n, rfl⟩ := Int.exists_eq_neg_ofNat (by omega : exponent ≤ 0)
    have bits := (Nat.log2_lt (by omega)).mpr (show mantissa < 2 ^ 53 from small)
    have gap : (twoTo n).log2 = n := Nat.log2_two_pow
    simp only [neg_neg, Int.toNat_natCast, gap]
    exact ⟨pos, by omega, by omega⟩

/-! ## How large numbers get -/

/-- How large the parts of a finite double get. -/
theorem Reading.ofBits_bounds {bits : Nat} {negative : Bool} {mantissa : Nat} {exponent : Int}
    (h : Reading.ofBits bits = .finite negative mantissa exponent) :
    mantissa < twoTo 53 ∧ exponent ≤ 971 := by
  unfold Reading.ofBits at h
  by_cases full : bits / twoTo 52 % twoTo 11 = twoTo 11 - 1
  · simp only [full, if_true] at h
    split at h <;> cases h
  by_cases least : bits / twoTo 52 % twoTo 11 = 0
  · simp only [least, if_true] at h
    cases h
    simp only [twoTo, Nat.pow_eq, Nat.reducePow] at *
    omega
  · simp only [full, least, if_false] at h
    cases h
    simp only [twoTo, Nat.pow_eq, Nat.reducePow] at *
    omega

theorem intLimit?_eq_none_iff {n : Int} :
    intLimit? n = none ↔ n.natAbs < tenTo longestInteger := by
  unfold intLimit?
  split <;> simp_all

end FluidChip.Number
