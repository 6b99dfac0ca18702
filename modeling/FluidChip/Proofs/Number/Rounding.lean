import FluidChip.Proofs.Number.Decimal

/-!
# Rounding to the nearest double

The rationals that round to a given double make an interval around it, half a unit
of its last place wide to either side, and a quarter below a power of two.  The
ends belong to it where the mantissa is even.  `roundBits` sends every quotient in
the interval to the bits of the double.
-/

namespace FluidChip.Number

variable {a b k mantissa : Nat} {exponent place : Int} {q : ℚ}

/-! ## Rounding a quotient to a natural -/

/-- What lies between a quotient and the natural below it. -/
def leftOver (a b : Nat) : ℚ := ratio (a, b) - (a / b : Nat)

theorem ratio_eq_add_leftOver (a b : Nat) : ratio (a, b) = (a / b : Nat) + leftOver a b := by
  rw [leftOver, add_sub_cancel]

theorem leftOver_mul (pos : 0 < b) : leftOver a b * b = (a % b : Nat) := by
  have pos' : (b : ℚ) ≠ 0 := by exact_mod_cast pos.ne'
  have division : ((a / b : Nat) : ℚ) * b + (a % b : Nat) = a := by
    exact_mod_cast Nat.div_add_mod' a b
  rw [leftOver, ratio, sub_mul, div_mul_cancel₀ _ pos']
  linarith

theorem leftOver_mem (pos : 0 < b) : 0 ≤ leftOver a b ∧ leftOver a b < 1 := by
  have pos' : (0 : ℚ) < b := by exact_mod_cast pos
  have rest := leftOver_mul (a := a) pos
  have below : ((a % b : Nat) : ℚ) < b := by exact_mod_cast Nat.mod_lt a pos
  have nonneg : (0 : ℚ) ≤ (a % b : Nat) := Nat.cast_nonneg _
  constructor <;> nlinarith

theorem leftOver_eq_zero_iff (pos : 0 < b) : leftOver a b = 0 ↔ a % b = 0 := by
  have pos' : (b : ℚ) ≠ 0 := by exact_mod_cast pos.ne'
  rw [← Nat.cast_eq_zero (R := ℚ), ← leftOver_mul pos, mul_eq_zero]
  exact (or_iff_left pos').symm

theorem leftOver_lt_half_iff (pos : 0 < b) : leftOver a b < 1 / 2 ↔ 2 * (a % b) < b := by
  have pos' : (0 : ℚ) < b := by exact_mod_cast pos
  rw [← Nat.cast_lt (α := ℚ), Nat.cast_mul, ← leftOver_mul pos]
  constructor <;> intro h <;> push_cast at * <;> nlinarith

theorem half_lt_leftOver_iff (pos : 0 < b) : 1 / 2 < leftOver a b ↔ b < 2 * (a % b) := by
  have pos' : (0 : ℚ) < b := by exact_mod_cast pos
  rw [← Nat.cast_lt (α := ℚ), Nat.cast_mul, ← leftOver_mul pos]
  constructor <;> intro h <;> push_cast at * <;> nlinarith

theorem roundDiv_cases (pos : 0 < b) :
    leftOver a b < 1 / 2 ∧ roundDiv a b = a / b ∨
      1 / 2 < leftOver a b ∧ roundDiv a b = a / b + 1 ∨
      leftOver a b = 1 / 2 ∧ roundDiv a b = a / b + a / b % 2 := by
  unfold roundDiv
  simp only [← leftOver_lt_half_iff pos, ← half_lt_leftOver_iff pos]
  rcases lt_trichotomy (leftOver a b) (1 / 2) with h | h | h
  · exact .inl ⟨h, if_pos h⟩
  · exact .inr (.inr ⟨h, by rw [if_neg h.not_lt, if_neg h.not_gt]⟩)
  · exact .inr (.inl ⟨h, by rw [if_neg h.not_gt, if_pos h]⟩)

theorem roundDiv_near (pos : 0 < b) :
    (roundDiv a b : ℚ) - 1 / 2 ≤ ratio (a, b) ∧ ratio (a, b) ≤ roundDiv a b + 1 / 2 := by
  obtain ⟨nonneg, below⟩ := leftOver_mem (a := a) pos
  have parity : ((a / b % 2 : Nat) : ℚ) ≤ 1 := by
    exact_mod_cast Nat.le_of_lt_succ (Nat.mod_lt _ two_pos)
  have nonneg' : (0 : ℚ) ≤ (a / b % 2 : Nat) := Nat.cast_nonneg _
  rcases roundDiv_cases (a := a) pos with ⟨part, same⟩ | ⟨part, same⟩ | ⟨part, same⟩ <;>
    rw [same, ratio_eq_add_leftOver] <;> constructor <;> push_cast at * <;> linarith

/-- A quotient at most a half away from a natural rounds to it; from an odd one
it has to be nearer than that. -/
theorem roundDiv_eq (pos : 0 < b) (low : (k : ℚ) - 1 / 2 ≤ ratio (a, b))
    (high : ratio (a, b) ≤ k + 1 / 2)
    (odd : k % 2 = 1 → (k : ℚ) - 1 / 2 < ratio (a, b) ∧ ratio (a, b) < k + 1 / 2) :
    roundDiv a b = k := by
  obtain ⟨nonneg, below⟩ := leftOver_mem (a := a) pos
  rw [ratio_eq_add_leftOver] at low high odd
  rcases roundDiv_cases (a := a) pos with ⟨part, same⟩ | ⟨part, same⟩ | ⟨part, same⟩ <;>
    rw [same] <;> generalize a / b = n at *
  · have left : (k : ℚ) < n + 1 := by linarith
    have right : (n : ℚ) < k + 1 := by linarith
    norm_cast at left right
    omega
  · have left : (k : ℚ) < n + 2 := by linarith
    have right : (n : ℚ) < k := by linarith
    norm_cast at left right
    omega
  · have left : (k : ℚ) ≤ n + 1 := by linarith
    have right : (n : ℚ) ≤ k := by linarith
    have even : k % 2 = 0 := by
      by_contra not
      obtain ⟨left, right⟩ := odd (by omega)
      have left' : (k : ℚ) < n + 1 := by linarith
      have right' : (n : ℚ) < k := by linarith
      norm_cast at left' right'
      omega
    norm_cast at left right
    omega

/-! ## The last place -/

/-- A quotient in units of a binary place. -/
def inHalvings (value : Nat × Nat) (place : Int) : Nat × Nat :=
  if 0 ≤ place then (value.1, value.2 * twoTo place.toNat)
  else (value.1 * twoTo (-place).toNat, value.2)

theorem ratio_inHalvings (value : Nat × Nat) (place : Int) :
    ratio (inHalvings value place) = ratio value / 2 ^ place := by
  unfold inHalvings ratio
  split
  · rename_i sign
    obtain ⟨n, rfl⟩ := Int.eq_ofNat_of_zero_le sign
    simp [cast_twoTo, div_div]
  · rename_i sign
    obtain ⟨n, rfl⟩ := Int.exists_eq_neg_ofNat (by omega : place ≤ 0)
    simp [cast_twoTo, div_eq_mul_inv]
    ring

theorem inHalvings_snd_pos {value : Nat × Nat} (pos : 0 < value.2) (place : Int) :
    0 < (inHalvings value place).2 := by
  unfold inHalvings
  split <;> simp [pos, twoTo_pos]

theorem roundDiv_inHalvings (a b : Nat) (place : Int) :
    (if 0 ≤ place then roundDiv a (b * twoTo place.toNat)
      else roundDiv (a * twoTo (-place).toNat) b) =
      roundDiv (inHalvings (a, b) place).1 (inHalvings (a, b) place).2 := by
  unfold inHalvings
  split <;> rfl

theorem ratio_lt_two_zpow_log2 {value : Nat × Nat} (den : 0 < value.2) :
    ratio value < (2 : ℚ) ^ ((value.1.log2 : Int) + 1 - value.2.log2) := by
  have den' : (0 : ℚ) < value.2 := by exact_mod_cast den
  have top : (value.1 : ℚ) < 2 ^ (value.1.log2 + 1) := by
    exact_mod_cast Nat.lt_log2_self
  have bottom : (2 : ℚ) ^ value.2.log2 ≤ value.2 := by
    exact_mod_cast Nat.log2_self_le (by omega)
  have split : (2 : ℚ) ^ ((value.1.log2 : Int) + 1) = 2 ^ (value.1.log2 + 1) := by norm_cast
  rw [ratio, div_lt_iff₀ den', zpow_sub₀ two_ne_zero, zpow_natCast, split,
    div_mul_eq_mul_div, lt_div_iff₀ (by positivity)]
  exact mul_lt_mul top bottom (by positivity) (by positivity)

theorem floor_lt_iff {value : Nat × Nat} (den : 0 < value.2) (n : Nat) :
    value.1 / value.2 < n ↔ ratio value < n := by
  have den' : (0 : ℚ) < value.2 := by exact_mod_cast den
  rw [Nat.div_lt_iff_lt_mul den, ratio, div_lt_iff₀ den']
  exact_mod_cast Iff.rfl

/-- The last place is the one in which 53 bits stand before the point, if it is no
lower than that of the least double. -/
theorem lastPlace_spec (num : 0 < a) (den : 0 < b) :
    -1074 ≤ lastPlace a b ∧ ratio (a, b) < 2 ^ (lastPlace a b + 53) ∧
      (lastPlace a b = -1074 ∨ 2 ^ (lastPlace a b + 52) ≤ ratio (a, b)) := by
  have clamped {top : Int} (high : ratio (a, b) < 2 ^ (top + 53))
      (low : 2 ^ (top + 52) ≤ ratio (a, b)) : -1074 ≤ max (-1074) top ∧
      ratio (a, b) < 2 ^ (max (-1074) top + 53) ∧
        (max (-1074) top = -1074 ∨ 2 ^ (max (-1074) top + 52) ≤ ratio (a, b)) := by
    refine ⟨le_max_left _ _, high.trans_le ?_, ?_⟩
    · exact zpow_le_zpow_right₀ one_le_two (by omega)
    · rcases le_total top (-1074) with below | above
      · exact .inl (max_eq_left below)
      · rw [max_eq_right above]
        exact .inr low
  have low := two_zpow_log2_le (show 0 < (a, b).1 from num) den
  have high := ratio_lt_two_zpow_log2 (show 0 < (a, b).2 from den)
  unfold lastPlace
  simp only
  generalize guessed : (a.log2 : Int) - b.log2 - 52 = guess
  have scaled : (if 0 ≤ guess then a / (b * twoTo guess.toNat)
      else a * twoTo (-guess).toNat / b) =
      (inHalvings (a, b) guess).1 / (inHalvings (a, b) guess).2 := by
    unfold inHalvings
    split <;> rfl
  have short : (inHalvings (a, b) guess).1 / (inHalvings (a, b) guess).2 < twoTo 52 ↔
      ratio (a, b) < 2 ^ (guess + 52) := by
    rw [floor_lt_iff (inHalvings_snd_pos den guess), ratio_inHalvings, cast_twoTo,
      div_lt_iff₀ (by positivity), add_comm, zpow_add₀ two_ne_zero]
    norm_cast
  rw [scaled]
  split
  · rename_i small
    apply clamped
    · rw [show guess - 1 + 53 = guess + 52 by omega]
      exact short.mp small
    · rw [show guess - 1 + 52 = (a.log2 : Int) - (b.log2 + 1) by omega]
      exact low
  · rename_i large
    apply clamped
    · rw [show guess + 53 = (a.log2 : Int) + 1 - b.log2 by omega]
      exact high
    · exact not_lt.mp (mt short.mpr large)

theorem lastPlace_eq (num : 0 < a) (den : 0 < b) (least : -1074 ≤ exponent)
    (high : ratio (a, b) < 2 ^ (exponent + 53))
    (low : exponent = -1074 ∨ 2 ^ (exponent + 52) ≤ ratio (a, b)) :
    lastPlace a b = exponent := by
  obtain ⟨least', high', low'⟩ := lastPlace_spec num den
  have apart {p p' : Int} (least : -1074 ≤ p) (high : ratio (a, b) < 2 ^ (p + 53))
      (low : p' = -1074 ∨ 2 ^ (p' + 52) ≤ ratio (a, b)) : p' ≤ p := by
    by_contra above
    rcases low with rfl | low
    · omega
    · have mono : (2 : ℚ) ^ (p + 53) ≤ 2 ^ (p' + 52) :=
        zpow_le_zpow_right₀ one_le_two (by omega)
      linarith
  exact le_antisymm (apart least high low') (apart least' high' low)

/-! ## The interval of a double -/

/-- The mantissa and the exponent of a positive double. -/
structure Canonical (mantissa : Nat) (exponent : Int) : Prop where
  pos : 0 < mantissa
  small : mantissa < twoTo 53
  full : twoTo 52 ≤ mantissa ∨ exponent = -1074
  low : -1074 ≤ exponent
  high : exponent ≤ 971

/-- The bits of a positive double. -/
def bitsOf (mantissa : Nat) (exponent : Int) : Nat :=
  (exponent + 1074).toNat * twoTo 52 + mantissa

/-- How far the interval reaches down, in units of the last place. -/
def downward (mantissa : Nat) (exponent : Int) : ℚ :=
  if mantissa = twoTo 52 ∧ exponent ≠ -1074 then 1 / 4 else 1 / 2

structure InInterval (mantissa : Nat) (exponent : Int) (q : ℚ) : Prop where
  low : (mantissa - downward mantissa exponent) * 2 ^ exponent ≤ q
  high : q ≤ (mantissa + 1 / 2) * 2 ^ exponent
  odd : mantissa % 2 = 1 → (mantissa - downward mantissa exponent) * 2 ^ exponent < q ∧
    q < (mantissa + 1 / 2) * 2 ^ exponent

theorem bitsOf_lt (c : Canonical mantissa exponent) : bitsOf mantissa exponent < infiniteBits := by
  obtain ⟨-, small, -, low, high⟩ := c
  simp only [bitsOf, infiniteBits, twoTo, Nat.pow_eq] at *
  omega

theorem downward_le (mantissa : Nat) (exponent : Int) : downward mantissa exponent ≤ 1 / 2 := by
  unfold downward
  split <;> norm_num

theorem InInterval.scaled_low (h : InInterval mantissa exponent q) :
    (mantissa : ℚ) - 1 / 2 ≤ q / 2 ^ exponent := by
  have reach := downward_le mantissa exponent
  rw [le_div_iff₀ (by positivity)]
  refine le_trans ?_ h.low
  gcongr

theorem InInterval.scaled_high (h : InInterval mantissa exponent q) :
    q / 2 ^ exponent ≤ mantissa + 1 / 2 := by
  rw [div_le_iff₀ (by positivity)]
  exact h.high

theorem InInterval.scaled_odd (h : InInterval mantissa exponent q) (odd : mantissa % 2 = 1) :
    (mantissa : ℚ) - 1 / 2 < q / 2 ^ exponent ∧ q / 2 ^ exponent < mantissa + 1 / 2 := by
  obtain ⟨low, high⟩ := h.odd odd
  have reach := downward_le mantissa exponent
  rw [lt_div_iff₀ (by positivity), div_lt_iff₀ (by positivity)]
  refine ⟨lt_of_le_of_lt ?_ low, high⟩
  gcongr

theorem InInterval.pos (c : Canonical mantissa exponent) (h : InInterval mantissa exponent q) :
    0 < q := by
  have one : (1 : ℚ) ≤ mantissa := by exact_mod_cast c.pos
  have scaled := h.scaled_low
  have positive : 0 < q / 2 ^ exponent := by linarith
  exact (div_pos_iff_of_pos_right (by positivity)).mp positive

theorem InInterval.lt_two_zpow (c : Canonical mantissa exponent)
    (h : InInterval mantissa exponent q) : q < 2 ^ (exponent + 53) := by
  have top : (mantissa : ℚ) + 1 ≤ 2 ^ 53 := by exact_mod_cast c.small
  have scaled := h.scaled_high
  have whole : (2 : ℚ) ^ (53 : Int) = 2 ^ 53 := by norm_cast
  rw [add_comm, zpow_add₀ two_ne_zero, ← div_lt_iff₀ (by positivity), whole]
  linarith

/-- Below the power of two at its lower end a double has the place of its
predecessors. -/
theorem InInterval.below_power (c : Canonical mantissa exponent)
    (h : InInterval mantissa exponent q) (least : exponent ≠ -1074)
    (below : q < 2 ^ (exponent + 52)) :
    mantissa = twoTo 52 ∧ (2 ^ 53 : ℚ) - 1 / 2 ≤ q / 2 ^ (exponent - 1) := by
  have full : twoTo 52 ≤ mantissa := c.full.resolve_right least
  have scaled : q / 2 ^ exponent < 2 ^ 52 := by
    rw [div_lt_iff₀ (by positivity)]
    rw [add_comm, zpow_add₀ two_ne_zero] at below
    exact_mod_cast below
  have power : mantissa = twoTo 52 := by
    by_contra other
    have above : (2 ^ 52 : ℚ) + 1 ≤ mantissa := by
      exact_mod_cast (lt_of_le_of_ne full (Ne.symm other) : twoTo 52 < mantissa)
    linarith [h.scaled_low]
  have low := h.low
  refine ⟨power, ?_⟩
  rw [zpow_sub_one₀ two_ne_zero, le_div_iff₀ (by positivity)]
  simp only [downward, power, least, cast_twoTo, ne_eq, not_false_eq_true, and_self,
    if_true] at low
  linarith

theorem roundBits_of_inInterval (c : Canonical mantissa exponent) (den : 0 < b)
    (h : InInterval mantissa exponent (ratio (a, b))) :
    roundBits a b = bitsOf mantissa exponent := by
  have positive := h.pos c
  have num : 0 < a := by
    by_contra none
    simp [ratio, Nat.eq_zero_of_not_pos none] at positive
  have finite := bitsOf_lt c
  rw [roundBits, if_neg (by omega)]
  simp only [roundDiv_inHalvings]
  by_cases inside : exponent = -1074 ∨ 2 ^ (exponent + 52) ≤ ratio (a, b)
  · rw [lastPlace_eq num den c.low (h.lt_two_zpow c) inside,
      roundDiv_eq (inHalvings_snd_pos den exponent) (k := mantissa)]
    · exact min_eq_right finite.le
    · rw [ratio_inHalvings]
      exact h.scaled_low
    · rw [ratio_inHalvings]
      exact h.scaled_high
    · rw [ratio_inHalvings]
      exact h.scaled_odd
  · obtain ⟨least, below⟩ := not_or.mp inside
    obtain ⟨rfl, low⟩ := h.below_power c least (not_le.mp below)
    have lowest := c.low
    have carried : bitsOf (twoTo 52) exponent =
        (exponent - 1 + 1074).toNat * twoTo 52 + twoTo 53 := by
      simp only [bitsOf, twoTo, Nat.pow_eq]
      omega
    have high : ratio (a, b) < 2 ^ (exponent - 1 + 53) := by
      rw [show exponent - 1 + 53 = exponent + 52 by omega]
      exact not_le.mp below
    have scaled : ratio (a, b) / 2 ^ (exponent - 1) < 2 ^ 53 := by
      rw [div_lt_iff₀ (by positivity)]
      rw [add_comm, zpow_add₀ two_ne_zero] at high
      exact_mod_cast high
    rw [lastPlace_eq num den (show -1074 ≤ exponent - 1 by omega) high,
      roundDiv_eq (inHalvings_snd_pos den (exponent - 1)) (k := twoTo 53), ← carried]
    · exact min_eq_right finite.le
    · rw [ratio_inHalvings, cast_twoTo]
      exact low
    · rw [ratio_inHalvings, cast_twoTo]
      linarith
    · intro odd
      exact absurd odd (by decide)
    · refine .inr ?_
      rw [add_comm, zpow_add₀ two_ne_zero, ← le_div_iff₀ (by positivity)]
      norm_num at *
      linarith

end FluidChip.Number
