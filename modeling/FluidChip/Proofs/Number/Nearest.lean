import FluidChip.Proofs.Number.Double

/-!
# The nearest double

A number that is not negative is rounded at the place where 53 of its bits stand before
the point.  What comes out is one of three things: zero, for a number no larger than half
the least double; the bits of an infinity, from half a unit past the largest double on;
and else the positive double in whose interval the number lies.
-/

namespace FluidChip.Number

open Float.Model Float.Model.UnpackedFloat

variable {a b k bits mantissa : Nat} {exponent place : Int} {q y : ℚ} {x : Float}

/-! ## The nearest natural -/

/-- The natural nearest to a number, the even one of two that are equally near. -/
structure Nearest (k : Nat) (y : ℚ) : Prop where
  low : (k : ℚ) - 1 / 2 ≤ y
  high : y ≤ k + 1 / 2
  odd : k % 2 = 1 → (k : ℚ) - 1 / 2 < y ∧ y < k + 1 / 2

theorem Nearest.self (k : Nat) : Nearest k k := by
  constructor <;> intros <;> norm_num

theorem roundDiv_nearest (pos : 0 < b) : Nearest (roundDiv a b) (ratio (a, b)) := by
  obtain ⟨low, high⟩ := roundDiv_near (a := a) pos
  refine ⟨low, high, fun odd => ?_⟩
  obtain ⟨nonneg, below⟩ := leftOver_mem (a := a) pos
  rcases roundDiv_cases (a := a) pos with ⟨part, same⟩ | ⟨part, same⟩ | ⟨part, same⟩
  · rw [same, ratio_eq_add_leftOver]
    constructor <;> linarith
  · rw [same, ratio_eq_add_leftOver]
    push_cast
    constructor <;> linarith
  · -- a tie goes to an even natural
    omega

/-! ## The place of rounding -/

/-- The place in which a number has 53 bits before the point, and none lower than that of
the least double. -/
structure AtPlace (place : Int) (q : ℚ) : Prop where
  least : -1074 ≤ place
  below : q < 2 ^ (place + 53)
  full : place = -1074 ∨ 2 ^ (place + 52) ≤ q

theorem atPlace_lastPlace (num : 0 < a) (den : 0 < b) :
    AtPlace (lastPlace a b) (ratio (a, b)) := by
  obtain ⟨least, below, full⟩ := lastPlace_spec num den
  exact ⟨least, below, full⟩

theorem AtPlace.scaled_below (h : AtPlace place q) : q / 2 ^ place < 2 ^ 53 := by
  have below := h.below
  rw [add_comm, zpow_add₀ two_ne_zero] at below
  rw [div_lt_iff₀ (by positivity)]
  exact_mod_cast below

theorem AtPlace.scaled_full (h : AtPlace place q) (above : place ≠ -1074) :
    2 ^ 52 ≤ q / 2 ^ place := by
  have full := h.full.resolve_left above
  rw [add_comm, zpow_add₀ two_ne_zero] at full
  rw [le_div_iff₀ (by positivity)]
  exact_mod_cast full

/-- The mantissa fills its 53 bits, or one more where rounding carries into it. -/
theorem AtPlace.mantissa_mem (h : AtPlace place q) (near : Nearest k (q / 2 ^ place)) :
    k ≤ twoTo 53 ∧ (place = -1074 ∨ twoTo 52 ≤ k) := by
  have below := h.scaled_below
  constructor
  · have bound : (k : ℚ) < twoTo 53 + 1 := by
      rw [cast_twoTo]
      linarith [near.low]
    exact Nat.lt_succ_iff.mp (by exact_mod_cast bound)
  · refine or_iff_not_imp_left.mpr fun above => ?_
    have bound : (twoTo 52 : ℚ) < k + 1 := by
      rw [cast_twoTo]
      linarith [near.high, h.scaled_full above]
    exact Nat.lt_succ_iff.mp (by exact_mod_cast bound)

theorem atPlace_canonical (c : Canonical mantissa exponent) :
    AtPlace exponent (mantissa * 2 ^ exponent) := by
  obtain ⟨-, small, full, low, -⟩ := c
  have power : (0 : ℚ) < 2 ^ exponent := by positivity
  refine ⟨low, ?_, full.symm.imp_right fun full => ?_⟩
  · rw [add_comm, zpow_add₀ two_ne_zero]
    have small' : (mantissa : ℚ) < 2 ^ (53 : Int) := by exact_mod_cast small
    exact mul_lt_mul_of_pos_right small' power
  · rw [add_comm, zpow_add₀ two_ne_zero]
    have full' : (2 : ℚ) ^ (52 : Int) ≤ mantissa := by exact_mod_cast full
    exact mul_le_mul_of_nonneg_right full' power.le

/-! ## Rounding -/

/-- Half of the least double. -/
def leastHalf : ℚ := 2 ^ (-1075 : Int)

/-- The end of the interval of the largest double. -/
def limit : ℚ := (2 ^ 53 - 1 / 2) * 2 ^ (971 : Int)

/-- The bits that a number rounds to. -/
inductive Rounded (q : ℚ) : Nat → Prop where
  | zero (small : q ≤ leastHalf) : Rounded q 0
  | canonical {mantissa : Nat} {exponent : Int} (c : Canonical mantissa exponent)
    (near : InInterval mantissa exponent q) : Rounded q (bitsOf mantissa exponent)
  | infinite (large : limit ≤ q) : Rounded q infiniteBits

/-- The bits of a mantissa over a place, one too large included. -/
def bitsAt (place : Int) (k : Nat) : Nat :=
  min infiniteBits ((place + 1074).toNat * twoTo 52 + k)

theorem limit_le_of_place (h : AtPlace place q) (high : 972 ≤ place) : limit ≤ q := by
  have full := h.full.resolve_left (by omega)
  refine le_trans ?_ full
  have top : limit ≤ 2 ^ (972 + 52 : Int) := by
    rw [limit, show (972 + 52 : Int) = 53 + 971 by norm_num, zpow_add₀ two_ne_zero]
    gcongr
    norm_num
  exact top.trans (zpow_le_zpow_right₀ one_le_two (by omega))

theorem inInterval_of_nearest (h : AtPlace place q) (near : Nearest k (q / 2 ^ place)) :
    InInterval k place q := by
  have power : (0 : ℚ) < 2 ^ place := by positivity
  have high := near.high
  rw [div_le_iff₀ power] at high
  by_cases corner : k = twoTo 52 ∧ place ≠ -1074
  · -- the lower end of a power of two is not reached from above
    obtain ⟨rfl, above⟩ := corner
    have full := h.scaled_full above
    rw [le_div_iff₀ power] at full
    refine ⟨?_, high, fun odd => absurd odd (by decide)⟩
    refine le_trans (mul_le_mul_of_nonneg_right ?_ power.le) full
    have cast := cast_twoTo 52
    simp only [downward, above, ne_eq, not_false_eq_true, and_self, if_true]
    linarith
  · have low := near.low
    rw [le_div_iff₀ power] at low
    constructor
    case low => rwa [downward, if_neg corner]
    case high => exact high
    case odd =>
      intro odd
      obtain ⟨left, right⟩ := near.odd odd
      rw [lt_div_iff₀ power] at left
      rw [div_lt_iff₀ power] at right
      rw [downward, if_neg corner]
      exact ⟨left, right⟩

/-- A carry makes the least mantissa of the next place. -/
theorem inInterval_of_carry (h : AtPlace place q)
    (near : Nearest (twoTo 53) (q / 2 ^ place)) : InInterval (twoTo 52) (place + 1) q := by
  have power : (0 : ℚ) < 2 ^ place := by positivity
  have next : (2 : ℚ) ^ (place + 1) = 2 * 2 ^ place := by
    rw [zpow_add_one₀ two_ne_zero, mul_comm]
  have low := near.low
  have below := h.scaled_below
  rw [le_div_iff₀ power, cast_twoTo] at low
  rw [div_lt_iff₀ power] at below
  have above : place + 1 ≠ -1074 := by
    have least := h.least
    omega
  refine ⟨?_, ?_, fun odd => absurd odd (by decide)⟩
  · simp only [downward, above, ne_eq, not_false_eq_true, and_self, if_true]
    rw [next, cast_twoTo]
    linarith
  · rw [next, cast_twoTo]
    linarith

theorem rounded_bitsAt (h : AtPlace place q) (near : Nearest k (q / 2 ^ place)) :
    Rounded q (bitsAt place k) := by
  obtain ⟨small, full⟩ := h.mantissa_mem near
  have least := h.least
  by_cases high : 972 ≤ place
  · have infinite : bitsAt place k = infiniteBits := by
      simp only [bitsAt, infiniteBits, twoTo, Nat.pow_eq] at *
      omega
    rw [infinite]
    exact .infinite (limit_le_of_place h high)
  rcases Nat.eq_zero_or_pos k with rfl | pos
  · obtain rfl : place = -1074 := full.resolve_right (by decide)
    refine .zero ?_
    have half := near.high
    rw [div_le_iff₀ (by positivity), Nat.cast_zero, zero_add, one_div, mul_comm] at half
    rwa [leastHalf, show (-1075 : Int) = -1074 - 1 by norm_num, zpow_sub_one₀ two_ne_zero]
  rcases Nat.lt_or_ge k (twoTo 53) with short | long
  · have c : Canonical k place := ⟨pos, short, full.symm, least, by omega⟩
    have bits : bitsAt place k = bitsOf k place := min_eq_right (bitsOf_lt c).le
    rw [bits]
    exact .canonical c (inInterval_of_nearest h near)
  · obtain rfl : k = twoTo 53 := le_antisymm small long
    have next : bitsAt place (twoTo 53) = min infiniteBits (bitsOf (twoTo 52) (place + 1)) := by
      simp only [bitsAt, bitsOf, twoTo, Nat.pow_eq]
      omega
    by_cases top : place = 971
    · subst top
      have large : limit ≤ q := by
        have low := near.low
        rw [le_div_iff₀ (by positivity), cast_twoTo] at low
        exact low
      rw [next]
      exact .infinite large
    · have c : Canonical (twoTo 52) (place + 1) :=
        ⟨twoTo_pos 52, by decide, .inl le_rfl, by omega, by omega⟩
      rw [next, min_eq_right (bitsOf_lt c).le]
      exact .canonical c (inInterval_of_carry h near)

theorem roundBits_rounded (den : 0 < b) : Rounded (ratio (a, b)) (roundBits a b) := by
  rcases Nat.eq_zero_or_pos a with rfl | num
  · rw [roundBits, if_pos rfl]
    exact .zero (by simp [ratio, leastHalf])
  · have place := atPlace_lastPlace num den
    have near : Nearest (roundDiv (inHalvings (a, b) (lastPlace a b)).1
        (inHalvings (a, b) (lastPlace a b)).2) (ratio (a, b) / 2 ^ lastPlace a b) := by
      rw [← ratio_inHalvings]
      exact roundDiv_nearest (inHalvings_snd_pos den _)
    have bits : roundBits a b = bitsAt (lastPlace a b) (roundDiv
        (inHalvings (a, b) (lastPlace a b)).1 (inHalvings (a, b) (lastPlace a b)).2) := by
      rw [roundBits, if_neg num.ne', ← roundDiv_inHalvings]
      rfl
    rw [bits]
    exact rounded_bitsAt place near

/-! ## The two ends -/

theorem leastHalf_pos : 0 < leastHalf := by
  unfold leastHalf
  positivity

theorem leastHalf_lt_limit : leastHalf < limit := by
  have low : leastHalf ≤ 1 * 2 ^ (971 : Int) := by
    rw [one_mul, leastHalf]
    exact zpow_le_zpow_right₀ one_le_two (by norm_num)
  refine low.trans_lt (mul_lt_mul_of_pos_right ?_ (by positivity))
  norm_num

theorem leastHalf_le : leastHalf ≤ 1 / 2 ^ 240 := by
  have low : leastHalf ≤ 2 ^ (-240 : Int) := zpow_le_zpow_right₀ one_le_two (by norm_num)
  rwa [zpow_neg, ← one_div, zpow_ofNat] at low

theorem le_limit : 2 ^ 240 ≤ limit := by
  have power : (2 : ℚ) ^ 240 ≤ 2 ^ (971 : Int) := by
    rw [← zpow_natCast]
    exact zpow_le_zpow_right₀ one_le_two (by norm_num)
  calc (2 : ℚ) ^ 240 ≤ 1 * 2 ^ (971 : Int) := by rwa [one_mul]
    _ ≤ limit := mul_le_mul_of_nonneg_right (by norm_num) (by positivity)

/-- The interval of a positive double lies between the two ends. -/
theorem InInterval.mem (c : Canonical mantissa exponent) (h : InInterval mantissa exponent q) :
    leastHalf < q ∧ q < limit := by
  obtain ⟨pos, small, -, low, high⟩ := c
  have power : (0 : ℚ) < 2 ^ exponent := by positivity
  have bottom : 1 / 2 * 2 ^ (-1074 : Int) ≤ (1 / 2 : ℚ) * 2 ^ exponent :=
    mul_le_mul_of_nonneg_left (zpow_le_zpow_right₀ one_le_two low) (by norm_num)
  have top : (2 ^ 53 - 1 / 2 : ℚ) * 2 ^ exponent ≤ limit :=
    mul_le_mul_of_nonneg_left (zpow_le_zpow_right₀ one_le_two high) (by norm_num)
  have half : leastHalf = 1 / 2 * 2 ^ (-1074 : Int) := by
    rw [leastHalf, show (-1075 : Int) = -1074 - 1 by norm_num, zpow_sub_one₀ two_ne_zero,
      one_div, mul_comm]
  rw [half]
  constructor
  · -- only the interval of the least double reaches this far, and it is open
    refine bottom.trans_lt ?_
    have scaled := h.scaled_low
    rw [le_div_iff₀ power] at scaled
    rcases Nat.lt_or_ge 1 mantissa with more | one
    · refine lt_of_lt_of_le (mul_lt_mul_of_pos_right ?_ power) scaled
      have more' : (2 : ℚ) ≤ mantissa := by exact_mod_cast more
      linarith
    · obtain rfl : mantissa = 1 := by omega
      have strict := (h.scaled_odd rfl).1
      rw [lt_div_iff₀ power] at strict
      norm_num at strict ⊢
      exact strict
  · refine lt_of_lt_of_le ?_ top
    have scaled := h.scaled_high
    rw [div_le_iff₀ power] at scaled
    rcases Nat.lt_or_ge (mantissa + 1) (twoTo 53) with less | last
    · refine scaled.trans_lt (mul_lt_mul_of_pos_right ?_ power)
      have less' : (mantissa : ℚ) + 1 < twoTo 53 := by exact_mod_cast less
      rw [cast_twoTo] at less'
      linarith
    · obtain rfl : mantissa = twoTo 53 - 1 := by omega
      have strict := (h.scaled_odd (by decide)).2
      rw [div_lt_iff₀ power] at strict
      have cast : ((twoTo 53 - 1 : Nat) : ℚ) + 1 / 2 = 2 ^ 53 - 1 / 2 := by
        norm_num [twoTo]
      rwa [cast] at strict

/-! ## Doubles as numbers -/

/-- The number that a finite double is, and zero for any other. -/
def rationalOf (x : Float) : ℚ :=
  match Reading.ofFloat x with
  | .finite negative mantissa exponent =>
    let magnitude : ℚ := mantissa * 2 ^ exponent
    if negative then -magnitude else magnitude
  | _ => 0

/-- A double that is finite and has no sign. -/
def NonNegative (x : Float) : Prop := ∃ mantissa exponent, Finite x false mantissa exponent

theorem Finite.rationalOf (h : Finite x false mantissa exponent) :
    Number.rationalOf x = mantissa * 2 ^ exponent := by
  rw [Number.rationalOf, h.ofFloat]
  rfl

theorem NonNegative.isFinite (h : NonNegative x) : Number.isFinite x = true := by
  obtain ⟨_, _, reading⟩ := h
  exact reading.isFinite

theorem NonNegative.rationalOf_nonneg (h : NonNegative x) : 0 ≤ rationalOf x := by
  obtain ⟨mantissa, exponent, reading⟩ := h
  rw [reading.rationalOf]
  positivity

theorem NonNegative.pos_iff (h : NonNegative x) : 0.0 < x ↔ 0 < rationalOf x := by
  obtain ⟨mantissa, exponent, reading⟩ := h
  rw [reading.zero_lt_iff, reading.rationalOf, mul_pos_iff_of_pos_right (by positivity),
    Nat.cast_pos, Nat.pos_iff_ne_zero]
  simp

theorem NonNegative.beq_zero_iff (h : NonNegative x) :
    (x == 0.0) = true ↔ rationalOf x = 0 := by
  obtain ⟨mantissa, exponent, reading⟩ := h
  have power : (2 : ℚ) ^ exponent ≠ 0 := by positivity
  rw [reading.beq_zero_iff, reading.rationalOf]
  simp [power]

/-- A finite double that is not at most zero is a positive number. -/
theorem nonNegative_of_pos (finite : isFinite x = true) (pos : ¬ x ≤ 0.0) :
    NonNegative x ∧ 0 < rationalOf x := by
  obtain ⟨negative, mantissa, exponent, reading⟩ := finite_of_isFinite finite
  rw [reading.le_zero_iff, not_or, Bool.not_eq_true] at pos
  obtain ⟨rfl, nonzero⟩ := pos
  refine ⟨⟨mantissa, exponent, reading⟩, ?_⟩
  rw [reading.rationalOf]
  have pos := Nat.pos_of_ne_zero nonzero
  positivity

/-! ## Doubles that round a number -/

/-- The double is what the number rounds to. -/
def Rounds (q : ℚ) (x : Float) : Prop := Rounded q x.toBits.toNat

theorem eq_infinity (bits : x.toBits.toNat = infiniteBits) : x = 1.0 / 0.0 := by
  apply eq_of_toBits
  rw [bits]
  decide

theorem Rounds.cases (h : Rounds q x) :
    (q ≤ leastHalf ∧ Finite x false 0 (-1074)) ∨
      (∃ mantissa exponent, Canonical mantissa exponent ∧ InInterval mantissa exponent q ∧
        Finite x false mantissa exponent) ∨
      (limit ≤ q ∧ x = 1.0 / 0.0) := by
  unfold Rounds at h
  generalize bits : x.toBits.toNat = n at h
  cases h with
  | zero small => exact .inl ⟨small, .zero bits⟩
  | canonical c near =>
      exact .inr (.inl ⟨_, _, c, near, .canonical c (bits.trans (Nat.zero_add _).symm)⟩)
  | infinite large => exact .inr (.inr ⟨large, eq_infinity bits⟩)

theorem Finite.not_isInf (h : Finite x false mantissa exponent) : x.isInf = false := by
  show (UnpackedFloat.unpack Format.binary64 x.toBits.toBitVec).isInf = false
  cases h with
  | zero bits =>
      rw [unpack_zero bits]
      rfl
  | canonical c bits =>
      rw [unpack_of_bits c bits]
      rfl

theorem NonNegative.not_isInf (h : NonNegative x) : x.isInf = false := by
  obtain ⟨_, _, reading⟩ := h
  exact reading.not_isInf

/-- A double is finite where the number lies below the end, and infinite past it. -/
theorem Rounds.finite_or (h : Rounds q x) :
    (q < limit ∧ NonNegative x ∧ x.isInf = false) ∨
      (limit ≤ q ∧ isFinite x = false ∧ x.isInf = true) := by
  rcases h.cases with ⟨small, reading⟩ | ⟨_, _, c, near, reading⟩ | ⟨large, rfl⟩
  · exact .inl ⟨small.trans_lt leastHalf_lt_limit, ⟨_, _, reading⟩, reading.not_isInf⟩
  · exact .inl ⟨(near.mem c).2, ⟨_, _, reading⟩, reading.not_isInf⟩
  · exact .inr ⟨large, by decide, by decide⟩

theorem Rounds.nonNegative (h : Rounds q x) (below : q < limit) : NonNegative x := by
  rcases h.finite_or with ⟨-, nonNegative, -⟩ | ⟨large, -, -⟩
  · exact nonNegative
  · exact absurd below large.not_gt

theorem Rounds.isFinite_iff (h : Rounds q x) : isFinite x = true ↔ q < limit := by
  rcases h.finite_or with ⟨below, nonNegative, -⟩ | ⟨large, infinite, -⟩
  · exact iff_of_true nonNegative.isFinite below
  · exact iff_of_false (by simp [infinite]) large.not_gt

theorem Rounds.isInf_iff (h : Rounds q x) : x.isInf = true ↔ limit ≤ q := by
  rcases h.finite_or with ⟨below, -, finite⟩ | ⟨large, -, infinite⟩
  · exact iff_of_false (by simp [finite]) below.not_ge
  · exact iff_of_true infinite large

/-- Nothing but a number up to half the least double rounds to zero. -/
theorem Rounds.rationalOf_pos_iff (h : Rounds q x) (below : q < limit) :
    0 < rationalOf x ↔ leastHalf < q := by
  rcases h.cases with ⟨small, reading⟩ | ⟨mantissa, exponent, c, near, reading⟩ | ⟨large, -⟩
  · rw [reading.rationalOf]
    simpa using small
  · have pos := c.pos
    rw [reading.rationalOf]
    exact iff_of_true (by positivity) (near.mem c).1
  · exact absurd below large.not_gt

theorem Rounds.lost (h : Rounds q x) (small : q ≤ leastHalf) :
    NonNegative x ∧ rationalOf x = 0 := by
  have below := small.trans_lt leastHalf_lt_limit
  have made := h.nonNegative below
  refine ⟨made, le_antisymm (not_lt.mp fun pos => ?_) made.rationalOf_nonneg⟩
  exact small.not_gt ((h.rationalOf_pos_iff below).mp pos)

/-- The error of rounding: a unit in the 53rd place, or half the least double. -/
theorem Rounds.error (h : Rounds q x) (nonneg : 0 ≤ q) (below : q < limit) :
    |rationalOf x - q| ≤ rationalOf x / 2 ^ 53 + leastHalf := by
  rcases h.cases with ⟨small, reading⟩ | ⟨mantissa, exponent, c, near, reading⟩ | ⟨large, -⟩
  · rw [reading.rationalOf, Nat.cast_zero, zero_mul, zero_sub, abs_neg, abs_of_nonneg nonneg,
      zero_div, zero_add]
    exact small
  · have power : (0 : ℚ) < 2 ^ exponent := by positivity
    have low := near.scaled_low
    have high := near.scaled_high
    rw [le_div_iff₀ power] at low
    rw [div_le_iff₀ power] at high
    have unit : (2 : ℚ) ^ exponent / 2 ≤ mantissa * 2 ^ exponent / 2 ^ 53 + leastHalf := by
      rcases c.full with full | least
      · have full' : (2 : ℚ) ^ 52 ≤ mantissa := by exact_mod_cast full
        have scaled := mul_le_mul_of_nonneg_right full' power.le
        linarith [leastHalf_pos]
      · have same : leastHalf = 2 ^ exponent / 2 := by
          rw [leastHalf, least, show (-1075 : Int) = -1074 - 1 by norm_num,
            zpow_sub_one₀ two_ne_zero, div_eq_mul_inv]
        have whole : 0 ≤ (mantissa : ℚ) * 2 ^ exponent / 2 ^ 53 := by positivity
        linarith
    rw [reading.rationalOf, abs_le]
    constructor <;> linarith
  · exact absurd below large.not_gt

/-- A number away from the least double is rounded by less than a factor of two. -/
theorem Rounds.within (h : Rounds q x) (low : 4 * leastHalf ≤ q) (below : q < limit) :
    q / 2 ≤ rationalOf x ∧ rationalOf x ≤ 2 * q := by
  have half := leastHalf_pos
  obtain ⟨down, up⟩ := abs_le.mp (h.error (by linarith) below)
  constructor <;> linarith

theorem inInterval_self (c : Canonical mantissa exponent) :
    InInterval mantissa exponent (mantissa * 2 ^ exponent) := by
  have power : (0 : ℚ) < 2 ^ exponent := by positivity
  have near : Nearest mantissa (mantissa * 2 ^ exponent / 2 ^ exponent) := by
    rw [mul_div_cancel_right₀ _ power.ne']
    exact .self mantissa
  exact inInterval_of_nearest (atPlace_canonical c) near

theorem NonNegative.lt_limit (h : NonNegative x) : rationalOf x < limit := by
  obtain ⟨mantissa, exponent, reading⟩ := h
  rw [reading.rationalOf]
  cases reading with
  | zero =>
      rw [Nat.cast_zero, zero_mul]
      exact leastHalf_pos.trans leastHalf_lt_limit
  | canonical c => exact ((inInterval_self c).mem c).2

/-! ## The order of doubles -/

/-- A double without a sign, as the operations see it. -/
theorem NonNegative.unpacked (h : NonNegative x) :
    (rationalOf x = 0 ∧
      UnpackedFloat.unpack Format.binary64 x.toBits.toBitVec = .zero .positive) ∨
    ∃ mantissa exponent, ∃ c : Canonical mantissa exponent,
      rationalOf x = mantissa * 2 ^ exponent ∧
      UnpackedFloat.unpack Format.binary64 x.toBits.toBitVec =
        .finite .positive mantissa exponent c.pos := by
  obtain ⟨mantissa, exponent, reading⟩ := h
  rw [reading.rationalOf]
  cases reading with
  | zero bits => exact .inl ⟨by simp, unpack_zero bits⟩
  | canonical c bits => exact .inr ⟨mantissa, exponent, c, rfl, unpack_of_bits c bits⟩

theorem canonical_lt {mantissa' : Nat} {exponent' : Int} (c : Canonical mantissa exponent)
    (c' : Canonical mantissa' exponent') (h : exponent < exponent') :
    (mantissa : ℚ) * 2 ^ exponent < mantissa' * 2 ^ exponent' := by
  have small : (mantissa : ℚ) < 2 ^ 53 := by exact_mod_cast c.small
  have full : (2 : ℚ) ^ 52 ≤ mantissa' := by
    have lower := c.low
    exact_mod_cast c'.full.resolve_right (by omega)
  calc (mantissa : ℚ) * 2 ^ exponent < 2 ^ 53 * 2 ^ exponent :=
        mul_lt_mul_of_pos_right small (by positivity)
    _ = 2 ^ 52 * 2 ^ (exponent + 1) := by
        rw [zpow_add_one₀ two_ne_zero]
        ring
    _ ≤ mantissa' * 2 ^ exponent' :=
        mul_le_mul full (zpow_le_zpow_right₀ one_le_two h) (by positivity) (by positivity)

theorem compare_canonical {mantissa' : Nat} {exponent' : Int} (c : Canonical mantissa exponent)
    (c' : Canonical mantissa' exponent') :
    (compare exponent exponent').then (compare mantissa mantissa') = .lt ↔
      (mantissa : ℚ) * 2 ^ exponent < mantissa' * 2 ^ exponent' := by
  rcases lt_trichotomy exponent exponent' with less | rfl | more
  · rw [Int.compare_eq_lt.mpr less]
    exact iff_of_true rfl (canonical_lt c c' less)
  · rw [Int.compare_eq_eq.mpr rfl, mul_lt_mul_iff_left₀ (by positivity), Nat.cast_lt]
    exact Nat.compare_eq_lt
  · rw [Int.compare_eq_gt.mpr more]
    exact iff_of_false (by rintro ⟨⟩) (canonical_lt c' c more).not_gt

theorem NonNegative.lt_iff {y : Float} (hx : NonNegative x) (hy : NonNegative y) :
    x < y ↔ rationalOf x < rationalOf y := by
  have compared : x < y ↔ ((UnpackedFloat.unpack Format.binary64 x.toBits.toBitVec).compare
      (UnpackedFloat.unpack Format.binary64 y.toBits.toBitVec) == some .lt) = true :=
    decide_eq_true_iff
  rw [compared]
  rcases hx.unpacked with ⟨zero, opened⟩ | ⟨m, e, c, number, opened⟩ <;>
    rcases hy.unpacked with ⟨zero', opened'⟩ | ⟨n, e', c', number', opened'⟩ <;>
    rw [opened, opened']
  · rw [zero, zero']
    exact iff_of_false (by decide) (lt_irrefl 0)
  · have pos := c'.pos
    rw [zero, number']
    exact iff_of_true rfl (by positivity)
  · have pos := c.pos
    rw [zero', number]
    exact iff_of_false (by rintro ⟨⟩) (not_lt.mpr (by positivity))
  · rw [number, number', ← compare_canonical c c', beq_iff_eq]
    exact Option.some_inj

end FluidChip.Number
