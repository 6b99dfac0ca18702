import FluidChip.Number.Power
import FluidChip.Proofs.Number.Nearest
import Mathlib.Tactic.FieldSimp

/-!
# The arithmetic of doubles

A product, a quotient, a difference and a power of doubles without a sign round the exact
result.  The operations keep a natural mantissa with two bits for what is cut off; shifting
it right loses nothing that rounding asks for, so the bits that come out are those of the
nearest natural at the place of rounding.
-/

namespace FluidChip.Number

open Float.Model Float.Model.UnpackedFloat

variable {m n k place : Nat} {mantissa : Nat} {e e' exponent : Int} {q y : ℚ}
  {em : ExtendedMantissa} {accuracy : Accuracy}

/-! ## Mantissas with two more bits -/

/-- The number of which a mantissa and its two bits keep what decides its rounding: the
next half of a unit, and whether anything is left behind it. -/
def Holds (em : ExtendedMantissa) (y : ℚ) : Prop :=
  ∃ rest, 0 ≤ rest ∧ rest < 1 / 2 ∧ (em.stickyBit = true ↔ 0 < rest) ∧
    y = em.mantissa + (if em.roundBit then 1 / 2 else 0) + rest

theorem Holds.floor (h : Holds em y) : em.mantissa ≤ y ∧ y < em.mantissa + 1 := by
  obtain ⟨rest, nonneg, small, -, rfl⟩ := h
  split <;> constructor <;> linarith

theorem holds_exact (m : Nat) : Holds (.ofMantissaAndAccuracy m .exact) m :=
  ⟨0, le_rfl, by norm_num, by simp [ExtendedMantissa.ofMantissaAndAccuracy],
    by simp [ExtendedMantissa.ofMantissaAndAccuracy]⟩

theorem holds_fraction (pos : 0 < n) :
    Holds (.ofMantissaAndAccuracy (m / n) (accuracyOfFraction (m % n) n)) (ratio (m, n)) := by
  obtain ⟨nonneg, below⟩ := leftOver_mem (a := m) pos
  rw [ratio_eq_add_leftOver]
  unfold accuracyOfFraction
  split
  · rename_i none
    rw [(leftOver_eq_zero_iff pos).mpr none, add_zero]
    exact holds_exact _
  · rename_i some
    have something : 0 < leftOver m n :=
      nonneg.lt_of_ne fun nothing => some ((leftOver_eq_zero_iff pos).mp nothing.symm)
    rcases lt_trichotomy (2 * (m % n)) n with less | equal | more
    · have half := (leftOver_lt_half_iff pos).mpr less
      rw [Nat.compare_eq_lt.mpr less]
      exact ⟨leftOver m n, nonneg, half,
        by simpa [ExtendedMantissa.ofMantissaAndAccuracy] using something,
        by simp [ExtendedMantissa.ofMantissaAndAccuracy]⟩
    · have half : leftOver m n = 1 / 2 := le_antisymm
        (not_lt.mp fun above => ((half_lt_leftOver_iff pos).mp above).ne equal.symm)
        (not_lt.mp fun under => ((leftOver_lt_half_iff pos).mp under).ne equal)
      rw [Nat.compare_eq_eq.mpr equal]
      refine ⟨0, le_rfl, by norm_num, by simp [ExtendedMantissa.ofMantissaAndAccuracy], ?_⟩
      simp [ExtendedMantissa.ofMantissaAndAccuracy, half]
    · have half := (half_lt_leftOver_iff pos).mpr more
      rw [Nat.compare_eq_gt.mpr more]
      refine ⟨leftOver m n - 1 / 2, by linarith, by linarith, ?_, ?_⟩
      · simp only [ExtendedMantissa.ofMantissaAndAccuracy, true_iff]
        linarith
      · simp only [ExtendedMantissa.ofMantissaAndAccuracy, if_true]
        ring

theorem Holds.shiftRightOne (h : Holds em y) : Holds em.shiftRightOne (y / 2) := by
  obtain ⟨rest, nonneg, small, sticky, rfl⟩ := h
  obtain ⟨mantissa, roundBit, stickyBit⟩ := em
  have halves : (mantissa : ℚ) = 2 * (mantissa / 2 : Nat) + (mantissa % 2 : Nat) := by
    exact_mod_cast (Nat.div_add_mod mantissa 2).symm
  simp only at sticky
  refine ⟨((if roundBit then 1 / 2 else 0) + rest) / 2, ?_, ?_, ?_, ?_⟩
  · split <;> linarith
  · split <;> linarith
  · cases roundBit
    · simp [ExtendedMantissa.shiftRightOne, sticky]
    · simp only [ExtendedMantissa.shiftRightOne, Bool.true_or, if_true, true_iff]
      linarith
  · simp only [ExtendedMantissa.shiftRightOne, halves]
    rcases Nat.mod_two_eq_zero_or_one mantissa with even | odd
    · simp only [even, bne_self_eq_false, Bool.false_eq_true, if_false, Nat.cast_zero]
      ring
    · simp only [odd, Nat.cast_one]
      norm_num
      ring

theorem Holds.shiftRight (h : Holds em y) (n : Nat) : Holds (em >>> n) (y / 2 ^ n) := by
  show Holds (n.repeat ExtendedMantissa.shiftRightOne em) _
  induction n with
  | zero => simpa [Nat.repeat] using h
  | succ n ih =>
      rw [Nat.repeat, pow_succ, ← div_div]
      exact ih.shiftRightOne

theorem Holds.nearest (h : Holds em y) : Nearest em.roundedMantissa y := by
  obtain ⟨rest, nonneg, small, sticky, rfl⟩ := h
  obtain ⟨mantissa, roundBit, stickyBit⟩ := em
  simp only at sticky
  cases roundBit <;> cases stickyBit
  · have none : rest = 0 := le_antisymm (not_lt.mp fun some => by simp [some] at sticky) nonneg
    simp only [none, Bool.false_eq_true, if_false, add_zero]
    exact .self mantissa
  · have some : 0 < rest := sticky.mp rfl
    simp only [Bool.false_eq_true, if_false, add_zero]
    show Nearest mantissa _
    exact ⟨by linarith, by linarith, fun _ => ⟨by linarith, by linarith⟩⟩
  · have none : rest = 0 := le_antisymm (not_lt.mp fun some => by simp [some] at sticky) nonneg
    simp only [none, if_true, add_zero]
    show Nearest (mantissa + mantissa % 2) _
    refine ⟨?_, ?_, fun odd => by omega⟩ <;>
      rcases Nat.mod_two_eq_zero_or_one mantissa with even | odd <;> simp only [*] <;>
        push_cast <;> linarith
  · have some : 0 < rest := sticky.mp rfl
    simp only [if_true]
    show Nearest (mantissa + 1) _
    refine ⟨?_, ?_, fun _ => ⟨?_, ?_⟩⟩ <;> push_cast <;> linarith

/-! ## Rounding a mantissa -/

/-- The place at which a mantissa over an exponent is rounded. -/
def placeOf (mantissa : Nat) (exponent : Int) : Int :=
  max (mantissa.log2 + 1 + exponent - 53) (-1074)

theorem targetExponent_eq (mantissa : Nat) (exponent : Int) :
    Format.binary64.targetExponent (totalExponent mantissa exponent) =
      placeOf mantissa exponent := rfl

/-- A mantissa that reaches at least down to its place is rounded at that place. -/
theorem atPlace_placeOf (floor : (m : ℚ) ≤ q / 2 ^ e ∧ q / 2 ^ e < m + 1)
    (fine : e ≤ placeOf m e) : AtPlace (placeOf m e) q := by
  have power : (0 : ℚ) < 2 ^ e := by positivity
  obtain ⟨low, high⟩ := floor
  rw [le_div_iff₀ power] at low
  rw [div_lt_iff₀ power] at high
  have above : q < 2 ^ ((m.log2 : Int) + 1 + e) := by
    have bits : (m : ℚ) + 1 ≤ 2 ^ (m.log2 + 1) := by exact_mod_cast Nat.lt_log2_self (n := m)
    rw [zpow_add₀ two_ne_zero]
    refine high.trans_le (mul_le_mul_of_nonneg_right ?_ power.le)
    exact_mod_cast bits
  refine ⟨le_max_right _ _, above.trans_le ?_, ?_⟩
  · exact zpow_le_zpow_right₀ one_le_two (by unfold placeOf; omega)
  · rcases le_or_gt (placeOf m e) (-1074) with least | more
    · exact .inl (le_antisymm least (le_max_right _ _))
    · have top : placeOf m e = m.log2 + 1 + e - 53 := by
        unfold placeOf at *
        omega
      have pos : m ≠ 0 := by
        rintro rfl
        rw [top] at fine
        simp at fine
        omega
      have bits : (2 : ℚ) ^ m.log2 ≤ m := by exact_mod_cast Nat.log2_self_le pos
      refine .inr (le_trans ?_ low)
      rw [top, show (m.log2 : Int) + 1 + e - 53 + 52 = m.log2 + e by omega,
        zpow_add₀ two_ne_zero]
      refine mul_le_mul_of_nonneg_right ?_ power.le
      exact_mod_cast bits

variable (accuracy) in
theorem shift_first (fine : e ≤ placeOf m e) :
    shiftToTargetExponent Format.binary64 m e accuracy =
      (ExtendedMantissa.ofMantissaAndAccuracy m accuracy >>> (placeOf m e - e).toNat,
        placeOf m e) := by
  have reached : e + ((placeOf m e - e).toNat : Int) = placeOf m e := by omega
  unfold shiftToTargetExponent shiftToExponent
  rw [targetExponent_eq]
  exact Prod.ext rfl reached

theorem log2_lt (small : k < twoTo 53) : k.log2 ≤ 52 := by
  rcases Nat.eq_zero_or_pos k with rfl | pos
  · decide
  · exact Nat.lt_succ_iff.mp ((Nat.log2_lt pos.ne').mpr small)

/-- The second shift does nothing to a mantissa of 53 bits and takes back a carry. -/
theorem shift_again (small : k ≤ twoTo 53) (least : -1074 ≤ e) :
    shiftToTargetExponent Format.binary64 k e .exact =
      if k = twoTo 53 then (⟨twoTo 52, false, false⟩, e + 1) else (⟨k, false, false⟩, e) := by
  unfold shiftToTargetExponent shiftToExponent
  rw [targetExponent_eq]
  split
  · rename_i carry
    subst carry
    have bits : (twoTo 53).log2 = 53 := Nat.log2_two_pow
    have once : (placeOf (twoTo 53) e - e).toNat = 1 := by
      rw [placeOf, bits]
      omega
    simp only [once]
    rfl
  · rename_i short
    have bits := log2_lt (lt_of_le_of_ne small short)
    have none : (placeOf k e - e).toNat = 0 := by
      unfold placeOf
      omega
    simp only [none]
    rw [Nat.cast_zero, add_zero]
    rfl

theorem pack_infinite (pos : 0 < m) (high : 972 ≤ e) :
    (UnpackedFloat.pack Format.binary64 (.finite .positive m e pos)).toNat = infiniteBits := by
  have bias : (Format.binary64.exponentBias : Int) = 1023 := by decide
  unfold UnpackedFloat.pack
  simp only [bias]
  rw [if_pos (by simp; omega)]
  decide

/-- The bits of a mantissa at its place. -/
theorem pack_bitsAt (pos : 0 < k) (small : k < twoTo 53) (full : e = -1074 ∨ twoTo 52 ≤ k)
    (least : -1074 ≤ e) :
    (UnpackedFloat.pack Format.binary64 (.finite .positive k e pos)).toNat = bitsAt e k := by
  by_cases high : 972 ≤ e
  · have beyond : infiniteBits ≤ (e + 1074).toNat * twoTo 52 + k := by
      simp only [infiniteBits, twoTo, Nat.pow_eq] at *
      omega
    rw [pack_infinite pos high, bitsAt, min_eq_left beyond]
  · have c : Canonical k e := ⟨pos, small, full.symm, least, by omega⟩
    have packed : (UnpackedFloat.pack Format.binary64
        (.finite (signOf false) k e c.pos)).toNat = signBits false + bitsOf k e := pack_finite c
    have bits : bitsAt e k = bitsOf k e := min_eq_right (bitsOf_lt c).le
    rw [bits]
    exact packed.trans (Nat.zero_add _)

theorem pack_roundWithAccuracy (held : ((ExtendedMantissa.ofMantissaAndAccuracy m accuracy) >>>
      (placeOf m e - e).toNat).roundedMantissa = k) (fine : e ≤ placeOf m e)
    (small : k ≤ twoTo 53) (full : placeOf m e = -1074 ∨ twoTo 52 ≤ k) :
    (UnpackedFloat.pack Format.binary64
      (roundWithAccuracy Format.binary64 .positive m e accuracy)).toNat =
        bitsAt (placeOf m e) k := by
  have least : -1074 ≤ placeOf m e := le_max_right _ _
  have first := shift_first accuracy fine
  have again := shift_again small least
  rw [roundWithAccuracy, first]
  dsimp only
  rw [held, again]
  generalize placeOf m e = place at *
  by_cases carry : k = twoTo 53
  · subst carry
    have next : bitsAt place (twoTo 53) = bitsAt (place + 1) (twoTo 52) := by
      simp only [bitsAt, twoTo, Nat.pow_eq]
      omega
    rw [if_pos rfl]
    dsimp only
    rw [dif_neg (twoTo_pos 52).ne', next]
    exact pack_bitsAt (twoTo_pos 52) (by decide) (.inr le_rfl) (by omega)
  · rw [if_neg carry]
    dsimp only
    rcases Nat.eq_zero_or_pos k with rfl | pos
    · obtain rfl : place = -1074 := full.resolve_right (by decide)
      rfl
    · rw [dif_neg pos.ne']
      exact pack_bitsAt pos (lt_of_le_of_ne small carry) full least

/-- Rounding a mantissa that reaches down to its place rounds the number it holds. -/
theorem roundWithAccuracy_rounded
    (holds : Holds (.ofMantissaAndAccuracy m accuracy) (q / 2 ^ e)) (fine : e ≤ placeOf m e) :
    Rounded q (UnpackedFloat.pack Format.binary64
      (roundWithAccuracy Format.binary64 .positive m e accuracy)).toNat := by
  have floor : (m : ℚ) ≤ q / 2 ^ e ∧ q / 2 ^ e < m + 1 := by
    have kept : (ExtendedMantissa.ofMantissaAndAccuracy m accuracy).mantissa = m := by
      cases accuracy with
      | exact => rfl
      | inexact order => cases order <;> rfl
    have floor := holds.floor
    rwa [kept] at floor
  have place := atPlace_placeOf floor fine
  have scaled : q / 2 ^ e / 2 ^ (placeOf m e - e).toNat = q / 2 ^ placeOf m e := by
    rw [div_div, ← zpow_natCast, ← zpow_add₀ two_ne_zero]
    congr 2
    omega
  have near := (holds.shiftRight (placeOf m e - e).toNat).nearest
  rw [scaled] at near
  obtain ⟨small, full⟩ := place.mantissa_mem near
  rw [pack_roundWithAccuracy rfl fine small full]
  exact rounded_bitsAt place near

/-! ## The operations -/

variable {x y : Float}

theorem rounded_zero : Rounded 0 0 := .zero leastHalf_pos.le

theorem product_fine (c : Canonical m e) (c' : Canonical n e') :
    e + e' ≤ placeOf (m * n) (e + e') := by
  by_cases large : twoTo 52 ≤ m * n
  · have bits := (Nat.le_log2 (Nat.mul_pos c.pos c'.pos).ne').mpr large
    unfold placeOf
    omega
  · -- the product of two mantissas is that small for subnormal doubles only
    have least : e = -1074 := c.full.resolve_left fun full =>
      large (full.trans (Nat.le_mul_of_pos_right m c'.pos))
    have least' : e' = -1074 := c'.full.resolve_left fun full =>
      large (full.trans (Nat.le_mul_of_pos_left n c.pos))
    unfold placeOf
    omega

theorem mul_rounds (hx : NonNegative x) (hy : NonNegative y) :
    Rounds (rationalOf x * rationalOf y) (x * y) := by
  show Rounded _ (UnpackedFloat.pack Format.binary64 (UnpackedFloat.mul Format.binary64
    (UnpackedFloat.unpack Format.binary64 x.toBits.toBitVec)
    (UnpackedFloat.unpack Format.binary64 y.toBits.toBitVec))).toNat
  rcases hx.unpacked with ⟨zero, opened⟩ | ⟨m, e, c, number, opened⟩ <;>
    rcases hy.unpacked with ⟨zero', opened'⟩ | ⟨n, e', c', number', opened'⟩ <;>
    rw [opened, opened']
  · rw [zero, zero_mul]
    exact rounded_zero
  · rw [zero, zero_mul]
    exact rounded_zero
  · rw [zero', mul_zero]
    exact rounded_zero
  · have scaled : rationalOf x * rationalOf y / 2 ^ (e + e') = (m * n : Nat) := by
      rw [number, number', zpow_add₀ two_ne_zero]
      push_cast
      field_simp
    exact roundWithAccuracy_rounded (scaled ▸ holds_exact (m * n)) (product_fine c c')

theorem ratio_shiftLeft (m n s : Nat) : ratio (m <<< s, n) = ratio (m, n) * 2 ^ s := by
  rw [ratio, ratio, Nat.shiftLeft_eq]
  push_cast
  ring

/-- The place down to which a quotient is formed is no higher than that of rounding. -/
theorem quotient_fine (pos : 0 < m) (pos' : 0 < n) (e : Int) :
    min e (placeOf m (e - n.log2 - 1)) ≤
      placeOf (m <<< (e - min e (placeOf m (e - n.log2 - 1))).toNat / n)
        (min e (placeOf m (e - n.log2 - 1))) := by
  have above : min e (placeOf m (e - n.log2 - 1)) ≤ e := min_le_left _ _
  have below : min e (placeOf m (e - n.log2 - 1)) ≤ placeOf m (e - n.log2 - 1) :=
    min_le_right _ _
  generalize min e (placeOf m (e - n.log2 - 1)) = place at *
  generalize shift : (e - place).toNat = s
  generalize quotient : m <<< s / n = k
  have power : 2 ^ (m.log2 + s) < 2 ^ (n.log2 + 1 + (k.log2 + 1)) := by
    calc 2 ^ (m.log2 + s) = 2 ^ m.log2 * 2 ^ s := Nat.pow_add _ _ _
      _ ≤ m <<< s := by
        rw [Nat.shiftLeft_eq]
        exact Nat.mul_le_mul_right _ (Nat.log2_self_le pos.ne')
      _ < n * (k + 1) := quotient ▸ Nat.lt_mul_div_succ _ pos'
      _ ≤ 2 ^ (n.log2 + 1) * 2 ^ (k.log2 + 1) := by
        exact Nat.mul_le_mul Nat.lt_log2_self.le Nat.lt_log2_self
      _ = 2 ^ (n.log2 + 1 + (k.log2 + 1)) := (Nat.pow_add _ _ _).symm
  have bits := (Nat.pow_lt_pow_iff_right one_lt_two).mp power
  unfold placeOf at *
  omega

theorem div_rounds (hx : NonNegative x) (hy : NonNegative y) (pos : 0 < rationalOf y) :
    Rounds (rationalOf x / rationalOf y) (x / y) := by
  show Rounded _ (UnpackedFloat.pack Format.binary64 (UnpackedFloat.div Format.binary64
    (UnpackedFloat.unpack Format.binary64 x.toBits.toBitVec)
    (UnpackedFloat.unpack Format.binary64 y.toBits.toBitVec))).toNat
  rcases hy.unpacked with ⟨zero', -⟩ | ⟨n, e', c', number', opened'⟩
  · exact absurd zero' pos.ne'
  rcases hx.unpacked with ⟨zero, opened⟩ | ⟨m, e, c, number, opened⟩ <;> rw [opened, opened']
  · rw [zero, zero_div]
    exact rounded_zero
  · have fine := quotient_fine c.pos c'.pos (e - e')
    have core : divCore Format.binary64 m e n e' =
        (m <<< (e - e' - min (e - e') (placeOf m (e - e' - n.log2 - 1))).toNat / n,
          min (e - e') (placeOf m (e - e' - n.log2 - 1)),
          accuracyOfFraction
            (m <<< (e - e' - min (e - e') (placeOf m (e - e' - n.log2 - 1))).toNat % n) n) := by
      have target : Format.binary64.targetExponent (totalExponent m e - totalExponent n e') =
          placeOf m (e - e' - n.log2 - 1) := by
        show max ((m.log2 + 1 + e - (n.log2 + 1 + e') : Int) - 53) (-1074) = _
        unfold placeOf
        congr 1
        omega
      unfold divCore
      rw [target]
    have above : min (e - e') (placeOf m (e - e' - n.log2 - 1)) ≤ e - e' := min_le_left _ _
    show Rounded _ (UnpackedFloat.pack Format.binary64
      (roundWithAccuracy Format.binary64 .positive (divCore Format.binary64 m e n e').1
        (divCore Format.binary64 m e n e').2.1 (divCore Format.binary64 m e n e').2.2)).toNat
    rw [core]
    generalize min (e - e') (placeOf m (e - e' - n.log2 - 1)) = place at *
    refine roundWithAccuracy_rounded ?_ fine
    have scaled : rationalOf x / rationalOf y / 2 ^ place =
        ratio (m <<< (e - e' - place).toNat, n) := by
      have up : (2 : ℚ) ^ (e - e' - place).toNat = 2 ^ e / 2 ^ e' / 2 ^ place := by
        rw [← zpow_natCast, ← zpow_sub₀ two_ne_zero, ← zpow_sub₀ two_ne_zero]
        congr 1
        omega
      rw [number, number', ratio_shiftLeft, ratio, up]
      field_simp
    rw [scaled]
    exact holds_fraction c'.pos

theorem shiftLeft_scaled (m : Nat) {t : Int} (h : t ≤ e) :
    ((m <<< (e - t).toNat : Nat) : ℚ) * 2 ^ t = m * 2 ^ e := by
  have up : (2 : ℚ) ^ (e - t).toNat = 2 ^ (e - t) := by
    rw [← zpow_natCast]
    congr 1
    omega
  rw [Nat.shiftLeft_eq]
  push_cast
  rw [up, mul_assoc, ← zpow_add₀ two_ne_zero, sub_add_cancel]

/-- A mantissa is first put over a lower exponent where it does not reach its place. -/
theorem round_rounded (pos : 0 < m) (e : Int) :
    Rounded (m * 2 ^ e) (UnpackedFloat.pack Format.binary64
      (UnpackedFloat.round Format.binary64 .positive m e)).toNat := by
  show Rounded _ (UnpackedFloat.pack Format.binary64 (roundWithAccuracy Format.binary64 .positive
    (m <<< (e - placeOf m e).toNat) (e - (e - placeOf m e).toNat) .exact)).toNat
  generalize shift : (e - placeOf m e).toNat = s
  have bits : (m <<< s).log2 = m.log2 + s := by
    have grown : m <<< s ≠ 0 := by simp [Nat.shiftLeft_eq, pos.ne']
    rw [Nat.log2_eq_iff grown, Nat.shiftLeft_eq, Nat.pow_add, Nat.add_right_comm, Nat.pow_add _ _ s]
    exact ⟨Nat.mul_le_mul_right _ (Nat.log2_self_le pos.ne'),
      Nat.mul_lt_mul_of_pos_right Nat.lt_log2_self (Nat.two_pow_pos s)⟩
  refine roundWithAccuracy_rounded ?_ ?_
  · have scaled : (m : ℚ) * 2 ^ e / 2 ^ (e - s) = (m <<< s : Nat) := by
      have same : (e - (e - s)).toNat = s := by omega
      rw [← shiftLeft_scaled m (show e - s ≤ e by omega), same,
        mul_div_cancel_right₀ _ (by positivity)]
    rw [scaled]
    exact holds_exact _
  · unfold placeOf at *
    omega

theorem normalize_rounded (m : Int) (nonneg : 0 ≤ m) (e : Int) :
    Rounded (m * 2 ^ e) (UnpackedFloat.pack Format.binary64
      (UnpackedFloat.normalize Format.binary64 m e .positive)).toNat := by
  obtain ⟨n, rfl⟩ := Int.eq_ofNat_of_zero_le nonneg
  rcases Nat.eq_zero_or_pos n with rfl | pos
  · rw [Nat.cast_zero, Int.cast_zero, zero_mul]
    exact rounded_zero
  · have order : compare (n : Int) 0 = .gt := Int.compare_eq_gt.mpr (by omega)
    rw [UnpackedFloat.normalize, order]
    exact round_rounded pos e

theorem sub_rounds (hx : NonNegative x) (hy : NonNegative y) (le : rationalOf y ≤ rationalOf x) :
    Rounds (rationalOf x - rationalOf y) (x - y) := by
  show Rounded _ (UnpackedFloat.pack Format.binary64 (UnpackedFloat.sub Format.binary64
    (UnpackedFloat.unpack Format.binary64 x.toBits.toBitVec)
    (UnpackedFloat.unpack Format.binary64 y.toBits.toBitVec))).toNat
  rcases hx.unpacked with ⟨zero, opened⟩ | ⟨m, e, c, number, opened⟩ <;>
    rcases hy.unpacked with ⟨zero', opened'⟩ | ⟨n, e', c', number', opened'⟩ <;>
    rw [opened, opened']
  · rw [zero, zero', sub_zero]
    exact rounded_zero
  · have pos := c'.pos
    rw [zero, number'] at le
    exact absurd le (not_le.mpr (by positivity))
  · have packed : (UnpackedFloat.pack Format.binary64
        (.finite (signOf false) m e c.pos)).toNat = signBits false + bitsOf m e := pack_finite c
    rw [number, zero', sub_zero]
    show Rounded _ (UnpackedFloat.pack Format.binary64 (.finite (signOf false) m e c.pos)).toNat
    rw [packed.trans (Nat.zero_add _)]
    exact .canonical c (inInterval_self c)
  · -- both mantissas are put over the lower exponent
    have first := shiftLeft_scaled m (min_le_left e e')
    have second := shiftLeft_scaled n (min_le_right e e')
    generalize mantissa : m <<< (e - min e e').toNat = a at *
    generalize mantissa' : n <<< (e' - min e e').toNat = b at *
    have sub : UnpackedFloat.sub Format.binary64 (.finite .positive m e c.pos)
        (.finite .positive n e' c'.pos) =
          UnpackedFloat.normalize Format.binary64 (a - b) (min e e') .positive := by
      rw [← mantissa, ← mantissa']
      rfl
    have difference : rationalOf x - rationalOf y = ((a - b : Int) : ℚ) * 2 ^ min e e' := by
      rw [number, number', ← first, ← second]
      push_cast
      ring
    have order : (b : Int) ≤ a := by
      rw [number, number', ← first, ← second] at le
      exact_mod_cast le_of_mul_le_mul_right le (by positivity)
    rw [sub, difference]
    exact normalize_rounded _ (by omega) _

/-! ## Powers -/

theorem toBits_ofRounded {bits : Nat} (h : Rounded q bits) :
    (Float.ofBits (.ofNat bits)).toBits.toNat = bits := by
  cases h with
  | zero => decide
  | canonical c => exact toBits_ofBits c
  | infinite => decide

theorem roundRatio_rounds (pos : 0 < n) : Rounds (ratio (m, n)) (roundRatio false m n) := by
  have rounded := roundBits_rounded (a := m) pos
  unfold Rounds roundRatio
  rw [if_neg (by decide), Nat.zero_add, toBits_ofRounded rounded]
  exact rounded

theorem power_rounds (h : NonNegative x) (n : Nat) : Rounds (rationalOf x ^ n) (power x n) := by
  obtain ⟨mantissa, exponent, reading⟩ := h
  rw [reading.rationalOf, power, reading.ofFloat]
  simp only [Bool.false_and]
  split
  · rename_i large
    obtain ⟨places, rfl⟩ := Int.eq_ofNat_of_zero_le large
    have value : ((mantissa : ℚ) * 2 ^ (places : Int)) ^ n =
        ratio (Nat.pow mantissa n * twoTo (places * n), 1) := by
      simp [ratio, twoTo, mul_pow, pow_mul]
    rw [value]
    exact roundRatio_rounds one_pos
  · rename_i small
    obtain ⟨places, rfl⟩ := Int.exists_eq_neg_ofNat (by omega : exponent ≤ 0)
    have value : ((mantissa : ℚ) * 2 ^ (-(places : Int))) ^ n =
        ratio (Nat.pow mantissa n, twoTo (places * n)) := by
      simp [ratio, twoTo, mul_pow, pow_mul, div_eq_mul_inv]
    rw [value, neg_neg, Int.toNat_natCast]
    exact roundRatio_rounds (twoTo_pos _)

theorem power?_below (h : NonNegative x) {n : Nat} (below : rationalOf x ^ n < limit) :
    ∃ y, power? x n = some y ∧ Rounds (rationalOf x ^ n) y := by
  have rounds := power_rounds h n
  refine ⟨power x n, ?_, rounds⟩
  have finite := (rounds.nonNegative below).not_isInf
  simp [power?, finite]

theorem power?_above (h : NonNegative x) {n : Nat} (large : limit ≤ rationalOf x ^ n) :
    power? x n = none := by
  have infinite := (power_rounds h n).isInf_iff.mpr large
  simp [power?, infinite, h.not_isInf]

end FluidChip.Number
