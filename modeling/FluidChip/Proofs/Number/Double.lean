import FluidChip.Proofs.Number.Rounding

/-!
# Doubles and their bits

A finite double is taken apart into its sign, its mantissa and its exponent, and
put together from them again.
-/

namespace FluidChip.Number

open Float.Model Float.Model.UnpackedFloat

variable {mantissa n : Nat} {exponent : Int} {negative : Bool} {x : Float}

theorem eq_of_toBits {x y : Float} (h : x.toBits.toNat = y.toBits.toNat) : x = y := by
  obtain ⟨⟨bits, valid⟩⟩ := x
  obtain ⟨⟨bits', valid'⟩⟩ := y
  obtain rfl : bits = bits' := UInt64.toNat_inj.mp h
  rfl

def signBits (negative : Bool) : Nat := if negative then twoTo 63 else 0

def signOf (negative : Bool) : Sign := if negative then .negative else .positive

/-! ## Fields -/

/-- The exponent field of a positive double. -/
def biased (mantissa : Nat) (exponent : Int) : Nat :=
  (exponent + 1074).toNat + mantissa / twoTo 52

theorem biased_lt (c : Canonical mantissa exponent) : biased mantissa exponent < 2047 := by
  obtain ⟨-, small, -, low, high⟩ := c
  simp only [biased, twoTo, Nat.pow_eq, Nat.reducePow] at *
  omega

theorem bitsOf_fields (c : Canonical mantissa exponent)
    (h : n = signBits negative + bitsOf mantissa exponent) :
    n / twoTo 63 = negative.toNat ∧ n / twoTo 52 % twoTo 11 = biased mantissa exponent ∧
      n % twoTo 52 = mantissa % twoTo 52 := by
  have sign : signBits negative = negative.toNat * twoTo 63 := by cases negative <;> rfl
  have bit := negative.toNat_le
  obtain ⟨-, small, -, low, high⟩ := c
  simp only [h, sign, biased, bitsOf, twoTo, Nat.pow_eq, Nat.reducePow] at *
  omega

theorem unpackExponent_toNat (b : BitVec 64) :
    (@unpackExponent Format.binary64 b).toNat = b.toNat / twoTo 52 % twoTo 11 := by
  simp [unpackExponent, twoTo, Nat.shiftRight_eq_div_pow]

theorem unpackMantissa_toNat (b : BitVec 64) :
    (@unpackMantissa Format.binary64 b).toNat = b.toNat % twoTo 52 := by
  simp [unpackMantissa, twoTo]

theorem unpackSign_toNat (b : BitVec 64) :
    (@unpackSign Format.binary64 b).toNat = b.toNat / twoTo 63 := by
  have bound := b.isLt
  show (BitVec.extractLsb 63 63 b).toNat = _
  rw [BitVec.extractLsb_toNat, Nat.shiftRight_eq_div_pow]
  simp only [twoTo, Nat.pow_eq]
  omega

theorem packComponents_toNat (s : Sign) (e : BitVec 11) (m : BitVec 52) :
    (packComponents Format.binary64 s e m).toNat =
      s.toBitVec.toNat * twoTo 63 + e.toNat * twoTo 52 + m.toNat := by
  show (s.toBitVec ++ e ++ m).toNat = _
  rw [BitVec.toNat_append, BitVec.toNat_append, ← Nat.shiftLeft_add_eq_or_of_lt m.isLt,
    ← Nat.shiftLeft_add_eq_or_of_lt e.isLt]
  simp only [Nat.shiftLeft_eq, twoTo, Nat.pow_eq]
  ring

theorem signOf_toBitVec (negative : Bool) :
    (signOf negative).toBitVec.toNat * twoTo 63 = signBits negative := by
  cases negative <;> rfl

theorem ofBitVec_unpackSign {b : BitVec 64} (h : b.toNat / twoTo 63 = negative.toNat) :
    Sign.ofBitVec (@unpackSign Format.binary64 b) = signOf negative := by
  have bits := (unpackSign_toNat b).trans h
  have same : @unpackSign Format.binary64 b = BitVec.ofBool negative := by
    apply BitVec.eq_of_toNat_eq
    rw [bits]
    cases negative <;> rfl
  rw [same]
  cases negative <;> rfl

/-! ## Taking apart -/

/-- A positive double and its negative, as the arithmetic of doubles sees them. -/
theorem unpack_of_bits {b : BitVec 64} (c : Canonical mantissa exponent)
    (h : b.toNat = signBits negative + bitsOf mantissa exponent) :
    UnpackedFloat.unpack Format.binary64 b =
      .finite (signOf negative) mantissa exponent c.pos := by
  obtain ⟨sign, exponentField, mantissaField⟩ := bitsOf_fields c h
  have exponentBits := (unpackExponent_toNat b).trans exponentField
  have mantissaBits := (unpackMantissa_toNat b).trans mantissaField
  have finite := biased_lt c
  have proper : @unpackExponent Format.binary64 b ≠ -1#_ := by
    intro same
    rw [same] at exponentBits
    exact absurd exponentBits (Nat.ne_of_gt finite)
  obtain ⟨pos, small, full, low, high⟩ := c
  unfold UnpackedFloat.unpack
  dsimp only
  rw [ofBitVec_unpackSign sign, if_neg proper]
  by_cases subnormal : mantissa < twoTo 52
  · have least : exponent = -1074 := full.resolve_left (not_le.mpr subnormal)
    have noExponent : @unpackExponent Format.binary64 b = 0#_ := by
      apply BitVec.eq_of_toNat_eq
      rw [exponentBits, biased, least, Nat.div_eq_of_lt subnormal]
      rfl
    have someMantissa : @unpackMantissa Format.binary64 b ≠ 0#_ := by
      intro zero
      rw [zero, Nat.mod_eq_of_lt subnormal] at mantissaBits
      exact pos.ne mantissaBits
    rw [if_pos noExponent, dif_neg someMantissa]
    congr 1
    · exact mantissaBits.trans (Nat.mod_eq_of_lt subnormal)
    · rw [noExponent, least]
      rfl
  · have someExponent : @unpackExponent Format.binary64 b ≠ 0#_ := by
      intro zero
      rw [zero] at exponentBits
      have none : biased mantissa exponent = 0 := exponentBits.symm
      simp only [biased, twoTo, Nat.pow_eq, Nat.reducePow] at *
      omega
    rw [if_neg someExponent]
    congr 1
    · rw [BitVec.toNat_append, ← Nat.shiftLeft_add_eq_or_of_lt (BitVec.isLt _), mantissaBits]
      simp only [twoTo, Nat.pow_eq, Nat.reducePow, Nat.shiftLeft_eq, BitVec.toNat_ofNat] at *
      omega
    · rw [exponentBits]
      have bias : (Format.binary64.exponentBias : Int) +
          Format.binary64.mantissaBitsWithoutImplicit = 1075 := by decide
      rw [bias]
      simp only [biased, twoTo, Nat.pow_eq, Nat.reducePow] at *
      omega

theorem unpack_zero {b : BitVec 64} (h : b.toNat = signBits negative) :
    UnpackedFloat.unpack Format.binary64 b = .zero (signOf negative) := by
  have same : b = BitVec.ofNat 64 (signBits negative) := by
    apply BitVec.eq_of_toNat_eq
    rw [h]
    cases negative <;> rfl
  rw [same]
  cases negative <;> rfl

/-! ## Putting together -/

theorem pack_finite (c : Canonical mantissa exponent) :
    (UnpackedFloat.pack Format.binary64
      (.finite (signOf negative) mantissa exponent c.pos)).toNat =
      signBits negative + bitsOf mantissa exponent := by
  obtain ⟨pos, small, full, low, high⟩ := c
  have bias : (Format.binary64.exponentBias : Int) = 1023 := by decide
  unfold UnpackedFloat.pack
  have width : Format.binary64.mantissaBits = 53 := rfl
  simp only [bias, width]
  rw [if_neg (by simp; omega)]
  by_cases subnormal : mantissa < twoTo 52
  · have least : exponent = -1074 := full.resolve_left (not_le.mpr subnormal)
    have short : mantissa.log2 + 1 ≠ 53 := by
      have := (Nat.log2_lt pos.ne').mpr subnormal
      omega
    rw [if_neg short, packComponents_toNat, signOf_toBitVec]
    simp only [least, bitsOf, BitVec.toNat_ofNat, twoTo, Nat.pow_eq, Nat.reducePow] at *
    omega
  · have long : mantissa.log2 + 1 = 53 := by
      have above := (Nat.le_log2 pos.ne').mpr (not_lt.mp subnormal)
      have below := (Nat.log2_lt pos.ne').mpr small
      omega
    rw [if_pos long, packComponents_toNat, signOf_toBitVec]
    simp only [bitsOf, BitVec.toNat_ofNat, twoTo, Nat.pow_eq, Nat.reducePow] at *
    omega

/-! ## Finite doubles -/

/-- The bits of a finite double: those of a zero, or of a positive double, below a
sign. -/
inductive Finite (x : Float) (negative : Bool) : Nat → Int → Prop where
  | zero (bits : x.toBits.toNat = signBits negative) : Finite x negative 0 (-1074)
  | canonical {mantissa : Nat} {exponent : Int} (c : Canonical mantissa exponent)
    (bits : x.toBits.toNat = signBits negative + bitsOf mantissa exponent) :
    Finite x negative mantissa exponent

theorem Finite.ofFloat (h : Finite x negative mantissa exponent) :
    Reading.ofFloat x = .finite negative mantissa exponent := by
  unfold Reading.ofFloat Reading.ofBits
  cases h with
  | zero bits =>
    rw [bits]
    cases negative <;> rfl
  | canonical c bits =>
    obtain ⟨sign, exponentField, mantissaField⟩ := bitsOf_fields c bits
    have finite := biased_lt c
    obtain ⟨pos, small, full, low, high⟩ := c
    have set : ((x.toBits.toNat / twoTo 63 == 1) : Bool) = negative := by
      rw [sign]
      cases negative <;> rfl
    have proper : biased mantissa exponent ≠ twoTo 11 - 1 := Nat.ne_of_lt finite
    simp only [set, exponentField, mantissaField, if_neg proper]
    by_cases subnormal : mantissa < twoTo 52
    · have least : exponent = -1074 := full.resolve_left (not_le.mpr subnormal)
      have none : biased mantissa exponent = 0 := by
        rw [biased, least, Nat.div_eq_of_lt subnormal]
        rfl
      rw [if_pos none, Nat.mod_eq_of_lt subnormal, least]
    · have some : biased mantissa exponent ≠ 0 := by
        simp only [biased, twoTo, Nat.pow_eq, Nat.reducePow] at *
        omega
      rw [if_neg some]
      simp only [biased, twoTo, Nat.pow_eq, Nat.reducePow] at *
      congr 1 <;> omega

theorem finite_of_isFinite (h : isFinite x = true) :
    ∃ negative mantissa exponent, Finite x negative mantissa exponent := by
  have bound := x.toBits.toNat_lt
  have proper : x.toBits.toNat / twoTo 52 % twoTo 11 ≠ twoTo 11 - 1 := by
    simpa [isFinite] using h
  have nested : x.toBits.toNat / twoTo 63 = x.toBits.toNat / twoTo 52 / twoTo 11 := by
    rw [Nat.div_div_eq_div_mul]
    rfl
  have sign : signBits (x.toBits.toNat / twoTo 63 == 1) =
      x.toBits.toNat / twoTo 63 * twoTo 63 := by
    have bit : x.toBits.toNat / twoTo 63 = 0 ∨ x.toBits.toNat / twoTo 63 = 1 := by
      simp only [twoTo, Nat.pow_eq, Nat.reducePow] at *
      omega
    rcases bit with bit | bit <;> rw [bit] <;> rfl
  by_cases zero : x.toBits.toNat % twoTo 63 = 0
  · refine ⟨x.toBits.toNat / twoTo 63 == 1, 0, -1074, .zero ?_⟩
    rw [sign]
    simp only [twoTo, Nat.pow_eq, Nat.reducePow] at *
    omega
  · refine ⟨x.toBits.toNat / twoTo 63 == 1,
      if x.toBits.toNat / twoTo 52 % twoTo 11 = 0 then x.toBits.toNat % twoTo 52
        else twoTo 52 + x.toBits.toNat % twoTo 52,
      if x.toBits.toNat / twoTo 52 % twoTo 11 = 0 then -1074
        else (x.toBits.toNat / twoTo 52 % twoTo 11 : Nat) - 1075, .canonical ?_ ?_⟩
    · constructor <;> split <;>
        simp only [twoTo, Nat.pow_eq, Nat.reducePow, or_true] at * <;> omega
    · rw [sign, bitsOf]
      split <;> simp only [twoTo, Nat.pow_eq, Nat.reducePow] at * <;> omega

theorem Finite.isFinite (h : Finite x negative mantissa exponent) :
    Number.isFinite x = true := by
  unfold Number.isFinite
  cases h with
  | zero bits =>
    rw [bits]
    cases negative <;> rfl
  | canonical c bits =>
    rw [(bitsOf_fields c bits).2.1, bne_iff_ne]
    exact Nat.ne_of_lt (biased_lt c)

/-- The magnitude of a finite double. -/
theorem Finite.abs (h : Finite x negative mantissa exponent) :
    Finite x.abs false mantissa exponent := by
  cases h with
  | zero bits =>
    have zero : x.abs = 0.0 := by
      apply eq_of_toBits
      show (UnpackedFloat.pack Format.binary64
        (UnpackedFloat.unpack Format.binary64 x.toBits.toBitVec).abs).toNat = _
      rw [unpack_zero bits]
      rfl
    rw [zero]
    exact .zero rfl
  | canonical c bits =>
    refine .canonical c ?_
    show (UnpackedFloat.pack Format.binary64
      (UnpackedFloat.unpack Format.binary64 x.toBits.toBitVec).abs).toNat = _
    rw [unpack_of_bits c bits]
    exact (pack_finite c : _ = signBits false + _)

/-- How a double compares with zero. -/
theorem Finite.compare_zero (h : Finite x negative mantissa exponent) :
    x.toModel.unpack.compare (.zero .positive) =
      some (if mantissa = 0 then .eq else if negative then .lt else .gt) := by
  show (UnpackedFloat.unpack Format.binary64 x.toBits.toBitVec).compare _ = _
  cases h with
  | zero bits =>
    rw [unpack_zero bits]
    cases negative <;> rfl
  | canonical c bits =>
    rw [unpack_of_bits c bits, if_neg c.pos.ne']
    cases negative <;> rfl

theorem Finite.lt_zero_iff (h : Finite x negative mantissa exponent) :
    x < 0.0 ↔ negative = true ∧ mantissa ≠ 0 := by
  have compared : x < 0.0 ↔
      (x.toModel.unpack.compare (.zero .positive) == some .lt) = true := decide_eq_true_iff
  rw [compared, h.compare_zero]
  by_cases zero : mantissa = 0 <;> cases negative <;> simp [zero]

theorem Finite.le_zero_iff (h : Finite x negative mantissa exponent) :
    x ≤ 0.0 ↔ negative = true ∨ mantissa = 0 := by
  have compared : x ≤ 0.0 ↔
      (x.toModel.unpack.compare (.zero .positive)).any (·.isLE) = true := decide_eq_true_iff
  rw [compared, h.compare_zero]
  by_cases zero : mantissa = 0 <;> cases negative <;> simp [zero]

/-- Zero and a double compared the other way round. -/
theorem Finite.zero_compare (h : Finite x negative mantissa exponent) :
    (UnpackedFloat.zero .positive).compare x.toModel.unpack =
      some (if mantissa = 0 then .eq else if negative then .gt else .lt) := by
  show (UnpackedFloat.zero .positive).compare
    (UnpackedFloat.unpack Format.binary64 x.toBits.toBitVec) = _
  cases h with
  | zero bits =>
    rw [unpack_zero bits]
    cases negative <;> rfl
  | canonical c bits =>
    rw [unpack_of_bits c bits, if_neg c.pos.ne']
    cases negative <;> rfl

theorem Finite.zero_lt_iff (h : Finite x negative mantissa exponent) :
    0.0 < x ↔ negative = false ∧ mantissa ≠ 0 := by
  have compared : 0.0 < x ↔
      ((UnpackedFloat.zero .positive).compare x.toModel.unpack == some .lt) = true :=
    decide_eq_true_iff
  rw [compared, h.zero_compare]
  by_cases zero : mantissa = 0 <;> cases negative <;> simp [zero]

/-- A finite double is above zero just when it is not at most zero. -/
theorem zero_lt_iff_not_le_zero (finite : isFinite x = true) : 0.0 < x ↔ ¬ x ≤ 0.0 := by
  obtain ⟨negative, mantissa, exponent, reading⟩ := finite_of_isFinite finite
  rw [reading.zero_lt_iff, reading.le_zero_iff, not_or, Bool.not_eq_true]

theorem Finite.beq_zero_iff (h : Finite x negative mantissa exponent) :
    (x == 0.0) = true ↔ mantissa = 0 := by
  show (x.toModel.unpack.compare (.zero .positive) == some .eq) = true ↔ _
  rw [h.compare_zero]
  by_cases zero : mantissa = 0 <;> cases negative <;> simp [zero]

/-- Positive doubles and their negatives compare by sign, then by exponent and mantissa. -/
theorem compare_finite {mantissa' : Nat} {exponent' : Int} {negative' : Bool} (pos : 0 < mantissa)
    (pos' : 0 < mantissa') : (finite (signOf negative) mantissa exponent pos).compare
      (finite (signOf negative') mantissa' exponent' pos') = some (
        if negative = negative' then
          let order := (compare exponent exponent').then (compare mantissa mantissa')
          if negative then order.swap else order
        else if negative then .lt else .gt) := by
  cases negative <;> cases negative' <;> rfl

theorem compare_zero_finite (sign : Sign) (pos : 0 < mantissa) :
    ((zero sign).compare (finite (signOf negative) mantissa exponent pos) == some .eq) = false := by
  cases negative <;> rfl

theorem compare_finite_zero (sign : Sign) (pos : 0 < mantissa) :
    ((finite (signOf negative) mantissa exponent pos).compare (zero sign) == some .eq) = false := by
  cases negative <;> rfl

/-- Finite doubles are equal as numbers when both are zero or nothing tells them
apart. -/
theorem Finite.beq_iff {y : Float} {mantissa' : Nat} {exponent' : Int} {negative' : Bool}
    (hx : Finite x negative mantissa exponent) (hy : Finite y negative' mantissa' exponent') :
    (x == y) = true ↔ mantissa = 0 ∧ mantissa' = 0 ∨
      negative = negative' ∧ mantissa = mantissa' ∧ exponent = exponent' := by
  show ((UnpackedFloat.unpack Format.binary64 x.toBits.toBitVec).compare
    (UnpackedFloat.unpack Format.binary64 y.toBits.toBitVec) == some .eq) = true ↔ _
  cases hx with
  | zero bits =>
    cases hy with
    | zero bits' =>
      rw [unpack_zero bits, unpack_zero bits']
      exact iff_of_true rfl (.inl ⟨rfl, rfl⟩)
    | canonical c' bits' =>
      have pos := c'.pos
      rw [unpack_zero bits, unpack_of_bits c' bits', compare_zero_finite]
      simp
      omega
  | canonical c bits =>
    have pos := c.pos
    cases hy with
    | zero bits' =>
      rw [unpack_of_bits c bits, unpack_zero bits', compare_finite_zero]
      simp
      omega
    | canonical c' bits' =>
      have fields : (compare exponent exponent').then (compare mantissa mantissa') = .eq ↔
          mantissa = mantissa' ∧ exponent = exponent' := by
        rw [Ordering.then_eq_eq, Std.LawfulEqCmp.compare_eq_iff_eq,
          Std.LawfulEqCmp.compare_eq_iff_eq, and_comm]
      rw [unpack_of_bits c bits, unpack_of_bits c' bits', compare_finite]
      cases negative <;> cases negative' <;> simp [fields] <;> omega

theorem Finite.toBits (h : Finite x negative mantissa exponent) : x.toBits.toNat =
    signBits negative + if mantissa = 0 then 0 else bitsOf mantissa exponent := by
  cases h with
  | zero bits => simp [bits]
  | canonical c bits => rw [bits, if_neg c.pos.ne']

theorem Finite.unique {y : Float} (hx : Finite x negative mantissa exponent)
    (hy : Finite y negative mantissa exponent) : x = y :=
  eq_of_toBits (hx.toBits.trans hy.toBits.symm)

/-- Bits of a positive double are the bits of what they make. -/
theorem toBits_ofBits (c : Canonical mantissa exponent) :
    (Float.ofBits (.ofNat (bitsOf mantissa exponent))).toBits.toNat =
      bitsOf mantissa exponent := by
  have small : bitsOf mantissa exponent < 2 ^ 64 := (bitsOf_lt c).trans (by decide)
  have made : (UInt64.ofNat (bitsOf mantissa exponent)).toBitVec.toNat =
      signBits false + bitsOf mantissa exponent := by
    rw [UInt64.toBitVec_ofNat', BitVec.toNat_ofNat, Nat.mod_eq_of_lt small]
    exact (Nat.zero_add _).symm
  show (UnpackedFloat.pack Format.binary64
    (UnpackedFloat.unpack Format.binary64 (UInt64.ofNat _).toBitVec)).toNat = _
  rw [unpack_of_bits c made]
  exact (pack_finite c).trans (Nat.zero_add _)

/-- The bits of a positive double make that double. -/
theorem Finite.ofBits (h : Finite x false mantissa exponent) :
    x = .ofBits (.ofNat (if mantissa = 0 then 0 else bitsOf mantissa exponent)) := by
  apply eq_of_toBits
  cases h with
  | zero bits =>
    rw [bits]
    rfl
  | canonical c bits =>
    rw [if_neg c.pos.ne', bits, toBits_ofBits c]
    exact Nat.zero_add _

end FluidChip.Number
