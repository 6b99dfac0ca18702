import FluidChip.Proofs.Number.Written
import FluidChip.Number.Layout
import FluidChip.Text.Character

/-!
# Positional decimals

A natural is spelled by its decimal digits, a decimal by the digits on either side
of its point.  The number is found in the digits again.
-/

namespace FluidChip.Number

open Text

variable {digits whole part : List Char} {n places : Nat}

/-! ## Numerals -/

/-- The natural that some digits spell, the most significant first. -/
def natOf (digits : List Char) : Nat :=
  digits.foldl (fun n c => 10 * n + (c.toNat - '0'.toNat)) 0

/-- Digits, with no zero in front of another digit. -/
def isNumeral (s : List Char) : Bool :=
  s != [] && s.all isDigit && (s.head? != some '0' || s.length == 1)

structure Spells (digits : List Char) (n : Nat) : Prop where
  numeral : isNumeral digits = true
  value : natOf digits = n

theorem natOf_concat (digits : List Char) (c : Char) :
    natOf (digits ++ [c]) = 10 * natOf digits + (c.toNat - '0'.toNat) := by
  simp [natOf, List.foldl_append]

theorem natOf_zeros (n : Nat) (digits : List Char) :
    natOf (List.replicate n '0' ++ digits) = natOf digits := by
  induction n with
  | zero => rfl
  | succ n ih => exact ih

theorem isNumeral_iff : isNumeral digits = true ↔
    digits ≠ [] ∧ (∀ c ∈ digits, isDigit c = true) ∧
      (digits.head? = some '0' → digits.length = 1) := by
  simp [isNumeral, and_assoc, Decidable.imp_iff_not_or]

theorem digitChar_cases (n : Nat) :
    isDigit (digitChar n) = true ∧ (digitChar n).toNat - '0'.toNat = n % 10 ∧
      (digitChar n = '0' → n % 10 = 0) := by
  have all : ∀ k < 10, isDigit (Char.ofNat ('0'.toNat + k)) = true ∧
      (Char.ofNat ('0'.toNat + k)).toNat - '0'.toNat = k ∧
      (Char.ofNat ('0'.toNat + k) = '0' → k = 0) := by decide
  exact all (n % 10) (Nat.mod_lt n (by decide))

theorem Spells.concat (h : Spells digits n) (pos : 0 < n) {c : Char} {k : Nat}
    (digit : isDigit c = true) (value : c.toNat - '0'.toNat = k) :
    Spells (digits ++ [c]) (10 * n + k) := by
  obtain ⟨numeral, rfl⟩ := h
  obtain ⟨some, all, lead⟩ := isNumeral_iff.mp numeral
  constructor
  case value => rw [natOf_concat, value]
  case numeral =>
    refine isNumeral_iff.mpr ⟨by simp, ?_, fun zero => ?_⟩
    · simpa [or_imp, forall_and] using ⟨all, digit⟩
    · rw [List.head?_append_of_ne_nil _ some] at zero
      obtain ⟨d, rfl⟩ := List.length_eq_one_iff.mp (lead zero)
      obtain rfl : d = '0' := by simpa using zero
      exact absurd pos (by decide)

theorem digitsOnto_spells {fuel : Nat} (enough : n < fuel) (rest : List Char) :
    ∃ digits, digitsOnto fuel n rest = digits ++ rest ∧ Spells digits n := by
  induction fuel generalizing n rest with
  | zero => cases enough
  | succ fuel ih =>
      obtain ⟨digit, value, zero⟩ := digitChar_cases n
      rw [digitsOnto]
      split
      · rename_i single
        rw [Nat.mod_eq_of_lt single] at value
        refine ⟨[digitChar n], rfl, isNumeral_iff.mpr ?_, ?_⟩
        · simp [digit]
        · simpa [natOf] using value
      · obtain ⟨digits, spelled, spells⟩ := ih (n := n / 10) (by omega) (digitChar n :: rest)
        refine ⟨digits ++ [digitChar n], by rw [spelled]; simp, ?_⟩
        have joined := spells.concat (by omega) digit value
        rwa [Nat.div_add_mod] at joined

theorem natDigits_spells (n : Nat) : Spells (natDigits n) n := by
  obtain ⟨digits, spelled, spells⟩ := digitsOnto_spells (Nat.lt_succ_self n) []
  rw [List.append_nil] at spelled
  rwa [natDigits, spelled]

/-! ## Decimals -/

/-- A decimal as a solver reads it: a numeral, a point, and at least one digit. -/
structure Positional (whole part : List Char) : Prop where
  numeral : isNumeral whole = true
  digits : ∀ c ∈ part, isDigit c = true
  nonempty : part ≠ []

theorem pointed_positional (h : Spells digits n) (pos : 0 < places) :
    ∃ whole part, pointed digits places = whole ++ '.' :: part ∧ Positional whole part ∧
      natOf (whole ++ part) = n ∧ part.length = places := by
  obtain ⟨numeral, rfl⟩ := h
  obtain ⟨some, all, lead⟩ := isNumeral_iff.mp numeral
  generalize spread : List.replicate (places + 1 - digits.length) '0' ++ digits = padded
  have long : places + 1 ≤ padded.length := by
    rw [← spread]
    simp only [List.length_append, List.length_replicate]
    omega
  have padding : ∀ c ∈ padded, isDigit c = true := by
    intro c hc
    rw [← spread, List.mem_append] at hc
    rcases hc with zero | given
    · rw [List.eq_of_mem_replicate zero]
      rfl
    · exact all c given
  refine ⟨padded.take (padded.length - places), padded.drop (padded.length - places),
    by rw [← spread]; rfl, ⟨isNumeral_iff.mpr ⟨?_, fun c hc => ?_, fun zero => ?_⟩,
      fun c hc => padding c (List.mem_of_mem_drop hc), ?_⟩, ?_, ?_⟩
  · rw [ne_eq, List.take_eq_nil_iff, not_or]
    refine ⟨by omega, ?_⟩
    rintro rfl
    simp at long
  · exact padding c (List.mem_of_mem_take hc)
  · -- With padding one zero stands before the point, without it the digits lead.
    rw [List.length_take]
    by_cases short : digits.length ≤ places
    · have exact : padded.length = places + 1 := by
        rw [← spread]
        simp only [List.length_append, List.length_replicate]
        omega
      omega
    · have same : padded = digits := by
        rw [← spread, Nat.sub_eq_zero_of_le (by omega)]
        rfl
      rw [same, List.head?_take] at zero
      have single := lead (by split at zero <;> simp_all)
      omega
  · rw [ne_eq, List.drop_eq_nil_iff]
    omega
  · rw [List.take_append_drop, ← spread, natOf_zeros]
  · rw [List.length_drop]
    omega

theorem plain_positional (d : Decimal) :
    ∃ whole part, d.plain = whole ++ '.' :: part ∧ Positional whole part ∧
      ratio (natOf (whole ++ part), tenTo part.length) = d.number := by
  obtain ⟨value, exponent⟩ := d
  unfold Decimal.plain
  split
  · rename_i large
    obtain ⟨places, rfl⟩ := Int.eq_ofNat_of_zero_le large
    obtain ⟨numeral, spelled⟩ := natDigits_spells (value * tenTo places)
    refine ⟨_, ['0'], rfl, ⟨numeral, by simp [isDigit], by simp⟩, ?_⟩
    rw [natOf_concat, Int.toNat_natCast, spelled, Decimal.number, zpow_natCast]
    simp [ratio, tenTo]
  · rename_i small
    simp only [not_le] at small
    obtain ⟨places, negated⟩ := Int.eq_ofNat_of_zero_le (a := -exponent) (by omega)
    obtain rfl : exponent = -(places : Int) := by omega
    obtain ⟨whole, part, shape, positional, spelled, length⟩ :=
      pointed_positional (natDigits_spells value) (show 0 < places by omega)
    refine ⟨whole, part, by simpa using shape, positional, ?_⟩
    rw [spelled, length, Decimal.number, zpow_neg, zpow_natCast]
    simp [ratio, tenTo, div_eq_mul_inv]

end FluidChip.Number
