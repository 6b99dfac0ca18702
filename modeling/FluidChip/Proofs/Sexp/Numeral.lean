import FluidChip.Proofs.Sexp.ReadBack
import Mathlib.Tactic.FieldSimp

/-!
# The numeral of a double, without its exponent

A double is written with an exponent where it is large or small; a solver reads no
exponent.  A literal is the same numeral with the point moved by that exponent.  The
value is kept whatever the digits and the exponent are.
-/

namespace FluidChip.Number

open Text

variable {a b rest rest' whole part : List Char} {n : Nat}

/-! ## Digits -/

/-- Digits end where anything else starts. -/
theorem digits_append_inj (ha : ∀ c ∈ a, isDigit c = true) (hb : ∀ c ∈ b, isDigit c = true)
    (ends : ∀ c ∈ rest.head?, isDigit c = false) (ends' : ∀ c ∈ rest'.head?, isDigit c = false)
    (h : a ++ rest = b ++ rest') : a = b ∧ rest = rest' := by
  have stop {s : List Char} (ends : ∀ c ∈ s.head?, isDigit c = false) :
      s.takeWhile isDigit = [] := by
    cases s with
    | nil => rfl
    | cons c s => simp [ends c rfl]
  have leading : a = b := by
    have taken := congrArg (List.takeWhile isDigit) h
    rwa [List.takeWhile_append_of_pos ha, List.takeWhile_append_of_pos hb, stop ends,
      stop ends', List.append_nil, List.append_nil] at taken
  subst leading
  exact ⟨rfl, List.append_cancel_left h⟩

theorem natOf_append (a b : List Char) : natOf (a ++ b) = natOf a * 10 ^ b.length + natOf b := by
  induction b using List.reverseRecOn with
  | nil => simp [natOf]
  | append_singleton b c ih =>
      rw [← List.append_assoc, natOf_concat, natOf_concat, ih, List.length_append]
      simp only [List.length_singleton, pow_succ]
      ring

theorem digitsOnto_fuel {fuel fuel' : Nat} (h : n < fuel) (h' : n < fuel') (rest : List Char) :
    digitsOnto fuel n rest = digitsOnto fuel' n rest := by
  induction fuel generalizing fuel' n rest with
  | zero => cases h
  | succ fuel ih =>
      cases fuel' with
      | zero => cases h'
      | succ fuel' =>
          rw [digitsOnto, digitsOnto]
          split
          · rfl
          · exact ih (by omega) (by omega) _

theorem digitsOnto_append (fuel n : Nat) (rest : List Char) :
    digitsOnto fuel n rest = digitsOnto fuel n [] ++ rest := by
  induction fuel generalizing n rest with
  | zero => rfl
  | succ fuel ih =>
      rw [digitsOnto, digitsOnto]
      split
      · rfl
      · rw [ih _ (digitChar n :: rest), ih _ [digitChar n]]
        simp

theorem natDigits_ten (pos : 0 < n) : natDigits (10 * n) = natDigits n ++ ['0'] := by
  have last : digitChar (10 * n) = '0' := by
    rw [digitChar, Nat.mul_mod_right]
    rfl
  rw [natDigits, digitsOnto, if_neg (by omega), Nat.mul_div_cancel_left n (by decide), last,
    digitsOnto_append, digitsOnto_fuel (show n < 10 * n by omega) (Nat.lt_succ_self n)]
  rfl

/-! ## Numerals -/

/-- A decimal numeral: a mantissa of digits, with or without a point, and an exponent,
if any, that shows its sign. -/
structure Numeral where
  whole : List Char
  /-- What follows the point, where there is one. -/
  part : Option (List Char)
  /-- The exponent, if any: whether it is negative, and its digits. -/
  power : Option (Bool × List Char)
  whole_digits : ∀ c ∈ whole, isDigit c = true
  part_digits : ∀ c ∈ part.getD [], isDigit c = true
  nonempty : whole ++ part.getD [] ≠ []
  power_digits : ∀ p ∈ power, p.2 ≠ [] ∧ ∀ c ∈ p.2, isDigit c = true

/-- The number of digits on either side of a point. -/
def fixedValue (whole part : List Char) : ℚ := natOf whole + natOf part / 10 ^ part.length

namespace Numeral

def pointChars : Option (List Char) → List Char
  | none => []
  | some part => '.' :: part

def powerChars : Option (Bool × List Char) → List Char
  | none => []
  | some (negative, digits) => 'e' :: (if negative then '-' else '+') :: digits

def chars (d : Numeral) : List Char := d.whole ++ (pointChars d.part ++ powerChars d.power)

/-- The digits behind the point. -/
def fraction (d : Numeral) : List Char := d.part.getD []

/-- The power of ten of the exponent. -/
def shift (d : Numeral) : Int :=
  match d.power with
  | none => 0
  | some (negative, digits) => if negative then -(natOf digits : Int) else natOf digits

/-- The number that the numeral stands for. -/
def value (d : Numeral) : ℚ := fixedValue d.whole d.fraction * 10 ^ d.shift

/-- All digits as one natural, and the exponent of the last of them. -/
def decimal (d : Numeral) : Decimal :=
  ⟨natOf (d.whole ++ d.fraction), d.shift - d.fraction.length⟩

/-! ## One numeral for a text -/

theorem powerChars_head (p : Option (Bool × List Char)) :
    ∀ c ∈ (powerChars p).head?, isDigit c = false ∧ c ≠ '.' := by
  rcases p with _ | ⟨negative, digits⟩ <;> simp [powerChars, isDigit]

theorem powerChars_inj {p q : Option (Bool × List Char)} (h : powerChars p = powerChars q) :
    p = q := by
  rcases p with _ | ⟨negative, digits⟩ <;> rcases q with _ | ⟨negative', digits'⟩
  · rfl
  · cases h
  · cases h
  · obtain ⟨-, tail⟩ := List.cons.inj h
    obtain ⟨sign, rfl⟩ := List.cons.inj tail
    obtain rfl : negative = negative' := by
      revert sign
      cases negative <;> cases negative' <;> simp
    rfl

theorem pointChars_inj {s t : Option (List Char)} {p q : Option (Bool × List Char)}
    (hs : ∀ c ∈ s.getD [], isDigit c = true) (ht : ∀ c ∈ t.getD [], isDigit c = true)
    (h : pointChars s ++ powerChars p = pointChars t ++ powerChars q) : s = t ∧ p = q := by
  -- Without a point on one side there is none on the other, for an exponent shows none.
  have unmarked {s : List Char} {p q : Option (Bool × List Char)} :
      powerChars p ≠ '.' :: (s ++ powerChars q) := by
    intro h
    exact (powerChars_head p '.' (by rw [h]; rfl)).2 rfl
  cases s with
  | none =>
      cases t with
      | none => exact ⟨rfl, powerChars_inj h⟩
      | some t => exact absurd h unmarked
  | some s =>
      cases t with
      | none => exact absurd h.symm unmarked
      | some t =>
          obtain ⟨rfl, tail⟩ := digits_append_inj hs ht (fun c hc => (powerChars_head p c hc).1)
            (fun c hc => (powerChars_head q c hc).1) (List.cons.inj h).2
          exact ⟨rfl, powerChars_inj tail⟩

theorem chars_inj {d d' : Numeral} (h : d.chars = d'.chars) : d = d' := by
  have ends (d : Numeral) :
      ∀ c ∈ (pointChars d.part ++ powerChars d.power).head?, isDigit c = false := by
    cases d.part with
    | none => exact fun c hc => (powerChars_head d.power c hc).1
    | some part => simp [pointChars, isDigit]
  obtain ⟨whole, tail⟩ := digits_append_inj d.whole_digits d'.whole_digits (ends d) (ends d') h
  obtain ⟨part, power⟩ := pointChars_inj d.part_digits d'.part_digits tail
  cases d
  cases d'
  simp_all

/-! ## The value of a numeral -/

theorem number_decimal (d : Numeral) : d.decimal.number = d.value := by
  have shifted : (10 : ℚ) ^ (d.shift - d.fraction.length) =
      10 ^ d.shift / 10 ^ d.fraction.length := by
    rw [zpow_sub₀ (by norm_num), zpow_natCast]
  rw [value, fixedValue, Decimal.number, decimal, shifted, natOf_append]
  push_cast
  field_simp

end Numeral

theorem fixedValue_eq (whole part : List Char) :
    fixedValue whole part = ratio (natOf (whole ++ part), tenTo part.length) := by
  rw [fixedValue, ratio, natOf_append]
  simp only [cast_tenTo]
  push_cast
  field_simp

/-- The point of any numeral can be moved to where it needs no exponent. -/
theorem Numeral.plain_decimal (d : Numeral) : ∃ whole part,
    d.decimal.plain = whole ++ '.' :: part ∧ Positional whole part ∧
      fixedValue whole part = d.value := by
  obtain ⟨whole, part, plain, positional, value⟩ := plain_positional d.decimal
  exact ⟨whole, part, plain, positional, by rw [fixedValue_eq, value, d.number_decimal]⟩

/-! ## The two layouts as numerals -/

def Positional.asNumeral (h : Positional whole part) : Numeral where
  whole := whole
  part := some part
  power := none
  whole_digits := (isNumeral_iff.mp h.numeral).2.1
  part_digits := h.digits
  nonempty := by simp [h.nonempty]
  power_digits := by simp

theorem pointed_concat {digits : List Char} (h : digits ≠ []) (c : Char) :
    pointed (digits ++ [c]) 1 = digits ++ ['.', c] := by
  have long : 0 < digits.length := List.length_pos_of_ne_nil h
  have none : 1 + 1 - (digits.length + 1) = 0 := by omega
  simp [pointed, none]

theorem plain_ten (n : Nat) : Decimal.plain ⟨10 * n, -1⟩ = natDigits n ++ ['.', '0'] := by
  rcases Nat.eq_zero_or_pos n with rfl | pos
  · rfl
  · have some : natDigits n ≠ [] := (isNumeral_iff.mp (natDigits_spells n).numeral).1
    rw [Decimal.plain, if_neg (by simp)]
    show pointed (natDigits (10 * n)) 1 = _
    rw [natDigits_ten pos, pointed_concat some]

theorem plain_numeral (d : Decimal) :
    ∃ m : Numeral, m.chars = d.plain ∧ m.decimal.plain = d.plain := by
  obtain ⟨digits, exponent⟩ := d
  by_cases large : 0 ≤ exponent
  · obtain ⟨places, rfl⟩ := Int.eq_ofNat_of_zero_le large
    have spells := natDigits_spells (digits * tenTo places)
    have positional : Positional (natDigits (digits * tenTo places)) ['0'] :=
      ⟨spells.numeral, by simp [isDigit], by simp⟩
    have plain : Decimal.plain ⟨digits, places⟩ =
        natDigits (digits * tenTo places) ++ ['.', '0'] := by
      rw [Decimal.plain, if_pos large]
      rfl
    refine ⟨positional.asNumeral, ?_, ?_⟩
    · rw [plain]
      rfl
    · rw [plain, ← plain_ten]
      congr 1
      show Decimal.mk (natOf (natDigits (digits * tenTo places) ++ ['0'])) _ = _
      rw [natOf_concat, spells.value]
      rfl
  · obtain ⟨places, negated⟩ := Int.eq_ofNat_of_zero_le (a := -exponent) (by omega)
    obtain rfl : exponent = -(places : Int) := by omega
    obtain ⟨whole, part, shape, positional, spelled, length⟩ :=
      pointed_positional (natDigits_spells digits) (show 0 < places by omega)
    have plain : Decimal.plain ⟨digits, -(places : Int)⟩ = whole ++ '.' :: part := by
      rw [Decimal.plain, if_neg large, ← shape]
      simp
    have decimal : positional.asNumeral.decimal = ⟨digits, -(places : Int)⟩ := by
      show Decimal.mk (natOf (whole ++ part)) (0 - part.length) = _
      rw [spelled, length, Int.zero_sub]
    refine ⟨positional.asNumeral, ?_, ?_⟩
    · rw [plain]
      show whole ++ ('.' :: part ++ []) = _
      rw [List.append_nil]
    · rw [decimal]

theorem exponentChars_eq (n : Int) : ∃ digits,
    exponentChars n = (if decide (n < 0) then '-' else '+') :: digits ∧
      (digits ≠ [] ∧ ∀ c ∈ digits, isDigit c = true) ∧ natOf digits = n.natAbs := by
  have spells := natDigits_spells n.natAbs
  obtain ⟨some, all, -⟩ := isNumeral_iff.mp spells.numeral
  refine ⟨if (natDigits n.natAbs).length < 2 then '0' :: natDigits n.natAbs
    else natDigits n.natAbs, by simp [exponentChars], ?_, ?_⟩
  · split
    · exact ⟨by simp, List.forall_mem_cons.mpr ⟨rfl, all⟩⟩
    · exact ⟨some, all⟩
  · split
    · exact (natOf_zeros 1 _).trans spells.value
    · exact spells.value

theorem scientific_numeral (d : Decimal) :
    ∃ m : Numeral, m.chars = d.scientific ∧ m.decimal = d := by
  have spells := natDigits_spells d.digits
  obtain ⟨some, all, -⟩ := isNumeral_iff.mp spells.numeral
  obtain ⟨lead, tail, digits⟩ : ∃ lead tail, natDigits d.digits = lead :: tail :=
    List.exists_cons_of_ne_nil some
  generalize magnitude : d.exponent + (natDigits d.digits).length - 1 = n
  obtain ⟨power, text, proper, number⟩ := exponentChars_eq n
  rw [digits] at all
  obtain ⟨first, others⟩ := List.forall_mem_cons.mp all
  let m : Numeral := {
    whole := [lead]
    part := if tail = [] then none else tail
    power := (decide (n < 0), power)
    whole_digits := by simpa using first
    part_digits := by
      split
      · simp
      · exact others
    nonempty := by simp
    power_digits := by simpa using proper }
  have fraction : m.fraction = tail := by
    show (if tail = [] then none else Option.some tail).getD [] = tail
    split
    · rename_i none
      rw [none]
      rfl
    · rfl
  have shift : m.shift = n := by
    show (if decide (n < 0) then -(natOf power : Int) else natOf power) = n
    rw [number]
    by_cases negative : n < 0
    · rw [if_pos (by simpa using negative)]
      omega
    · rw [if_neg (by simpa using negative)]
      omega
  refine ⟨m, ?_, ?_⟩
  · unfold Decimal.scientific
    dsimp only
    rw [magnitude, text, digits]
    cases tail <;> rfl
  · rw [Numeral.decimal, fraction, shift]
    show Decimal.mk (natOf (lead :: tail)) (n - tail.length) = d
    rw [← digits, spells.value, ← magnitude, digits, List.length_cons]
    congr 1
    push_cast
    ring

theorem general_numeral (d : Decimal) :
    ∃ m : Numeral, m.chars = d.general ∧ m.decimal.plain = d.plain := by
  have layout : d.general = d.plain ∨ d.general = d.scientific := ite_eq_or_eq _ _ _
  rcases layout with plain | scientific
  · rw [plain]
    exact plain_numeral d
  · obtain ⟨m, chars, decimal⟩ := scientific_numeral d
    exact ⟨m, chars.trans scientific.symm, by rw [decimal]⟩

end FluidChip.Number

namespace FluidChip

open Number Text

variable {whole part whole' part' : List Char} {q : ℚ}

/-! ## Literals -/

/-- The number that a text stands for in the language of the solver: a decimal, or the
minus form of one. -/
inductive Denotes : List Char → ℚ → Prop where
  | decimal {whole part : List Char} (h : Positional whole part) :
    Denotes (whole ++ '.' :: part) (fixedValue whole part)
  | minus {whole part : List Char} (h : Positional whole part) :
    Denotes (['(', '-', ' '] ++ (whole ++ '.' :: part) ++ [')']) (-fixedValue whole part)

theorem positional_inj (h : Positional whole part) (h' : Positional whole' part')
    (same : whole ++ '.' :: part = whole' ++ '.' :: part') : whole = whole' ∧ part = part' := by
  have point (s : List Char) : ∀ c ∈ ('.' :: s).head?, isDigit c = false := by
    simp [isDigit]
  obtain ⟨rfl, tail⟩ := digits_append_inj (isNumeral_iff.mp h.numeral).2.1
    (isNumeral_iff.mp h'.numeral).2.1 (point part) (point part') same
  exact ⟨rfl, (List.cons.inj tail).2⟩

/-- A decimal does not start with a parenthesis. -/
theorem positional_ne_opening (h : Positional whole part) {rest : List Char} :
    whole ++ '.' :: part ≠ '(' :: rest := by
  obtain ⟨some, digits, -⟩ := isNumeral_iff.mp h.numeral
  cases whole with
  | nil => exact absurd rfl some
  | cons c whole =>
      intro same
      have digit := digits c List.mem_cons_self
      rw [(List.cons.inj same).1] at digit
      exact absurd digit (by decide)

theorem denotes_decimal_iff (h : Positional whole part) :
    Denotes (whole ++ '.' :: part) q ↔ q = fixedValue whole part := by
  refine ⟨fun denotes => ?_, fun value => value ▸ .decimal h⟩
  generalize text : whole ++ '.' :: part = s at denotes
  cases denotes with
  | decimal h' =>
      obtain ⟨rfl, rfl⟩ := positional_inj h h' text
      rfl
  | minus h' => exact absurd text (positional_ne_opening h)

theorem denotes_minus_iff (h : Positional whole part) :
    Denotes (['(', '-', ' '] ++ (whole ++ '.' :: part) ++ [')']) q ↔
      q = -fixedValue whole part := by
  refine ⟨fun denotes => ?_, fun value => value ▸ .minus h⟩
  generalize text : ['(', '-', ' '] ++ (whole ++ '.' :: part) ++ [')'] = s at denotes
  cases denotes with
  | decimal h' => exact absurd text.symm (positional_ne_opening h')
  | minus h' =>
      obtain ⟨rfl, rfl⟩ := positional_inj h h'
        (List.append_cancel_left (List.append_cancel_right text))
      rfl

namespace Literal

/-- The text of a literal is the plain layout of the decimal that the digits of its
magnitude write. -/
theorem chars_eq (r : Literal) : ∃ d : Decimal, floatChars r.value.abs = d.general ∧
    r.chars = (if r.value < 0.0 then ['(', '-', ' '] ++ d.plain ++ [')'] else d.plain) ∧
    ((r.value == 0.0) = true → d = ⟨0, 0⟩) := by
  obtain ⟨negative, mantissa, exponent, reading⟩ := finite_of_isFinite r.finite
  have magnitude : Reading.ofFloat r.value.abs = .finite false mantissa exponent :=
    reading.abs.ofFloat
  have plain : r.magnitude.chars = (shortest mantissa exponent).plain := by
    have read : Reading.ofFloat r.magnitude.value = .finite false mantissa exponent := magnitude
    rw [Literal.chars, read]
    rfl
  refine ⟨shortest mantissa exponent, ?_, ?_, fun zero => ?_⟩
  · rw [floatChars, magnitude]
    rfl
  · split
    · rename_i lt
      rw [r.chars_of_lt lt, plain]
      rfl
    · rename_i not_lt
      rw [r.chars_of_not_lt not_lt, plain]
  · rw [reading.beq_zero_iff.mp zero, shortest_zero]

/-- Any numeral is, at the same value, a decimal without an exponent.  The magnitude of
a double is written as a numeral, and the literal is that decimal of it, in the minus form
just where the double is below zero.  So it stands for the value of the numeral with the
sign of the double, and no text stands for two. -/
theorem chars_numeral (r : Literal) :
    (∀ d : Numeral, ∃ whole part, d.decimal.plain = whole ++ '.' :: part ∧
      Positional whole part ∧ fixedValue whole part = d.value) ∧
    (∃ d : Numeral, d.chars = floatChars r.value.abs) ∧
    (∀ d : Numeral, d.chars = floatChars r.value.abs →
      r.chars = (if r.value < 0.0 then ['(', '-', ' '] ++ d.decimal.plain ++ [')']
        else d.decimal.plain) ∧
      ∀ q, Denotes r.chars q ↔ q = if r.value < 0.0 then -d.value else d.value) ∧
    ((r.value == 0.0) = true → r.chars = ['0', '.', '0']) := by
  obtain ⟨decimal, general, chars, zero⟩ := r.chars_eq
  obtain ⟨m, text, layout⟩ := general_numeral decimal
  refine ⟨Numeral.plain_decimal, ⟨m, text.trans general.symm⟩, fun d written => ?_,
    fun nothing => ?_⟩
  · obtain rfl : d = m := Numeral.chars_inj (written.trans (general.trans text.symm))
    obtain ⟨whole, part, plain, positional, value⟩ := d.plain_decimal
    rw [chars, layout]
    refine ⟨rfl, fun q => ?_⟩
    rw [← layout, plain]
    split
    · rw [denotes_minus_iff positional, value]
    · rw [denotes_decimal_iff positional, value]
  · obtain ⟨_, _, _, reading⟩ := finite_of_isFinite r.finite
    have unsigned : ¬ r.value < 0.0 := fun lt =>
      (reading.lt_zero_iff.mp lt).2 (reading.beq_zero_iff.mp nothing)
    rw [chars, if_neg unsigned, zero nothing]
    rfl

/-- A quarter of a millionth below zero is written with an exponent, and its literal
without one. -/
theorem quarterMillionth_numeral : ∃ (r : Literal) (d : Numeral), r.value < 0.0 ∧
    d.chars = "2.5e-07".toList ∧ r.chars = "(- 0.00000025)".toList ∧
    Denotes r.chars (-d.value) := by
  obtain ⟨r, value⟩ : ∃ r : Literal, r.value = -0.00000025 :=
    ⟨⟨-0.00000025, by decide +kernel⟩, rfl⟩
  have written : floatChars r.value.abs = "2.5e-07".toList := by
    rw [value]
    decide +kernel
  have negative : r.value < 0.0 := by
    rw [value]
    decide +kernel
  obtain ⟨-, ⟨d, text⟩, expanded, -⟩ := chars_numeral r
  obtain ⟨-, denotes⟩ := expanded d text
  refine ⟨r, d, negative, text.trans written, ?_, (denotes _).mpr (if_pos negative).symm⟩
  rw [chars, value]
  decide +kernel

end Literal

end FluidChip
