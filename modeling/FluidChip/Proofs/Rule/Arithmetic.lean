import FluidChip.Proofs.Host
import FluidChip.Proofs.Parameters
import FluidChip.Proofs.Rule.Placement
import FluidChip.Proofs.Sexp.Text

/-!
# Arithmetic in the rules

Rules write the numbers that they compute, and fail where a number is not finite.  The
least distance of nodes is squared: parameters that pass their checks have a positive one,
but its square is a number of its own, which may lie past either end of the doubles.  The
squares and powers are those of a host, which need not be rounded to the nearest double.
-/

namespace FluidChip

open Outcome Formula Number

/-! ## Failures of arithmetic -/

/-- A power out of range, a division by zero, or a literal that would not be finite. -/
inductive Failure.IsArithmetic : Failure → Prop
  | arithmetic (fault : Quantity.ArithmeticFault) : IsArithmetic (.arithmetic fault)
  | notFinite (shown : String) : IsArithmetic (.expression (.notFinite shown))
  | tooLarge : IsArithmetic (.expression .tooLarge)

theorem Failure.not_isArithmetic_told {limit? : Option Limit} {failure : Failure}
    (other : ¬ failure.IsArithmetic) : ¬ (Failure.told limit? failure).IsArithmetic := by
  cases limit? with
  | none => exact other
  | some limit => nofun

/-- Whatever else it fails for, it does not fail for its arithmetic. -/
abbrev Computes {α : Type} (r : Except Failure α) : Prop := Spares Failure.IsArithmetic r

variable {s : Schematic} {g : Setting} {x : Float}

namespace Schematic

theorem computes_symbolNamed {name : String} : Computes (symbolNamed name) := by
  unfold symbolNamed
  split
  · exact .pure _
  · exact .error nofun

theorem computes_nodeSymbol {q : NodeQuantity} {id : NodeId} : Computes (s.nodeSymbol q id) := by
  refine .bind ?_ fun _ _ => computes_symbolNamed
  unfold nodeName
  split
  · exact .pure _
  · exact .error (Failure.not_isArithmetic_told nofun)

theorem computes_connectionSymbol {q : ConnectionQuantity} {c : ConnectionId} :
    Computes (s.connectionSymbol q c) := by
  refine .bind ?_ fun _ _ => computes_symbolNamed
  unfold connectionName
  split
  · exact .pure _
  · exact .error (Failure.not_isArithmetic_told nofun)

end Schematic

/-! ## Literals -/

namespace Sexp

variable {a b : Sexp}

@[simp] theorem literals_assert (r : Relation) :
    (assert r a b).literals = a.literals ++ b.literals := by
  cases r <;> simp [assert, Relation.sign, keyword, literals, literalsOfAll]

@[simp] theorem literals_literal (r : Literal) : (Sexp.literal r).literals = [r] := by
  simp [literals]

@[simp] theorem literals_symbol (s : Symbol) : (Sexp.symbol s).literals = [] := by
  simp [literals]

@[simp] theorem literals_pair : (product [a, b]).literals = a.literals ++ b.literals := by
  simp [product, keyword, literals, literalsOfAll]

@[simp] theorem literals_triple {c : Sexp} :
    (product [a, b, c]).literals = a.literals ++ (b.literals ++ c.literals) := by
  simp [product, keyword, literals, literalsOfAll]

@[simp] theorem literals_term (u : Unknown) : (g.term u).literals = [] := literals_symbol _

@[simp] theorem literals_distanceTerm (m n : NodeId) : (g.distanceTerm m n).literals = [] := by
  simp [Setting.distanceTerm, Setting.term, sum, square, product, difference, keyword, literals,
    literalsOfAll]

/-- Every number in it is above zero. -/
def Positive (e : Sexp) : Prop := ∀ r ∈ e.literals, 0.0 < r.value

end Sexp

theorem Literal.pos_iff {r : Literal} {q : ℚ} (h : Approximates q r.value) :
    0.0 < r.value ↔ leastHalf < q := by
  rw [h.nonNegative.pos_iff, h.pos_iff]

theorem literal_of_approximates {q : ℚ} (h : Approximates q x) :
    ∃ r : Literal, r.value = x ∧ Rule.literal x = .ok (.literal r) :=
  ⟨⟨x, h.nonNegative.isFinite⟩, rfl, Setting.literal_ok_iff.mpr ⟨_, rfl, rfl⟩⟩

theorem literal_above {q : ℚ} (h : Rounds q x) (large : limit ≤ q) :
    Rule.literal x = .error (.expression (.notFinite (floatText x))) := by
  have infinite : ¬ isFinite x = true := fun finite => large.not_gt (h.isFinite_iff.mp finite)
  simp [Rule.literal, Sexp.literalOf, Literal.ofFloat?, infinite, Except.mapError]

/-! ## Node distances -/

namespace Quantity.Magnitude

/-- The number that a magnitude is, an integer however large. -/
def rational : Magnitude → ℚ
  | .int n => n
  | .float x => rationalOf x

def float? : Magnitude → Option Float
  | .int _ => none
  | .float x => some x

theorem rational_of_length {m : Magnitude} (toFloat : m.toFloat = .ok x)
    (finite : isFinite x = true) (pos : ¬ x ≤ 0.0) :
    (∃ n, m = .int n ∧ n ≠ 0) ∨ (m = .float x ∧ NonNegative x) := by
  cases m with
  | int n =>
      refine .inl ⟨n, rfl, ?_⟩
      rintro rfl
      simp only [Magnitude.toFloat] at toFloat
      split at toFloat
      · cases toFloat
        exact pos (by decide)
      · cases toFloat
  | float y =>
      obtain rfl : y = x := Except.ok.inj toFloat
      exact .inr ⟨rfl, (nonNegative_of_pos finite pos).1⟩

theorem ofInt_square_rounds (n : Int) : Rounds ((n : ℚ) ^ 2) (ofInt (n * n)) := by
  have square : ((n * n).natAbs : ℚ) = (n : ℚ) ^ 2 := by
    rw [Nat.cast_natAbs, abs_of_nonneg (mul_self_nonneg n), Int.cast_mul, pow_two]
  have rounds := roundRatio_rounds (m := (n * n).natAbs) one_pos
  rw [ofInt, decide_eq_false (mul_self_nonneg n).not_gt, ← square]
  simpa [ratio] using rounds

end Quantity.Magnitude

namespace Rule

open Quantity Setting

variable (powers : g.host.Powers)

include powers

theorem squared_below {m : Magnitude} (toFloat : m.toFloat = .ok x)
    (finite : isFinite x = true) (pos : ¬ x ≤ 0.0) (below : m.rational ^ 2 < limit) :
    ∃ least y, squared g.host m = .ok least ∧ least.toFloat = .ok y ∧
      Approximates (m.rational ^ 2) y := by
  rcases m.rational_of_length toFloat finite pos with ⟨n, rfl, -⟩ | ⟨rfl, nonNegative⟩
  · have rounds := Magnitude.ofInt_square_rounds n
    have fits := rounds.isFinite_iff.mpr below
    exact ⟨.int (n * n), ofInt (n * n), rfl, by simp [Magnitude.toFloat, fits],
      rounds.approximates below⟩
  · obtain ⟨y, powered, close⟩ := powers.fits nonNegative (n := 2) (by decide) below
    exact ⟨.float y, y, bind_ok_iff.mpr ⟨y, power_ok_iff.mpr powered, rfl⟩, rfl, close⟩

theorem squared_above {m : Magnitude} (toFloat : m.toFloat = .ok x)
    (finite : isFinite x = true) (pos : ¬ x ≤ 0.0) (float : m = .float x)
    (large : limit ≤ m.rational ^ 2) : squared g.host m = .error (.arithmetic .overflow) := by
  subst float
  rcases Magnitude.rational_of_length toFloat finite pos with ⟨n, int, -⟩ | ⟨-, nonNegative⟩
  · cases int
  · have refused := powers.refused nonNegative (n := 2) (by decide) large
    simp only [squared, power, refused]
    rfl

/-- The square of the least distance that is written is close to the exact square. -/
theorem squared_ok {m least : Magnitude} {r : Literal} (toFloat : m.toFloat = .ok x)
    (finite : isFinite x = true) (pos : ¬ x ≤ 0.0) (made : squared g.host m = .ok least)
    (read : least.toFloat = .ok r.value) :
    m.rational ^ 2 < limit ∧ Approximates (m.rational ^ 2) r.value := by
  have below : m.rational ^ 2 < limit := by
    by_contra large
    rcases m.rational_of_length toFloat finite pos with ⟨n, rfl, -⟩ | ⟨rfl, -⟩
    · obtain rfl : Magnitude.int (n * n) = least := Except.ok.inj made
      have rounds := Magnitude.ofInt_square_rounds n
      simp only [Magnitude.toFloat] at read
      split at read
      · rename_i fits
        exact large (rounds.isFinite_iff.mp fits)
      · cases read
    · cases made.symm.trans (squared_above powers toFloat finite pos rfl (not_lt.mp large))
  obtain ⟨least', y, made', read', close⟩ := squared_below powers toFloat finite pos below
  obtain rfl := Except.ok.inj (made.symm.trans made')
  obtain rfl := Except.ok.inj (read.symm.trans read')
  exact ⟨below, close⟩

omit powers in
theorem computes_squaredDistance {a b : NodeId} : Computes (squaredDistance g a b) := by
  have located {q : Schematic.NodeQuantity} {id : NodeId} :
      Computes (do return Sexp.symbol (← g.schematic.nodeSymbol q id)) :=
    .bind Schematic.computes_nodeSymbol fun _ _ => .pure _
  exact .bind located fun _ _ => .bind located fun _ _ => .bind located fun _ _ =>
    .bind located fun _ _ => .pure _

theorem literals_of_nodeDistances {es : List Sexp}
    (toFloat : g.parameters.nodeDistance.toFloat = .ok x) (finite : isFinite x = true)
    (pos : ¬ x ≤ 0.0) (made : nodeDistances g = .ok es) :
    ∀ e ∈ es, ∃ r : Literal, e.literals = [r] ∧ g.parameters.nodeDistance.rational ^ 2 < limit ∧
      Approximates (g.parameters.nodeDistance.rational ^ 2) r.value := by
  intro e he
  obtain ⟨least, made, steps⟩ := bind_ok_iff.mp made
  obtain ⟨⟨a, b⟩, -, step⟩ := step_of_result steps he
  simp only [bind_ok_iff, pure_ok_iff, squaredDistance_ok_iff, literalOf_ok_iff] at step
  obtain ⟨_, ⟨-, rfl⟩, _, ⟨r, read, rfl⟩, rfl⟩ := step
  exact ⟨r, by simp, squared_ok powers toFloat finite pos made read⟩

/-- What the rule for the distances of nodes does, by the exact square of the least one. -/
structure DistancesFollow (g : Setting) (square : ℚ) : Prop where
  computes : square < limit → Computes (nodeDistances g)
  overflows : ∀ x, g.parameters.nodeDistance = .float x → limit ≤ square →
    nodeDistances g = .error (.arithmetic .overflow)
  stops : limit ≤ square → ∀ es, nodeDistances g = .ok es → es = []
  positive : ∀ es, nodeDistances g = .ok es → ∀ e ∈ es, ∀ r ∈ e.literals,
    0.0 < r.value ↔ leastHalf < square
  integer : ∀ n, g.parameters.nodeDistance = .int n → leastHalf < square

theorem distancesFollow {value : Parameters.Field → Value}
    (valid : Parameters.ofNumbers g.host value = .ok g.parameters) :
    DistancesFollow g (g.parameters.nodeDistance.rational ^ 2) := by
  obtain ⟨x, toFloat, inRange⟩ := Parameters.inRange_of_ofNumbers valid .nodeDistance
  obtain ⟨finite, pos⟩ := Parameters.positive_of_rangeProblem? (by decide) inRange
  have toFloat : g.parameters.nodeDistance.toFloat = .ok x := toFloat
  constructor
  case computes =>
    intro below
    obtain ⟨least, y, made, read, close⟩ := squared_below powers toFloat finite pos below
    obtain ⟨r, rfl, -⟩ := literal_of_approximates close
    have written : literalOf least = .ok (.literal r) := literalOf_ok_iff.mpr ⟨r, read, rfl⟩
    refine .bind (.of_ok made) fun least' made' => .mapM fun pair _ => ?_
    obtain rfl := Except.ok.inj (made.symm.trans made')
    exact .bind computes_squaredDistance fun _ _ => .bind (.of_ok written) fun _ _ => .pure _
  case overflows =>
    intro y float large
    obtain rfl : y = x := by simpa [float, Magnitude.toFloat] using toFloat
    exact bind_error_iff.mpr (.inl (squared_above powers toFloat finite pos float large))
  case stops =>
    intro large es made
    refine List.eq_nil_iff_forall_not_mem.mpr fun e he => ?_
    obtain ⟨r, -, below, -⟩ := literals_of_nodeDistances powers toFloat finite pos made e he
    exact large.not_gt below
  case positive =>
    intro es made e he r hr
    obtain ⟨r', only, -, close⟩ := literals_of_nodeDistances powers toFloat finite pos made e he
    obtain rfl : r = r' := by simpa [only] using hr
    exact Literal.pos_iff close
  case integer =>
    intro n int
    rcases Magnitude.rational_of_length toFloat finite pos with ⟨m, same, nonzero⟩ | ⟨float, -⟩
    · have one : (1 : ℚ) ≤ (m : ℚ) ^ 2 := by
        have square : 0 < m ^ 2 := by positivity
        exact_mod_cast square
      rw [same]
      exact (leastHalf_le.trans_lt (by norm_num)).trans_le one
    · cases int.symm.trans float

end Rule

end FluidChip
