import FluidChip.Proofs.Declaration
import FluidChip.Proofs.Rule.Arithmetic
import FluidChip.Proofs.Rule.Coefficient
import FluidChip.Proofs.Rule.Hydraulic

/-!
# The laws of cross-sections

The measures of a channel are finite and positive, each by itself; the powers, products
and quotients that its law is made of need not be.  The exact numbers of the formula decide:
clear of the two ends of the doubles the law is written with positive numbers, past the
upper end it fails, and below the lower one it divides by zero or a zero is written.
-/

namespace FluidChip

open Outcome Formula Number

variable {g : Setting} {x : Float}

/-! ## Numbers of a cross-section -/

namespace CrossSection

open Rule (PartsInRange uncorrected)

variable {host : Host} {resistance length : Sexp} {shape : CrossSection}

/-! ### Measures -/

/-- A double that is read as a positive measure. -/
def IsMeasure (x : Float) : Prop := NonNegative x ∧ 0 < rationalOf x

theorem isMeasure_of_positive {attributes : Attributes} {key owner : String}
    {m : Quantity.Measure} (h : attributes.positive host key m owner = .ok x) :
    IsMeasure x := by
  obtain ⟨found, pos⟩ := Setting.positive_ok_iff.mp h
  refine nonNegative_of_pos ?_ pos
  unfold Attributes.quantity? at found
  split at found
  · cases found
  · cases found
  · split at found
    · split at found <;> cases found
    · split at found
      · rename_i finite
        cases found
        exact finite
      · cases found

def Measured : CrossSection → Prop
  | .unknown => True
  | .circular radius viscosity => IsMeasure radius ∧ IsMeasure viscosity
  | .rectangular width height viscosity =>
      IsMeasure width ∧ IsMeasure height ∧ IsMeasure viscosity

theorem Given.measured {owner : String} {attributes : Attributes}
    (h : Given host owner attributes shape) : shape.Measured := by
  cases h with
  | unknown => trivial
  | circular _ radius viscosity =>
      exact ⟨isMeasure_of_positive radius, isMeasure_of_positive viscosity⟩
  | rectangular _ width height viscosity =>
      exact ⟨isMeasure_of_positive width, isMeasure_of_positive height,
        isMeasure_of_positive viscosity⟩

/-- The exact parts of the formula keep clear of both ends of the doubles. -/
def Sound : CrossSection → Prop
  | .unknown => True
  | .circular radius viscosity =>
      leastHalf < rationalOf radius ^ 4 ∧ rationalOf radius ^ 4 < limit ∧
        8 * rationalOf viscosity < limit
  | .rectangular width height viscosity =>
      PartsInRange width height viscosity ∧
        32 * leastHalf < uncorrected width height viscosity ∧
        128 * uncorrected width height viscosity < limit

/-! ### Moderate measures -/

/-- Between a millionth of a millionth and its inverse. -/
def Moderate (q : ℚ) : Prop := 1 / 2 ^ 40 ≤ q ∧ q ≤ 2 ^ 40

theorem Moderate.pow {q : ℚ} (h : Moderate q) (n : Nat) :
    (1 / 2 ^ 40) ^ n ≤ q ^ n ∧ q ^ n ≤ (2 ^ 40) ^ n := by
  obtain ⟨low, high⟩ := h
  have nonneg : 0 ≤ q := le_trans (by norm_num) low
  exact ⟨pow_le_pow_left₀ (by norm_num) low n, pow_le_pow_left₀ nonneg high n⟩

def measures : CrossSection → List Float
  | .unknown => []
  | .circular radius viscosity => [radius, viscosity]
  | .rectangular width height viscosity => [width, height, viscosity]

/-- Where no measure is out of the way, nothing comes near the ends. -/
theorem sound_of_moderate (h : ∀ x ∈ shape.measures, Moderate (rationalOf x)) : shape.Sound := by
  have least := leastHalf_le
  have most := le_limit
  cases shape with
  | unknown => trivial
  | circular radius viscosity =>
      simp only [measures, List.forall_mem_cons] at h
      obtain ⟨hradius, hviscosity, -⟩ := h
      obtain ⟨low, high⟩ := hradius.pow 4
      have thick := hviscosity.2
      norm_num at low high thick least most
      refine ⟨?_, ?_, ?_⟩ <;> linarith
  | rectangular width height viscosity =>
      simp only [measures, List.forall_mem_cons] at h
      obtain ⟨hwidth, hheight, ⟨thin, thick⟩, -⟩ := h
      obtain ⟨low, high⟩ : Moderate (max (rationalOf width) (rationalOf height)) :=
        ⟨le_max_of_le_left hwidth.1, max_le hwidth.2 hheight.2⟩
      have smaller : Moderate (min (rationalOf width) (rationalOf height)) :=
        ⟨le_min hwidth.1 hheight.1, min_le_of_left_le hwidth.2⟩
      obtain ⟨cube_low, cube_high⟩ := smaller.pow 3
      have product_low := mul_le_mul low cube_low (by norm_num) (le_trans (by norm_num) low)
      have product_high :=
        mul_le_mul high cube_high (le_trans (by norm_num) cube_low) (by norm_num)
      have product_pos : 0 < max (rationalOf width) (rationalOf height) *
          min (rationalOf width) (rationalOf height) ^ 3 :=
        lt_of_lt_of_le (by norm_num) product_low
      have quotient_low := div_le_div₀ (le_trans (by norm_num) thin) thin product_pos product_high
      have quotient_high := div_le_div₀ (by norm_num) thick (by norm_num) product_low
      have share : uncorrected width height viscosity = 12 * (_ / _) := mul_div_assoc _ _ _
      -- all bounds are numbers below the 256th power of two, which are evaluated
      norm_num at cube_low cube_high product_low product_high thick quotient_low
      norm_num at quotient_high least most
      refine ⟨⟨?_, ?_, ?_, ?_, ?_⟩, ?_, ?_⟩ <;> linarith

/-! ### Failures and lost numbers -/

/-- How the arithmetic of a formula fails. -/
inductive Breaks (host : Host) : CrossSection → Failure → Prop
  | radius {radius viscosity : Float} (large : limit ≤ rationalOf radius ^ 4) :
      Breaks host (.circular radius viscosity) (.arithmetic .overflow)
  | viscosity {radius viscosity : Float} (below : rationalOf radius ^ 4 < limit)
      (large : limit ≤ 8 * rationalOf viscosity) :
      Breaks host (.circular radius viscosity)
        (.expression (.notFinite (floatText (8.0 * viscosity))))
  | side {width height viscosity : Float}
      (large : limit ≤ min (rationalOf width) (rationalOf height) ^ 3) :
      Breaks host (.rectangular width height viscosity) (.arithmetic .overflow)
  | denominator {width height viscosity : Float}
      (far : 1000 * leastHalf ≤ min (rationalOf width) (rationalOf height))
      (small : min (rationalOf width) (rationalOf height) ^ 3 ≤ leastHalf) :
      Breaks host (.rectangular width height viscosity) (.arithmetic .divisionByZero)
  | coefficient {width height viscosity coefficient : Float}
      (computed : Rule.rectangularCoefficient host width height viscosity = .ok coefficient)
      (parts : PartsInRange width height viscosity)
      (large : 32 * limit ≤ uncorrected width height viscosity) :
      Breaks host (.rectangular width height viscosity)
        (.expression (.notFinite (floatText coefficient)))

/-- Where a number that is too small for a double is written as zero. -/
inductive Vanishes : CrossSection → Prop
  | radius {radius viscosity : Float} (small : rationalOf radius ^ 4 ≤ leastHalf) :
      Vanishes (.circular radius viscosity)
  | coefficient {width height viscosity : Float} (parts : PartsInRange width height viscosity)
      (small : 128 * uncorrected width height viscosity ≤ leastHalf) :
      Vanishes (.rectangular width height viscosity)

/-! ### Laws -/

/-- The expressions for a cross-section whose measures have been read. -/
def laws (host : Host) (resistance length : Sexp) : CrossSection → Except Failure (List Sexp)
  | .unknown => return []
  | .circular radius viscosity => do
    let fourth ← Rule.power host radius 4
    let area := product [resistance, .symbol Schematic.pi, ← Rule.literal fourth]
    return [assert .equal area (product [← Rule.literal (8.0 * viscosity), length])]
  | .rectangular width height viscosity => do
    let coefficient ← Rule.rectangularCoefficient host width height viscosity
    return [assert .equal resistance (product [← Rule.literal coefficient, length])]

theorem scaled_viscosity {viscosity : Float} (h : IsMeasure viscosity) :
    Rounds (8 * rationalOf viscosity) (8.0 * viscosity) ∧
      leastHalf < 8 * rationalOf viscosity := by
  obtain ⟨nonNegative, pos⟩ := h
  obtain ⟨eight, eight_eq⟩ := rational_eight
  have scaled := mul_rounds eight nonNegative
  rw [eight_eq] at scaled
  have least := nonNegative.least pos
  have half := leastHalf_pos
  exact ⟨scaled, by linarith⟩

variable (powers : host.Powers)

include powers

/-- Within the range of the doubles a law is written, with positive numbers only. -/
theorem laws_sound (measured : shape.Measured) (sound : shape.Sound)
    (plain : resistance.literals = []) (plain' : length.literals = []) :
    ∃ es, shape.laws host resistance length = .ok es ∧ ∀ e ∈ es, e.Positive := by
  cases shape with
  | unknown => exact ⟨[], rfl, by simp⟩
  | circular radius viscosity =>
      obtain ⟨⟨hradius, -⟩, hviscosity⟩ := measured
      obtain ⟨low, high, below⟩ := sound
      obtain ⟨fourth, powered, close⟩ := powers.fits hradius (n := 4) (by decide) high
      obtain ⟨scaled, scaled_pos⟩ := scaled_viscosity hviscosity
      have scaled := scaled.approximates below
      obtain ⟨r, rfl, first⟩ := literal_of_approximates close
      obtain ⟨r', same, second⟩ := literal_of_approximates scaled
      rw [← same] at scaled
      refine ⟨[assert .equal (product [resistance, .symbol Schematic.pi, .literal r])
        (product [.literal r', length])], ?made, ?positive⟩
      case made =>
        have computed : Rule.power host radius 4 = .ok r.value :=
          Setting.power_ok_iff.mpr powered
        exact bind_ok_iff.mpr ⟨_, computed, bind_ok_iff.mpr ⟨_, first,
          bind_ok_iff.mpr ⟨_, second, rfl⟩⟩⟩
      case positive =>
        simp [Sexp.Positive, plain, plain', (Literal.pos_iff close).mpr low,
          (Literal.pos_iff scaled).mpr scaled_pos]
  | rectangular width height viscosity =>
      obtain ⟨⟨hwidth, -⟩, ⟨hheight, -⟩, hviscosity, pos⟩ := measured
      obtain ⟨parts, low, high⟩ := sound
      obtain ⟨coefficient, quotient, computed, rounds, above, below⟩ :=
        Rule.rectangularCoefficient_rounds powers hwidth hheight hviscosity pos parts
      have close := rounds.approximates (below.trans_lt high)
      obtain ⟨r, rfl, written⟩ := literal_of_approximates close
      have coefficient_pos : leastHalf < quotient := by linarith
      refine ⟨_, bind_ok_iff.mpr ⟨_, computed, bind_ok_iff.mpr ⟨_, written, rfl⟩⟩, ?_⟩
      simp [Sexp.Positive, plain, plain', (Literal.pos_iff close).mpr coefficient_pos]

theorem laws_breaks (measured : shape.Measured) {failure : Failure}
    (breaks : Breaks host shape failure) :
    shape.laws host resistance length = .error failure := by
  cases breaks with
  | radius large =>
      obtain ⟨⟨hradius, -⟩, -⟩ := measured
      have refused := powers.refused hradius (n := 4) (by decide) large
      simp only [laws, Rule.power, refused]
      rfl
  | viscosity below large =>
      obtain ⟨⟨hradius, -⟩, hviscosity⟩ := measured
      obtain ⟨fourth, powered, close⟩ := powers.fits hradius (n := 4) (by decide) below
      obtain ⟨scaled, -⟩ := scaled_viscosity hviscosity
      obtain ⟨r, rfl, first⟩ := literal_of_approximates close
      have computed := Setting.power_ok_iff.mpr powered
      have refused := literal_above scaled large
      exact bind_error_iff.mpr (.inr ⟨_, computed, bind_error_iff.mpr (.inr ⟨_, first,
        bind_error_iff.mpr (.inl refused)⟩)⟩)
  | side large =>
      obtain ⟨⟨hwidth, -⟩, ⟨hheight, -⟩, -⟩ := measured
      exact bind_error_iff.mpr
        (.inl (Rule.rectangularCoefficient_overflow powers hwidth hheight large))
  | denominator far small =>
      obtain ⟨⟨hwidth, -⟩, ⟨hheight, -⟩, -⟩ := measured
      exact bind_error_iff.mpr
        (.inl (Rule.rectangularCoefficient_divisionByZero powers hwidth hheight far small))
  | coefficient computed parts large =>
      obtain ⟨⟨hwidth, -⟩, ⟨hheight, -⟩, hviscosity, pos⟩ := measured
      obtain ⟨_, quotient, computed', rounds, low, -⟩ :=
        Rule.rectangularCoefficient_rounds powers hwidth hheight hviscosity pos parts
      obtain rfl := Except.ok.inj (computed.symm.trans computed')
      have refused := literal_above rounds (by linarith)
      exact bind_error_iff.mpr (.inr ⟨_, computed, bind_error_iff.mpr (.inl refused)⟩)

theorem laws_vanishes (measured : shape.Measured) (vanishes : shape.Vanishes) {es : List Sexp}
    (written : shape.laws host resistance length = .ok es) :
    ∃ e ∈ es, ∃ r ∈ e.literals, (r.value == 0.0) = true := by
  cases vanishes with
  | radius small =>
      obtain ⟨⟨hradius, -⟩, -⟩ := measured
      obtain ⟨fourth, powered, close⟩ :=
        powers.fits hradius (n := 4) (by decide) (small.trans_lt leastHalf_lt_limit)
      simp only [laws, bind_ok_iff, pure_ok_iff, Setting.power_ok_iff, Setting.literal_ok_iff,
        powered, Option.some.injEq, exists_eq_left'] at written
      obtain ⟨_, ⟨r, rfl, rfl⟩, _, ⟨r', -, rfl⟩, rfl⟩ := written
      exact ⟨_, List.mem_singleton_self _, r, by simp,
        close.nonNegative.beq_zero_iff.mpr (close.lost small)⟩
  | coefficient parts small =>
      obtain ⟨⟨hwidth, -⟩, ⟨hheight, -⟩, hviscosity, pos⟩ := measured
      obtain ⟨_, quotient, computed, rounds, -, high⟩ :=
        Rule.rectangularCoefficient_rounds powers hwidth hheight hviscosity pos parts
      simp only [laws, bind_ok_iff, pure_ok_iff, Setting.literal_ok_iff] at written
      obtain ⟨_, computed', _, ⟨r, rfl, rfl⟩, rfl⟩ := written
      obtain rfl := Except.ok.inj (computed.symm.trans computed')
      obtain ⟨kept, zero⟩ := rounds.lost (high.trans small)
      exact ⟨_, List.mem_singleton_self _, r, by simp, kept.beq_zero_iff.mpr zero⟩

end CrossSection

/-! ## Resistances -/

namespace Rule

open CrossSection Quantity Setting

variable {name : String} {c : ConnectionId} {shape : CrossSection}

theorem bind_of_ok {α β : Type} {r : Except Failure α} {a : α} {k : α → Except Failure β}
    (h : r = .ok a) : (r >>= k) = k a := by
  rw [h]
  rfl

theorem circularModel_given {host : Host} {owner : String} {attributes : Attributes}
    {radius viscosity : Float} {resistance length : Sexp}
    (hradius : attributes.positive host "radius" .length owner = .ok radius)
    (hviscosity : attributes.positive host "viscosity" .viscosity owner = .ok viscosity) :
    (do return [← circularModel host resistance length owner attributes]) =
      (circular radius viscosity).laws host resistance length := by
  rw [circularModel, bind_of_ok hradius, bind_of_ok hviscosity]
  simp only [laws, bind_assoc, pure_bind]

theorem rectangularModel_given {host : Host} {owner : String} {attributes : Attributes}
    {width height viscosity : Float} {resistance length : Sexp}
    (hwidth : attributes.positive host "width" .length owner = .ok width)
    (hheight : attributes.positive host "height" .length owner = .ok height)
    (hviscosity : attributes.positive host "viscosity" .viscosity owner = .ok viscosity) :
    rectangularModel host resistance length owner attributes =
      (rectangular width height viscosity).laws host resistance length := by
  rw [rectangularModel, bind_of_ok (positive_ok_iff.mp hwidth).1,
    bind_of_ok (positive_ok_iff.mp hheight).1, if_neg (by simp), bind_of_ok hwidth,
    bind_of_ok hheight, bind_of_ok hviscosity]
  rfl

/-- A channel whose measures can be read gets the laws of its cross-section. -/
theorem resistanceRules_given (given : Given g.host ("channel '" ++ name ++ "'")
    (g.schematic.connection c).attributes shape) :
    resistanceRules g name c = do
      let resistance ← g.resistance c
      let length ← g.length c
      return assert .greater resistance zero :: (← shape.laws g.host resistance length) := by
  -- the symbols are read first in any case; then the shape picks the model
  refine bind_congr fun resistance => bind_congr fun length => ?_
  have round : ("rectangular" : String) ≠ "circular" := by decide
  cases given with
  | unknown shape width height =>
      refine (bind_of_ok shape).trans ((if_neg round).trans ((if_pos rfl).trans ?_))
      rw [rectangularModel, bind_of_ok width, bind_of_ok height]
      rfl
  | circular shape radius viscosity =>
      refine (bind_of_ok shape).trans ((if_pos rfl).trans ?_)
      rw [← circularModel_given radius viscosity, bind_assoc]
  | rectangular shape width height viscosity =>
      refine (bind_of_ok shape).trans ((if_neg round).trans ((if_pos rfl).trans ?_))
      rw [rectangularModel_given width height viscosity]

/-! ## What becomes of the numbers -/

/-- What the rule for a channel does, by the exact numbers of its cross-section. -/
structure ChannelFollows (g : Setting) (name : String) (c : ConnectionId)
    (shape : CrossSection) : Prop where
  sound : shape.Sound → Computes (resistanceRules g name c) ∧
    ∀ es, resistanceRules g name c = .ok es →
      es.head? = some (assert .greater (g.term (.connection .resistance c)) zero) ∧
        ∀ e ∈ es.tail, e.Positive
  breaks : ∀ failure, Breaks g.host shape failure →
    g.schematic.Resolves (.connection .resistance c) →
    g.schematic.Resolves (.connection .length c) → resistanceRules g name c = .error failure
  vanishes : shape.Vanishes → ∀ es, resistanceRules g name c = .ok es →
    ∃ e ∈ es.tail, ∃ r ∈ e.literals, (r.value == 0.0) = true

variable (powers : g.host.Powers)

include powers

theorem channelFollows (given : Given g.host ("channel '" ++ name ++ "'")
    (g.schematic.connection c).attributes shape) : ChannelFollows g name c shape := by
  have measured := given.measured
  have written (es : List Sexp) (made : resistanceRules g name c = .ok es) : ∃ model,
      shape.laws g.host (g.term (.connection .resistance c)) (g.term (.connection .length c)) =
        .ok model ∧
      es = assert .greater (g.term (.connection .resistance c)) zero :: model := by
    rw [resistanceRules_given given] at made
    simp only [bind_ok_iff, pure_ok_iff, resistance_ok_iff, length_ok_iff] at made
    obtain ⟨_, ⟨-, rfl⟩, _, ⟨-, rfl⟩, model, laws, rfl⟩ := made
    exact ⟨model, laws, rfl⟩
  constructor
  case sound =>
    intro sound
    obtain ⟨model, laws, positive⟩ := laws_sound powers measured sound
      (Sexp.literals_term (.connection .resistance c))
      (Sexp.literals_term (.connection .length c))
    constructor
    · -- the names of the symbols may still be refused, but not for arithmetic
      rw [resistanceRules_given given]
      have read {q : Schematic.ConnectionQuantity} :
          Computes (do return Sexp.symbol (← g.schematic.connectionSymbol q c)) :=
        .bind Schematic.computes_connectionSymbol fun _ _ => .pure _
      refine .bind read fun _ readResistance => .bind read fun _ readLength => ?_
      obtain ⟨-, rfl⟩ := resistance_ok_iff.mp readResistance
      obtain ⟨-, rfl⟩ := length_ok_iff.mp readLength
      exact .bind (.of_ok laws) fun _ _ => .pure _
    · intro es made
      obtain ⟨model', laws', rfl⟩ := written es made
      obtain rfl := Except.ok.inj (laws.symm.trans laws')
      exact ⟨rfl, positive⟩
  case breaks =>
    intro failure breaks resistance length
    have readResistance := resistance_ok_iff.mpr ⟨resistance, rfl⟩
    have readLength := length_ok_iff.mpr ⟨length, rfl⟩
    rw [resistanceRules_given given, bind_of_ok readResistance, bind_of_ok readLength]
    exact bind_error_iff.mpr (.inl (laws_breaks powers measured breaks))
  case vanishes =>
    intro vanishes es made
    obtain ⟨model, laws, rfl⟩ := written es made
    exact laws_vanishes powers measured vanishes laws

theorem resistances_sound (sound : ∀ name c, (name, c) ∈ g.channels → ∃ shape,
      Given g.host ("channel '" ++ name ++ "'") (g.schematic.connection c).attributes shape ∧
        shape.Sound) :
    Computes (resistances g) ∧ ∀ es, resistances g = .ok es → ∀ e ∈ es, e.Positive ∨
      ∃ name c, (name, c) ∈ g.channels ∧
        e = assert .greater (g.term (.connection .resistance c)) zero := by
  constructor
  · refine .bind (.mapM ?_) fun _ _ => .pure _
    rintro ⟨name, c⟩ listed
    obtain ⟨shape, given, sound⟩ := sound name c listed
    exact ((channelFollows powers given).sound sound).1
  · intro es made e he
    obtain ⟨⟨name, c⟩, listed, part, made, he⟩ := step_of_joined made he
    obtain ⟨shape, given, sound⟩ := sound name c listed
    obtain ⟨first, positive⟩ := ((channelFollows powers given).sound sound).2 part made
    obtain ⟨rest, rfl⟩ := List.head?_eq_some_iff.mp first
    rcases List.mem_cons.mp he with rfl | he
    · exact .inr ⟨name, c, listed, rfl⟩
    · exact .inl (positive e he)

/-- Parameters and measures that pass their checks do not keep the arithmetic of the rules
from failing, on any host whose powers are good enough.  Whether it does is a matter of the
exact square of the least distance, and of the exact parts of each formula: clear of the ends
of the doubles no rule fails for its arithmetic and every number written is positive; past
the upper end a rule fails, and below the lower one it divides by zero or writes one. -/
theorem coefficients_follow {value : Parameters.Field → Value}
    (valid : Parameters.ofNumbers g.host value = .ok g.parameters) :
    DistancesFollow g (g.parameters.nodeDistance.rational ^ 2) ∧
    (∀ name c shape, Given g.host ("channel '" ++ name ++ "'")
      (g.schematic.connection c).attributes shape → ChannelFollows g name c shape) ∧
    ((∀ name c, (name, c) ∈ g.channels → ∃ shape,
        Given g.host ("channel '" ++ name ++ "'") (g.schematic.connection c).attributes shape ∧
          shape.Sound) →
      Computes (resistances g) ∧ ∀ es, resistances g = .ok es → ∀ e ∈ es, e.Positive ∨
        ∃ name c, (name, c) ∈ g.channels ∧
          e = assert .greater (g.term (.connection .resistance c)) zero) :=
  ⟨distancesFollow powers valid, fun _ _ _ => channelFollows powers, resistances_sound powers⟩

omit powers

/-! ## A channel with a square cross-section -/

/-- Two nodes and a channel as high as it is wide. -/
def pipe (side viscosity : Float) : Except Failure Schematic := do
  let s ← (Schematic.empty "pipe").addNode "inlet" "fluidEntry" ["out"]
  let s ← s.addNode "outlet" "fluidExit" ["in"]
  s.addConnection "drain" (← s.getPort "inlet" "out") (← s.getPort "outlet" "in") "channel"
    (.ofList [("width", .float side), ("height", .float side), ("viscosity", .float viscosity)])

def pipeNumbers (distance : Float) : Parameters.Field → Value
  | .nodeDistance => .float distance
  | f => Schematic.bendNumbers f

structure IsPipe (side viscosity distance : Float) (g : Setting) (c : ConnectionId) : Prop where
  host : g.host = .standard
  built : pipe side viscosity = .ok g.schematic
  valid : Parameters.ofNumbers .standard (pipeNumbers distance) = .ok g.parameters
  distance : g.parameters.nodeDistance = .float distance
  only : g.channels = [("drain", c)]
  given : Given .standard "channel 'drain'" (g.schematic.connection c).attributes
    (.rectangular side side viscosity)

/-- The pipe under its parameters, and its channel, with the measures read back. -/
def pipe? (side viscosity distance : Float) : Option (Setting × ConnectionId) :=
  (pipe side viscosity).toOption.bind fun s => (TypeTable.ofSchematic s).toOption.bind fun t =>
  (Parameters.ofNumbers .standard (pipeNumbers distance)).toOption.bind fun p =>
  (Setting.channels ⟨s, p, t, .standard⟩).head?.bind fun (_, c) =>
    let attributes := (s.connection c).attributes
    let read (key : String) (m : Measure) := (attributes.positive .standard key m "channel 'drain'").toOption
    if Setting.channels ⟨s, p, t, .standard⟩ = [("drain", c)] ∧
        (shapeOf .standard attributes).toOption = some "rectangular" ∧
        read "width" .length = some side ∧ read "height" .length = some side ∧
        read "viscosity" .viscosity = some viscosity ∧
        p.nodeDistance.float? = some distance
      then some (⟨s, p, t, .standard⟩, c) else none

theorem isPipe_of_pipe? {side viscosity distance : Float} {c : ConnectionId}
    (h : pipe? side viscosity distance = some (g, c)) : IsPipe side viscosity distance g c := by
  simp only [pipe?, Option.bind_eq_some_iff, toOption_eq_some_iff, Option.ite_none_right_eq_some,
    Option.some.injEq, Prod.mk.injEq] at h
  obtain ⟨s, built, t, -, p, valid, ⟨_, c⟩, -, checked, rfl, rfl⟩ := h
  obtain ⟨only, shape, width, height, viscosity, float⟩ := checked
  refine ⟨rfl, built, valid, ?_, only, .rectangular shape width height viscosity⟩
  cases given : p.nodeDistance with
  | int n => simp [given, Magnitude.float?] at float
  | float x => simpa [given, Magnitude.float?] using float

def arithmetic? {α : Type} : Except Failure α → Option ArithmeticFault
  | .error (.arithmetic fault) => some fault
  | _ => none

theorem arithmetic?_eq_some {α : Type} {r : Except Failure α} {fault : ArithmeticFault}
    (h : arithmetic? r = some fault) : r = .error (.arithmetic fault) := by
  unfold arithmetic? at h
  split at h
  · cases h
    rfl
  · cases h

/-- The numbers in expressions. -/
def numbers (es : List Sexp) : List (List Float) := es.map fun e => e.literals.map Literal.value

theorem rational_half : rationalOf 0.5 = 1 / 2 := by
  obtain ⟨-, number⟩ := rationalOf_of_reading (x := 0.5) (by decide)
    (show _ = Reading.finite false 4503599627370496 (-53) by decide)
  rw [number]
  norm_num

/-- A pipe of half a unit under a distance of half a unit. -/
theorem pipe_follows : ∃ g c, IsPipe 0.5 0.5 0.5 g c ∧ Computes (nodeDistances g) ∧
    Computes (resistances g) ∧
    (∃ es, nodeDistances g = .ok es ∧ numbers es = [[0.25]] ∧ ∀ e ∈ es, e.Positive) ∧
    ∃ es, resistances g = .ok es ∧ (numbers es).length = 2 ∧ ∀ e ∈ es, e.Positive ∨
      e = assert .greater (g.term (.connection .resistance c)) zero := by
  have checked : ((pipe? 0.5 0.5 0.5).filter fun (g, _) =>
      (nodeDistances g).toOption.map numbers = some [[0.25]] ∧
        (resistances g).toOption.map (fun es => (numbers es).length) = some 2).isSome = true := by
    decide +kernel
  obtain ⟨⟨g, c⟩, checked⟩ := Option.isSome_iff_exists.mp checked
  simp only [Option.filter_eq_some_iff, Option.map_eq_some_iff, toOption_eq_some_iff,
    decide_eq_true_eq] at checked
  obtain ⟨found, ⟨ds, distances, squares⟩, rs, laws, both⟩ := checked
  have isPipe := isPipe_of_pipe? found
  have powers : g.host.Powers := isPipe.host ▸ Host.powers_standard
  have valid : Parameters.ofNumbers g.host (pipeNumbers 0.5) = .ok g.parameters :=
    isPipe.host ▸ isPipe.valid
  have sound : (CrossSection.rectangular 0.5 0.5 0.5).Sound :=
    sound_of_moderate (by norm_num [measures, CrossSection.Moderate, rational_half])
  obtain ⟨nodes, -, channels⟩ := coefficients_follow powers valid
  have square : g.parameters.nodeDistance.rational = 1 / 2 := by
    rw [isPipe.distance, ← rational_half]
    rfl
  rw [square] at nodes
  have low : leastHalf < (1 / 2) ^ 2 := leastHalf_le.trans_lt (by norm_num)
  have high : (1 / 2) ^ 2 < limit := lt_of_lt_of_le (by norm_num) le_limit
  have all (name : String) (c' : ConnectionId) (listed : (name, c') ∈ g.channels) :
      name = "drain" ∧ c' = c := by
    simpa [isPipe.only] using listed
  obtain ⟨computes, positive⟩ := channels fun name c' listed => by
    obtain ⟨rfl, rfl⟩ := all name c' listed
    exact ⟨_, isPipe.host ▸ isPipe.given, sound⟩
  refine ⟨g, c, isPipe, nodes.computes high, computes, ⟨ds, distances, squares, ?_⟩, rs, laws,
    both, fun e he => ?_⟩
  · intro e he r hr
    exact (nodes.positive ds distances e he r hr).mpr low
  · refine (positive rs laws e he).imp_right ?_
    rintro ⟨name, c', listed, rfl⟩
    rw [(all name c' listed).2]

/-- The exact coefficient of a pipe that thin is no extreme number. -/
theorem exactCoefficient_hairline :
    leastHalf < exactCoefficient (rationalOf 1e-109) (rationalOf 1e-109) (rationalOf 1e-300) ∧
      exactCoefficient (rationalOf 1e-109) (rationalOf 1e-109) (rationalOf 1e-300) < limit := by
  obtain ⟨narrow, wide⟩ := rationalOf_mem (x := 1e-109) (by decide +kernel)
    (show _ = Reading.finite false 8461516400515182 (-415) by decide +kernel) (by decide)
  obtain ⟨thin, thick⟩ := rationalOf_mem (x := 1e-300) (by decide +kernel)
    (show _ = Reading.finite false 6032057205060441 (-1049) by decide +kernel) (by decide)
  generalize rationalOf 1e-109 = side at *
  generalize rationalOf 1e-300 = viscosity at *
  have pos : 0 < side := lt_of_lt_of_le (by positivity) narrow
  have pos' : 0 < viscosity := lt_of_lt_of_le (by positivity) thin
  have formula : exactCoefficient side side viscosity = 1200 / 37 * (viscosity / side ^ 4) := by
    rw [exactCoefficient, overDenominator_eq, exactDenominator_of_le pos le_rfl]
    field_simp
    ring
  -- powers this large are not evaluated, so the bounds are compared by their exponents
  have power (e e' : Int) : (2 : ℚ) ^ e / (2 ^ e') ^ 4 = 2 ^ (e - e' * 4) := by
    rw [← zpow_natCast, ← zpow_mul, ← zpow_sub₀ two_ne_zero]
    rfl
  have low : (2 : ℚ) ^ (451 : Int) ≤ viscosity / side ^ 4 := by
    rw [show (451 : Int) = -1049 + 52 - (-415 + 53) * 4 by norm_num, ← power]
    gcongr
  have high : viscosity / side ^ 4 ≤ 2 ^ (456 : Int) := by
    rw [show (456 : Int) = -1049 + 53 - (-415 + 52) * 4 by norm_num, ← power]
    gcongr
  have one : 1 ≤ viscosity / side ^ 4 := (one_le_zpow₀ one_le_two (by norm_num)).trans low
  have top : (2 : ℚ) ^ (456 : Int) ≤ 2 ^ (971 : Int) :=
    zpow_le_zpow_right₀ one_le_two (by norm_num)
  rw [formula]
  constructor
  · have small : leastHalf < 1 := leastHalf_le.trans_lt (by norm_num)
    linarith only [small, one]
  · calc 1200 / 37 * (viscosity / side ^ 4) ≤ 1200 / 37 * 2 ^ (971 : Int) :=
          mul_le_mul_of_nonneg_left (high.trans top) (by norm_num)
      _ < limit := mul_lt_mul_of_pos_right (by norm_num) (by positivity)

/-- The checks pass a pipe that thin and a distance that short.  The law of the channel
divides by zero though its coefficient is a double, and the distance is lost. -/
theorem hairline_divides : ∃ g c, IsPipe 1e-109 1e-300 1e-200 g c ∧
    (leastHalf < exactCoefficient (rationalOf 1e-109) (rationalOf 1e-109) (rationalOf 1e-300) ∧
      exactCoefficient (rationalOf 1e-109) (rationalOf 1e-109) (rationalOf 1e-300) < limit) ∧
    resistances g = .error (.arithmetic .divisionByZero) ∧
    ∃ es, nodeDistances g = .ok es ∧ numbers es = [[0.0]] := by
  have checked : ((pipe? 1e-109 1e-300 1e-200).filter fun (g, _) =>
      arithmetic? (resistances g) = some .divisionByZero ∧
        (nodeDistances g).toOption.map numbers = some [[0.0]]).isSome = true := by
    decide +kernel
  obtain ⟨⟨g, c⟩, checked⟩ := Option.isSome_iff_exists.mp checked
  simp only [Option.filter_eq_some_iff, Option.map_eq_some_iff, toOption_eq_some_iff,
    decide_eq_true_eq] at checked
  obtain ⟨found, divides, ds, distances, lost⟩ := checked
  exact ⟨g, c, isPipe_of_pipe? found, exactCoefficient_hairline, arithmetic?_eq_some divides,
    ds, distances, lost⟩

end Rule

end FluidChip
