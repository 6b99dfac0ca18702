import FluidChip.Proofs.Quantity.Powers

/-!
# Systems of units

A registry says how units are built on others, and a system of units agrees with it.
Reducing a product to base units keeps its worth in every such system, up to the scales
that it multiplies; so the test for a number and the comparison of dimensions decide what
holds in all systems.
-/

namespace FluidChip.Quantity

variable {R : Registry} {V : Type} [AddCommGroup V] [Module ℚ V] {p u t : Powers}
  {name : String} {fuel : Nat} {n : ℚ} {q : String × ℚ} {meaning : Meaning}

/-! ## Known products -/

namespace Registry

theorem settles_cons {meaning? : String → Option Meaning} :
    settles meaning? (fuel + 1) (q :: p) = true ↔
      (∃ meaning, meaning? q.1 = some meaning ∧
        settles meaning? fuel meaning.reference = true) ∧
      settles meaning? (fuel + 1) p = true := by
  rw [settles, List.all_cons, Bool.and_eq_true, Option.any_eq_true]
  rfl

/-- The registry has all names of a product. -/
def Known (R : Registry) (p : Powers) : Prop :=
  ∀ name ∈ p.map Prod.fst, (R.meaning? name).isSome

theorem Known.settles (h : R.Known p) : Quantity.settles R.meaning? (R.depth + 1) p = true := by
  refine List.all_eq_true.mpr fun q listed => ?_
  obtain ⟨meaning, here⟩ := Option.isSome_iff_exists.mp (h q.1 (List.mem_map_of_mem listed))
  rw [Option.any_eq_true]
  exact ⟨meaning, here, R.settled here⟩

theorem Known.mul (hu : R.Known u) (ht : R.Known t) : R.Known (u.mul t) := fun name listed =>
  (Powers.mem_names_mul listed).elim (hu name) (ht name)

theorem Known.raise (h : R.Known p) : R.Known (p.raise n) := fun name listed =>
  h name (Powers.mem_names_raise listed)

theorem Known.inverse (h : R.Known p) : R.Known p.inverse := h.raise

/-! ## What reducing gathers -/

theorem canonical_rootUnits (p : Powers) : (R.rootUnits p).Canonical := Powers.canonical_nil.mul

theorem canonical_dimension (p : Powers) : (R.dimension p).Canonical := Powers.canonical_nil.mul

end Registry

/-! ## Systems -/

/-- What each unit is worth, and what each scale stands for, in agreement with the
registry. -/
structure UnitSystem (R : Registry) (V : Type) [AddCommGroup V] [Module ℚ V] where
  scale : Magnitude → V
  worth : String → V
  derived : ∀ {name s reference}, R.meaning? name = some (.derived s reference) →
    worth name = scale s + reference.value worth

namespace UnitSystem

variable {U : UnitSystem R V} {unit : String → V} {base : String → Option String → V}

def value (U : UnitSystem R V) (p : Powers) : V := p.value U.worth

def product (U : UnitSystem R V) (steps : List (Magnitude × ℚ)) : V :=
  (steps.map fun q => q.2 • U.scale q.1).sum

/-- A base unit is worth the unit of its dimension, one without dimension nothing but
a number. -/
def Dimensional (U : UnitSystem R V) (unit : String → V) : Prop :=
  ∀ {name dimension}, R.meaning? name = some (.base dimension) →
    U.worth name = dimension.elim 0 unit

theorem value_mul (U : UnitSystem R V) (a b : Powers) :
    U.value (a.mul b) = U.value a + U.value b :=
  Powers.value_mul

theorem value_inverse (U : UnitSystem R V) (a : Powers) : U.value a.inverse = -U.value a :=
  Powers.value_inverse

theorem product_of_scale (h : ∀ m, U.scale m = 0) (steps : List (Magnitude × ℚ)) :
    U.product steps = 0 :=
  List.sum_eq_zero (by simp [h])

/-! ## Parts -/

/-- The worth of a part, base units taken at what `base` says. -/
def partValue (U : UnitSystem R V) (base : String → Option String → V) : Part → V
  | .scale scale e => e • U.scale scale
  | .base name dimension e => e • base name dimension

/-- The worth of base units in a system, told from their names and dimensions. -/
def Tells (U : UnitSystem R V) (base : String → Option String → V) : Prop :=
  ∀ {name dimension}, R.meaning? name = some (.base dimension) →
    U.worth name = base name dimension

/-- A product that is known so deep is worth what its parts are worth together. -/
theorem Tells.sum_parts (tells : U.Tells base)
    (known : settles R.meaning? fuel p = true) (n : ℚ) :
    ((R.parts fuel p n).map (U.partValue base)).sum = n • U.value p := by
  induction fuel generalizing p n with
  | zero =>
      rw [List.isEmpty_iff.mp known]
      simp [Registry.parts, value]
  | succ fuel deeper =>
      induction p with
      | nil => simp [Registry.parts, value]
      | cons q rest further =>
          obtain ⟨⟨meaning, here, deep⟩, others⟩ := Registry.settles_cons.mp known
          have split : R.parts (fuel + 1) (q :: rest) n =
              R.parts (fuel + 1) [q] n ++ R.parts (fuel + 1) rest n := by
            simp [Registry.parts]
          have first : ((R.parts (fuel + 1) [q] n).map (U.partValue base)).sum =
              (q.2 * n) • U.worth q.1 := by
            cases meaning with
            | base dimension => simp [Registry.parts, here, partValue, tells here]
            | derived scale reference =>
                have inner := deeper deep (q.2 * n)
                rw [Meaning.reference] at inner
                simp [Registry.parts, here, partValue, inner, U.derived here, value, smul_add]
          rw [split, List.map_append, List.sum_append, first, further others, value, value,
            Powers.value_cons, smul_add, smul_smul, mul_comm]

/-! ## Roots -/

/-- The worth of each part is that of its scale, or of the power that is gathered from
it. -/
def Gathers (U : UnitSystem R V) (base : String → Option String → V)
    (power? : Part → Option (String × ℚ)) (worth : String → V) : Prop :=
  ∀ part, U.partValue base part =
    (part.scale?.elim 0 fun q => q.2 • U.scale q.1) + (power? part).elim 0 fun q => q.2 • worth q.1

variable {power? : Part → Option (String × ℚ)} {worth : String → V}

theorem Gathers.sum (gathers : U.Gathers base power? worth) (parts : List Part) :
    (parts.map (U.partValue base)).sum =
      U.product (parts.filterMap Part.scale?) + Powers.value worth (parts.filterMap power?) := by
  induction parts with
  | nil => simp [product]
  | cons part rest ih =>
      rw [List.map_cons, List.sum_cons, ih, gathers part, List.filterMap_cons,
        List.filterMap_cons]
      cases part.scale? <;> cases power? part <;> simp [product, add_assoc, add_left_comm]

/-- A product is worth its scales and what is gathered from its parts. -/
theorem Tells.value_eq (tells : U.Tells base) (gathers : U.Gathers base power? worth)
    (known : R.Known p) : U.value p =
      U.product (R.steps p) + (Powers.mul [] ((R.reduced p).filterMap power?)).value worth := by
  have law := tells.sum_parts known.settles 1
  rw [one_smul, gathers.sum] at law
  rw [← law, Powers.value_mul, Powers.value_nil, zero_add]
  rfl

theorem value_rootUnits (U : UnitSystem R V) (tells : U.Tells fun name _ => worth name)
    (known : R.Known p) :
    U.value p = U.product (R.steps p) + (R.rootUnits p).value worth := by
  refine tells.value_eq (fun part => ?_) known
  cases part <;> simp [partValue, Part.scale?, Part.unit?]

theorem value_dimension (dimensional : U.Dimensional unit) (known : R.Known p) :
    U.value p = U.product (R.steps p) + (R.dimension p).value unit := by
  have tells : U.Tells fun _ dimension => dimension.elim 0 unit := dimensional
  refine tells.value_eq (fun part => ?_) known
  cases part with
  | scale => simp [partValue, Part.scale?, Part.dimension?]
  | base name dimension e => cases dimension <;> simp [partValue, Part.scale?, Part.dimension?]

end UnitSystem

/-! ## Systems with given base units -/

/-- What a unit is worth with given scales and base units, its definition followed at
most `fuel` deep. -/
def worthAt (R : Registry) (scale : Magnitude → V) (base : String → Option String → V) :
    Nat → String → V
  | 0, _ => 0
  | fuel + 1, name =>
    match R.meaning? name with
    | none => 0
    | some (.base dimension) => base name dimension
    | some (.derived s reference) => scale s + reference.value (worthAt R scale base fuel)

theorem value_worthAt_succ {scale : Magnitude → V} {base : String → Option String → V}
    (known : settles R.meaning? fuel p = true) :
    p.value (worthAt R scale base (fuel + 1)) = p.value (worthAt R scale base fuel) := by
  induction fuel generalizing p with
  | zero =>
      rw [List.isEmpty_iff.mp known]
      rfl
  | succ fuel deeper =>
      induction p with
      | nil => rfl
      | cons q rest further =>
          obtain ⟨⟨meaning, here, deep⟩, others⟩ := Registry.settles_cons.mp known
          rw [Powers.value_cons, Powers.value_cons, further others]
          rw [worthAt, worthAt, here]
          cases meaning with
          | base dimension => rfl
          | derived s reference =>
              have inner : reference.value (worthAt R scale base (fuel + 1)) =
                  reference.value (worthAt R scale base fuel) := deeper deep
              simp only
              rw [inner]

namespace UnitSystem

/-- The system with given scales and base units. -/
def standard (R : Registry) (scale : Magnitude → V) (base : String → Option String → V) :
    UnitSystem R V where
  scale := scale
  worth := worthAt R scale base (R.depth + 1)
  derived {name s reference} here := by
    rw [worthAt, here]
    exact congrArg (scale s + ·) (value_worthAt_succ (R.settled here)).symm

theorem tells_standard (scale : Magnitude → V) (base : String → Option String → V) :
    (standard R scale base).Tells base := by
  intro name dimension here
  simp [standard, worthAt, here]

end UnitSystem

/-! ## What holds in all systems -/

namespace Registry

/-- The number that a product stands for, as powers of scales: it is worth that much in
every system, whatever the base units are worth. -/
def IsScalar (R : Registry) (p : Powers) (steps : List (Magnitude × ℚ)) : Prop :=
  ∀ (V : Type) [AddCommGroup V] [Module ℚ V] (U : UnitSystem R V), U.value p = U.product steps

/-- How many of one product go into another, as powers of scales, in every system where
base units are worth what their dimension says. -/
def IsRatio (R : Registry) (u t : Powers) (steps : List (Magnitude × ℚ)) : Prop :=
  ∀ (V : Type) [AddCommGroup V] [Module ℚ V] (U : UnitSystem R V) (unit : String → V),
    U.Dimensional unit → U.value u = U.product steps + U.value t

/-- The system that counts one dimension: its unit is worth one, and all else nothing. -/
def counting (R : Registry) (dimension : String) : UnitSystem R ℚ :=
  .standard R (fun _ => 0) fun _ d => d.elim 0 (Powers.only dimension)

theorem dimensional_counting (dimension : String) :
    (R.counting dimension).Dimensional (Powers.only dimension) :=
  UnitSystem.tells_standard _ _

theorem value_counting (known : R.Known p) (dimension : String) :
    (R.counting dimension).value p = (R.dimension p).value (Powers.only dimension) := by
  rw [UnitSystem.value_dimension (dimensional_counting dimension) known,
    UnitSystem.product_of_scale fun _ => rfl, zero_add]

/-- The scales between products of the same dimension. -/
theorem isRatio_of_same_dimension (hu : R.Known u) (ht : R.Known t)
    (same : (R.dimension u).same (R.dimension t) = true) :
    R.IsRatio u t (R.steps (u.mul t.inverse)) := by
  -- A quotient has no dimension, whichever dimension is counted.
  have none : (R.dimension (u.mul t.inverse)).same [] = true := by
    refine Powers.same_of_value (canonical_dimension _) Powers.canonical_nil fun name => ?_
    rw [← value_counting (hu.mul ht.inverse), UnitSystem.value_mul, UnitSystem.value_inverse,
      value_counting hu, value_counting ht, Powers.value_of_same (canonical_dimension u) same,
      add_neg_cancel, Powers.value_nil]
  intro V _ _ U unit dimensional
  have quotient := UnitSystem.value_dimension dimensional (hu.mul ht.inverse)
  rw [Powers.value_of_same (canonical_dimension _) none, Powers.value_nil, add_zero, U.value_mul,
    U.value_inverse, ← sub_eq_add_neg] at quotient
  exact sub_eq_iff_eq_add.mp quotient

theorem isRatio_of_same (hu : u.Canonical) (same : u.same t = true) : R.IsRatio u t [] := by
  intro V _ _ U unit _
  rw [UnitSystem.product, List.map_nil, List.sum_nil, zero_add]
  exact Powers.value_of_same hu same

/-- Products of the same dimension have a ratio, and no others have one. -/
theorem same_dimension_iff (hu : R.Known u) (ht : R.Known t) :
    (R.dimension u).same (R.dimension t) = true ↔ ∃ steps, R.IsRatio u t steps := by
  constructor
  · intro same
    exact ⟨_, isRatio_of_same_dimension hu ht same⟩
  · rintro ⟨steps, ratio⟩
    refine Powers.same_of_value (canonical_dimension u) (canonical_dimension t) fun name => ?_
    rw [← value_counting hu, ← value_counting ht, ratio ℚ _ _ (dimensional_counting name),
      UnitSystem.product_of_scale fun _ => rfl, zero_add]

/-- A product without base units stands for a number, and no other does. -/
theorem isNumber_iff (known : R.Known p) : R.isNumber p = true ↔ ∃ steps, R.IsScalar p steps := by
  rw [isNumber, List.isEmpty_iff]
  constructor
  · intro nothing
    refine ⟨R.steps p, ?_⟩
    intro V _ _ U
    rw [U.value_rootUnits (fun _ => rfl) known, nothing, Powers.value_nil, add_zero]
  · rintro ⟨steps, scalar⟩
    by_contra some_base
    obtain ⟨q, listed⟩ := List.exists_mem_of_ne_nil _ some_base
    -- Only this base unit is worth anything, and no scale is.
    let U : UnitSystem R ℚ := .standard R (fun _ => 0) fun name _ => Powers.only q.1 name
    have no_scale (steps : List (Magnitude × ℚ)) : U.product steps = 0 :=
      UnitSystem.product_of_scale (fun _ => rfl) steps
    have nothing := scalar ℚ U
    rw [U.value_rootUnits (UnitSystem.tells_standard _ _) known, no_scale, no_scale, zero_add,
      Powers.value_only (canonical_rootUnits p) listed] at nothing
    exact (canonical_rootUnits p).nonzero q listed nothing

end Registry

end FluidChip.Quantity
