import FluidChip.Proofs.Outcome
import FluidChip.Proofs.Quantity.UnitSystem
import FluidChip.Quantity.Standard
import Mathlib.Algebra.Field.Basic

/-!
# Conversion

A library reads texts as amounts in the units of a registry.  A text whose units stand
for a number is read as it stands, whatever the measure.  From any other the magnitude is
converted by the ratio of its units to the measure, and refused where there is none.
-/

namespace FluidChip.Quantity

open Number Outcome

variable {R : Registry} {a x y : Amount} {m : Measure} {p u t : Powers} {s : String} {n : ℚ}

/-! ## Bare numbers -/

namespace UnitLibrary

variable {units : UnitLibrary} {k : Int}

theorem toMagnitude_float (units : UnitLibrary) (x : Float) (m : Measure) :
    units.toMagnitude (.float x) m = .ok x := by
  obtain ⟨q, parsed, bare⟩ := units.float x
  simp only [toMagnitude, parsed, bind, Except.bind, bare.unitless, if_true, bare.magnitude]
  rfl

theorem toMagnitude_int (units : UnitLibrary) (k : Int) (m : Measure) :
    units.toMagnitude (.int k) m = liftArithmetic (Magnitude.int k).toFloat := by
  obtain ⟨q, parsed, bare⟩ := units.int k
  simp only [toMagnitude, parsed, bind, Except.bind, bare.unitless, if_true, bare.magnitude]

/-- An integer is read unless it is beyond all doubles. -/
theorem toMagnitude_int_error_iff {fault : Fault} : units.toMagnitude (.int k) m = .error fault ↔
    isFinite (ofInt k) = false ∧ fault = .arithmetic .tooLarge := by
  rw [toMagnitude_int, Magnitude.toFloat]
  by_cases finite : isFinite (ofInt k) = true
  · simp [finite, liftArithmetic, Except.mapError]
  · simp [finite, liftArithmetic, Except.mapError, eq_comm]

end UnitLibrary

/-! ## Units of texts -/

/-- Units as they are kept: by names of the registry, each once. -/
structure Registry.Proper (R : Registry) (p : Powers) : Prop where
  canonical : p.Canonical
  known : R.Known p

namespace Registry

theorem proper_nil : R.Proper [] := ⟨Powers.canonical_nil, by simp [Known]⟩

theorem Proper.mul (hu : R.Proper u) (ht : R.Proper t) : R.Proper (u.mul t) :=
  ⟨hu.canonical.mul, hu.known.mul ht.known⟩

theorem Proper.raise (h : R.Proper p) : R.Proper (p.raise n) := ⟨h.canonical.raise, h.known.raise⟩

theorem proper_measure (h : m ∈ Measure.all) : R.Proper m.units := by
  have canonical : ∀ m ∈ Measure.all,
      (m.units.map Prod.fst).Nodup ∧ ∀ q ∈ m.units, q.2 ≠ 0 := by decide +kernel
  obtain ⟨nodup, nonzero⟩ := canonical m h
  refine ⟨⟨nodup, nonzero⟩, fun name listed => ?_⟩
  obtain ⟨q, there, rfl⟩ := List.mem_map.mp listed
  exact R.measured m h q there

end Registry

namespace Spelling

variable {spelling : Spelling}

/-- The registry has the names that are given to what is written. -/
def Named (spelling : Spelling) : Prop :=
  ∀ {s name}, spelling.named? s = some name → (spelling.registry.meaning? name).isSome

theorem Named.ofName (named : spelling.Named) (h : spelling.ofName s = .ok a) :
    spelling.registry.Proper a.units := by
  unfold Spelling.ofName at h
  split at h
  · cases h
    exact Registry.proper_nil
  · split at h
    · rename_i name hit
      cases h
      refine ⟨Powers.canonical_cons.mpr ⟨by simp, by simp, Powers.canonical_nil⟩, ?_⟩
      rintro other listed
      obtain rfl : other = name := by simpa using listed
      exact named hit
    · cases h

theorem units_combine {op : Magnitude → Magnitude → Except ArithmeticFault Magnitude}
    (h : spelling.combine op x y = .ok a) : a.units = x.units := by
  obtain ⟨other, -, h⟩ := bind_ok_iff.mp h
  obtain ⟨made, -, h⟩ := bind_ok_iff.mp h
  cases h
  rfl

theorem Named.eval (named : spelling.Named) {tree : Tree} (h : tree.eval spelling = .ok a) :
    spelling.registry.Proper a.units := by
  induction tree generalizing a with
  | number m =>
      cases h
      exact Registry.proper_nil
  | unit name => exact named.ofName h
  | neg e ih =>
      obtain ⟨x, hx, h⟩ := bind_ok_iff.mp h
      cases h
      have operand : spelling.registry.Proper x.units := ih hx
      exact operand
  | add e f ihe ihf =>
      obtain ⟨x, hx, h⟩ := bind_ok_iff.mp h
      obtain ⟨y, hy, h⟩ := bind_ok_iff.mp h
      exact units_combine h ▸ ihe hx
  | sub e f ihe ihf =>
      obtain ⟨x, hx, h⟩ := bind_ok_iff.mp h
      obtain ⟨y, hy, h⟩ := bind_ok_iff.mp h
      exact units_combine h ▸ ihe hx
  | mul e f ihe ihf =>
      obtain ⟨x, hx, h⟩ := bind_ok_iff.mp h
      obtain ⟨y, hy, h⟩ := bind_ok_iff.mp h
      obtain ⟨made, -, h⟩ := bind_ok_iff.mp h
      cases h
      exact (ihe hx).mul (ihf hy)
  | div e f ihe ihf =>
      obtain ⟨x, hx, h⟩ := bind_ok_iff.mp h
      obtain ⟨y, hy, h⟩ := bind_ok_iff.mp h
      obtain ⟨made, -, h⟩ := bind_ok_iff.mp h
      cases h
      exact (ihe hx).mul (ihf hy).raise
  | pow e f ihe ihf =>
      obtain ⟨x, hx, h⟩ := bind_ok_iff.mp h
      obtain ⟨y, hy, h⟩ := bind_ok_iff.mp h
      split at h
      · obtain ⟨made, -, h⟩ := bind_ok_iff.mp h
        cases h
        exact (ihe hx).raise
      · cases h

theorem Named.amountOf (named : spelling.Named) (h : spelling.amountOf s = .ok a) :
    spelling.registry.Proper a.units := by
  unfold Spelling.amountOf at h
  split at h
  · cases h
  simp only at h
  split at h
  · cases h
  split at h
  · cases h
    exact Registry.proper_nil
  split at h
  · exact named.eval h
  · cases h

/-- What a library makes of a text is an amount in units of its registry. -/
theorem Named.parse_text (named : spelling.Named) {q : Parsed}
    (read : spelling.library.parse (.text s) = .ok q) :
    ∃ a, q = spelling.registry.parsed a ∧ spelling.registry.Proper a.units := by
  obtain ⟨a, made, rfl⟩ := map_ok_iff.mp read
  exact ⟨a, rfl, named.amountOf made⟩

theorem after?_append (start rest : List Char) : after? start (start ++ rest) = some rest := by
  induction start with
  | nil => rfl
  | cons c start ih => simp [after?, ih]

theorem findUnit?_isSome {d : Definition} (h : d ∈ definitions) :
    (findUnit? d.name.toList).isSome := by
  have spelled : (definitions.find? (·.spells (.ofList d.name.toList))).isSome :=
    List.find?_isSome.mpr ⟨d, h, by simp [Definition.spells]⟩
  unfold findUnit?
  split
  · rfl
  · rename_i missing
    rw [missing] at spelled
    cases spelled

/-- The standard registry has the name of whatever is found in it. -/
theorem named_standard : Spelling.standard.Named := by
  intro s name hit
  obtain ⟨found, spelled, rfl⟩ := Option.map_eq_some_iff.mp hit
  refine Option.isSome_map.trans ?_
  rcases find?_cases spelled with ⟨d, listed, rfl⟩ | ⟨m, multiple, d, listed, rfl⟩
  · unfold find?
    obtain ⟨e, plain⟩ := Option.isSome_iff_exists.mp (findUnit?_isSome listed)
    simp [plain]
  · have named : ∀ d ∈ definitions, d.name.toList ≠ [] := by decide +kernel
    obtain ⟨e, plain⟩ := Option.isSome_iff_exists.mp (findUnit?_isSome listed)
    have split : (m, d.name.toList) ∈ splitMultiple (m.name ++ d.name).toList := by
      refine List.mem_flatMap.mpr ⟨m, multiple, List.mem_filterMap.mpr ⟨m.name, by simp, ?_⟩⟩
      rw [String.toList_append, after?_append]
      cases chars : d.name.toList with
      | nil => exact absurd chars (named d listed)
      | cons c rest => rfl
    unfold find?
    split
    · rfl
    · rw [List.isSome_findSome?]
      exact List.any_eq_true.mpr ⟨_, split, by simp [plain]⟩

end Spelling

/-! ## Readings -/

namespace Registry

/-- The reading of a magnitude converted by some steps: the double nearest to it
multiplied by what they come to, or just the double where there are none. -/
inductive Converted (R : Registry) (x : Magnitude) :
    List (Magnitude × ℚ) → Except Fault Float → Prop
  | same : R.Converted x [] (liftArithmetic x.toFloat)
  | scaled (steps : List (Magnitude × ℚ)) : R.Converted x steps
      (liftArithmetic do (← x.mul (← R.product steps)).toFloat)

theorem toFloat_lifted (r : Except ArithmeticFault Magnitude) :
    (liftArithmetic r >>= fun x => liftArithmetic x.toFloat) =
      liftArithmetic (r >>= Magnitude.toFloat) := by
  cases r <;> rfl

/-- An amount in units that have a ratio to the measure is converted by it. -/
theorem converted_of_ratio (proper : R.Proper a.units) (known : R.Known m.units)
    {steps : List (Magnitude × ℚ)} (ratio : R.IsRatio a.units m.units steps) :
    ∃ steps, R.IsRatio a.units m.units steps ∧
      R.Converted a.magnitude steps ((R.parsed a).converted m) := by
  have dimension := (same_dimension_iff proper.known known).mpr ⟨steps, ratio⟩
  have reading : (R.parsed a).converted m =
      liftArithmetic (R.rescaled a m.units >>= Magnitude.toFloat) := by
    rw [← toFloat_lifted]
    show R.magnitudeIn a m.units >>= _ = _
    rw [magnitudeIn, dimension, Bool.or_true, if_pos rfl]
  rw [reading, rescaled]
  by_cases same : a.units.same m.units = true
  · rw [if_pos same]
    exact ⟨[], isRatio_of_same proper.canonical same, .same⟩
  · rw [if_neg same]
    refine ⟨_, isRatio_of_same_dimension proper.known known dimension, ?_⟩
    have law := Converted.scaled (R := R) (x := a.magnitude)
      (R.steps (a.units.mul m.units.inverse))
    rwa [← bind_assoc] at law

/-- An amount in other units is refused. -/
theorem refused_of_no_ratio (proper : R.Proper a.units) (known : R.Known m.units)
    (apart : ¬ ∃ steps, R.IsRatio a.units m.units steps) :
    (R.parsed a).converted m = .error (R.mismatch a.units m.units) := by
  have dimension : (R.dimension a.units).same (R.dimension m.units) = false :=
    Bool.eq_false_iff.mpr (mt (same_dimension_iff proper.known known).mp apart)
  have differ : a.units.same m.units = false :=
    Bool.eq_false_iff.mpr fun same => apart ⟨[], isRatio_of_same proper.canonical same⟩
  show R.magnitudeIn a m.units >>= _ = _
  rw [magnitudeIn, dimension, differ]
  rfl

end Registry

namespace UnitLibrary

variable {units : UnitLibrary}

theorem toMagnitude_text (units : UnitLibrary) (s : String) (m : Measure) :
    units.toMagnitude (.text s) m = units.parse (.text s) >>= fun q =>
      q.unitless >>= fun bare => if bare then q.magnitude else q.converted m := rfl

/-- A text is not read whose magnitude in base units cannot be worked out. -/
theorem toMagnitude_unrooted (read : units.parse (.text s) = .ok (R.parsed a))
    {fault : ArithmeticFault} (failed : R.rescaled a (R.rootUnits a.units) = .error fault) :
    units.toMagnitude (.text s) m = .error (.arithmetic fault) := by
  rw [toMagnitude_text, read]
  simp only [Registry.parsed, failed]
  rfl

theorem toMagnitude_rooted (read : units.parse (.text s) = .ok (R.parsed a)) {root : Magnitude}
    (made : R.rescaled a (R.rootUnits a.units) = .ok root) :
    units.toMagnitude (.text s) m =
      if R.isNumber a.units then (R.parsed a).magnitude else (R.parsed a).converted m := by
  rw [toMagnitude_text, read]
  simp only [Registry.parsed, made]
  rfl

end UnitLibrary

/-! ## The law of conversion -/

end FluidChip.Quantity
