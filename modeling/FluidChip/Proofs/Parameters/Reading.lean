import FluidChip.Host
import FluidChip.Proofs.Parameters
import FluidChip.Proofs.Quantity.Conversion

/-!
# Reading parameters

Raw values give parameters just when every field is there, is read, and lies in its
range; the parameters are then what was read.  If not, the rejection lists the fields
at fault in the order of their declaration, each with what is wrong with it.  It repeats
the values and the faults, and comes only where all of them have a text.
-/

namespace FluidChip.Parameters

open Number Outcome Quantity

variable {host : Host} {raw : Catalog Value} {source : Source} {f : Field} {x : Float}
  {p : Parameters}

/-! ## Ranges -/

/-- Lengths are finite and positive, and an angle is at most pi as well. -/
structure InRange (f : Field) (x : Float) : Prop where
  finite : isFinite x = true
  positive : 0.0 < x
  angle : f = .crossingAngle → x ≤ piValue

theorem rangeProblem?_eq_none_iff : rangeProblem? f x = none ↔ InRange f x := by
  unfold rangeProblem?
  by_cases finite : isFinite x = true
  · rw [if_neg (by simp [finite])]
    have sign := zero_lt_iff_not_le_zero finite
    have range : InRange f x ↔ 0.0 < x ∧ (f = .crossingAngle → x ≤ piValue) :=
      ⟨fun h => ⟨h.positive, h.angle⟩, fun h => ⟨finite, h.1, h.2⟩⟩
    rw [range]
    cases f <;> simp [sign]
  · rw [if_pos (by simp [finite])]
    exact iff_of_false nofun fun h => finite h.finite

/-! ## What is wrong with a field -/

/-- A field is given, and the value given for it reads as a number in its range. -/
def Reads (host : Host) (raw : Catalog Value) (f : Field) (x : Float) : Prop :=
  (∃ v, raw.find? f.name = some v ∧ v ≠ .null ∧ host.units.toMagnitude v f.measure = .ok x) ∧
    InRange f x

/-- Reading the value given for a field ends in a fault. -/
structure Refused (host : Host) (raw : Catalog Value) (f : Field) (v : Value)
    (fault : Fault) : Prop where
  given : raw.find? f.name = some v
  something : v ≠ .null
  refused : host.units.toMagnitude v f.measure = .error fault

/-- A problem that a field of some raw values has. -/
inductive Wrong (host : Host) (raw : Catalog Value) : Problem → Prop
  | missing {f : Field} (nothing : ∀ v, raw.find? f.name = some v → v = .null) :
      Wrong host raw (.missing f)
  | unreadable {f : Field} {v : Value} {fault : Fault} (refused : Refused host raw f v fault) :
      Wrong host raw (.unreadable f v.shown fault)
  | outside {f : Field} {v : Value} {x : Float} {problem : Problem}
      (given : raw.find? f.name = some v) (read : host.units.toMagnitude v f.measure = .ok x)
      (range : rangeProblem? f x = some problem) : Wrong host raw problem

theorem field_of_rangeProblem? {problem : Problem} (h : rangeProblem? f x = some problem) :
    problem.field = f := by
  unfold rangeProblem? at h
  split at h
  · cases h
    rfl
  · split at h <;> split at h <;> cases h <;> rfl

theorem Wrong.not_reads {problem : Problem} (h : Wrong host raw problem) :
    ¬ Reads host raw problem.field x := by
  rintro ⟨⟨v, given, something, read⟩, range⟩
  cases h with
  | missing nothing => exact something (nothing v given)
  | unreadable refused =>
      obtain rfl := Option.some.inj (refused.given.symm.trans given)
      cases refused.refused.symm.trans read
  | outside given' read' outside =>
      rw [field_of_rangeProblem? outside] at given read range
      obtain rfl := Option.some.inj (given'.symm.trans given)
      obtain rfl := Except.ok.inj (read'.symm.trans read)
      cases (rangeProblem?_eq_none_iff.mpr range).symm.trans outside

/-! ## Reading a field -/

/-- What keeps a refused value from being told: it has no text, or its fault has none. -/
def silence? (host : Host) (v : Value) (fault : Fault) : Option Limit :=
  (host.limit? v).or fault.limit?

/-- Reading a field ends in a fault that escapes or cannot be told, in a number in range,
or in what is wrong with it. -/
inductive Ends (host : Host) (raw : Catalog Value) (f : Field) :
    Except Failure (Except Problem Float) → Prop
  | escaped {v : Value} {fault : Fault} (refused : Refused host raw f v fault)
      (escapes : fault.escapes = true) : Ends host raw f (.error (.escaped fault))
  | silent {v : Value} {fault : Fault} {limit : Limit} (refused : Refused host raw f v fault)
      (handled : fault.escapes = false) (silence : silence? host v fault = some limit) :
      Ends host raw f (.error (.untellable (.noText limit)))
  | wrong {problem : Problem} (field : problem.field = f) (wrong : Wrong host raw problem) :
      Ends host raw f (.ok (.error problem))
  | reads {x : Float} (reads : Reads host raw f x) : Ends host raw f (.ok (.ok x))

theorem ends_readField (host : Host) (raw : Catalog Value) (f : Field) :
    Ends host raw f (readField host f (raw.find? f.name)) := by
  unfold readField
  split
  · rename_i absent
    exact .wrong rfl (.missing fun v given => by cases absent.symm.trans given)
  · rename_i null
    exact .wrong rfl (.missing fun v given => Option.some.inj (given.symm.trans null))
  · rename_i v something given
    have something : v ≠ .null := something
    split
    · rename_i fault failed
      have refused : Refused host raw f v fault := ⟨given, something, failed⟩
      split
      · rename_i escapes
        exact .escaped refused escapes
      · rename_i handled
        cases silence : silence? host v fault with
        | none =>
            rw [silence?] at silence
            simp only [silence, Problem.told]
            exact .wrong rfl (.unreadable refused)
        | some limit =>
            have told := silence
            rw [silence?] at told
            simp only [told, Problem.told]
            exact .silent refused (Bool.eq_false_iff.mpr handled) silence
    · rename_i x read
      split
      · rename_i problem outside
        exact .wrong (field_of_rangeProblem? outside) (.outside given read outside)
      · rename_i range
        exact .reads ⟨⟨v, given, something, read⟩, rangeProblem?_eq_none_iff.mp range⟩

/-- No field has a value whose reading ends in a fault that escapes. -/
def Contained (host : Host) (raw : Catalog Value) : Prop :=
  ∀ f v fault, Refused host raw f v fault → fault.escapes = false

/-- All values given have a text, and so have the faults that reading them ends in. -/
structure Spoken (host : Host) (raw : Catalog Value) : Prop where
  values : ∀ q ∈ raw.entries, host.limit? q.2 = none
  faults : ∀ f v fault, Refused host raw f v fault → fault.limit? = none

theorem Spoken.silence? (spoken : Spoken host raw) {v : Value} {fault : Fault}
    (refused : Refused host raw f v fault) : silence? host v fault = none := by
  have listed := Catalog.find?_eq_some_iff.mp refused.given
  rw [Parameters.silence?, spoken.values _ listed, spoken.faults f v fault refused]
  rfl

/-! ## Reading every field -/

theorem Field.mem_all (f : Field) : f ∈ Field.all := by
  cases f <;> simp [Field.all]

/-- The fields that are not read, in the order of their declaration. -/
noncomputable def faulty (host : Host) (raw : Catalog Value) : List Field :=
  open Classical in Field.all.filter fun f => ¬ ∃ x, Reads host raw f x

theorem faulty_eq_nil_iff : faulty host raw = [] ↔ ∀ f, ∃ x, Reads host raw f x := by
  simp [faulty, List.filter_eq_nil_iff, Field.mem_all]

/-- Each field with what reading it comes to. -/
def Readings (host : Host) (raw : Catalog Value) (reading : Field → Except Problem Float) :
    Prop :=
  ∀ f, readField host f (raw.find? f.name) = .ok (reading f)

variable {reading : Field → Except Problem Float}

theorem exists_readings (contained : Contained host raw)
    (told : ∀ f v fault, Refused host raw f v fault → silence? host v fault = none) :
    ∃ reading, Readings host raw reading := by
  have each (f : Field) : ∃ r, readField host f (raw.find? f.name) = .ok r := by
    generalize ended : readField host f (raw.find? f.name) = result
    have ends := ended ▸ ends_readField host raw f
    cases ends with
    | escaped refused escapes => cases (contained f _ _ refused).symm.trans escapes
    | silent refused _ silence => cases (told f _ _ refused).symm.trans silence
    | wrong => exact ⟨_, rfl⟩
    | reads => exact ⟨_, rfl⟩
  exact ⟨fun f => (each f).choose, fun f => (each f).choose_spec⟩

theorem Readings.ends (read : Readings host raw reading) (f : Field) :
    Ends host raw f (.ok (reading f)) :=
  read f ▸ ends_readField host raw f

theorem Readings.reads_iff (read : Readings host raw reading) {f : Field} {x : Float} :
    Reads host raw f x ↔ reading f = .ok x := by
  have ends := read.ends f
  generalize reading f = result at ends
  cases ends with
  | wrong field wrong =>
      exact iff_of_false (fun reads => wrong.not_reads (field ▸ reads)) nofun
  | reads reads =>
      rename_i y
      constructor
      · rintro ⟨⟨v, given, -, same⟩, -⟩
        obtain ⟨⟨w, given', -, same'⟩, -⟩ := reads
        obtain rfl := Option.some.inj (given'.symm.trans given)
        rw [Except.ok.inj (same'.symm.trans same)]
      · rintro ⟨⟩
        exact reads

theorem readField_refused {v : Value} {fault : Fault} (refused : Refused host raw f v fault) :
    readField host f (raw.find? f.name) =
      if fault.escapes then .error (.escaped fault)
      else return .error (← Problem.told (silence? host v fault)
        (.unreadable f v.shown fault)) := by
  rw [refused.given]
  unfold readField
  split
  · rename_i absent
    cases absent
  · rename_i null
    exact absurd (Option.some.inj null) refused.something
  · rename_i there
    obtain rfl := Option.some.inj there
    simp only [refused.refused]
    rfl

/-- A field that is read has no fault that escapes or cannot be told. -/
theorem told_of_readField {r : Except Problem Float} {v : Value} {fault : Fault}
    (refused : Refused host raw f v fault)
    (reads : readField host f (raw.find? f.name) = .ok r) :
    fault.escapes = false ∧ silence? host v fault = none := by
  rw [readField_refused refused] at reads
  split at reads
  · cases reads
  · rename_i handled
    refine ⟨Bool.eq_false_iff.mpr handled, ?_⟩
    cases silence : silence? host v fault with
    | none => rfl
    | some limit =>
        rw [silence] at reads
        cases reads

theorem Readings.contained (read : Readings host raw reading) : Contained host raw :=
  fun f _ _ refused => (told_of_readField refused (read f)).1

theorem Readings.faulty_eq (read : Readings host raw reading) :
    faulty host raw = Field.all.filter fun f => (problemOf (reading f)).isSome := by
  apply List.filter_congr
  intro f _
  have reads (x : Float) := read.reads_iff (f := f) (x := x)
  generalize reading f = r at reads
  cases r <;> simp [reads, problemOf]

/-- The problems found, one for each field that is not read. -/
theorem Readings.problems (read : Readings host raw reading) :
    List.Forall₂ (fun f problem => problem.field = f ∧ Wrong host raw problem) (faulty host raw)
      (Field.all.filterMap fun f => problemOf (reading f)) := by
  unfold faulty
  generalize Field.all = fields
  induction fields with
  | nil => exact .nil
  | cons f fields ih =>
      have ends := read.ends f
      have reads (x : Float) := read.reads_iff (f := f) (x := x)
      generalize result : reading f = r at ends reads
      cases ends with
      | wrong field wrong =>
          rw [List.filter_cons_of_pos (by simp [reads]),
            List.filterMap_cons_some (by rw [result]; rfl)]
          exact .cons ⟨field, wrong⟩ ih
      | reads =>
          rw [List.filter_cons_of_neg (by simp [reads]),
            List.filterMap_cons_none (by rw [result]; rfl)]
          exact ih

theorem read_eq (read : Readings host raw reading) (source : Source) :
    Parameters.read host raw source =
      match Field.all.filterMap fun f => problemOf (reading f) with
      | [] => ofNumbers host fun f => .float (valueOf (reading f))
      | ps => .error (rejection host raw source ps) := by
  have readings : (Field.all.mapM fun f => readField host f (raw.find? f.name)) =
      .ok (Field.all.map reading) := mapM_eq_map fun f _ => read f
  have found (f : Field) : ((Field.all.zip (Field.all.map reading)).find? (·.1 = f)).elim 0.0
      (fun entry => valueOf entry.2) = valueOf (reading f) := by
    cases f <;> rfl
  have listed : (Field.all.map reading).filterMap problemOf =
      Field.all.filterMap fun f => problemOf (reading f) := List.filterMap_map
  cases problems : Field.all.filterMap fun f => problemOf (reading f) with
  | nil =>
      rw [problems] at listed
      simp only [Parameters.read, readings, bind, Except.bind, listed, found]
  | cons p rest =>
      rw [problems] at listed
      simp only [Parameters.read, readings, bind, Except.bind, listed]

/-- Where a field cannot be read, reading them all ends as reading one such field does. -/
theorem read_failed (unread : ¬ ∃ reading, Readings host raw reading) (source : Source) :
    ∃ f failure, readField host f (raw.find? f.name) = .error failure ∧
      Parameters.read host raw source = .error failure := by
  cases made : (Field.all.mapM fun f => readField host f (raw.find? f.name)) with
  | ok readings =>
      refine absurd ?_ unread
      have each (f : Field) := result_of_step made f.mem_all
      exact ⟨fun f => (each f).choose, fun f => (each f).choose_spec.2⟩
  | error failure =>
      obtain ⟨f, -, failed⟩ := step_of_error made
      refine ⟨f, failure, failed, ?_⟩
      rw [Parameters.read, made]
      rfl

/-! ## Numbers of every field -/

theorem ofNumbers_floats (host : Host) (value : Field → Float) :
    ofNumbers host (fun f => .float (value f)) =
      match Field.all.filterMap fun f => rangeProblem? f (value f) with
      | [] => .ok (ofFields fun f => .float (value f))
      | ps => .error (.rejected ⟨.problems ps, .named "ProcessParameters constructor", none⟩) := by
  have checked : (Field.all.mapM fun f => numberProblem? host f (.float (value f))) =
      .ok (Field.all.map fun f => rangeProblem? f (value f)) := mapM_eq_map fun _ _ => rfl
  rw [ofNumbers, checked]
  simp only [bind, Except.bind, List.filterMap_map, Function.comp_def, id]
  rfl

theorem ofNumbers_inRange {value : Field → Float} (range : ∀ f, InRange f (value f)) :
    ofNumbers host (fun f => .float (value f)) = .ok (ofFields fun f => .float (value f)) := by
  have none : (Field.all.filterMap fun f => rangeProblem? f (value f)) = [] :=
    List.filterMap_eq_nil_iff.mpr fun f _ => rangeProblem?_eq_none_iff.mpr (range f)
  rw [ofNumbers_floats, none]

theorem inRange_of_ofNumbers_floats {value : Field → Float}
    (h : ofNumbers host (fun f => .float (value f)) = .ok p) (f : Field) :
    InRange f (value f) := by
  rw [ofNumbers_floats] at h
  split at h
  · rename_i none
    exact rangeProblem?_eq_none_iff.mp (List.filterMap_eq_nil_iff.mp none f f.mem_all)
  · cases h

theorem get_ofFields (value : Field → Magnitude) (f : Field) :
    (ofFields value).get f = value f := by
  cases f <;> rfl

/-! ## Reading what was read -/

theorem outcome_ofValues (host : Host) (raw : Catalog Value) (source : Source) :
    (ofValues host raw source).outcome = Parameters.read host raw source := rfl

/-- Raw values all of which are read give the parameters that hold what was read. -/
theorem read_of_reads {value : Field → Float} (reads : ∀ f, Reads host raw f (value f))
    (source : Source) :
    Parameters.read host raw source = .ok (ofFields fun f => .float (value f)) := by
  have read : Readings host raw fun f => .ok (value f) := by
    intro f
    obtain ⟨⟨v, given, something, same⟩, range⟩ := reads f
    rw [given]
    unfold readField
    split
    · rename_i absent
      cases absent
    · rename_i null
      exact absurd (Option.some.inj null) something
    · rename_i w _ there
      obtain rfl := Option.some.inj there
      rw [same]
      simp only [rangeProblem?_eq_none_iff.mpr range]
  have none : (Field.all.filterMap fun f => problemOf (.ok (value f))) = [] :=
    List.filterMap_eq_nil_iff.mpr fun _ _ => rfl
  rw [read_eq read, none]
  exact ofNumbers_inRange fun f => (reads f).2

theorem find?_toValues {value : Field → Float} (f : Field) :
    (Catalog.ofList (toValues (ofFields fun f => .float (value f)))).find? f.name =
      some (.float (value f)) := by
  have distinct : ((toValues (ofFields fun f => .float (value f))).map Prod.fst).Nodup := by
    show (Field.all.map Field.name).Nodup
    decide
  rw [Catalog.find?_eq_some_iff, Catalog.entries_ofList distinct]
  cases f <;> simp [toValues, entries, Field.all, ofFields, get]

/-- The values of parameters are read as they are. -/
theorem read_toValues {value : Field → Float} (range : ∀ f, InRange f (value f))
    (source : Source) :
    Parameters.read host (.ofList (toValues (ofFields fun f => .float (value f)))) source =
      .ok (ofFields fun f => .float (value f)) :=
  read_of_reads (fun f => ⟨⟨_, find?_toValues f, nofun, host.units.toMagnitude_float _ _⟩,
    range f⟩) source

/-! ## Rejections -/

theorem mem_given {q : String × Value} : q ∈ given raw ↔ q ∈ raw.entries ∧ q.2 ≠ .null := by
  obtain ⟨name, v⟩ := q
  rw [given, List.mem_filter]
  cases v <;> simp

/-- The values that a rejection repeats have a text just when all values have one. -/
theorem given_spoken_iff : (given raw).findSome? (fun q => host.limit? q.2) = none ↔
    ∀ q ∈ raw.entries, host.limit? q.2 = none := by
  rw [List.findSome?_eq_none_iff]
  constructor
  · intro spoken q listed
    by_cases null : q.2 = .null
    · rw [null]
      rfl
    · exact spoken q (mem_given.mpr ⟨listed, null⟩)
  · exact fun spoken q listed => spoken q (mem_given.mp listed).1

/-- Raw values are rejected with one problem for every field that is not read. -/
theorem read_rejected (read : Readings host raw reading)
    (fault : ¬ ∀ f, ∃ x, Reads host raw f x) (source : Source) :
    ∃ ps, Parameters.read host raw source = .error (rejection host raw source ps) ∧
      List.Forall₂ (fun f problem => problem.field = f ∧ Wrong host raw problem)
        (faulty host raw) ps := by
  have problems := read.problems
  rw [read_eq read]
  split
  · rename_i none
    rw [none, List.forall₂_nil_right_iff, faulty_eq_nil_iff] at problems
    exact absurd problems fault
  · exact ⟨_, rfl, problems⟩

theorem rejection_spoken (spoken : Spoken host raw) (source : Source) (ps : List Problem) :
    rejection host raw source ps = .rejected ⟨.problems ps, source, userInput raw⟩ := by
  rw [rejection, given_spoken_iff.mpr spoken.values]

theorem fields_of_problems {fields : List Field} {ps : List Problem}
    (problems : List.Forall₂ (fun f problem => problem.field = f ∧ Wrong host raw problem)
      fields ps) :
    fields = ps.map Problem.field :=
  List.forall₂_eq_eq_eq ▸ List.forall₂_map_right_iff.mpr (problems.imp fun _ _ h => h.1.symm)

/-- Raw values that are told are rejected for the fields that are not read. -/
theorem outcome_rejected (contained : Contained host raw) (spoken : Spoken host raw)
    (fault : ¬ ∀ f, ∃ x, Reads host raw f x) (source : Source) : ∃ r ps,
      (ofValues host raw source).outcome = .error (.rejected r) ∧
      r.source = source ∧ r.parameterNames = (faulty host raw).map Field.name ∧
      r.cause = .problems ps ∧
      List.Forall₂ (fun f problem => problem.field = f ∧ Wrong host raw problem)
        (faulty host raw) ps := by
  obtain ⟨reading, read⟩ := exists_readings contained fun f v fault => spoken.silence?
  obtain ⟨ps, failed, problems⟩ := read_rejected read fault source
  rw [rejection_spoken spoken] at failed
  refine ⟨_, ps, failed, rfl, ?_, rfl, problems⟩
  rw [fields_of_problems problems]
  rfl

/-- Raw values that are neither read nor told end in a limit of what can be printed. -/
theorem read_unspoken (contained : Contained host raw) (unspoken : ¬ Spoken host raw)
    (fault : ¬ ∀ f, ∃ x, Reads host raw f x) (source : Source) :
    ∃ limit, Parameters.read host raw source = .error (.untellable (.noText limit)) ∨
      ∃ r, Parameters.read host raw source = .error (.untold r limit) := by
  by_cases readings : ∃ reading, Readings host raw reading
  · obtain ⟨reading, read⟩ := readings
    obtain ⟨ps, failed, -⟩ := read_rejected read fault source
    rw [failed, rejection]
    split
    · rename_i none
      refine absurd ⟨given_spoken_iff.mp none, fun f v fault refused => ?_⟩ unspoken
      exact (Option.or_eq_none_iff.mp (told_of_readField refused (read f)).2).2
    · exact ⟨_, .inr ⟨_, rfl⟩⟩
  · obtain ⟨f, failure, failed, same⟩ := read_failed readings source
    have ends := failed ▸ ends_readField host raw f
    rw [same]
    cases ends with
    | escaped refused escapes => cases (contained f _ _ refused).symm.trans escapes
    | silent => exact ⟨_, .inl rfl⟩

/-- A missing length, a text that is no quantity and an angle beyond pi, among two lengths
that are read. -/
def mixed : Catalog Value := .ofList [
  ("minimum_node_distance", .text "2"), ("minimum_channel_length", .null),
  ("maximum_chip_size_x", .text "wide"), ("maximum_chip_size_y", .float 0.5),
  ("critical_crossing_angle", .float 4.0)]

theorem readings_mixed : Readings .standard mixed fun f =>
    (readField .standard f (mixed.find? f.name)).toOption.getD (.ok 0.0) := by
  have made (f : Field) :
      (readField .standard f (mixed.find? f.name)).toOption.isSome = true := by
    cases f <;> decide +kernel
  intro f
  obtain ⟨r, read⟩ := Option.isSome_iff_exists.mp (made f)
  exact (toOption_eq_some_iff.mp read).trans (by simp only [read, Option.getD_some])

theorem contained_mixed : Contained .standard mixed := readings_mixed.contained

theorem spoken_mixed : Spoken .standard mixed where
  values := by decide +kernel
  faults f _ _ refused :=
    (Option.or_eq_none_iff.mp (told_of_readField refused (readings_mixed f)).2).2

/-! ## The law of reading -/

/-- Raw values give parameters just when every field is read, and the parameters hold what
was read.  If not, the rejection names the fields that are not, with a problem for each,
unless a value or a fault has no text: then a limit of what can be printed is met instead.
Numbers in range are taken as they are, and what was read is read again. -/
theorem ofValues_reads (host : Host) (contained : Contained host raw) (source : Source) :
    ((∃ p, (ofValues host raw source).outcome = .ok p) ↔ ∀ f, ∃ x, Reads host raw f x) ∧
    (∀ p, (ofValues host raw source).outcome = .ok p →
      (∀ f, ∃ x, Reads host raw f x ∧ p.get f = .float x) ∧
      ∀ again, (ofValues host (.ofList p.toValues) again).outcome = .ok p) ∧
    ((¬ ∀ f, ∃ x, Reads host raw f x) →
      (Spoken host raw → ∃ r ps,
        (ofValues host raw source).outcome = .error (.rejected r) ∧
        r.source = source ∧ r.parameterNames = (faulty host raw).map Field.name ∧
        r.cause = .problems ps ∧
        List.Forall₂ (fun f problem => problem.field = f ∧ Wrong host raw problem)
          (faulty host raw) ps) ∧
      (¬ Spoken host raw → ∃ limit,
        (ofValues host raw source).outcome = .error (.untellable (.noText limit)) ∨
          ∃ r, (ofValues host raw source).outcome = .error (.untold r limit))) ∧
    ∀ value : Field → Float, (∀ f, InRange f (value f)) ↔
      ofNumbers host (fun f => .float (value f)) = .ok (ofFields fun f => .float (value f)) := by
  have accepted {value : Field → Float} (reads : ∀ f, Reads host raw f (value f)) :=
    read_of_reads reads source
  have reads_of_ok {p : Parameters} (h : Parameters.read host raw source = .ok p) :
      ∀ f, ∃ x, Reads host raw f x := by
    by_contra fault
    by_cases spoken : Spoken host raw
    · obtain ⟨r, ps, failed, -⟩ := outcome_rejected contained spoken fault source
      cases failed.symm.trans h
    · obtain ⟨limit, failed | ⟨r, failed⟩⟩ := read_unspoken contained spoken fault source
      · cases failed.symm.trans h
      · cases failed.symm.trans h
  simp only [outcome_ofValues]
  refine ⟨⟨fun ⟨p, h⟩ => reads_of_ok h, fun reads => ?_⟩, fun p h => ?_,
    fun fault => ⟨fun spoken => outcome_rejected contained spoken fault source,
      fun unspoken => read_unspoken contained unspoken fault source⟩,
    fun value => ⟨ofNumbers_inRange, inRange_of_ofNumbers_floats⟩⟩
  · choose value reads using reads
    exact ⟨_, accepted reads⟩
  · choose value reads using reads_of_ok h
    obtain rfl := Except.ok.inj ((accepted reads).symm.trans h)
    exact ⟨fun f => ⟨value f, reads f, get_ofFields _ f⟩, read_toValues fun f => (reads f).2⟩

theorem mixed_rejected :
    Contained .standard mixed ∧ Spoken .standard mixed ∧ ∃ r ps,
      (ofValues .standard mixed (.named "command line")).outcome = .error (.rejected r) ∧
      r.parameterNames =
        ["minimum_channel_length", "maximum_chip_size_x", "critical_crossing_angle"] ∧
      r.cause = .problems ps ∧
      List.Forall₂ (fun f problem => problem.field = f ∧ Wrong .standard mixed problem)
        [.channelLength, .chipSizeX, .crossingAngle] ps := by
  have fields : faulty .standard mixed = [.channelLength, .chipSizeX, .crossingAngle] :=
    readings_mixed.faulty_eq.trans (by decide +kernel)
  have fault : ¬ ∀ f, ∃ x, Reads .standard mixed f x := by
    rw [← faulty_eq_nil_iff, fields]
    simp
  obtain ⟨r, ps, failed, -, names, cause, problems⟩ :=
    ((ofValues_reads .standard contained_mixed (.named "command line")).2.2.1 fault).1 spoken_mixed
  rw [fields] at names problems
  exact ⟨contained_mixed, spoken_mixed, r, ps, failed, names, cause, problems⟩

/-- A distance in a power of metres whose exponent is too long to print. -/
def enormous : Catalog Value := .ofList [
  ("minimum_node_distance", .text "1 m**(10**5000)"),
  ("minimum_channel_length", .float 0.0001), ("maximum_chip_size_x", .float 0.04),
  ("maximum_chip_size_y", .float 0.04), ("critical_crossing_angle", .float 0.0872664626)]

/-- What a reader finds out about a fault: whether it lets the fault pass, and what keeps the
fault from being told. -/
def heard : Except Quantity.Fault Float → Option (Bool × Option Limit)
  | .error fault => some (fault.escapes, fault.limit?)
  | .ok _ => none

theorem exists_of_heard {r : Except Quantity.Fault Float} {escapes : Bool} {limit : Option Limit}
    (h : heard r = some (escapes, limit)) :
    ∃ fault, r = .error fault ∧ fault.escapes = escapes ∧ fault.limit? = limit := by
  cases r with
  | ok x => cases h
  | error fault =>
      obtain ⟨same, limited⟩ := Prod.mk.inj (Option.some.inj h)
      exact ⟨fault, rfl, same, limited⟩

/-- The fault that such a distance is refused with is explained by its reader, which finds
no text for it: the rejection that names the field does not come. -/
theorem power_unprintable :
    Contained .standard enormous ∧ (¬ ∃ x, Reads .standard enormous .nodeDistance x) ∧
    (ofValues .standard enormous (.named "command line")).outcome =
      .error (.untellable (.noText .digits)) := by
  have reading : heard (Host.standard.units.toMagnitude (.text "1 m**(10**5000)") .length) =
      some (false, some .digits) := by decide +kernel
  obtain ⟨fault, failed, handled, silent⟩ := exists_of_heard reading
  have refused : Refused .standard enormous .nodeDistance (.text "1 m**(10**5000)") fault :=
    ⟨by rfl, nofun, failed⟩
  have first : readField .standard .nodeDistance (enormous.find? Field.nodeDistance.name) =
      .error (.untellable (.noText .digits)) := by
    have silence : silence? .standard (.text "1 m**(10**5000)") fault = some .digits := silent
    rw [readField_refused refused, handled, silence]
    rfl
  refine ⟨fun f v other h => ?_, ?_, ?_⟩
  · cases f with
    | nodeDistance =>
        obtain rfl := Option.some.inj (refused.given.symm.trans h.given)
        rwa [Except.error.inj (failed.symm.trans h.refused)] at handled
    | _ =>
        obtain rfl := Option.some.inj (h.given.symm.trans (by rfl))
        cases (Host.standard.units.toMagnitude_float _ _).symm.trans h.refused
  · rintro ⟨x, ⟨v, given, -, read⟩, -⟩
    obtain rfl := Option.some.inj (refused.given.symm.trans given)
    cases failed.symm.trans read
  · show Parameters.read _ _ _ = _
    rw [Parameters.read, Field.all, List.mapM_cons, first]
    rfl

end FluidChip.Parameters
