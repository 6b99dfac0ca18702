import FluidChip.Proofs.Document.Undecided

/-!
# Keys at fault

The fields of an outline are the keys of a document that are at fault, and can be sorted
where these have one order.
-/

namespace FluidChip.Document

open Format Problem

variable {fields : List (Field × Format)} {entries : List (Value × Value)} {v k key : Value}
  {problems made : List Problem}

/-- A key that is no field's, or the key of a field whose value does not fit or is required
and lacks. -/
inductive Format.Faulty (fields : List (Field × Format)) (entries : List (Value × Value)) :
    Value → Prop
  | unknown {k v : Value} (listed : (k, v) ∈ entries) (other : ∀ f ∈ fields, k ≠ .text f.1.name) :
      Faulty fields entries k
  | unfit {f : Field × Format} {v : Value} (known : f ∈ fields)
      (listed : (.text f.1.name, v) ∈ entries) (unfit : ¬ f.2.Fits v) :
      Faulty fields entries (.text f.1.name)
  | lacking {f : Field × Format} (known : f ∈ fields) (required : f.1.required = true)
      (lacks : Value.get? entries f.1.name = none) : Faulty fields entries (.text f.1.name)

/-! ## First keys -/

theorem covers_true (v : Value) : Covers (fun _ => True) v :=
  ⟨fun _ => trivial, fun _ => trivial, fun _ _ => trivial⟩

theorem eq_of_mem_firstKeys (each : ∀ p ∈ problems, p.Within (fun _ => True) [k])
    (h : key ∈ firstKeys problems) : key = k := by
  rw [firstKeys, leavesOf_eq] at h
  obtain ⟨leaf, listed, first⟩ := List.mem_filterMap.mp h
  obtain ⟨p, problem, listed⟩ := List.mem_flatMap.mp listed
  obtain ⟨more, place⟩ := (each p problem).leaves leaf listed
  rw [place] at first
  exact (Option.some.inj first).symm

theorem mem_firstKeys_of_within (each : ∀ p ∈ problems, p.Within (fun _ => True) [k])
    (decided : anyUndecided problems = false) (some_problem : problems ≠ []) :
    k ∈ firstKeys problems := by
  obtain ⟨p, problem⟩ := List.exists_mem_of_ne_nil problems some_problem
  rw [anyUndecided_eq, List.any_eq_false] at decided
  obtain ⟨leaf, listed⟩ := List.exists_mem_of_ne_nil _
    ((each p problem).exists_leaf (by simpa using decided p problem))
  obtain ⟨more, place⟩ := (each p problem).leaves leaf listed
  rw [firstKeys, leavesOf_eq]
  exact List.mem_filterMap.mpr ⟨leaf, List.mem_flatMap.mpr ⟨p, problem, listed⟩, by rw [place]; rfl⟩

theorem mem_firstKeys_field_iff
    (decided : anyUndecided (fieldProblems [] [] fields k v) = false) :
    key ∈ firstKeys (fieldProblems [] [] fields k v) ↔
      key = k ∧ fieldProblems [] [] fields k v ≠ [] := by
  have each : ∀ p ∈ fieldProblems [] [] fields k v, p.Within (fun _ => True) [k] :=
    fieldProblems_within fields [] [] k v (covers_true v)
  constructor
  · refine fun listed => ⟨eq_of_mem_firstKeys each listed, fun none => ?_⟩
    rw [none] at listed
    cases listed
  · rintro ⟨rfl, some_problem⟩
    exact mem_firstKeys_of_within each decided some_problem

theorem mem_firstKeys_missing_iff {plain : List Field} :
    key ∈ firstKeys (missingProblems plain [] [] entries) ↔ ∃ field ∈ plain,
      field.required = true ∧ Value.get? entries field.name = none ∧ key = .text field.name := by
  simp only [firstKeys, leavesOf_eq, missingProblems, List.mem_filterMap, List.mem_flatMap,
    List.mem_map, List.mem_filter, Bool.and_eq_true, Option.isNone_iff_eq_none]
  constructor
  · rintro ⟨leaf, ⟨p, ⟨field, ⟨listed, required, lacks⟩, rfl⟩, member⟩, first⟩
    obtain rfl := List.mem_singleton.mp member
    exact ⟨field, listed, required, lacks, (Option.some.inj first).symm⟩
  · rintro ⟨field, listed, required, lacks, rfl⟩
    exact ⟨_, ⟨_, ⟨field, ⟨listed, required, lacks⟩, rfl⟩, List.mem_singleton_self _⟩, rfl⟩

/-- The problems of a document begin with the keys at fault. -/
theorem mem_firstKeys_iff_faulty (names : (fields.map (·.1.name)).Nodup)
    (decided : anyUndecided (recordProblems fields entries) = false) :
    key ∈ firstKeys (recordProblems fields entries) ↔ Faulty fields entries key := by
  have each : ∀ entry ∈ entries,
      anyUndecided (fieldProblems [] [] fields entry.1 entry.2) = false := by
    intro entry listed
    rw [recordProblems, anyUndecided_append, Bool.or_eq_false_iff] at decided
    by_contra undecided
    have some_entry : anyUndecided (entries.flatMap fun entry =>
        fieldProblems [] [] fields entry.1 entry.2) = true :=
      anyUndecided_flatMap_iff.mpr ⟨entry, listed, by simpa using undecided⟩
    exact Bool.false_ne_true (decided.1.symm.trans some_entry)
  rw [recordProblems, firstKeys_append, firstKeys_flatMap, List.mem_append, List.mem_flatMap,
    mem_firstKeys_missing_iff]
  constructor
  · rintro (⟨⟨k, v⟩, listed, found⟩ | ⟨field, member, required, lacks, rfl⟩)
    · obtain ⟨rfl, some_problem⟩ := (mem_firstKeys_field_iff (each _ listed)).mp found
      rw [ne_eq, fieldProblems_eq_nil names] at some_problem
      by_cases known : ∃ f ∈ fields, key = .text f.1.name
      · obtain ⟨f, member, rfl⟩ := known
        exact .unfit member listed fun fits => some_problem ⟨f, member, rfl, fits⟩
      · exact .unknown listed fun f member same => known ⟨f, member, same⟩
    · obtain ⟨f, known, rfl⟩ := List.mem_map.mp member
      exact .lacking known required lacks
  · intro h
    cases h with
    | unknown listed other =>
        refine .inl ⟨_, listed, (mem_firstKeys_field_iff (each _ listed)).mpr ⟨rfl, ?_⟩⟩
        rw [ne_eq, fieldProblems_eq_nil names]
        rintro ⟨f, member, same, -⟩
        exact other f member same
    | @unfit f v known listed unfit =>
        refine .inl ⟨_, listed, (mem_firstKeys_field_iff (each _ listed)).mpr ⟨rfl, ?_⟩⟩
        rw [ne_eq, fieldProblems_eq_nil names]
        rintro ⟨g, member, same, fits⟩
        obtain rfl := List.inj_on_of_nodup_map names known member (Value.text.inj same)
        exact unfit fits
    | lacking known required lacks =>
        exact .inr ⟨_, List.mem_map_of_mem known, required, lacks, rfl⟩

/-- Nothing is wrong with a document just when no key is at fault. -/
theorem recordProblems_eq_nil_iff (names : (fields.map (·.1.name)).Nodup) :
    recordProblems fields entries = [] ↔ ∀ key, ¬ Faulty fields entries key := by
  rw [recordProblems, List.append_eq_nil_iff, List.flatMap_eq_nil_iff, missingProblems_eq_nil]
  simp only [fieldProblems_eq_nil names]
  constructor
  · rintro ⟨each, required⟩ key h
    cases h with
    | unknown listed other =>
        obtain ⟨f, known, same, -⟩ := each _ listed
        exact other f known same
    | unfit known listed unfit =>
        obtain ⟨g, member, same, fits⟩ := each _ listed
        obtain rfl := List.inj_on_of_nodup_map names known member (Value.text.inj same)
        exact unfit fits
    | lacking known needed lacks =>
        obtain ⟨v, found⟩ := required _ (List.mem_map_of_mem known) needed
        cases lacks.symm.trans found
  · intro none
    constructor
    · rintro ⟨k, v⟩ listed
      by_contra problem
      by_cases known : ∃ f ∈ fields, k = .text f.1.name
      · obtain ⟨f, member, rfl⟩ := known
        exact none _ (.unfit member listed fun fits => problem ⟨f, member, rfl, fits⟩)
      · exact none _ (.unknown listed fun f member same => known ⟨f, member, same⟩)
    · intro field member needed
      obtain ⟨f, known, rfl⟩ := List.mem_map.mp member
      cases found : Value.get? entries f.1.name with
      | none => exact absurd (.lacking known needed found) (none _)
      | some v => exact ⟨v, rfl⟩

/-! ## Outlines -/

section

variable (names : (fields.map (·.1.name)).Nodup)
  (arranged : arrange? (recordProblems fields entries) = some made)

include names arranged

theorem mem_firstKeys_arranged_iff : key ∈ firstKeys made ↔ Faulty fields entries key := by
  have alike := allAlike_of_arrange? arranged
  rw [← mem_firstKeys_iff_faulty names alike.decided.2]
  exact (alike.leaves.filterMap _).mem_iff

/-- What is sorted is the outline of the arranged problems. -/
theorem sortable_arranged_iff (isKey : ∀ entry ∈ entries, entry.1.isKey = true) :
    Sortable ((Outline.ofProblems made).map (·.1)) ↔ OneOrder (Faulty fields entries) := by
  have same : (· ∈ firstKeys made) = Faulty fields entries :=
    funext fun _ => propext (mem_firstKeys_arranged_iff names arranged)
  rw [← same]
  refine sortable_outline_iff fun k listed => ?_
  cases (mem_firstKeys_arranged_iff names arranged).mp listed with
  | unknown listed => exact isKey _ listed
  | unfit => rfl
  | lacking => rfl

end

theorem text_mem_outline_iff {name : String} :
    .text name ∈ (Outline.ofProblems problems).map (·.1) ↔ .text name ∈ firstKeys problems := by
  refine ⟨Outline.mem_firstKeys, fun listed => ?_⟩
  obtain ⟨b, made, same | same⟩ := Outline.exists_key listed
  · exact same ▸ made
  · exact eq_text_of_sameKey same ▸ made

end FluidChip.Document
