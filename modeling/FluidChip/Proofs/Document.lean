import FluidChip.Document.Arrangement
import FluidChip.Document.Check

/-!
# Documents without problems

Putting problems in order loses none of them, so a document passes only if nothing
is wrong with it.  A value that passes has the shape that its format says, and so
have the values inside of it.
-/

namespace FluidChip.Document

open Text

/-! ## Ordering -/

variable {problems arranged made run others : List Problem}

theorem openingRun_ne_nil (h : openingRun problems = some (run, others))
    (some_problem : problems ≠ []) : run ≠ [] := by
  match problems with
  | [] => exact absurd rfl some_problem
  | [p] =>
      cases h
      simp
  | first :: second :: rest =>
      simp only [openingRun, Option.bind_eq_bind, Option.bind_eq_some_iff, Option.some.injEq,
        Prod.mk.injEq] at h
      obtain ⟨descending, -, ⟨more, left⟩, -, rfl, -⟩ := h
      split <;> simp

theorem insert?_ne_nil {p : Problem} (h : insert? arranged p = some made) : made ≠ [] := by
  obtain ⟨place, -, h⟩ := Option.bind_eq_some_iff.mp h
  cases h
  simp

theorem order?_ne_nil (h : order? problems = some made) (some_problem : problems ≠ []) :
    made ≠ [] := by
  obtain ⟨⟨run, others⟩, opening, h⟩ := Option.bind_eq_some_iff.mp h
  have start := openingRun_ne_nil opening some_problem
  clear opening
  induction others generalizing run with
  | nil =>
      cases h
      exact start
  | cons p rest ih =>
      obtain ⟨next, inserted, h⟩ := Option.bind_eq_some_iff.mp h
      exact ih next h (insert?_ne_nil inserted)

theorem collect?_eq_some_nil (h : collect? problems = some []) : problems = [] := by
  have grows {c c' : Collection} {p : Problem} (h : c.add? p = some c') : c'.ordered ≠ [] := by
    obtain ⟨ordered, found, h⟩ := Option.bind_eq_some_iff.mp h
    obtain ⟨byRule, -, h⟩ := Option.bind_eq_some_iff.mp h
    cases h
    exact order?_ne_nil found (by simp)
  have kept {ps : List Problem} {c c' : Collection} (start : c.ordered ≠ [])
      (h : ps.foldlM Collection.add? c = some c') : c'.ordered ≠ [] := by
    induction ps generalizing c with
    | nil =>
        cases h
        exact start
    | cons p rest ih =>
        obtain ⟨next, added, h⟩ := Option.bind_eq_some_iff.mp h
        exact ih (grows added) h
  obtain ⟨c, folded, empty⟩ := Option.map_eq_some_iff.mp h
  cases problems with
  | nil => rfl
  | cons p rest =>
      obtain ⟨next, added, folded⟩ := Option.bind_eq_some_iff.mp folded
      exact absurd empty (kept (grows added) folded)

theorem arrange?_eq_some_nil (h : arrange? problems = some []) : problems = [] := by
  obtain ⟨parts, each, h⟩ := Option.bind_eq_some_iff.mp h
  obtain rfl := collect?_eq_some_nil h
  cases problems with
  | nil => rfl
  | cons p rest =>
      obtain ⟨q, -, each⟩ := Option.bind_eq_some_iff.mp each
      obtain ⟨qs, -, each⟩ := Option.bind_eq_some_iff.mp each
      cases each

/-! ## Keys -/

theorem eq_text_of_sameKey {key : Value} {name : String} (h : key.sameKey (.text name) = true) :
    key = .text name := by
  cases key with
  | text s => simpa [Value.sameKey] using h
  | _ => simp [Value.sameKey, Value.measured?] at h

theorem mem_of_get? {entries : List (Value × Value)} {name : String} {v : Value}
    (h : Value.get? entries name = some v) : (.text name, v) ∈ entries := by
  obtain ⟨⟨key, value⟩, found, rfl⟩ := Option.map_eq_some_iff.mp h
  have same : key.sameKey (.text name) = true :=
    List.find?_some (p := fun entry : Value × Value => entry.1.sameKey (.text name)) found
  obtain rfl := eq_text_of_sameKey same
  exact List.mem_of_find?_eq_some found

/-! ## Values in their formats -/

/-- Nothing is wrong with a value, wherever it may stand. -/
def Format.Fits (f : Format) (v : Value) : Prop := ∃ s, f.problems s v = []

/-- The required fields are there, and what is there fits. -/
structure Format.FieldsFit (fields : List (Field × Format)) (entries : List (Value × Value)) :
    Prop where
  required : ∀ field ∈ fields.map (·.1), field.required = true →
    ∃ v, Value.get? entries field.name = some v
  fits : ∀ field format, (field, format) ∈ fields → ∀ v,
    Value.get? entries field.name = some v → format.Fits v

namespace Format

variable {fields : List (Field × Format)} {entries : List (Value × Value)} {v : Value}
  {keys : List Value} {rules : List String}

theorem fieldProblems_text (distinct : (fields.map (·.1.name)).Nodup) {field : Field}
    {format : Format} (h : (field, format) ∈ fields) :
    fieldProblems keys rules fields (.text field.name) v =
      format.problems (Spot.field keys rules field.name) v := by
  induction fields with
  | nil => cases h
  | cons first rest ih =>
      obtain ⟨other, f⟩ := first
      rw [fieldProblems]
      rcases List.mem_cons.mp h with same | h
      · cases same
        simp [Value.sameKey]
      · have new : field.name ≠ other.name := by
          intro same
          have listed : other.name ∈ rest.map (·.1.name) :=
            List.mem_map.mpr ⟨_, h, same⟩
          exact (List.nodup_cons.mp distinct).1 listed
        rw [if_neg (by simpa [Value.sameKey] using new)]
        exact ih (List.nodup_cons.mp distinct).2 h

theorem fieldsFit_of_problems (distinct : (fields.map (·.1.name)).Nodup)
    (h : (entries.flatMap fun entry => fieldProblems keys rules fields entry.1 entry.2) ++
      missingProblems (fields.map (·.1)) keys rules entries = []) :
    FieldsFit fields entries := by
  obtain ⟨found, missing⟩ := List.append_eq_nil_iff.mp h
  constructor
  case required =>
    intro field listed required
    cases present : Value.get? entries field.name with
    | some v => exact ⟨v, rfl⟩
    | none =>
        rw [missingProblems, List.map_eq_nil_iff, List.filter_eq_nil_iff] at missing
        exact absurd (by simp [required, present]) (missing field listed)
  case fits =>
    intro field format listed v present
    have none := List.flatMap_eq_nil_iff.mp found _ (mem_of_get? present)
    exact ⟨_, (fieldProblems_text distinct listed).symm.trans none⟩

theorem eq_nil_of_grouped {s : Spot} {rule : String} {parts : List Problem}
    (h : s.grouped rule parts = []) : parts = [] := by
  cases parts with
  | nil => rfl
  | cons p rest => cases h

theorem Fits.identifier {nullable nonEmpty : Bool}
    (h : (Format.identifier nullable nonEmpty).Fits v) :
    ∃ text, v = .text text ∧ isIdentifier text = true := by
  obtain ⟨s, none⟩ := h
  simp only [Format.identifier, problems] at none
  cases v with
  | text t =>
      cases legal : isIdentifier t with
      | true => exact ⟨t, rfl, legal⟩
      | false => simp [scalarProblems, Kind.holds, lexicalProblems, lexicalReason?, legal] at none
  | null => simp [scalarProblems, lexicalProblems, lexicalReason?] at none
  | _ => simp [scalarProblems, Kind.holds] at none

theorem Fits.record {nullable : Bool} (distinct : (fields.map (·.1.name)).Nodup)
    (h : (Format.record nullable fields).Fits v) :
    (nullable = true ∧ v = .null) ∨ ∃ entries, v = .map entries ∧ FieldsFit fields entries := by
  obtain ⟨s, none⟩ := h
  cases v with
  | null =>
      cases nullable with
      | true => exact .inl ⟨rfl, rfl⟩
      | false => simp [problems] at none
  | map entries =>
      rw [problems] at none
      exact .inr ⟨entries, rfl, fieldsFit_of_problems distinct (eq_nil_of_grouped none)⟩
  | _ => simp [problems] at none

theorem numbered_eq_nil {α : Type} {f : Nat → Value → List α} {n : Nat} {vs : List Value}
    (h : numbered f n vs = []) : ∀ v ∈ vs, ∃ n, f n v = [] := by
  induction vs generalizing n with
  | nil => simp
  | cons first rest ih =>
      obtain ⟨here, later⟩ := List.append_eq_nil_iff.mp h
      intro v hv
      rcases List.mem_cons.mp hv with rfl | hv
      · exact ⟨n, here⟩
      · exact ih later v hv

theorem fits_of_grouped {item : Format} {s : Spot} {vs : List Value}
    (h : s.grouped "schema" (numbered (fun n value =>
      item.problems (s.part "schema" (.int n)) value) 0 vs) = []) : ∀ x ∈ vs, item.Fits x := by
  intro x hx
  obtain ⟨n, fits⟩ := numbered_eq_nil (eq_nil_of_grouped h) x hx
  exact ⟨_, fits⟩

theorem Fits.items {atLeast : Nat} {distinct : Option String} {item : Format}
    (h : (Format.list atLeast distinct item).Fits v) : ∀ x ∈ itemsOf v, item.Fits x := by
  obtain ⟨s, none⟩ := h
  cases v with
  | list items =>
      simp only [problems, Kind.holds] at none
      exact fits_of_grouped (List.append_eq_nil_iff.mp none).2
  | bytes bs =>
      simp only [problems, Kind.holds] at none
      exact fits_of_grouped (List.append_eq_nil_iff.mp none).2
  | _ => simp [itemsOf]

end Format

end FluidChip.Document
