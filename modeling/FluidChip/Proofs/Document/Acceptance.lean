import FluidChip.Proofs.Document
import Mathlib.Data.List.Nodup

/-!
# Which values fit a format

Whether something is wrong with a value does not depend on where it stands.  So a
value fits its format just when it has the right kind and its parts fit theirs; the
defaults that are filled in first count as parts.
-/

namespace FluidChip

/-! ## Decoded values -/

/-- No key of a mapping comes twice. -/
def Value.DistinctKeys (entries : List (Value × Value)) : Prop :=
  entries.Pairwise fun a b => a.1.sameKey b.1 = false

/-- A tree of mappings, lists, texts, numbers, truth values and nulls. -/
inductive Value.Decoded : Value → Prop
  | null : Decoded .null
  | bool (b : Bool) : Decoded (.bool b)
  | int (n : Int) : Decoded (.int n)
  | float (x : Float) : Decoded (.float x)
  | text (s : String) : Decoded (.text s)
  | list {items : List Value} (each : ∀ v ∈ items, Decoded v) : Decoded (.list items)
  | map {entries : List (Value × Value)} (distinct : DistinctKeys entries)
    (each : ∀ entry ∈ entries, Decoded entry.2) : Decoded (.map entries)

namespace Value.Decoded

variable {entries : List (Value × Value)} {name : String} {v : Value}

theorem items {vs : List Value} (h : (Value.list vs).Decoded) : ∀ v ∈ vs, v.Decoded := by
  cases h with
  | list each => exact each

theorem distinct (h : (Value.map entries).Decoded) : DistinctKeys entries := by
  cases h with
  | map distinct each => exact distinct

theorem under (h : (Value.map entries).Decoded) (found : Value.get? entries name = some v) :
    v.Decoded := by
  cases h with
  | map distinct each => exact each _ (Document.mem_of_get? found)

end Value.Decoded

namespace Document

open Text

variable {fields : List (Field × Format)} {entries : List (Value × Value)} {v : Value}
  {name : String}

/-! ## Places do not matter -/

instance : Inhabited Spot := ⟨⟨[], [], []⟩⟩

theorem grouped_eq_nil {s : Spot} {rule : String} {parts : List Problem} :
    s.grouped rule parts = [] ↔ parts = [] := by
  cases parts <;> simp [Spot.grouped]

theorem numbered_eq_nil_iff {α : Type} {f : Nat → Value → List α} {n : Nat} {vs : List Value} :
    numbered f n vs = [] ↔ ∀ v m, vs[m]? = some v → f (n + m) v = [] := by
  induction vs generalizing n with
  | nil => simp [numbered]
  | cons first rest ih =>
      rw [numbered, List.append_eq_nil_iff, ih]
      constructor
      · rintro ⟨here, later⟩ v m found
        cases m with
        | zero =>
            obtain rfl : first = v := by simpa using found
            exact here
        | succ m =>
            rw [← Nat.add_assoc, Nat.add_right_comm]
            exact later v m (by simpa using found)
      · intro each
        refine ⟨each first 0 rfl, fun v m found => ?_⟩
        rw [Nat.add_right_comm]
        exact each v (m + 1) (by simpa using found)

/-- The values under a key, in the items that have it, can be told apart. -/
def DistinctItems (key : String) (items : List Value) : Prop :=
  (items.filterMap (itemKey? key)).all (·.isKey) = true ∧
    repetitions (items.filterMap (itemKey? key)) = []

/-- One step through a list: the values seen, and those of them seen again. -/
def sift (p : List Value × List Value) (v : Value) : List Value × List Value :=
  if p.1.any (·.sameKey v) then
    (p.1, if p.2.any (·.sameKey v) then p.2 else p.2 ++ [v])
  else (p.1 ++ [v], p.2)

theorem repetitions_eq (values : List Value) :
    repetitions values = (values.foldl sift ([], [])).2 := rfl

theorem foldl_sift_ne_nil {values seen again : List Value} (some_again : again ≠ []) :
    (values.foldl sift (seen, again)).2 ≠ [] := by
  induction values generalizing seen again with
  | nil => exact some_again
  | cons v rest ih =>
      rw [List.foldl_cons]
      simp only [sift]
      split
      · split
        · exact ih some_again
        · exact ih (by simp)
      · exact ih some_again

/-- From what is seen on, nothing repeats just when all that follows is new. -/
theorem foldl_sift_eq_nil_iff (values seen : List Value) :
    (values.foldl sift (seen, [])).2 = [] ↔
      (∀ a ∈ seen, ∀ v ∈ values, a.sameKey v = false) ∧
        values.Pairwise fun a b => a.sameKey b = false := by
  induction values generalizing seen with
  | nil => simp
  | cons v rest ih =>
      rw [List.foldl_cons]
      simp only [sift]
      split
      · rename_i old
        obtain ⟨a, listed, same⟩ := List.any_eq_true.mp old
        refine iff_of_false (foldl_sift_ne_nil (by simp)) ?_
        rintro ⟨new, -⟩
        simp [new a listed v List.mem_cons_self] at same
      · rename_i new
        have new : ∀ a ∈ seen, a.sameKey v = false := by simpa using new
        rw [ih, List.pairwise_cons]
        simp only [List.mem_append, List.mem_singleton, List.forall_mem_cons]
        constructor
        · rintro ⟨apart, later⟩
          exact ⟨fun a listed => ⟨new a listed, apart a (.inl listed)⟩, apart v (.inr rfl), later⟩
        · rintro ⟨apart, here, later⟩
          refine ⟨fun a listed => ?_, later⟩
          rcases listed with listed | rfl
          · exact (apart a listed).2
          · exact here

theorem repetitions_eq_nil {values : List Value} :
    repetitions values = [] ↔ values.Pairwise fun a b => a.sameKey b = false := by
  rw [repetitions_eq, foldl_sift_eq_nil_iff]
  simp

theorem distinctProblems_eq_nil {key : String} {s : Spot} {items : List Value} :
    distinctProblems key s items = [] ↔ DistinctItems key items := by
  unfold distinctProblems DistinctItems
  simp only
  split
  · rename_i unfit
    simpa using fun fit => absurd fit (by simpa using unfit)
  · rename_i fit
    have fit : (items.filterMap (itemKey? key)).all (·.isKey) = true := by simpa using fit
    rw [and_iff_right fit]
    cases repetitions (items.filterMap (itemKey? key)) with
    | nil => simp
    | cons again rest =>
        simp only [reduceCtorEq, iff_false]
        split
        · simp
        · split <;> simp

theorem missingProblems_eq_nil {fields : List Field} {keys : List Value} {rules : List String} :
    missingProblems fields keys rules entries = [] ↔
      ∀ field ∈ fields, field.required = true → ∃ v, Value.get? entries field.name = some v := by
  simp only [missingProblems, List.map_eq_nil_iff, List.filter_eq_nil_iff, Bool.and_eq_true,
    Option.isNone_iff_eq_none, not_and, ← Option.ne_none_iff_exists', ne_eq]

theorem scalarProblems_eq_nil {kinds : List Kind} {nullable nonEmpty : Bool}
    {lexeme : Option Lexeme} {s : Spot} :
    scalarProblems kinds nullable nonEmpty lexeme s v = [] ↔
      (v = .null ∧ nullable = true ∨ kinds.any (·.holds v) = true ∧
        (nonEmpty && isEmptyText v) = false) ∧ lexicalReason? lexeme v = none := by
  have lexical : lexicalProblems lexeme s v = [] ↔ lexicalReason? lexeme v = none := by
    unfold lexicalProblems
    split <;> simp_all
  cases v with
  | null =>
      have other : kinds.any (·.holds .null) = false := by
        rw [List.any_eq_false]
        rintro (_ | _ | _ | _) - <;> simp [Kind.holds]
      cases nullable <;> simp [scalarProblems, lexical, other]
  | _ =>
      simp only [scalarProblems, reduceCtorEq, false_and, false_or]
      split
      · simp_all
      · simp_all [List.append_eq_nil_iff]

namespace Format

variable {s s' : Spot}

theorem list_problems_eq_nil {atLeast : Nat} {distinct : Option String} {item : Format} :
    (Format.list atLeast distinct item).problems s v = [] ↔
      Kind.list.holds v = true ∧ atLeast ≤ (itemsOf v).length ∧
      (∀ key, distinct = some key → DistinctItems key (itemsOf v)) ∧
      ∀ x m, (itemsOf v)[m]? = some x → item.problems (s.part "schema" (.int (m : Nat))) x = [] := by
  have long {p : Problem} {m n : Nat} : (if m < n then [p] else []) = [] ↔ n ≤ m := by
    split <;> simp_all
  cases distinct <;> cases v <;> simp [problems, Kind.holds, long, List.append_eq_nil_iff,
    grouped_eq_nil, numbered_eq_nil_iff, distinctProblems_eq_nil]

theorem table_problems_eq_nil {key value : Format} :
    (Format.table key value).problems s v = [] ↔ ∃ entries, v = .map entries ∧
      ∀ entry ∈ entries, key.problems (s.part "keysrules" entry.1) entry.1 = [] ∧
        value.problems (s.part "valuesrules" entry.1) entry.2 = [] := by
  cases v with
  | map entries =>
      simp only [problems, List.append_eq_nil_iff, grouped_eq_nil, List.flatMap_eq_nil_iff,
        Value.map.injEq, exists_eq_left', ← forall_and]
  | _ => simp [problems]

theorem record_problems_eq_nil {nullable : Bool} :
    (Format.record nullable fields).problems s v = [] ↔ (v = .null ∧ nullable = true) ∨
      ∃ entries, v = .map entries ∧
        (∀ entry ∈ entries,
          fieldProblems s.keys (s.here ++ ["schema"]) fields entry.1 entry.2 = []) ∧
        ∀ field ∈ fields.map (·.1), field.required = true →
          ∃ v, Value.get? entries field.name = some v := by
  cases v with
  | map entries =>
      simp only [problems, List.append_eq_nil_iff, grouped_eq_nil, List.flatMap_eq_nil_iff,
        missingProblems_eq_nil, Value.map.injEq, exists_eq_left', reduceCtorEq, false_and,
        false_or]
  | null => cases nullable <;> simp [problems]
  | _ => simp [problems]

mutual

/-- Nothing is wrong with a value in one place just when nothing is in another. -/
theorem problems_eq_nil_congr (f : Format) (s s' : Spot) (v : Value) :
    f.problems s v = [] → f.problems s' v = [] := by
  match f with
  | .scalar kinds nullable nonEmpty lexeme =>
      rw [problems, problems, scalarProblems_eq_nil, scalarProblems_eq_nil]
      exact id
  | .list atLeast distinct item =>
      rw [list_problems_eq_nil, list_problems_eq_nil]
      rintro ⟨kind, long, apart, each⟩
      exact ⟨kind, long, apart,
        fun x m found => problems_eq_nil_congr item _ _ x (each x m found)⟩
  | .table key value =>
      rw [table_problems_eq_nil, table_problems_eq_nil]
      rintro ⟨entries, same, each⟩
      refine ⟨entries, same, fun entry listed => ⟨?_, ?_⟩⟩
      · exact problems_eq_nil_congr key _ _ _ (each entry listed).1
      · exact problems_eq_nil_congr value _ _ _ (each entry listed).2
  | .record nullable fields =>
      rw [record_problems_eq_nil, record_problems_eq_nil]
      rintro (none | ⟨entries, same, each, required⟩)
      · exact .inl none
      · exact .inr ⟨entries, same,
          fun entry listed => fieldProblems_eq_nil_congr fields _ _ _ _ _ _ (each entry listed),
          required⟩
termination_by structural f

theorem fieldProblems_eq_nil_congr (fields : List (Field × Format)) (keys keys' : List Value)
    (rules rules' : List String) (key v : Value) :
    fieldProblems keys rules fields key v = [] → fieldProblems keys' rules' fields key v = [] := by
  match fields with
  | [] => simp [fieldProblems]
  | (field, format) :: rest =>
      rw [fieldProblems, fieldProblems]
      split
      · exact problems_eq_nil_congr format _ _ v
      · exact fieldProblems_eq_nil_congr rest keys keys' rules rules' key v
termination_by structural fields

end

theorem Fits.anywhere {f : Format} (h : f.Fits v) (s : Spot) : f.problems s v = [] :=
  h.elim fun s' none => f.problems_eq_nil_congr s' s v none

/-! ## Values that fit -/

theorem fits_scalar_iff {kinds : List Kind} {nullable nonEmpty : Bool} {lexeme : Option Lexeme} :
    (Format.scalar kinds nullable nonEmpty lexeme).Fits v ↔
      (v = .null ∧ nullable = true ∨ kinds.any (·.holds v) = true ∧
        (nonEmpty && isEmptyText v) = false) ∧ lexicalReason? lexeme v = none := by
  simp only [Fits, problems, scalarProblems_eq_nil, exists_const]

theorem fits_list_iff {atLeast : Nat} {distinct : Option String} {item : Format} :
    (Format.list atLeast distinct item).Fits v ↔
      Kind.list.holds v = true ∧ atLeast ≤ (itemsOf v).length ∧
      (∀ key, distinct = some key → DistinctItems key (itemsOf v)) ∧
      ∀ x ∈ itemsOf v, item.Fits x := by
  constructor
  · rintro ⟨s, none⟩
    obtain ⟨kind, long, apart, each⟩ := list_problems_eq_nil.mp none
    refine ⟨kind, long, apart, fun x listed => ?_⟩
    obtain ⟨m, found⟩ := List.mem_iff_getElem?.mp listed
    exact ⟨_, each x m found⟩
  · rintro ⟨kind, long, apart, each⟩
    exact ⟨default, list_problems_eq_nil.mpr ⟨kind, long, apart,
      fun x m found => (each x (List.mem_of_getElem? found)).anywhere _⟩⟩

theorem fits_table_iff {key value : Format} :
    (Format.table key value).Fits v ↔ ∃ entries, v = .map entries ∧
      ∀ entry ∈ entries, key.Fits entry.1 ∧ value.Fits entry.2 := by
  constructor
  · rintro ⟨s, none⟩
    obtain ⟨entries, same, each⟩ := table_problems_eq_nil.mp none
    exact ⟨entries, same, fun entry listed =>
      ⟨⟨_, (each entry listed).1⟩, ⟨_, (each entry listed).2⟩⟩⟩
  · rintro ⟨entries, same, each⟩
    exact ⟨default, table_problems_eq_nil.mpr ⟨entries, same, fun entry listed =>
      ⟨(each entry listed).1.anywhere _, (each entry listed).2.anywhere _⟩⟩⟩

theorem fieldProblems_eq_nil {keys : List Value} {rules : List String} {key : Value}
    (distinct : (fields.map (·.1.name)).Nodup) :
    fieldProblems keys rules fields key v = [] ↔
      ∃ f ∈ fields, key = .text f.1.name ∧ f.2.Fits v := by
  constructor
  · intro none
    have known : ∃ f ∈ fields, key.sameKey (.text f.1.name) = true := by
      clear distinct
      induction fields with
      | nil => simp [fieldProblems] at none
      | cons f rest ih =>
          rw [fieldProblems] at none
          split at none
          · rename_i here
            exact ⟨f, List.mem_cons_self, here⟩
          · obtain ⟨g, later, there⟩ := ih none
            exact ⟨g, List.mem_cons_of_mem f later, there⟩
    obtain ⟨f, listed, same⟩ := known
    obtain rfl := eq_text_of_sameKey same
    rw [fieldProblems_text distinct listed] at none
    exact ⟨f, listed, rfl, _, none⟩
  · rintro ⟨f, listed, rfl, fits⟩
    rw [fieldProblems_text distinct listed]
    exact fits.anywhere _

end Format

/-! ## Keys -/

/-- Every key is the name of a field. -/
def Known (names : List String) (entries : List (Value × Value)) : Prop :=
  ∀ entry ∈ entries, ∃ name ∈ names, entry.1 = .text name

theorem get?_eq_some_iff (distinct : Value.DistinctKeys entries) :
    Value.get? entries name = some v ↔ (.text name, v) ∈ entries := by
  refine ⟨mem_of_get?, fun listed => ?_⟩
  induction entries with
  | nil => cases listed
  | cons entry rest ih =>
      obtain ⟨apart, others⟩ := List.pairwise_cons.mp distinct
      rcases List.mem_cons.mp listed with rfl | later
      · simp [Value.get?, Value.sameKey]
      · have other : entry.1.sameKey (.text name) = false := apart _ later
        rw [← ih others later]
        simp [Value.get?, other]

namespace Format

theorem fits_record_iff {nullable : Bool} (names : (fields.map (·.1.name)).Nodup)
    (distinct : Value.DistinctKeys entries) :
    (Format.record nullable fields).Fits (.map entries) ↔
      Known (fields.map (·.1.name)) entries ∧ FieldsFit fields entries := by
  have spread : (Format.record nullable fields).Fits (.map entries) ↔
      (∀ entry ∈ entries, ∃ f ∈ fields, entry.1 = .text f.1.name ∧ f.2.Fits entry.2) ∧
      ∀ field ∈ fields.map (·.1), field.required = true →
        ∃ v, Value.get? entries field.name = some v := by
    simp only [Fits, record_problems_eq_nil, fieldProblems_eq_nil names, reduceCtorEq, false_and,
      false_or, Value.map.injEq, exists_eq_left', exists_const]
  rw [spread]
  constructor
  · rintro ⟨each, required⟩
    refine ⟨fun entry listed => ?_, required, fun field format listed v found => ?_⟩
    · obtain ⟨f, member, same, -⟩ := each entry listed
      exact ⟨f.1.name, List.mem_map_of_mem member, same⟩
    · obtain ⟨⟨field', format'⟩, member, same, fits⟩ := each _ (mem_of_get? found)
      have one : (field', format') = (field, format) :=
        List.inj_on_of_nodup_map names member listed (Value.text.inj same).symm
      cases one
      exact fits
  · rintro ⟨known, required, fits⟩
    refine ⟨fun entry listed => ?_, required⟩
    obtain ⟨name, member, same⟩ := known entry listed
    obtain ⟨⟨field, format⟩, there, rfl⟩ := List.mem_map.mp member
    refine ⟨(field, format), there, same, fits field format there _ ?_⟩
    rw [get?_eq_some_iff distinct, ← same]
    exact listed

end Format

end Document

end FluidChip
