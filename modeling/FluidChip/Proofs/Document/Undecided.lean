import FluidChip.Proofs.Document.Keys

/-!
# Checks that cannot be carried out

Where the problems of a value stand, and which values defeat a check: those under the key
that tells items apart may be no keys, or may repeat without having an order or a text, and
a mapping in the place of a list is taken for rules.
-/

namespace FluidChip

/-- The keys of the mappings in a value, at any depth. -/
inductive Value.HasKey : Value → Value → Prop
  | here {entries : List (Value × Value)} {k v : Value} (listed : (k, v) ∈ entries) :
      HasKey (.map entries) k
  | inKey {entries : List (Value × Value)} {k v key : Value} (listed : (k, v) ∈ entries)
      (inside : HasKey k key) : HasKey (.map entries) key
  | under {entries : List (Value × Value)} {k v key : Value} (listed : (k, v) ∈ entries)
      (inside : HasKey v key) : HasKey (.map entries) key
  | item {items : List Value} {v key : Value} (listed : v ∈ items) (inside : HasKey v key) :
      HasKey (.list items) key

namespace Document

variable {fields : List (Field × Format)} {entries : List (Value × Value)} {v : Value}
  {keys : List Value} {rules : List String} {problems : List Problem} {p : Problem}

/-! ## Places -/

/-- A problem inside of a place: its own place, and those of its parts, go on from there
with keys of some kind. -/
inductive Problem.Within (K : Value → Prop) (keys : List Value) : Problem → Prop
  | single {more : List Value} {rules : List String} {reason : Reason} (each : ∀ k ∈ more, K k) :
      Within K keys (.single ⟨keys ++ more, rules⟩ reason)
  | group {more : List Value} {rules : List String} {parts : List Problem}
      (each : ∀ k ∈ more, K k) (some_part : parts ≠ [])
      (inside : ∀ p ∈ parts, Within K keys p) :
      Within K keys (.group ⟨keys ++ more, rules⟩ parts)
  | undecidable {obstacle : Obstacle} : Within K keys (.undecidable obstacle)

namespace Problem.Within

variable {K : Value → Prop}

theorem here {reason : Reason} : Within K keys (.single ⟨keys, rules⟩ reason) := by
  have own : Within K keys (.single ⟨keys ++ [], rules⟩ reason) := .single (by simp)
  rwa [List.append_nil] at own

theorem outer {key : Value} (hkey : K key) (h : Within K (keys ++ [key]) p) : Within K keys p := by
  induction h with
  | @single more rules reason each =>
      rw [List.append_assoc]
      exact .single (List.forall_mem_cons.mpr ⟨hkey, each⟩)
  | @group more rules parts each some_part inside ih =>
      rw [List.append_assoc]
      exact .group (List.forall_mem_cons.mpr ⟨hkey, each⟩) some_part ih
  | undecidable => exact .undecidable

theorem leaves (h : Within K keys p) : ∀ leaf ∈ p.leaves, ∃ more, leaf.1 = keys ++ more := by
  induction h with
  | single =>
      intro leaf listed
      obtain rfl := List.mem_singleton.mp listed
      exact ⟨_, rfl⟩
  | group each some_part inside ih =>
      intro leaf listed
      rw [Problem.leaves, leavesOf_eq] at listed
      obtain ⟨q, part, listed⟩ := List.mem_flatMap.mp listed
      exact ih q part leaf listed
  | undecidable => exact fun leaf listed => by cases listed

theorem places (h : Within K keys p) : ∀ place ∈ p.places, ∀ k ∈ place.keys, k ∈ keys ∨ K k := by
  have own {more : List Value} (each : ∀ k ∈ more, K k) : ∀ k ∈ keys ++ more, k ∈ keys ∨ K k :=
    fun k listed => (List.mem_append.mp listed).imp_right (each k)
  induction h with
  | single each =>
      intro place listed
      obtain rfl := List.mem_singleton.mp listed
      exact own each
  | group each some_part inside ih =>
      intro place listed
      rw [Problem.places, placesOf_eq] at listed
      rcases List.mem_cons.mp listed with rfl | listed
      · exact own each
      · obtain ⟨q, part, listed⟩ := List.mem_flatMap.mp listed
        exact ih q part place listed
  | undecidable => exact fun place listed => by cases listed

/-- A problem says something unless a check could not be carried out. -/
theorem exists_leaf (h : Within K keys p) (decided : p.isUndecided = false) : p.leaves ≠ [] := by
  induction h with
  | single => simp [Problem.leaves]
  | @group more rules parts each some_part inside ih =>
      obtain ⟨q, part⟩ := List.exists_mem_of_ne_nil parts some_part
      rw [isUndecided, anyUndecided_eq, List.any_eq_false] at decided
      rw [Problem.leaves, leavesOf_eq]
      intro none
      exact ih q part (by simpa using decided q part) (List.flatMap_eq_nil_iff.mp none q part)
  | undecidable => cases decided

end Problem.Within

theorem mem_grouped {s : Spot} {rule : String} {parts : List Problem}
    (h : p ∈ s.grouped rule parts) :
    parts ≠ [] ∧ p = .group ⟨s.keys, s.here ++ [rule]⟩ parts := by
  cases parts with
  | nil => cases h
  | cons q rest => exact ⟨by simp, List.mem_singleton.mp h⟩

theorem mem_numbered {α : Type} {f : Nat → Value → List α} {a : α} {n : Nat} {vs : List Value} :
    a ∈ numbered f n vs ↔ ∃ m v, vs[m]? = some v ∧ a ∈ f (n + m) v := by
  induction vs generalizing n with
  | nil => simp [numbered]
  | cons first rest ih =>
      rw [numbered, List.mem_append, ih]
      constructor
      · rintro (here | ⟨m, v, found, later⟩)
        · exact ⟨0, first, rfl, here⟩
        · exact ⟨m + 1, v, by simpa using found, by rwa [Nat.add_comm m, ← Nat.add_assoc]⟩
      · rintro ⟨m, v, found, listed⟩
        cases m with
        | zero =>
            obtain rfl : first = v := by simpa using found
            exact .inl listed
        | succ m =>
            exact .inr ⟨m, v, by simpa using found, by rwa [Nat.add_right_comm, Nat.add_assoc]⟩

theorem distinctProblems_within {K : Value → Prop} {name : String} {s : Spot} {items : List Value}
    (h : p ∈ distinctProblems name s items) : p.Within K s.keys := by
  unfold distinctProblems at h
  simp only at h
  split at h
  · obtain rfl := List.mem_singleton.mp h
    exact .undecidable
  · split at h
    · cases h
    · split at h
      · obtain rfl := List.mem_singleton.mp h
        exact .undecidable
      · split at h
        · obtain rfl := List.mem_singleton.mp h
          exact .here
        · obtain rfl := List.mem_singleton.mp h
          exact .undecidable

theorem scalarProblems_single {kinds : List Kind} {nullable nonEmpty : Bool}
    {lexeme : Option Lexeme} {s : Spot}
    (h : p ∈ scalarProblems kinds nullable nonEmpty lexeme s v) :
    ∃ rules reason, p = .single ⟨s.keys, rules⟩ reason := by
  have lexical (listed : p ∈ lexicalProblems lexeme s v) :
      ∃ rules reason, p = .single ⟨s.keys, rules⟩ reason := by
    unfold lexicalProblems at listed
    split at listed
    · cases listed
    · exact ⟨_, _, List.mem_singleton.mp listed⟩
  unfold scalarProblems at h
  split at h
  · rcases List.mem_append.mp h with null | other
    · split at null
      · cases null
      · exact ⟨_, _, List.mem_singleton.mp null⟩
    · exact lexical other
  · split at h
    · exact ⟨_, _, List.mem_singleton.mp h⟩
    · rcases List.mem_append.mp h with empty | other
      · split at empty
        · exact ⟨_, _, List.mem_singleton.mp empty⟩
        · cases empty
      · exact lexical other

/-- Keys of every kind that places have of themselves, and those of a value. -/
structure Covers (K : Value → Prop) (v : Value) : Prop where
  numbers : ∀ n, K (.int n)
  names : ∀ name, K (.text name)
  keys : ∀ key, v.HasKey key → K key

namespace Covers

variable {K : Value → Prop} {k : Value}

theorem item (h : Covers K v) {x : Value} (listed : x ∈ itemsOf v) : Covers K x := by
  refine ⟨h.numbers, h.names, fun key inside => ?_⟩
  cases v with
  | list items =>
      have listed : x ∈ items := listed
      exact h.keys key (.item listed inside)
  | bytes bs =>
      obtain ⟨b, -, rfl⟩ := List.mem_map.mp listed
      cases inside
  | _ => cases listed

theorem key (h : Covers K (.map entries)) (listed : (k, v) ∈ entries) : Covers K k :=
  ⟨h.numbers, h.names, fun key inside => h.keys key (.inKey listed inside)⟩

theorem value (h : Covers K (.map entries)) (listed : (k, v) ∈ entries) : Covers K v :=
  ⟨h.numbers, h.names, fun key inside => h.keys key (.under listed inside)⟩

end Covers

namespace Format

variable {K : Value → Prop}

theorem missingProblems_within (names : ∀ name, K (.text name)) {plain : List Field}
    (h : p ∈ missingProblems plain keys rules entries) : p.Within K keys := by
  obtain ⟨field, -, rfl⟩ := List.mem_map.mp h
  exact .single (List.forall_mem_singleton.mpr (names field.name))

theorem grouped_within {s : Spot} {rule : String} {parts : List Problem}
    (inside : ∀ p ∈ parts, p.Within K s.keys) (h : p ∈ s.grouped rule parts) :
    p.Within K s.keys := by
  obtain ⟨some_part, rfl⟩ := mem_grouped h
  have own : Problem.Within K s.keys (.group ⟨s.keys ++ [], s.here ++ [rule]⟩ parts) :=
    .group (by simp) some_part inside
  rwa [List.append_nil] at own

/-! What stands inside for the parts of a value stands inside for the value, kind by kind. -/

theorem list_problems_within {atLeast : Nat} {distinct : Option String} {item : Format} {s : Spot}
    (inside : ∀ (n : Nat), ∀ x ∈ itemsOf v, ∀ p ∈ item.problems (s.part "schema" (.int n)) x,
      p.Within K s.keys)
    (h : p ∈ (Format.list atLeast distinct item).problems s v) : p.Within K s.keys := by
  rw [problems.eq_def] at h
  dsimp only at h
  split at h
  · obtain rfl := List.mem_singleton.mp h
    exact .here
  · -- A mapping has the wrong type, and may be taken for rules besides.
    rcases List.mem_cons.mp h with rfl | listed
    · exact .here
    · split at listed
      · obtain rfl := List.mem_singleton.mp listed
        exact .undecidable
      · cases listed
  · split at h
    · obtain rfl := List.mem_singleton.mp h
      exact .here
    · rcases List.mem_append.mp h with own | listed
      · rcases List.mem_append.mp own with short | again
        · split at short
          · obtain rfl := List.mem_singleton.mp short
            exact .here
          · cases short
        · split at again
          · cases again
          · exact distinctProblems_within again
      · refine grouped_within (fun p listed => ?_) listed
        obtain ⟨m, x, found, listed⟩ := mem_numbered.mp listed
        exact inside _ x (List.mem_of_getElem? found) p listed

theorem table_problems_within {key value : Format} {s : Spot}
    (inside : ∀ entries, v = .map entries → ∀ entry ∈ entries,
      (∀ p ∈ key.problems (s.part "keysrules" entry.1) entry.1, p.Within K s.keys) ∧
        ∀ p ∈ value.problems (s.part "valuesrules" entry.1) entry.2, p.Within K s.keys)
    (h : p ∈ (Format.table key value).problems s v) : p.Within K s.keys := by
  rw [problems.eq_def] at h
  dsimp only at h
  split at h
  · obtain rfl := List.mem_singleton.mp h
    exact .here
  · rcases List.mem_append.mp h with listed | listed
    · refine grouped_within (fun p listed => ?_) listed
      obtain ⟨entry, member, listed⟩ := List.mem_flatMap.mp listed
      exact (inside _ rfl entry member).1 p listed
    · refine grouped_within (fun p listed => ?_) listed
      obtain ⟨entry, member, listed⟩ := List.mem_flatMap.mp listed
      exact (inside _ rfl entry member).2 p listed
  · obtain rfl := List.mem_singleton.mp h
    exact .here

theorem record_problems_within {nullable : Bool} {s : Spot} (names : ∀ name, K (.text name))
    (inside : ∀ entries, v = .map entries → ∀ entry ∈ entries,
      ∀ p ∈ fieldProblems s.keys (s.here ++ ["schema"]) fields entry.1 entry.2, p.Within K s.keys)
    (h : p ∈ (Format.record nullable fields).problems s v) : p.Within K s.keys := by
  rw [problems.eq_def] at h
  dsimp only at h
  split at h
  · split at h
    · cases h
    · obtain rfl := List.mem_singleton.mp h
      exact .here
  · refine grouped_within (fun p listed => ?_) h
    rcases List.mem_append.mp listed with found | missing
    · obtain ⟨entry, member, found⟩ := List.mem_flatMap.mp found
      exact inside _ rfl entry member p found
    · exact missingProblems_within names missing
  · obtain rfl := List.mem_singleton.mp h
    exact .here

mutual

/-- The problems of a value stand inside of its place, under keys of the value. -/
theorem problems_within (f : Format) (s : Spot) (v : Value) (covers : Covers K v)
    (p : Problem) (h : p ∈ f.problems s v) : p.Within K s.keys := by
  match f with
  | .scalar kinds nullable nonEmpty lexeme =>
      rw [problems] at h
      obtain ⟨rules, reason, rfl⟩ := scalarProblems_single h
      exact .here
  | .list atLeast distinct item =>
      refine list_problems_within (fun n x listed p inside => ?_) h
      exact .outer (covers.numbers n) (problems_within item _ x (covers.item listed) p inside)
  | .table key value =>
      refine table_problems_within ?_ h
      rintro entries rfl entry member
      have hkey := covers.keys _ (.here member)
      constructor
      · intro p inside
        exact .outer hkey (problems_within key _ entry.1 (covers.key member) p inside)
      · intro p inside
        exact .outer hkey (problems_within value _ entry.2 (covers.value member) p inside)
  | .record nullable fields =>
      refine record_problems_within covers.names ?_ h
      rintro entries rfl entry member p inside
      exact .outer (covers.keys _ (.here member))
        (fieldProblems_within fields _ _ _ _ (covers.value member) p inside)
termination_by structural f

theorem fieldProblems_within (fields : List (Field × Format)) (keys : List Value)
    (rules : List String) (key v : Value) (covers : Covers K v)
    (p : Problem) (h : p ∈ fieldProblems keys rules fields key v) : p.Within K (keys ++ [key]) := by
  match fields with
  | [] =>
      rw [fieldProblems] at h
      obtain rfl := List.mem_singleton.mp h
      exact .here
  | (field, format) :: rest =>
      rw [fieldProblems] at h
      split at h
      · rename_i same
        rw [eq_text_of_sameKey same]
        exact problems_within format (Spot.field keys rules field.name) v covers p h
      · exact fieldProblems_within rest keys rules key v covers p h
termination_by structural fields

end

end Format

/-! ## Values that defeat a check -/

/-- The values under the key that tells the items of a list apart. -/
abbrev itemKeys (name : String) (v : Value) : List Value := (itemsOf v).filterMap (itemKey? name)

/-- A check of a format cannot be carried out on a value. -/
inductive Format.Baffles : Format → Value → Prop
  /-- A mapping has the name of a rule for the items that were to be there. -/
  | rule {atLeast : Nat} {distinct : Option String} {item : Format} {name : String}
      {entries : List (Value × Value)} {v : Value} (listed : name ∈ item.ruleNames)
      (found : Value.get? entries name = some v) :
      Baffles (.list atLeast distinct item) (.map entries)
  | noKey {atLeast : Nat} {name : String} {item : Format} {v k : Value}
      (listed : k ∈ itemKeys name v) (noKey : k.isKey = false) :
      Baffles (.list atLeast (some name) item) v
  /-- The values that repeat are to be told in order. -/
  | repeated {atLeast : Nat} {name : String} {item : Format} {v : Value}
      (unordered : ¬ Sortable (repetitions (itemKeys name v))) :
      Baffles (.list atLeast (some name) item) v
  /-- A value that repeats is to be told. -/
  | unspoken {atLeast : Nat} {name : String} {item : Format} {v k : Value}
      (listed : k ∈ repetitions (itemKeys name v)) (mute : ¬ k.HasText) :
      Baffles (.list atLeast (some name) item) v
  | item {atLeast : Nat} {distinct : Option String} {item : Format} {v x : Value}
      (listed : x ∈ itemsOf v) (inside : Baffles item x) : Baffles (.list atLeast distinct item) v
  | key {key value : Format} {entries : List (Value × Value)} {k v : Value}
      (listed : (k, v) ∈ entries) (inside : Baffles key k) :
      Baffles (.table key value) (.map entries)
  | value {key value : Format} {entries : List (Value × Value)} {k v : Value}
      (listed : (k, v) ∈ entries) (inside : Baffles value v) :
      Baffles (.table key value) (.map entries)
  | field {nullable : Bool} {fields : List (Field × Format)} {entries : List (Value × Value)}
      {k v : Value} {f : Field × Format} (listed : (k, v) ∈ entries)
      (found : fields.find? (fun f => k.sameKey (.text f.1.name)) = some f)
      (inside : Baffles f.2 v) : Baffles (.record nullable fields) (.map entries)

namespace Problem

theorem anyUndecided_append (ps qs : List Problem) :
    anyUndecided (ps ++ qs) = (anyUndecided ps || anyUndecided qs) := by
  simp only [anyUndecided_eq, List.any_append]

theorem anyUndecided_grouped (s : Spot) (rule : String) (parts : List Problem) :
    anyUndecided (s.grouped rule parts) = anyUndecided parts := by
  cases parts with
  | nil => rfl
  | cons p rest => simp only [Spot.grouped, anyUndecided, isUndecided, Bool.or_false]

theorem anyUndecided_flatMap_iff {α : Type} {f : α → List Problem} {xs : List α} :
    anyUndecided (xs.flatMap f) = true ↔ ∃ x ∈ xs, anyUndecided (f x) = true := by
  simp only [anyUndecided_eq, List.any_flatMap, List.any_eq_true (l := xs)]

theorem anyUndecided_numbered_iff {f : Nat → Value → List Problem} {n : Nat} {vs : List Value} :
    anyUndecided (numbered f n vs) = true ↔
      ∃ m x, vs[m]? = some x ∧ anyUndecided (f (n + m) x) = true := by
  simp only [anyUndecided_eq, List.any_eq_true, mem_numbered]
  constructor
  · rintro ⟨p, ⟨m, x, found, listed⟩, undecided⟩
    exact ⟨m, x, found, p, listed, undecided⟩
  · rintro ⟨m, x, found, p, listed, undecided⟩
    exact ⟨p, ⟨m, x, found, listed⟩, undecided⟩

theorem anyUndecided_missing (plain : List Field) :
    anyUndecided (missingProblems plain keys rules entries) = false := by
  rw [anyUndecided_eq, List.any_eq_false]
  intro p listed
  obtain ⟨field, -, rfl⟩ := List.mem_map.mp listed
  exact Bool.false_ne_true

end Problem

open Problem

theorem anyUndecided_scalar {kinds : List Kind} {nullable nonEmpty : Bool}
    {lexeme : Option Lexeme} {s : Spot} :
    anyUndecided (scalarProblems kinds nullable nonEmpty lexeme s v) = false := by
  rw [anyUndecided_eq, List.any_eq_false]
  intro p listed
  obtain ⟨rules, reason, rfl⟩ := scalarProblems_single listed
  exact Bool.false_ne_true

theorem anyUndecided_distinct_iff {name : String} {s : Spot} :
    anyUndecided (distinctProblems name s (itemsOf v)) = true ↔
      (∃ k ∈ itemKeys name v, k.isKey = false) ∨
        ¬ Sortable (repetitions (itemKeys name v)) ∨
        ∃ k ∈ repetitions (itemKeys name v), ¬ k.HasText := by
  have noKey : (!(itemKeys name v).all (·.isKey)) = true ↔
      ∃ k ∈ itemKeys name v, k.isKey = false := by
    rw [Bool.not_eq_true', List.all_eq_false]
    simp only [Bool.not_eq_true]
  unfold distinctProblems
  simp only
  split
  · rename_i unfit
    exact iff_of_true rfl (.inl (noKey.mp unfit))
  · rename_i fit
    rw [or_iff_right fun unfit => fit (noKey.mpr unfit)]
    split
    · rename_i none
      simp [none, Sortable, anyUndecided]
    · have sorted : (∃ ordered, Value.sortKeys? id (repetitions (itemKeys name v)) = some ordered) ↔
          Sortable ((repetitions (itemKeys name v)).map id) := exists_sortKeys?_iff
      rw [List.map_id] at sorted
      rw [← sorted]
      split
      · rename_i none
        simp [none, anyUndecided, isUndecided]
      · rename_i ordered found
        have told : Value.itemsLimit? none ordered = none ↔
            ¬ ∃ k ∈ repetitions (itemKeys name v), ¬ k.HasText := by
          rw [Value.itemsLimit?_eq_none_iff]
          simp only [(sortKeys?_perm found).mem_iff, not_exists, not_and, not_not]
        rw [or_iff_right (not_not_intro ⟨ordered, found⟩)]
        split
        · rename_i unlimited
          exact iff_of_false Bool.false_ne_true (told.mp unlimited)
        · rename_i limited
          refine iff_of_true rfl (not_not.mp fun none => ?_)
          cases limited.symm.trans (told.mpr none)

namespace Format

variable {K : Value → Prop}

theorem list_undecided_iff {atLeast : Nat} {distinct : Option String} {item : Format} {s : Spot} :
    anyUndecided ((Format.list atLeast distinct item).problems s v) = true ↔
      (∃ entries, v = .map entries ∧
        ∃ name ∈ item.ruleNames, ∃ found, Value.get? entries name = some found) ∨
      (∃ name, distinct = some name ∧
        ((∃ k ∈ itemKeys name v, k.isKey = false) ∨ ¬ Sortable (repetitions (itemKeys name v)) ∨
          ∃ k ∈ repetitions (itemKeys name v), ¬ k.HasText)) ∨
      ∃ m x, (itemsOf v)[m]? = some x ∧
        anyUndecided (item.problems (s.part "schema" (.int (m : Nat))) x) = true := by
  rw [problems.eq_def]
  dsimp only
  split
  · simp [anyUndecided, isUndecided, Spot.named, itemsOf, itemKeys, repetitions, Sortable]
  · rename_i entries
    have rule : (∃ name ∈ item.ruleNames, ∃ found, Value.get? entries name = some found) ↔
        (item.ruleNames.any fun name => (Value.get? entries name).isSome) = true := by
      simp only [List.any_eq_true, Option.isSome_iff_exists]
    simp only [itemsOf, itemKeys, repetitions, Sortable, Value.map.injEq, exists_eq_left', rule]
    split <;> simp_all [anyUndecided, isUndecided, Spot.named]
  · rename_i notNull notMap
    have noMap : ¬ ∃ entries, v = .map entries ∧
        ∃ name ∈ item.ruleNames, ∃ found, Value.get? entries name = some found := by
      rintro ⟨entries, same, -⟩
      exact notMap entries same
    rw [or_iff_right noMap]
    split
    · rename_i other
      have none : itemsOf v = [] := by
        cases v with
        | list | bytes => cases other
        | _ => rfl
      simp [anyUndecided, isUndecided, Spot.named, none, itemKeys, repetitions, Sortable]
    · rw [anyUndecided_append, anyUndecided_append, Bool.or_eq_true, Bool.or_eq_true,
        anyUndecided_grouped, anyUndecided_numbered_iff]
      simp only [Nat.zero_add]
      have short : ¬ anyUndecided (if (itemsOf v).length < atLeast then
          [s.named "minlength" (.tooShort atLeast)] else []) = true := by
        split <;> exact Bool.false_ne_true
      rw [or_iff_right short]
      cases distinct with
      | none => simp [anyUndecided]
      | some name => simp only [anyUndecided_distinct_iff, Option.some.injEq, exists_eq_left']

theorem table_undecided_iff {key value : Format} {s : Spot} :
    anyUndecided ((Format.table key value).problems s v) = true ↔
      ∃ entries, v = .map entries ∧
        ((∃ entry ∈ entries,
          anyUndecided (key.problems (s.part "keysrules" entry.1) entry.1) = true) ∨
        ∃ entry ∈ entries,
          anyUndecided (value.problems (s.part "valuesrules" entry.1) entry.2) = true) := by
  rw [problems.eq_def]
  dsimp only
  split
  · simp [anyUndecided, isUndecided, Spot.named]
  · simp only [Value.map.injEq, exists_eq_left']
    rw [anyUndecided_append, Bool.or_eq_true, anyUndecided_grouped, anyUndecided_grouped,
      anyUndecided_flatMap_iff, anyUndecided_flatMap_iff]
  · rename_i notMap
    refine iff_of_false Bool.false_ne_true ?_
    rintro ⟨entries, same, -⟩
    exact notMap entries same

theorem record_undecided_iff {nullable : Bool} {s : Spot} :
    anyUndecided ((Format.record nullable fields).problems s v) = true ↔
      ∃ entries, v = .map entries ∧ ∃ entry ∈ entries,
        anyUndecided (fieldProblems s.keys (s.here ++ ["schema"]) fields entry.1 entry.2) =
          true := by
  rw [problems.eq_def]
  dsimp only
  split
  · refine iff_of_false ?_ (by simp)
    split <;> exact Bool.false_ne_true
  · simp only [Value.map.injEq, exists_eq_left']
    rw [anyUndecided_grouped, anyUndecided_append, anyUndecided_missing, Bool.or_false,
      anyUndecided_flatMap_iff]
  · rename_i notMap
    refine iff_of_false Bool.false_ne_true ?_
    rintro ⟨entries, same, -⟩
    exact notMap entries same

mutual

/-- A check of a value is left undecided just when the value defeats it. -/
theorem undecided_iff (f : Format) (s : Spot) (v : Value) :
    anyUndecided (f.problems s v) = true ↔ f.Baffles v := by
  match f with
  | .scalar kinds nullable nonEmpty lexeme =>
      rw [problems, anyUndecided_scalar]
      exact iff_of_false Bool.false_ne_true nofun
  | .list atLeast distinct item =>
      rw [list_undecided_iff]
      constructor
      · rintro (⟨entries, rfl, name, listed, v, found⟩ |
          ⟨name, rfl, ⟨k, listed, noKey⟩ | unordered | ⟨k, listed, mute⟩⟩ | ⟨m, x, found, inside⟩)
        · exact .rule listed found
        · exact .noKey listed noKey
        · exact .repeated unordered
        · exact .unspoken listed mute
        · exact .item (List.mem_of_getElem? found) ((undecided_iff item _ x).mp inside)
      · intro h
        cases h with
        | rule listed found => exact .inl ⟨_, rfl, _, listed, _, found⟩
        | noKey listed noKey => exact .inr (.inl ⟨_, rfl, .inl ⟨_, listed, noKey⟩⟩)
        | repeated unordered => exact .inr (.inl ⟨_, rfl, .inr (.inl unordered)⟩)
        | unspoken listed mute => exact .inr (.inl ⟨_, rfl, .inr (.inr ⟨_, listed, mute⟩)⟩)
        | item listed inside =>
            obtain ⟨m, found⟩ := List.mem_iff_getElem?.mp listed
            exact .inr (.inr ⟨m, _, found, (undecided_iff item _ _).mpr inside⟩)
  | .table key value =>
      rw [table_undecided_iff]
      constructor
      · rintro ⟨entries, rfl, ⟨entry, listed, inside⟩ | ⟨entry, listed, inside⟩⟩
        · exact .key listed ((undecided_iff key _ _).mp inside)
        · exact .value listed ((undecided_iff value _ _).mp inside)
      · intro h
        cases h with
        | key listed inside =>
            exact ⟨_, rfl, .inl ⟨_, listed, (undecided_iff key _ _).mpr inside⟩⟩
        | value listed inside =>
            exact ⟨_, rfl, .inr ⟨_, listed, (undecided_iff value _ _).mpr inside⟩⟩
  | .record nullable fields =>
      rw [record_undecided_iff]
      constructor
      · rintro ⟨entries, rfl, entry, listed, inside⟩
        obtain ⟨f, found, inside⟩ := (field_undecided_iff fields _ _ _ _).mp inside
        exact .field listed found inside
      · intro h
        cases h with
        | field listed found inside =>
            exact ⟨_, rfl, _, listed, (field_undecided_iff fields _ _ _ _).mpr ⟨_, found, inside⟩⟩
termination_by structural f

theorem field_undecided_iff (fields : List (Field × Format)) (keys : List Value)
    (rules : List String) (k v : Value) :
    anyUndecided (fieldProblems keys rules fields k v) = true ↔
      ∃ f, fields.find? (fun f => k.sameKey (.text f.1.name)) = some f ∧ f.2.Baffles v := by
  match fields with
  | [] => simp [fieldProblems, anyUndecided, isUndecided]
  | (field, format) :: rest =>
      rw [fieldProblems]
      split
      · rename_i same
        rw [undecided_iff format, List.find?_cons_of_pos (by exact same)]
        simp
      · rename_i other
        rw [field_undecided_iff rest, List.find?_cons_of_neg (by exact other)]
termination_by structural fields

end

/-! ## Whole documents -/

/-- A check of a document is left undecided just when the document defeats it. -/
theorem recordProblems_undecided_iff (nullable : Bool) :
    anyUndecided (recordProblems fields entries) = true ↔
      (Format.record nullable fields).Baffles (.map entries) := by
  rw [← undecided_iff _ ⟨[], [], []⟩, problems, anyUndecided_grouped, recordProblems,
    anyUndecided_append, anyUndecided_append, anyUndecided_missing, anyUndecided_missing,
    Bool.or_false, Bool.or_false, anyUndecided_flatMap_iff, anyUndecided_flatMap_iff]
  simp only [field_undecided_iff]

theorem recordProblems_within (covers : Covers K (.map entries)) :
    ∀ p ∈ recordProblems fields entries, p.Within K [] := by
  intro p listed
  rcases List.mem_append.mp listed with found | missing
  · obtain ⟨entry, member, found⟩ := List.mem_flatMap.mp found
    exact .outer (covers.keys _ (.here member))
      (fieldProblems_within fields [] [] _ _ (covers.value member) p found)
  · exact missingProblems_within covers.names missing

/-- Where all keys meet, the problems of a document can be put in order unless the document
defeats a check. -/
theorem exists_arrange?_record_iff (meets : ∀ a b, K a → K b → Meets a b)
    (covers : Covers K (.map entries)) (nullable : Bool) :
    (∃ made, arrange? (recordProblems fields entries) = some made) ↔
      ¬ (Format.record nullable fields).Baffles (.map entries) := by
  rw [← recordProblems_undecided_iff nullable, Bool.not_eq_true]
  refine exists_arrange?_iff (comparable_of_meets meets) fun place listed k member => ?_
  rw [placesOf_eq] at listed
  obtain ⟨p, problem, listed⟩ := List.mem_flatMap.mp listed
  simpa using (recordProblems_within covers p problem).places place listed k member

end Format

end Document

end FluidChip
