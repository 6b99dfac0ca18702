import FluidChip.Proofs.Document.Acceptance

/-!
# Records with their defaults

Filling in defaults touches the fields of a record one by one: a field ends up with
what was given for it, or with its default, and no other key comes or goes.
-/

namespace FluidChip.Document

variable {fields : List (Field × Format)} {entries : List (Value × Value)} {v : Value}
  {name n : String} {field : Field} {format : Format}

/-- What a record gives for a field, its default where it gives nothing or null. -/
def Field.given? (field : Field) (entries : List (Value × Value)) : Option Value :=
  match field.default?, Value.get? entries field.name with
  | some value, none => some value
  | some value, some .null => some value
  | _, found => found

/-! ## Looking up -/

@[simp] theorem sameKey_texts (n name : String) :
    (Value.text n).sameKey (.text name) = (n == name) := by
  simp [Value.sameKey]

theorem get?_cons (entry : Value × Value) (rest : List (Value × Value)) (name : String) :
    Value.get? (entry :: rest) name =
      if entry.1.sameKey (.text name) then some entry.2 else Value.get? rest name := by
  cases here : entry.1.sameKey (.text name) <;> simp [Value.get?, here]

theorem get?_append (front back : List (Value × Value)) (name : String) :
    Value.get? (front ++ back) name = (Value.get? front name).or (Value.get? back name) := by
  simp only [Value.get?, List.find?_append]
  cases front.find? _ <;> rfl

theorem get?_setKey (n : String) (value : Value) (entries : List (Value × Value)) (name : String) :
    Value.get? (Value.setKey (.text n) value entries) name =
      if n = name then some value else Value.get? entries name := by
  induction entries with
  | nil => simp [Value.setKey, Value.get?]
  | cons entry rest ih =>
      rw [Value.setKey]
      cases here : entry.1.sameKey (.text n) with
      | true =>
          rw [if_pos rfl, get?_cons, get?_cons, eq_text_of_sameKey here]
          by_cases same : n = name <;> simp [same]
      | false =>
          rw [if_neg Bool.false_ne_true, get?_cons, get?_cons, ih]
          by_cases same : n = name
          · subst same
            simp [here]
          · simp [same]

theorem get?_map_at (g : Value → Value) (n : String) (entries : List (Value × Value))
    (name : String) :
    Value.get? (entries.map fun entry =>
        if entry.1.sameKey (.text n) then (entry.1, g entry.2) else entry) name =
      if n = name then (Value.get? entries name).map g else Value.get? entries name := by
  induction entries with
  | nil => simp [Value.get?]
  | cons entry rest ih =>
      rw [List.map_cons, get?_cons, get?_cons, ih]
      cases here : entry.1.sameKey (.text n) with
      | true =>
          rw [if_pos rfl, eq_text_of_sameKey here]
          by_cases same : n = name <;> simp [same]
      | false =>
          rw [if_neg Bool.false_ne_true]
          by_cases same : n = name
          · subst same
            simp [here]
          · simp [same]

theorem get?_withDefault (field : Field) (entries : List (Value × Value)) (name : String) :
    Value.get? (Format.withDefault field entries) name =
      if field.name = name then field.given? entries else Value.get? entries name := by
  unfold Format.withDefault Field.given?
  by_cases same : field.name = name
  · subst same
    rw [if_pos rfl]
    rcases field.default? with _ | default
    · rfl
    · cases found : Value.get? entries field.name with
      | none => simp [get?_append, found, get?_cons]
      | some v => cases v <;> simp [get?_setKey, found]
  · rw [if_neg same]
    split
    · rw [get?_append, get?_cons, sameKey_texts, beq_false_of_ne same]
      exact Option.or_none
    · rw [get?_setKey, if_neg same]
    · rfl

theorem get?_fillFields_of_notMem (entries : List (Value × Value))
    (other : name ∉ fields.map (·.1.name)) :
    Value.get? (Format.fillFields fields entries) name = Value.get? entries name := by
  induction fields generalizing entries with
  | nil => rw [Format.fillFields]
  | cons f rest ih =>
      obtain ⟨field, format⟩ := f
      rw [List.map_cons, List.mem_cons, not_or] at other
      rw [Format.fillFields, ih _ other.2, get?_map_at, if_neg (Ne.symm other.1),
        get?_withDefault, if_neg (Ne.symm other.1)]

theorem get?_fillFields (names : (fields.map (·.1.name)).Nodup) (listed : (field, format) ∈ fields)
    (entries : List (Value × Value)) :
    Value.get? (Format.fillFields fields entries) field.name =
      (field.given? entries).map format.fill := by
  induction fields generalizing entries with
  | nil => cases listed
  | cons f rest ih =>
      obtain ⟨first, g⟩ := f
      obtain ⟨new, names⟩ := List.nodup_cons.mp names
      rw [Format.fillFields]
      rcases List.mem_cons.mp listed with same | later
      · cases same
        rw [get?_fillFields_of_notMem _ new, get?_map_at, if_pos rfl, get?_withDefault, if_pos rfl]
      · have other : first.name ≠ field.name := by
          intro same
          exact new (List.mem_map.mpr ⟨_, later, same.symm⟩)
        rw [ih names later]
        simp only [Field.given?, get?_map_at, if_neg other, get?_withDefault]

/-! ## Keys -/

theorem distinctKeys_iff :
    Value.DistinctKeys entries ↔
      (entries.map (·.1)).Pairwise fun a b => a.sameKey b = false := by
  rw [List.pairwise_map]
  rfl

theorem keys_map_at (g : Value → Value) (n : String) (entries : List (Value × Value)) :
    (entries.map fun entry => if entry.1.sameKey (.text n) then (entry.1, g entry.2) else entry).map
      (·.1) = entries.map (·.1) := by
  rw [List.map_map]
  refine List.map_congr_left fun entry _ => ?_
  simp only [Function.comp_apply]
  split <;> rfl

theorem keys_setKey {value : Value} (found : Value.get? entries n = some v) :
    (Value.setKey (.text n) value entries).map (·.1) = entries.map (·.1) := by
  induction entries with
  | nil => cases found
  | cons entry rest ih =>
      rw [Value.setKey]
      split
      · rfl
      · rename_i other
        rw [get?_cons, if_neg other] at found
        rw [List.map_cons, ih found, List.map_cons]

/-- A default comes under the key of its field, if under any. -/
theorem keys_withDefault (field : Field) (entries : List (Value × Value)) :
    (Format.withDefault field entries).map (·.1) = entries.map (·.1) ∨
      Value.get? entries field.name = none ∧
        (Format.withDefault field entries).map (·.1) = entries.map (·.1) ++ [.text field.name] := by
  unfold Format.withDefault
  split
  · rename_i found
    exact .inr ⟨found, by simp⟩
  · rename_i found
    exact .inl (keys_setKey found)
  · exact .inl rfl

theorem known_iff {names : List String} :
    Known names entries ↔ ∀ key ∈ entries.map (·.1), ∃ name ∈ names, key = .text name := by
  simp only [Known, List.forall_mem_map]

theorem DistinctKeys.withDefault (distinct : Value.DistinctKeys entries) (field : Field) :
    Value.DistinctKeys (Format.withDefault field entries) := by
  rw [distinctKeys_iff] at distinct ⊢
  rcases keys_withDefault field entries with same | ⟨absent, appended⟩
  · rwa [same]
  · rw [appended, List.pairwise_append]
    refine ⟨distinct, List.pairwise_singleton _ _, fun key listed other single => ?_⟩
    obtain ⟨entry, member, rfl⟩ := List.mem_map.mp listed
    obtain rfl := List.mem_singleton.mp single
    have none : entries.find? (fun entry => entry.1.sameKey (.text field.name)) = none :=
      Option.map_eq_none_iff.mp absent
    simpa using List.find?_eq_none.mp none entry member

theorem distinctKeys_fillFields (fields : List (Field × Format))
    (distinct : Value.DistinctKeys entries) :
    Value.DistinctKeys (Format.fillFields fields entries) := by
  induction fields generalizing entries with
  | nil => rwa [Format.fillFields]
  | cons f rest ih =>
      obtain ⟨field, format⟩ := f
      rw [Format.fillFields]
      refine ih ?_
      rw [distinctKeys_iff, keys_map_at, ← distinctKeys_iff]
      exact DistinctKeys.withDefault distinct field

theorem known_fillFields {names : List String} (within : ∀ f ∈ fields, f.1.name ∈ names) :
    Known names (Format.fillFields fields entries) ↔ Known names entries := by
  induction fields generalizing entries with
  | nil => rw [Format.fillFields]
  | cons f rest ih =>
      obtain ⟨field, format⟩ := f
      obtain ⟨first, others⟩ := List.forall_mem_cons.mp within
      rw [Format.fillFields, ih others, known_iff, keys_map_at, known_iff]
      rcases keys_withDefault field entries with same | ⟨-, appended⟩
      · rw [same]
      · rw [appended, List.forall_mem_append]
        refine and_iff_left ?_
        simpa using first

/-- Filling in defaults adds keys that are texts only. -/
theorem keys_fillFields {S : Value → Prop} (names : ∀ name, S (.text name))
    (each : ∀ key ∈ entries.map (·.1), S key) :
    ∀ key ∈ (Format.fillFields fields entries).map (·.1), S key := by
  induction fields generalizing entries with
  | nil => rwa [Format.fillFields]
  | cons f rest ih =>
      obtain ⟨field, format⟩ := f
      rw [Format.fillFields]
      refine ih ?_
      rw [keys_map_at]
      rcases keys_withDefault field entries with same | ⟨-, appended⟩
      · rwa [same]
      · rw [appended]
        exact List.forall_mem_append.mpr ⟨each, List.forall_mem_singleton.mpr (names _)⟩

/-! ## Records that fit -/

/-- What a record gives for a field fits, and a required field is given. -/
def FieldFits (entries : List (Value × Value)) (f : Field × Format) : Prop :=
  match f.1.given? entries with
  | none => f.1.required = false
  | some v => f.2.Fits (f.2.fill v)

theorem fieldsFit_fillFields (names : (fields.map (·.1.name)).Nodup) :
    Format.FieldsFit fields (Format.fillFields fields entries) ↔
      ∀ f ∈ fields, FieldFits entries f := by
  constructor
  · rintro ⟨required, fits⟩ ⟨field, format⟩ listed
    have filled := get?_fillFields names listed entries
    unfold FieldFits
    cases given : field.given? entries with
    | none =>
        rw [given] at filled
        cases need : field.required with
        | false => rfl
        | true =>
            obtain ⟨v, found⟩ := required field (List.mem_map_of_mem listed) need
            cases filled.symm.trans found
    | some v =>
        rw [given] at filled
        exact fits field format listed _ filled
  · intro each
    constructor
    case required =>
      intro field member need
      obtain ⟨⟨field, format⟩, listed, rfl⟩ := List.mem_map.mp member
      have fits := each _ listed
      unfold FieldFits at fits
      rw [get?_fillFields names listed]
      cases given : field.given? entries with
      | none =>
          rw [given] at fits
          exact absurd need (by simpa using fits)
      | some v => exact ⟨_, rfl⟩
    case fits =>
      intro field format listed v found
      have fits := each _ listed
      unfold FieldFits at fits
      rw [get?_fillFields names listed] at found
      obtain ⟨w, given, rfl⟩ := Option.map_eq_some_iff.mp found
      rwa [given] at fits

theorem fits_fill_record_iff (nullable : Bool) (names : (fields.map (·.1.name)).Nodup)
    (distinct : Value.DistinctKeys entries) :
    (Format.record nullable fields).Fits ((Format.record nullable fields).fill (.map entries)) ↔
      Known (fields.map (·.1.name)) entries ∧ ∀ f ∈ fields, FieldFits entries f := by
  rw [Format.fill, Format.fits_record_iff names (distinctKeys_fillFields fields distinct),
    known_fillFields fun f listed => List.mem_map_of_mem (f := (·.1.name)) listed,
    fieldsFit_fillFields names]

end FluidChip.Document
