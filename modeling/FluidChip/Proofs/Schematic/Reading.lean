import FluidChip.Proofs.Schematic.Grammar
import FluidChip.Proofs.Outcome
import FluidChip.Schematic.Load

/-!
# Drafts of documents

A format and its grammar take the same values, and read the same from them.  It
holds for identifiers, and carries over from items to lists, from values to tables
and from fields to records, up to the whole document.
-/

namespace FluidChip

open Document Text Grammar Schematic Draft

/-! ## Formats and grammar -/

namespace Document.Format

variable {α β : Type} {f value : Format} {fields : List (Field × Format)} {field : Field}
  {entries : List (Value × Value)}
  {v : Value} {reads : Value → α → Prop} {read : Value → α}

/-- The grammar of a format: it takes a decoded value just when the value, filled in,
fits, and then reads the same from it. -/
def ReadAs (f : Format) (reads : Value → α → Prop) (read : Value → α) : Prop :=
  ∀ v, v.Decoded → ∀ a, reads v a ↔ f.Fits (f.fill v) ∧ read (f.fill v) = a

theorem fits_identifier_iff {nullable nonEmpty : Bool} :
    (identifier nullable nonEmpty).Fits v ↔ ∃ s, Identifier v s := by
  refine ⟨fun fits => ?_, ?_⟩
  · obtain ⟨s, same, legal⟩ := fits.identifier
    exact ⟨s, same, legal⟩
  · rintro ⟨s, rfl, legal⟩
    have nonempty : isEmptyText (.text s) = false := by
      simp only [isEmptyText, beq_eq_false_iff_ne]
      rintro rfl
      cases legal
    rw [identifier, fits_scalar_iff]
    simp [Kind.holds, lexicalReason?, legal, nonempty]

theorem fill_scalar {kinds : List Kind} {nullable nonEmpty : Bool} {lexeme : Option Lexeme} :
    (scalar kinds nullable nonEmpty lexeme).fill v = v := by
  cases v <;> rfl

theorem readAs_identifier {nullable nonEmpty : Bool} :
    (identifier nullable nonEmpty).ReadAs Identifier fun v => (textOf? v).getD "" := by
  intro v _ a
  rw [identifier, fill_scalar, ← identifier, fits_identifier_iff]
  constructor
  · rintro ⟨rfl, legal⟩
    exact ⟨⟨a, rfl, legal⟩, rfl⟩
  · rintro ⟨⟨s, rfl, legal⟩, rfl⟩
    exact ⟨rfl, legal⟩

theorem readAs_given {nullable nonEmpty : Bool} :
    (identifier nullable nonEmpty).ReadAs (Given Identifier) textOf? := by
  intro v _ a
  rw [identifier, fill_scalar, ← identifier, fits_identifier_iff]
  constructor
  · rintro ⟨s, ⟨rfl, legal⟩, rfl⟩
    exact ⟨⟨s, rfl, legal⟩, rfl⟩
  · rintro ⟨⟨s, rfl, legal⟩, rfl⟩
    exact ⟨s, ⟨rfl, legal⟩, rfl⟩

theorem readAs_endpoint : endpoint.ReadAs Endpoint fun v => (textOf? v).getD "" := by
  intro v _ a
  have fits : endpoint.Fits v ↔ ∃ s, Endpoint v s := by
    rw [endpoint, fits_scalar_iff]
    refine ⟨fun fits => ?_, ?_⟩
    · cases v with
      | text s =>
          cases legal : isEndpoint s with
          | true => exact ⟨s, rfl, legal⟩
          | false => simp [lexicalReason?, legal] at fits
      | _ => simp [Kind.holds] at fits
    · rintro ⟨s, rfl, legal⟩
      have nonempty : isEmptyText (.text s) = false := by
        simp only [isEmptyText, beq_eq_false_iff_ne]
        rintro rfl
        cases legal
      simp [Kind.holds, lexicalReason?, legal, nonempty]
  rw [endpoint, fill_scalar, ← endpoint, fits]
  constructor
  · rintro ⟨rfl, legal⟩
    exact ⟨⟨a, rfl, legal⟩, rfl⟩
  · rintro ⟨⟨s, rfl, legal⟩, rfl⟩
    exact ⟨rfl, legal⟩

theorem readAs_scalar : (scalar [.number, .text] false false none).ReadAs Scalar id := by
  intro v _ a
  rw [fill_scalar, fits_scalar_iff]
  cases v <;> simp [Scalar, Kind.holds, lexicalReason?]

theorem forall₂_iff_map {R : β → α → Prop} {P : β → Prop} {g : β → α} (xs : List β)
    (all : List α) (each : ∀ x ∈ xs, ∀ a, R x a ↔ P x ∧ g x = a) :
    List.Forall₂ R xs all ↔ (∀ x ∈ xs, P x) ∧ xs.map g = all := by
  induction xs generalizing all with
  | nil => cases all <;> simp
  | cons x rest ih =>
      obtain ⟨first, others⟩ := List.forall_mem_cons.mp each
      cases all with
      | nil => simp
      | cons a as =>
          rw [List.forall₂_cons, first, ih as others, List.forall_mem_cons, List.map_cons,
            List.cons.injEq]
          tauto

theorem readAs_items (h : f.ReadAs reads read) :
    (list 0 none f).ReadAs (Items reads) fun v => (itemsOf v).map read := by
  intro v decoded all
  rw [fits_list_iff]
  cases decoded with
  | @list items each =>
      have read := forall₂_iff_map items all fun x listed => h x (each x listed)
      simpa [Items, fill, itemsOf, Kind.holds, List.map_map, Function.comp_def] using read
  | _ => simp [Items, fill, Kind.holds]

theorem filterMap_textOf? {items : List Value} (texts : ∀ v ∈ items, ∃ s, v = .text s) :
    items.filterMap textOf? = items.map fun v => (textOf? v).getD "" := by
  induction items with
  | nil => rfl
  | cons v rest ih =>
      obtain ⟨⟨s, rfl⟩, others⟩ := List.forall_mem_cons.mp texts
      rw [List.filterMap_cons, ih others]
      rfl

theorem readAs_texts {nullable nonEmpty : Bool} :
    (list 0 none (identifier nullable nonEmpty)).ReadAs (Items Identifier) fun v =>
      (itemsOf v).filterMap textOf? := by
  intro v decoded all
  rw [readAs_items readAs_identifier v decoded all]
  refine and_congr_right fun fits => ?_
  simp only
  rw [filterMap_textOf? fun x listed => ?_]
  obtain ⟨s, same, -⟩ := fits_identifier_iff.mp ((fits_list_iff.mp fits).2.2.2 x listed)
  exact ⟨s, same⟩

theorem named_eq_map {entries : List (Value × Value)}
    (texts : ∀ entry ∈ entries, ∃ s, entry.1 = .text s) :
    named entries = entries.map fun entry => ((textOf? entry.1).getD "", entry.2) := by
  induction entries with
  | nil => rfl
  | cons entry rest ih =>
      obtain ⟨⟨s, same⟩, others⟩ := List.forall_mem_cons.mp texts
      have tail := ih others
      unfold Draft.named at tail ⊢
      rw [List.filterMap_cons, tail]
      simp [same, textOf?]

theorem readAs_table {nullable nonEmpty : Bool} (h : value.ReadAs reads read) :
    (table (identifier nullable nonEmpty) value).ReadAs (Table reads) fun v =>
      (named (entriesOf v)).map fun pair => (pair.1, read pair.2) := by
  intro v decoded pairs
  rw [fits_table_iff]
  cases decoded with
  | @map entries distinct each =>
      have read := forall₂_iff_map (entries.filter fun entry => entry.1.sameKey entry.1) pairs
        (R := fun entry pair => Identifier entry.1 pair.1 ∧ reads entry.2 pair.2)
        (P := fun entry => (∃ s, Identifier entry.1 s) ∧ value.Fits (value.fill entry.2))
        (g := fun entry => ((textOf? entry.1).getD "", read (value.fill entry.2)))
        (by
          rintro ⟨key, w⟩ listed ⟨name, a⟩
          have inside : w.Decoded := each _ (List.mem_of_mem_filter listed)
          simp only [h w inside, Prod.mk.injEq]
          constructor
          · rintro ⟨⟨rfl, legal⟩, fits, rfl⟩
            exact ⟨⟨⟨name, rfl, legal⟩, fits⟩, rfl, rfl⟩
          · rintro ⟨⟨⟨s, rfl, legal⟩, fits⟩, rfl, rfl⟩
            exact ⟨⟨rfl, legal⟩, fits, rfl⟩)
      simp only [Table, Value.map.injEq, exists_eq_left', read, fill, fits_identifier_iff,
        List.forall_mem_map, entriesOf]
      refine and_congr_right fun fits => ?_
      rw [named_eq_map fun entry listed => ?_]
      · simp [List.map_map, Function.comp_def]
      · obtain ⟨given, member, rfl⟩ := List.mem_map.mp listed
        obtain ⟨s, same, -⟩ := (fits given member).1
        exact ⟨s, same⟩
  | _ => simp [Table, fill]

theorem nodup_of_table {pairs : List (String × α)} (h : Table reads v pairs)
    (decoded : v.Decoded) : (pairs.map (·.1)).Nodup := by
  obtain ⟨entries, rfl, related⟩ := h
  have apart := decoded.distinct.filter fun entry => entry.1.sameKey entry.1
  generalize entries.filter (fun entry => entry.1.sameKey entry.1) = kept at related apart
  induction related with
  | nil => exact List.nodup_nil
  | @cons entry pair rest pairs first others ih =>
      obtain ⟨new, apart⟩ := List.pairwise_cons.mp apart
      refine List.nodup_cons.mpr ⟨fun old => ?_, ih apart⟩
      obtain ⟨other, listed, same⟩ := List.mem_map.mp old
      obtain ⟨entry', member, second, -⟩ := Outcome.mem_of_forall₂ others listed
      have differ := new entry' member
      rw [first.1.1, second.1, same] at differ
      simp at differ

theorem nodup_of_at {name : String} {pairs : List (String × α)}
    (h : At entries name (Table reads) (some []) pairs) (decoded : (Value.map entries).Decoded) :
    (pairs.map (·.1)).Nodup := by
  unfold At at h
  split at h
  · cases h
    exact List.nodup_nil
  · rename_i found
    exact nodup_of_table h (decoded.under found)

/-- A field without a default is read as the grammar has it. -/
theorem at_iff (field : Field) (get : Option Value → α) (names : (fields.map (·.1.name)).Nodup)
    (listed : (field, f) ∈ fields) (h : f.ReadAs reads read) (plain : field.default? = none)
    (decoded : (Value.map entries).Decoded)
    (found : ∀ v, get (some v) = read v) {a : α} :
    At entries field.name reads (if field.required then none else some (get none)) a ↔
      FieldFits entries (field, f) ∧
        get (Value.get? (fillFields fields entries) field.name) = a := by
  have given : field.given? entries = Value.get? entries field.name := by
    simp [Field.given?, plain]
  rw [get?_fillFields names listed]
  unfold At FieldFits
  simp only [given]
  cases here : Value.get? entries field.name with
  | none => cases field.required <;> simp
  | some v =>
      have one := h v (decoded.under here) a
      simpa [found] using one

theorem get?_fillFields_eq_none (fields : List (Field × Format))
    (known : Known (fields.map (·.1.name)) entries) {name : String}
    (other : name ∉ fields.map (·.1.name)) :
    Value.get? (fillFields fields entries) name = none := by
  rw [get?_fillFields_of_notMem _ other]
  cases found : Value.get? entries name with
  | none => rfl
  | some v =>
      obtain ⟨key, listed, same⟩ := known _ (mem_of_get? found)
      cases same
      exact absurd listed other

/-- The grammar of a record from that of its fields. -/
theorem readAs_record (names : (fields.map (·.1.name)).Nodup)
    {reads : List (Value × Value) → α → Prop}
    (each : ∀ entries, (Value.map entries).Decoded → ∀ a, reads entries a ↔
      (Known (fields.map (·.1.name)) entries ∧ ∀ f ∈ fields, FieldFits entries f) ∧
        read (.map (fillFields fields entries)) = a) :
    (record false fields).ReadAs (Mapping reads) read := by
  intro v decoded a
  cases v with
  | map entries =>
      rw [fits_fill_record_iff false names decoded.distinct]
      simpa [Mapping, fill] using each entries decoded a
  | _ => simp [Mapping, Fits, fill, problems]

/-! ## Fields of schematics -/

section

variable (names : (fields.map (·.1.name)).Nodup) (decoded : (Value.map entries).Decoded)

include names decoded

theorem id_iff (listed : idField ∈ fields) {s : String} :
    At entries "id" Identifier none s ↔
      FieldFits entries idField ∧ textAt (fillFields fields entries) "id" = s :=
  at_iff idField.1 (fun o => (o.bind textOf?).getD "") names listed readAs_identifier rfl decoded
    fun _ => rfl

theorem type_iff (listed : typeField ∈ fields) {s : String} :
    At entries "type" Identifier none s ↔
      FieldFits entries typeField ∧ textAt (fillFields fields entries) "type" = s :=
  at_iff typeField.1 (fun o => (o.bind textOf?).getD "") names listed readAs_identifier rfl decoded
    fun _ => rfl

theorem attributes_iff (listed : attributesField ∈ fields) (attributes : Attributes) :
    At entries "attributes" (Table Scalar) (some []) attributes.entries ↔
      FieldFits entries attributesField ∧
        .ofList (named (entriesAt (fillFields fields entries) "attributes")) = attributes := by
  have read (pairs : List (String × Value)) :
      At entries "attributes" (Table Scalar) (some []) pairs ↔
        FieldFits entries attributesField ∧
          named (entriesAt (fillFields fields entries) "attributes") = pairs := by
    have at' := at_iff (a := pairs) attributesField.1
      (fun o => (named ((o.map entriesOf).getD [])).map fun pair => (pair.1, id pair.2))
      names listed (readAs_table readAs_scalar) rfl decoded fun _ => rfl
    simp only [id_eq, List.map_id_fun'] at at'
    exact at'
  refine (read attributes.entries).trans (and_congr_right fun fits => ?_)
  have nodup := nodup_of_at ((read _).mpr ⟨fits, rfl⟩) decoded
  constructor
  · intro same
    exact Catalog.eq_of_entries ((Catalog.entries_ofList nodup).trans same)
  · rintro rfl
    exact (Catalog.entries_ofList nodup).symm

end

/-! ## Records of schematics -/

theorem part_eq_iff {filled : List (Value × Value)} {made : DraftPart} :
    part (.map filled) = made ↔ textAt filled "id" = made.id ∧
      textAt filled "type" = made.typeName ∧
      (itemsAt filled "ports").filterMap textOf? = made.ports ∧
      textAt filled "from" = made.source ∧ textAt filled "to" = made.target ∧
      .ofList (named (entriesAt filled "attributes")) = made.attributes := by
  obtain ⟨id, typeName, ports, source, target, attributes⟩ := made
  rw [part, DraftPart.mk.injEq]
  rfl

/-- A key that a record has no field for reads as nothing. -/
theorem textAt_eq_empty (fields : List (Field × Format))
    (known : Known (fields.map (·.1.name)) entries) {name : String}
    (other : name ∉ fields.map (·.1.name)) : textAt (fillFields fields entries) name = "" := by
  rw [textAt, textAt?, get?_fillFields_eq_none fields known other]
  rfl

theorem portsField_mem : (({ name := "ports" } : Field), list 0 none (identifier false false)) ∈
    nodeFields := by
  simp [nodeFields]

theorem readAs_node : (record false nodeFields).ReadAs (Mapping NodeRead) part := by
  have names : (nodeFields.map (·.1.name)).Nodup := by decide
  refine readAs_record names fun entries decoded made => ?_
  have id := id_iff names decoded (by simp [nodeFields]) (s := made.id)
  have type := type_iff names decoded (by simp [nodeFields]) (s := made.typeName)
  have attributes := attributes_iff names decoded (by simp [nodeFields]) made.attributes
  have ports := at_iff (a := made.ports) ⟨"ports", false, none⟩
    (fun o => ((o.map itemsOf).getD []).filterMap textOf?) names portsField_mem
    readAs_texts rfl decoded fun _ => rfl
  have fits : (∀ f ∈ nodeFields, FieldFits entries f) ↔ FieldFits entries idField ∧
      FieldFits entries typeField ∧
      FieldFits entries ({ name := "ports" }, list 0 none (identifier false false)) ∧
      FieldFits entries attributesField := by
    simp [nodeFields]
  rw [nodeRead_iff, and_assoc]
  refine and_congr_right fun known => ?_
  have source : textAt (fillFields nodeFields entries) "from" = "" :=
    textAt_eq_empty nodeFields known (by decide)
  have target : textAt (fillFields nodeFields entries) "to" = "" :=
    textAt_eq_empty nodeFields known (by decide)
  have read : At entries "ports" (Items Identifier) (some []) made.ports ↔ _ := ports
  rw [fits, part_eq_iff, source, target, id, type, attributes, read]
  constructor
  · rintro ⟨⟨f₁, h₁⟩, ⟨f₂, h₂⟩, ⟨f₃, h₃⟩, ⟨f₄, h₄⟩, h₅, h₆⟩
    exact ⟨⟨f₁, f₂, f₃, f₄⟩, h₁, h₂, h₃, h₅.symm, h₆.symm, h₄⟩
  · rintro ⟨⟨f₁, f₂, f₃, f₄⟩, h₁, h₂, h₃, h₅, h₆, h₄⟩
    exact ⟨⟨f₁, h₁⟩, ⟨f₂, h₂⟩, ⟨f₃, h₃⟩, ⟨f₄, h₄⟩, h₅.symm, h₆.symm⟩

/-- Where null and no key stand for a channel, so does the default. -/
theorem connectionType_iff {s : String} (decoded : (Value.map entries).Decoded) :
    At entries "type" ConnectionType (some "channel") s ↔
      FieldFits entries ({ name := "type", default? := some (.text "channel") },
        identifier false false) ∧
      textAt (fillFields connectionFields entries) "type" = s := by
  have names : (connectionFields.map (·.1.name)).Nodup := by decide
  have listed : (({ name := "type", default? := some (.text "channel") } : Field),
      identifier false false) ∈ connectionFields := by
    simp [connectionFields]
  have filled := get?_fillFields names listed entries
  have channel : (identifier false false).Fits (.text "channel") :=
    fits_identifier_iff.mpr ⟨"channel", rfl, by decide⟩
  have legal : isIdentifier "channel" = true := by decide
  unfold At FieldFits textAt textAt? ConnectionType
  simp only at filled ⊢
  rw [filled]
  simp only [Field.given?]
  have plain (v : Value) : (identifier false false).fill v = v := fill_scalar
  cases here : Value.get? entries "type" with
  | none => simp [plain, channel, textOf?]
  | some v =>
      have plainly : (identifier false false).ReadAs Identifier _ := readAs_identifier
      have one := plainly v (decoded.under here) s
      cases v with
      | null => simp [plain, channel, textOf?, Identifier, eq_comm (a := s)]
      | _ => simpa using one

theorem readAs_connection :
    (record false connectionFields).ReadAs (Mapping ConnectionRead) part := by
  have names : (connectionFields.map (·.1.name)).Nodup := by decide
  refine readAs_record names fun entries decoded made => ?_
  have id := id_iff names decoded (by simp [connectionFields]) (s := made.id)
  have type := connectionType_iff decoded (s := made.typeName)
  have source : At entries "from" Endpoint none made.source ↔ _ :=
    at_iff ⟨"from", true, none⟩ (fun o => (o.bind textOf?).getD "") names
      (by simp [connectionFields]) readAs_endpoint rfl decoded fun _ => rfl
  have target : At entries "to" Endpoint none made.target ↔ _ :=
    at_iff ⟨"to", true, none⟩ (fun o => (o.bind textOf?).getD "") names
      (by simp [connectionFields]) readAs_endpoint rfl decoded fun _ => rfl
  have attributes := attributes_iff names decoded (by simp [connectionFields]) made.attributes
  have fits : (∀ f ∈ connectionFields, FieldFits entries f) ↔ FieldFits entries idField ∧
      FieldFits entries ({ name := "type", default? := some (.text "channel") },
        identifier false false) ∧
      FieldFits entries ({ name := "from", required := true }, endpoint) ∧
      FieldFits entries ({ name := "to", required := true }, endpoint) ∧
      FieldFits entries attributesField := by
    simp [connectionFields]
  rw [connectionRead_iff, and_assoc]
  refine and_congr_right fun known => ?_
  have ports : (itemsAt (fillFields connectionFields entries) "ports").filterMap textOf? = [] := by
    rw [itemsAt, get?_fillFields_eq_none connectionFields known (by decide)]
    rfl
  rw [fits, part_eq_iff, ports, id, type, source, target, attributes]
  constructor
  · rintro ⟨⟨f₁, h₁⟩, ⟨f₂, h₂⟩, ⟨f₃, h₃⟩, ⟨f₄, h₄⟩, ⟨f₅, h₅⟩, none⟩
    exact ⟨⟨f₁, f₂, f₃, f₄, f₅⟩, h₁, h₂, none.symm, h₃, h₄, h₅⟩
  · rintro ⟨⟨f₁, f₂, f₃, f₄, f₅⟩, h₁, h₂, none, h₃, h₄, h₅⟩
    exact ⟨⟨f₁, h₁⟩, ⟨f₂, h₂⟩, ⟨f₃, h₃⟩, ⟨f₄, h₄⟩, ⟨f₅, h₅⟩, none.symm⟩

theorem readAs_constraint :
    (record false constraintFields).ReadAs (Mapping ConstraintRead) part := by
  have names : (constraintFields.map (·.1.name)).Nodup := by decide
  refine readAs_record names fun entries decoded made => ?_
  have id := id_iff names decoded (by simp [constraintFields]) (s := made.id)
  have type := type_iff names decoded (by simp [constraintFields]) (s := made.typeName)
  have attributes := attributes_iff names decoded (by simp [constraintFields]) made.attributes
  have fits : (∀ f ∈ constraintFields, FieldFits entries f) ↔ FieldFits entries idField ∧
      FieldFits entries typeField ∧ FieldFits entries attributesField := by
    simp [constraintFields]
  rw [constraintRead_iff, and_assoc]
  refine and_congr_right fun known => ?_
  have ports : (itemsAt (fillFields constraintFields entries) "ports").filterMap textOf? = [] := by
    rw [itemsAt, get?_fillFields_eq_none constraintFields known (by decide)]
    rfl
  have source : textAt (fillFields constraintFields entries) "from" = "" :=
    textAt_eq_empty constraintFields known (by decide)
  have target : textAt (fillFields constraintFields entries) "to" = "" :=
    textAt_eq_empty constraintFields known (by decide)
  rw [fits, part_eq_iff, ports, source, target, id, type, attributes]
  constructor
  · rintro ⟨⟨f₁, h₁⟩, ⟨f₂, h₂⟩, ⟨f₃, h₃⟩, none, from', to'⟩
    exact ⟨⟨f₁, f₂, f₃⟩, h₁, h₂, none.symm, from'.symm, to'.symm, h₃⟩
  · rintro ⟨⟨f₁, f₂, f₃⟩, h₁, h₂, none, from', to', h₃⟩
    exact ⟨⟨f₁, h₁⟩, ⟨f₂, h₂⟩, ⟨f₃, h₃⟩, none.symm, from'.symm, to'.symm⟩

/-! ## Lists of parts -/

/-- Parts have ids, so they are told apart by these. -/
theorem distinctItems_iff {items : List Value}
    (texts : ∀ v ∈ items, ∃ entries s, v = .map entries ∧
      Value.get? entries "id" = some (.text s)) :
    DistinctItems "id" items ↔ ((items.map part).map (·.id)).Nodup := by
  have keys : items.filterMap (itemKey? "id") = ((items.map part).map (·.id)).map .text := by
    induction items with
    | nil => rfl
    | cons v rest ih =>
        obtain ⟨⟨entries, s, rfl, found⟩, others⟩ := List.forall_mem_cons.mp texts
        have first : itemKey? "id" (.map entries) = some (.text s) := by simp [itemKey?, found]
        have read : (part (.map entries)).id = s := by
          simp [part, entriesOf, textAt, textAt?, found, textOf?]
        rw [List.filterMap_cons, first, ih others]
        simp [read]
  rw [DistinctItems, keys, repetitions_eq_nil, List.pairwise_map]
  simp [List.Nodup, Value.isKey]

theorem exists_id (names : (fields.map (·.1.name)).Nodup) (listed : idField ∈ fields)
    (fits : (record false fields).Fits v) :
    ∃ entries s, v = .map entries ∧ Value.get? entries "id" = some (.text s) := by
  rcases fits.record names with ⟨no, -⟩ | ⟨entries, rfl, fit⟩
  · cases no
  · obtain ⟨id, found⟩ := fit.required idField.1 (List.mem_map_of_mem listed) rfl
    obtain ⟨s, rfl, -⟩ := (fit.fits _ _ listed id found).identifier
    exact ⟨entries, s, rfl, found⟩

theorem readAs_parts {n : Nat} {reads : List (Value × Value) → DraftPart → Prop}
    (h : (record false fields).ReadAs (Mapping reads) part)
    (names : (fields.map (·.1.name)).Nodup) (listed : idField ∈ fields) :
    (list n (some "id") (record false fields)).ReadAs
      (fun v parts => Parts reads v parts ∧ n ≤ parts.length) fun v => (itemsOf v).map part := by
  intro v decoded parts
  have plain := readAs_items h v decoded parts
  rw [fits_list_iff] at plain ⊢
  have same : (list n (some "id") (record false fields)).fill v =
      (list 0 none (record false fields)).fill v := by
    cases v <;> rfl
  simp only [same, Parts, plain]
  constructor
  · rintro ⟨⟨⟨⟨kind, -, -, fits⟩, rfl⟩, apart⟩, long⟩
    rw [List.length_map] at long
    refine ⟨⟨kind, long, ?_, fits⟩, rfl⟩
    rintro key ⟨⟩
    exact (distinctItems_iff fun x member => exists_id names listed (fits x member)).mpr apart
  · rintro ⟨⟨kind, long, apart, fits⟩, rfl⟩
    rw [List.length_map]
    refine ⟨⟨⟨⟨kind, Nat.zero_le _, by simp, fits⟩, rfl⟩, ?_⟩, long⟩
    exact (distinctItems_iff fun x member => exists_id names listed (fits x member)).mp
      (apart "id" rfl)

/-! ## Types -/

theorem readAs_supertype :
    (record true [({ name := "supertype" }, identifier true false)]).ReadAs Supertype
      fun v => textAt? (entriesOf v) "supertype" := by
  have names : ([(({ name := "supertype" } : Field), identifier true false)].map
    (·.1.name)).Nodup := by decide
  intro v decoded supertype
  cases v with
  | null =>
      have fits : (record true [({ name := "supertype" }, identifier true false)]).Fits .null :=
        ⟨default, by simp [problems]⟩
      simp [Supertype, Mapping, fits, fill, textAt?, entriesOf, Value.get?,
        eq_comm (a := supertype)]
  | map entries =>
      have field : At entries "supertype" (Given Identifier) (some none) supertype ↔ _ :=
        at_iff ⟨"supertype", false, none⟩ (fun o => o.bind textOf?) names
          List.mem_cons_self readAs_given rfl decoded fun _ => rfl
      rw [fits_fill_record_iff true names decoded.distinct]
      simp [Supertype, Mapping, field, fill, entriesOf, and_assoc, textAt?]
  | _ => simp [Supertype, Mapping, Fits, fill, problems]

theorem declarations_iff (kind : String) (types : Declared)
    (decoded : (Value.map entries).Decoded)
    (listed : ({ name := kind }, declarations) ∈ typeFields) :
    At entries kind (Table Supertype) (some []) types ↔
      FieldFits entries ({ name := kind }, declarations) ∧
        declared (fillFields typeFields entries) kind = types :=
  at_iff (a := types) { name := kind }
    (fun o => (named ((o.map entriesOf).getD [])).map fun pair : String × Value =>
      (pair.1, textAt? (entriesOf pair.2) "supertype"))
    (by decide) listed (readAs_table readAs_supertype) rfl decoded fun _ => rfl

theorem readAs_types : (record false typeFields).ReadAs (Mapping TypesRead) fun v =>
    (declared (entriesOf v) "nodes", declared (entriesOf v) "connections",
      declared (entriesOf v) "constraints") := by
  have names : (typeFields.map (·.1.name)).Nodup := by decide
  refine readAs_record names fun entries decoded types => ?_
  obtain ⟨nodeTypes, connectionTypes, constraintTypes⟩ := types
  have nodes := declarations_iff "nodes" nodeTypes decoded (by simp [typeFields])
  have connections := declarations_iff "connections" connectionTypes decoded (by simp [typeFields])
  have constraints := declarations_iff "constraints" constraintTypes decoded (by simp [typeFields])
  have fits : (∀ f ∈ typeFields, FieldFits entries f) ↔
      FieldFits entries ({ name := "nodes" }, declarations) ∧
      FieldFits entries ({ name := "connections" }, declarations) ∧
      FieldFits entries ({ name := "constraints" }, declarations) := by
    simp [typeFields]
  rw [typesRead_iff, and_assoc]
  refine and_congr_right fun known => ?_
  rw [fits, nodes, connections, constraints, Prod.mk.injEq, Prod.mk.injEq]
  exact ⟨fun ⟨⟨f₁, h₁⟩, ⟨f₂, h₂⟩, ⟨f₃, h₃⟩⟩ => ⟨⟨f₁, f₂, f₃⟩, h₁, h₂, h₃⟩,
    fun ⟨⟨f₁, f₂, f₃⟩, h₁, h₂, h₃⟩ => ⟨⟨f₁, h₁⟩, ⟨f₂, h₂⟩, ⟨f₃, h₃⟩⟩⟩

end Document.Format

/-! ## Documents -/

namespace Schematic

open Document.Format

variable {entries : List (Value × Value)} {d : Draft}

theorem parts_iff (listing : String) (required : Bool) (n : Nat) (parts : List DraftPart)
    {reads : List (Value × Value) → DraftPart → Prop} {fields : List (Field × Format)}
    (h : (record false fields).ReadAs (Mapping reads) part)
    (names : (fields.map (·.1.name)).Nodup) (hasId : idField ∈ fields)
    (listed : ({ name := listing, required }, list n (some "id") (record false fields)) ∈ format)
    (decoded : (Value.map entries).Decoded) :
    At entries listing (fun v parts => Parts reads v parts ∧ n ≤ parts.length)
        (if required then none else some []) parts ↔
      FieldFits entries ({ name := listing, required },
          list n (some "id") (record false fields)) ∧
        (itemsAt (fillFields format entries) listing).map part = parts :=
  at_iff { name := listing, required } (fun o => ((o.map itemsOf).getD []).map part) (by decide)
    listed
    (readAs_parts h names hasId) rfl decoded fun _ => rfl

/-- A listing that has to be there and is not empty holds one part at least. -/
theorem at_nodes_iff {nodes : List DraftPart} :
    At entries "nodes" (Parts NodeRead) none nodes ∧ nodes ≠ [] ↔
      At entries "nodes" (fun v parts => Parts NodeRead v parts ∧ 1 ≤ parts.length) none nodes := by
  unfold At
  cases Value.get? entries "nodes" with
  | none => simp
  | some v => simp [Nat.one_le_iff_ne_zero]

theorem forall_format_fits_iff :
    (∀ f ∈ format, FieldFits entries f) ↔
      FieldFits entries ({ name := "name" }, identifier false false) ∧
      FieldFits entries ({ name := "types" }, record false typeFields) ∧
      FieldFits entries ({ name := "nodes", required := true },
        list 1 (some "id") (record false nodeFields)) ∧
      FieldFits entries ({ name := "connections" },
        list 0 (some "id") (record false connectionFields)) ∧
      FieldFits entries ({ name := "constraints" },
        list 0 (some "id") (record false constraintFields)) := by
  simp [format]

theorem documentRead_ofDocument (decoded : (Value.map entries).Decoded) :
    DocumentRead entries d ↔
      (Known (format.map (·.1.name)) entries ∧ ∀ f ∈ format, FieldFits entries f) ∧
        Draft.ofDocument (fillFields format entries) = d := by
  have names : (format.map (·.1.name)).Nodup := by decide
  obtain ⟨name, nodeTypes, connectionTypes, constraintTypes, nodes, connections, constraints⟩ := d
  have name' : At entries "name" (Given Identifier) (some none) name ↔ _ :=
    at_iff ⟨"name", false, none⟩ (fun o => o.bind textOf?) names
      (f := identifier false false) (by simp [format]) readAs_given rfl decoded fun _ => rfl
  have types' : At entries "types" (Mapping TypesRead) (some ([], [], []))
      (nodeTypes, connectionTypes, constraintTypes) ↔ _ :=
    at_iff ⟨"types", false, none⟩ (fun o => (declared ((o.map entriesOf).getD []) "nodes",
        declared ((o.map entriesOf).getD []) "connections",
        declared ((o.map entriesOf).getD []) "constraints"))
      names (by simp [format]) readAs_types rfl decoded
      fun _ => rfl
  have nodes' := parts_iff "nodes" true 1 nodes readAs_node (by decide) (by simp [nodeFields])
    (by simp [format]) decoded
  have connections' := parts_iff "connections" false 0 connections readAs_connection (by decide)
    (by simp [connectionFields]) (by simp [format]) decoded
  have constraints' := parts_iff "constraints" false 0 constraints readAs_constraint (by decide)
    (by simp [constraintFields]) (by simp [format]) decoded
  simp only [Nat.zero_le, and_true, Bool.false_eq_true, if_false, if_true]
    at nodes' connections' constraints'
  rw [documentRead_iff, and_assoc]
  refine and_congr_right fun known => ?_
  rw [forall_format_fits_iff, name', types', connections', constraints', Draft.ofDocument,
    Draft.mk.injEq]
  simp only [Prod.mk.injEq]
  constructor
  · rintro ⟨⟨f₁, h₁⟩, ⟨f₂, h₂, h₃, h₄⟩, present, some', ⟨f₄, h₆⟩, ⟨f₅, h₇⟩⟩
    obtain ⟨f₃, h₅⟩ := nodes'.mp (at_nodes_iff.mp ⟨present, some'⟩)
    exact ⟨⟨f₁, f₂, f₃, f₄, f₅⟩, h₁, h₂, h₃, h₄, h₅, h₆, h₇⟩
  · rintro ⟨⟨f₁, f₂, f₃, f₄, f₅⟩, h₁, h₂, h₃, h₄, h₅, h₆, h₇⟩
    obtain ⟨present, some'⟩ := at_nodes_iff.mpr (nodes'.mpr ⟨f₃, h₅⟩)
    exact ⟨⟨f₁, h₁⟩, ⟨f₂, h₂, h₃, h₄⟩, present, some', ⟨f₄, h₆⟩, ⟨f₅, h₇⟩⟩

theorem recordProblems_eq_nil {fields : List (Field × Format)} :
    recordProblems fields entries = [] ↔ (record false fields).Fits (.map entries) := by
  rw [recordProblems, List.append_eq_nil_iff, List.flatMap_eq_nil_iff, missingProblems_eq_nil]
  simp only [Fits, record_problems_eq_nil, reduceCtorEq, false_and, false_or, Value.map.injEq,
    exists_eq_left']
  constructor
  · rintro ⟨each, required⟩
    exact ⟨default, fun entry listed =>
      fieldProblems_eq_nil_congr fields _ _ _ _ _ _ (each entry listed), required⟩
  · rintro ⟨s, each, required⟩
    exact ⟨fun entry listed => fieldProblems_eq_nil_congr fields _ _ _ _ _ _ (each entry listed),
      required⟩

theorem ne_nil_of_arrange?_ne {problems : List Problem} {arranged : Option (List Problem)}
    (h : arrange? problems = arranged) (other : arranged ≠ some []) : problems ≠ [] := by
  rintro rfl
  exact other h.symm

/-- A decoded document gives a draft just when it follows the grammar, and gives the
draft that the grammar reads. -/
theorem draftOf_ok_iff {host : Host} {path : String} {document : Value}
    (decoded : document.Decoded) :
    draftOf host path document = .ok d ↔ Mapping DocumentRead document d := by
  cases decoded with
  | @map entries distinct each =>
      have decoded : (Value.map entries).Decoded := .map distinct each
      simp only [Mapping, Value.map.injEq, exists_eq_left']
      rw [documentRead_ofDocument decoded,
        ← fits_fill_record_iff false (by decide) distinct, fill,
        ← recordProblems_eq_nil, draftOf]
      cases arranged : arrange? (recordProblems format (fillFields format entries)) with
      | none => simp [ne_nil_of_arrange?_ne arranged (by simp)]
      | some problems =>
          cases problems with
          | nil => simp [arrange?_eq_some_nil arranged]
          | cons p rest =>
              simp only [ne_nil_of_arrange?_ne arranged (by simp), false_and, iff_false]
              split
              · rintro ⟨⟩
              · rintro ⟨⟩
  | _ => simp [draftOf, Mapping]

end Schematic

end FluidChip
