import FluidChip.Parameters.Load
import FluidChip.Proofs.Document.Faulty
import FluidChip.Proofs.Parameters.Reading
import FluidChip.Proofs.Yaml.Document

/-!
# Process files

A process file is checked for its keys first: every field is to hold a number or a text,
and no other key may be there.  What is wrong is told in the order of the keys.  Only the
values of a file without such faults are read, as values from anywhere else are.  A fault
without an order or a text is not told.
-/

namespace FluidChip.Parameters

open Document Document.Format

variable {host : Host} {entries : List (Value × Value)} {key v : Value} {f g : Field}
  {problems : List Document.Problem}

/-! ## What a file holds -/

/-- A number, or a text that is not empty. -/
inductive Given : Value → Prop
  | int (n : Int) : Given (.int n)
  | float (x : Float) : Given (.float x)
  | text {s : String} (some_text : s ≠ "") : Given (.text s)

/-- A file gives a number or a text for a field. -/
def Holds (entries : List (Value × Value)) (f : Field) : Prop :=
  ∃ v, Value.get? entries f.key = some v ∧ Given v

/-- A key that a file should not have, or the key of a field that it does not hold. -/
inductive Faulty (entries : List (Value × Value)) : Value → Prop
  | unknown {key v : Value} (listed : (key, v) ∈ entries) (other : ∀ f : Field, key ≠ .text f.key) :
      Faulty entries key
  | lacking {f : Field} (lacks : ¬ Holds entries f) : Faulty entries (.text f.key)

/-- The fields in the order of their keys. -/
def Field.byKey : List Field := [crossingAngle, chipSizeX, chipSizeY, channelLength, nodeDistance]

theorem Field.byKey_pairwise : Field.byKey.Pairwise fun f g => f.key < g.key := by
  decide

theorem Field.key_injective : Function.Injective Field.key := by
  intro f g
  cases f <;> cases g <;> decide

theorem Field.mem_byKey (f : Field) : f ∈ Field.byKey := by
  cases f <;> simp [byKey]

/-! ## The problems of a file -/

/-- Problems of single keys. -/
def Single (problems : List Document.Problem) : Prop :=
  ∀ p ∈ problems, ∃ key rules reason, p = .single ⟨[key], rules⟩ reason

theorem format_names : (format.map (·.1.name)).Nodup := by
  decide

theorem mem_format_iff {g : Document.Field × Format} : g ∈ format ↔ ∃ f : Field,
    g = (({ name := f.key, required := true } : Document.Field),
      Format.scalar [.number, .text] false true none) := by
  rw [format, List.mem_map]
  constructor
  · rintro ⟨f, -, rfl⟩
    exact ⟨f, rfl⟩
  · rintro ⟨f, rfl⟩
    exact ⟨f, f.mem_all, rfl⟩

theorem fits_iff_given : (Format.scalar [.number, .text] false true none).Fits v ↔ Given v := by
  rw [fits_scalar_iff]
  constructor
  · rintro ⟨⟨-, null⟩ | ⟨kind, some_text⟩, -⟩
    · cases null
    · cases v with
      | int n => exact .int n
      | float x => exact .float x
      | text s => exact .text (by simpa [isEmptyText] using some_text)
      | _ => cases kind
  · intro given
    cases given with
    | int n => exact ⟨.inr ⟨rfl, rfl⟩, rfl⟩
    | float x => exact ⟨.inr ⟨rfl, rfl⟩, rfl⟩
    | text some_text => exact ⟨.inr ⟨rfl, by simpa [isEmptyText] using some_text⟩, rfl⟩

/-- What is wrong with a file. -/
abbrev fileProblems (entries : List (Value × Value)) : List Document.Problem :=
  Format.recordProblems format entries

theorem fieldProblems_single {fields : List (Document.Field × Format)} {p : Document.Problem}
    (scalar : ∀ f ∈ fields, ∃ kinds nullable nonEmpty lexeme,
      f.2 = .scalar kinds nullable nonEmpty lexeme)
    (h : p ∈ fieldProblems [] [] fields key v) :
    ∃ rules reason, p = .single ⟨[key], rules⟩ reason := by
  induction fields with
  | nil =>
      rw [fieldProblems] at h
      exact ⟨_, _, List.mem_singleton.mp h⟩
  | cons f rest ih =>
      obtain ⟨⟨kinds, nullable, nonEmpty, lexeme, same⟩, others⟩ := List.forall_mem_cons.mp scalar
      rw [fieldProblems] at h
      split at h
      · rename_i here
        rw [same, problems] at h
        rw [eq_text_of_sameKey here]
        exact scalarProblems_single h
      · exact ih others h

theorem single_fileProblems (entries : List (Value × Value)) : Single (fileProblems entries) := by
  intro p listed
  rcases List.mem_append.mp listed with found | missing
  · obtain ⟨entry, -, found⟩ := List.mem_flatMap.mp found
    refine ⟨entry.1, fieldProblems_single (fun g listed => ?_) found⟩
    obtain ⟨f, rfl⟩ := mem_format_iff.mp listed
    exact ⟨_, _, _, _, rfl⟩
  · obtain ⟨field, -, rfl⟩ := List.mem_map.mp missing
    exact ⟨_, _, _, rfl⟩

theorem Single.undecided (h : Single problems) : Problem.anyUndecided problems = false := by
  rw [Problem.anyUndecided_eq, List.any_eq_false]
  intro p listed
  obtain ⟨key, rules, reason, rfl⟩ := h p listed
  exact Bool.false_ne_true

/-- The keys at fault in a file are those of its format. -/
theorem faulty_iff (distinct : Value.DistinctKeys entries) :
    Format.Faulty format entries key ↔ Faulty entries key := by
  constructor
  · intro h
    cases h with
    | unknown listed other =>
        exact .unknown listed fun f => other _ (mem_format_iff.mpr ⟨f, rfl⟩)
    | unfit known listed unfit =>
        obtain ⟨f, rfl⟩ := mem_format_iff.mp known
        refine .lacking ?_
        rintro ⟨w, found, given⟩
        refine unfit ?_
        have here := (get?_eq_some_iff distinct).mpr listed
        rw [Option.some.inj (here.symm.trans found)]
        exact fits_iff_given.mpr given
    | lacking known required lacks =>
        obtain ⟨f, rfl⟩ := mem_format_iff.mp known
        refine .lacking ?_
        rintro ⟨w, found, -⟩
        cases lacks.symm.trans found
  · intro h
    cases h with
    | unknown listed other =>
        refine .unknown listed fun g known => ?_
        obtain ⟨f, rfl⟩ := mem_format_iff.mp known
        exact other f
    | @lacking f lacks =>
        have known := mem_format_iff.mpr ⟨f, rfl⟩
        cases found : Value.get? entries f.key with
        | none => exact .lacking known rfl found
        | some v =>
            refine .unfit known (mem_of_get? found) fun fits => lacks ?_
            exact ⟨v, found, fits_iff_given.mp fits⟩

/-! ## Faults in the order of their keys -/

/-- The keys at fault have one order. -/
def Ordered (entries : List (Value × Value)) : Prop := OneOrder (Faulty entries)

/-- The faults of a file can be gathered, put in order and printed. -/
structure Tellable (host : Host) (entries : List (Value × Value)) : Prop where
  gathered : host.collects (.map entries) = true
  ordered : Ordered entries
  spoken : ∀ key, Faulty entries key → key.HasText

/-- The fields that a file does not hold, in the order of their keys. -/
noncomputable def lacking (entries : List (Value × Value)) : List Field :=
  open Classical in Field.byKey.filter fun f => ¬ Holds entries f

theorem faulty_text_iff : Faulty entries (.text f.key) ↔ ¬ Holds entries f := by
  constructor
  · generalize same : Value.text f.key = key
    rintro (⟨-, other⟩ | @⟨g, lacks⟩)
    · exact absurd same.symm (other f)
    · obtain rfl := Field.key_injective (Value.text.inj same)
      exact lacks
  · exact .lacking

/-- A mapping as texts are decoded to. -/
structure Keyed (entries : List (Value × Value)) : Prop where
  distinct : Value.DistinctKeys entries
  isKey : ∀ entry ∈ entries, entry.1.isKey = true

theorem Keyed.faults_eq (keyed : Keyed entries) : Format.Faulty format entries = Faulty entries :=
  funext fun _ => propext (faulty_iff keyed.distinct)

theorem Keyed.sortable_iff (keyed : Keyed entries)
    (arranged : arrange? (fileProblems entries) = some problems) :
    Sortable ((Outline.ofProblems problems).map (·.1)) ↔ Ordered entries := by
  rw [sortable_arranged_iff format_names arranged keyed.isKey, keyed.faults_eq, Ordered]

theorem Single.onWay (h : Single problems) (k : Value) :
    (∃ leaf ∈ Problem.leavesOf problems, k ∈ leaf.1) ↔ k ∈ firstKeys problems := by
  rw [firstKeys, Problem.leavesOf_eq, List.mem_filterMap]
  have one {leaf : List Value × Reason} (listed : leaf ∈ problems.flatMap Problem.leaves) :
      ∃ key, leaf.1 = [key] := by
    obtain ⟨p, source, listed⟩ := List.mem_flatMap.mp listed
    obtain ⟨key, rules, reason, rfl⟩ := h p source
    obtain rfl := List.mem_singleton.mp listed
    exact ⟨key, rfl⟩
  refine exists_congr fun leaf => and_congr_right fun listed => ?_
  obtain ⟨key, same⟩ := one listed
  simp [same, eq_comm]

/-- What is sorted has a text just when all keys at fault have one. -/
theorem Keyed.spoken_iff (keyed : Keyed entries)
    (arranged : arrange? (fileProblems entries) = some problems) :
    Outline.entriesLimit? (Outline.ofProblems problems) = none ↔
      ∀ key, Faulty entries key → key.HasText := by
  have single := single_fileProblems entries
  rw [Outline.entriesLimit?_ofProblems]
  simp only [(allAlike_of_arrange? arranged).leaves.mem_iff, ← keyed.faults_eq,
    ← mem_firstKeys_iff_faulty format_names single.undecided, ← single.onWay]
  exact ⟨fun each key ⟨leaf, listed, onWay⟩ => each leaf listed key onWay,
    fun each leaf listed key onWay => each key ⟨leaf, listed, onWay⟩⟩

theorem Ordered.meets (ordered : Ordered entries) {a b : Value}
    (ha : Faulty entries a) (hb : Faulty entries b) : Document.Meets a b := by
  rcases ordered with ⟨o, one⟩ | none
  · exact .ordered (one a ha) (one b hb)
  · obtain rfl := none a ha
    obtain rfl := none b hb
    exact .same rfl

theorem Single.keys (h : Single problems) {place : Place}
    (listed : place ∈ Problem.placesOf problems) {k : Value} (member : k ∈ place.keys) :
    k ∈ firstKeys problems := by
  rw [Problem.placesOf_eq] at listed
  obtain ⟨p, source, listed⟩ := List.mem_flatMap.mp listed
  obtain ⟨key, rules, reason, rfl⟩ := h p source
  obtain rfl := List.mem_singleton.mp listed
  obtain rfl := List.mem_singleton.mp member
  rw [firstKeys, Problem.leavesOf_eq]
  exact List.mem_filterMap.mpr
    ⟨([k], reason), List.mem_flatMap.mpr ⟨_, source, by simp [Problem.leaves]⟩, rfl⟩

theorem Keyed.exists_arrange? (keyed : Keyed entries) (ordered : Ordered entries) :
    ∃ made, arrange? (fileProblems entries) = some made := by
  have single := single_fileProblems entries
  have comparable := comparable_of_meets (K := Faulty entries) fun _ _ => ordered.meets
  refine (exists_arrange?_iff comparable fun place listed k member => ?_).mpr single.undecided
  have fault := (mem_firstKeys_iff_faulty format_names single.undecided).mp
    (single.keys listed member)
  rwa [keyed.faults_eq] at fault

/-! ## The fields at fault -/

theorem ofKey?_eq_some_iff : Field.ofKey? key = some f ↔ key = .text f.key := by
  constructor
  · intro h
    have same : key.sameKey (.text f.key) = true :=
      List.find?_some (p := fun g : Field => key.sameKey (.text g.key)) h
    exact eq_text_of_sameKey same
  · rintro rfl
    cases f <;> decide

/-- Of texts in order, the fields come in the order of their keys. -/
theorem fields_sorted {texts : List String} (sorted : texts.Pairwise (· < ·)) :
    ((texts.map Value.text).filterMap Field.ofKey?).Pairwise fun f g => f.key < g.key := by
  rw [List.pairwise_filterMap, List.pairwise_map]
  refine sorted.imp fun below f hf g hg => ?_
  obtain rfl := Value.text.inj (ofKey?_eq_some_iff.mp hf)
  obtain rfl := Value.text.inj (ofKey?_eq_some_iff.mp hg)
  exact below

theorem eq_of_sorted {fs gs : List Field} (hf : fs.Pairwise fun f g => f.key < g.key)
    (hg : gs.Pairwise fun f g => f.key < g.key) (same : ∀ f, f ∈ fs ↔ f ∈ gs) : fs = gs := by
  have distinct {hs : List Field} (h : hs.Pairwise fun f g => f.key < g.key) : hs.Nodup :=
    h.imp (S := fun f g => f ≠ g) fun below same => String.lt_irrefl _ (same ▸ below)
  refine List.Perm.eq_of_pairwise (fun f g _ _ below above => ?_) hf hg
    ((List.perm_ext_iff_of_nodup (distinct hf) (distinct hg)).mpr same)
  exact absurd (String.lt_trans below above) (String.lt_irrefl _)

theorem mergeSort_pairwise {texts : List String} (distinct : texts.Nodup) :
    texts.mergeSort.Pairwise (· < ·) := by
  have sorted : texts.mergeSort.Pairwise (· ≤ ·) := by
    have sorted : texts.mergeSort.Pairwise fun s t => decide (s ≤ t) = true :=
      List.pairwise_mergeSort (by simpa using fun _ _ _ => String.le_trans)
        (by simpa using fun _ _ => String.le_total _ _) texts
    exact sorted.imp fun below => by simpa using below
  have same : texts.mergeSort.Perm texts := List.mergeSort_perm _ _
  have apart := same.nodup_iff.mpr distinct
  refine (sorted.and apart).imp fun {s t} ⟨below, differ⟩ => ?_
  by_contra above
  exact differ (String.le_antisymm below (String.not_lt.mp above))

theorem exists_texts {keys : List Value} (each : ∀ k ∈ keys, k.order? = some .text) :
    ∃ texts : List String, keys = texts.map .text := by
  induction keys with
  | nil => exact ⟨[], rfl⟩
  | cons k rest ih =>
      obtain ⟨here, later⟩ := List.forall_mem_cons.mp each
      obtain ⟨texts, rfl⟩ := ih later
      cases k with
      | text s => exact ⟨s :: texts, rfl⟩
      | moment m =>
          rw [Value.order?] at here
          split at here
          · cases here
          · split at here <;> cases here
      | _ => cases here

theorem mem_lacking : f ∈ lacking entries ↔ ¬ Holds entries f := by
  simp [lacking, Field.mem_byKey]

theorem Ordered.texts (ordered : Ordered entries) (lacks : ¬ Holds entries f)
    (fault : Faulty entries key) : key.order? = some .text := by
  rcases ordered with ⟨o, one⟩ | none
  · obtain rfl := Option.some.inj ((one _ (.lacking lacks)).symm.trans rfl)
    exact one key fault
  · cases none _ (.lacking lacks)

/-- The sorted outline has the fields that are not held, in the order of their keys. -/
theorem Keyed.fields_eq (keyed : Keyed entries) (ordered : Ordered entries)
    (arranged : arrange? (fileProblems entries) = some problems)
    {issues : List (Value × Outline)}
    (sorted : Value.sortKeys? (·.1) (Outline.ofProblems problems) = some issues) :
    (issues.filterMap fun (key, _) => Field.ofKey? key) = lacking entries := by
  have spread : (issues.filterMap fun (key, _) => Field.ofKey? key) =
      (issues.map (·.1)).filterMap Field.ofKey? := by
    rw [List.filterMap_map]
    rfl
  have faults {key : Value} : key ∈ firstKeys problems ↔ Faulty entries key := by
    rw [mem_firstKeys_arranged_iff format_names arranged, keyed.faults_eq]
  have member (f : Field) : f ∈ (issues.map (·.1)).filterMap Field.ofKey? ↔ ¬ Holds entries f := by
    rw [← faulty_text_iff, ← faults, ← text_mem_outline_iff,
      ← ((sortKeys?_perm sorted).map _).mem_iff]
    simp only [List.mem_filterMap, ofKey?_eq_some_iff, exists_eq_right]
  rw [spread]
  refine eq_of_sorted ?_ (Field.byKey_pairwise.sublist List.filter_sublist)
    fun f => (member f).trans mem_lacking.symm
  by_cases lacks : ∃ f, ¬ Holds entries f
  · obtain ⟨f, lacks⟩ := lacks
    have each : ∀ k ∈ (Outline.ofProblems problems).map (·.1), k.order? = some .text :=
      fun k listed => ordered.texts lacks (faults.mp (Outline.mem_firstKeys listed))
    obtain ⟨texts, same⟩ := exists_texts each
    have apart := Outline.keys_pairwise problems
    rw [same] at apart
    have distinct : texts.Nodup := by
      refine (List.pairwise_map.mp apart).imp (S := fun s t => s ≠ t) fun differ same => ?_
      simp [same] at differ
    rw [sortKeys?_texts same sorted]
    exact fields_sorted (mergeSort_pairwise distinct)
  · have none : (issues.map (·.1)).filterMap Field.ofKey? = [] :=
      List.eq_nil_iff_forall_not_mem.mpr fun f listed => lacks ⟨f, (member f).mp listed⟩
    rw [none]
    exact .nil

/-! ## Loading -/

theorem names_sublist (value : Field → Option Value) (fields : List Field) :
    ((fields.filterMap fun f => (value f).map (f.name, ·)).map Prod.fst).Sublist
      (fields.map Field.name) := by
  induction fields with
  | nil => exact .slnil
  | cons f rest ih =>
      cases given : value f with
      | none =>
          rw [List.filterMap_cons_none (by rw [given]; rfl)]
          exact ih.cons _
      | some v =>
          rw [List.filterMap_cons_some (by rw [given]; rfl)]
          exact ih.cons_cons _

theorem Field.name_injective : Function.Injective Field.name := by
  intro f g
  cases f <;> cases g <;> decide

theorem find?_rawValues (entries : List (Value × Value)) (f : Field) :
    (rawValues entries).find? f.name = Value.get? entries f.key := by
  have names : (Field.all.map Field.name).Nodup := by decide
  refine Option.ext fun v => ?_
  rw [Catalog.find?_eq_some_iff, rawValues,
    Catalog.entries_ofList (names.sublist (names_sublist _ _))]
  simp only [List.mem_filterMap, Option.map_eq_some_iff, Prod.mk.injEq]
  constructor
  · rintro ⟨g, -, w, found, name, rfl⟩
    exact Field.name_injective name ▸ found
  · exact fun found => ⟨f, f.mem_all, v, found, rfl, rfl⟩

theorem Keyed.fileProblems_eq_nil_iff (keyed : Keyed entries) :
    fileProblems entries = [] ↔ ∀ key, ¬ Faulty entries key := by
  rw [fileProblems, recordProblems_eq_nil_iff format_names, keyed.faults_eq]

theorem ofDocument_arranged {made : List Document.Problem} (host : Host) (path : String)
    (arranged : arrange? (fileProblems entries) = some made) (fault : made ≠ []) :
    ofDocument host path (.map entries) =
      if host.collects (.map entries) then
        match Outline.inOrder (Outline.ofProblems made) with
        | .error obstacle => .error (.untellable obstacle)
        | .ok issues => .error (rejected path (.badFields (Outline.texts issues)
            (issues.filterMap fun (key, _) => Field.ofKey? key)))
      else .error (.untellable (.noText .nesting)) := by
  rw [ofDocument, arranged]
  cases made with
  | nil => exact absurd rfl fault
  | cons p rest => rfl

theorem Keyed.ofDocument_clean (keyed : Keyed entries) (none : ∀ key, ¬ Faulty entries key)
    (path : String) : ofDocument host path (.map entries) = .ok (rawValues entries) := by
  have arranged : arrange? (fileProblems entries) = some [] := by
    rw [keyed.fileProblems_eq_nil_iff.mpr none]
    rfl
  rw [ofDocument, arranged]

theorem Keyed.arranged_ne_nil (keyed : Keyed entries) (fault : Faulty entries key)
    (arranged : arrange? (fileProblems entries) = some problems) : problems ≠ [] := by
  rintro rfl
  exact keyed.fileProblems_eq_nil_iff.mp (arrange?_eq_some_nil arranged) key fault

/-- A mapping with faults that can be told is rejected for the fields that it does not
hold. -/
theorem Keyed.ofDocument_rejected (keyed : Keyed entries) (fault : Faulty entries key)
    (tellable : Tellable host entries) (path : String) : ∃ r,
      ofDocument host path (.map entries) = .error (.rejected r) ∧
      r.source = .file path ∧ r.parameterNames = (lacking entries).map Field.name := by
  obtain ⟨made, arranged⟩ := keyed.exists_arrange? tellable.ordered
  obtain ⟨issues, told⟩ := Outline.exists_inOrder_iff.mpr
    ⟨(keyed.sortable_iff arranged).mpr tellable.ordered,
      (keyed.spoken_iff arranged).mpr tellable.spoken⟩
  rw [ofDocument_arranged host path arranged (keyed.arranged_ne_nil fault arranged),
    tellable.gathered, told]
  refine ⟨_, rfl, rfl, ?_⟩
  rw [← keyed.fields_eq tellable.ordered arranged (Outline.sortKeys?_of_inOrder told)]
  rfl

/-- Any other mapping with faults meets an obstacle instead, and that keys have no order if
the faults are gathered. -/
theorem Keyed.ofDocument_untellable (keyed : Keyed entries) (fault : Faulty entries key)
    (untellable : ¬ Tellable host entries) (path : String) : ∃ obstacle,
      ofDocument host path (.map entries) = .error (.untellable obstacle) ∧
      (host.collects (.map entries) = true → ¬ Ordered entries → obstacle = .kinds) := by
  cases arranged : arrange? (fileProblems entries) with
  | none =>
      refine ⟨.kinds, ?_, fun _ _ => rfl⟩
      rw [ofDocument, arranged]
  | some made =>
      rw [ofDocument_arranged host path arranged (keyed.arranged_ne_nil fault arranged)]
      cases gathered : host.collects (.map entries) with
      | false => exact ⟨_, rfl, nofun⟩
      | true =>
          rw [← keyed.sortable_iff arranged]
          by_cases sortable : Sortable ((Outline.ofProblems made).map (·.1))
          · rcases Outline.inOrder_of_sortable sortable with ⟨-, spoken⟩ | ⟨limit, failed, -⟩
            · exact absurd ⟨gathered, (keyed.sortable_iff arranged).mp sortable,
                (keyed.spoken_iff arranged).mp spoken⟩ untellable
            · rw [failed]
              exact ⟨_, rfl, fun _ unordered => absurd sortable unordered⟩
          · rw [Outline.inOrder_of_not_sortable sortable]
            exact ⟨_, rfl, fun _ _ => rfl⟩

theorem outcome_load (host : Host) (path : Path) (tree : FileTree) :
    (load host path tree).outcome = ofFile host path tree >>= fun raw =>
      (ofValues host raw (.file (tree.fullPath path).text)).outcome := by
  simp only [load, Run.info, Run.outcome_bind, Run.outcome_log, Run.outcome_ofExcept]
  rfl

theorem ofFile_mapping {path : Path} {tree : FileTree} {content : List UInt8} {text : String}
    (stored : tree.read? path = .ok (some content))
    (decoded : String.fromUTF8? (ByteArray.mk content.toArray) = some text)
    (document : Yaml.documentOf (host.levels text.toList) text.toList = .ok (.map entries)) :
    ofFile host path tree = ofDocument host (tree.fullPath path).text (.map entries) := by
  rw [ofFile, stored]
  simp only [ofBytes, decoded, document]

/-- A process file that holds a number or a text for every field, and nothing else, is read
as its values are.  Any other is rejected for the fields that it does not hold, in the order
of their keys, if its faults can be gathered, put in order and printed, and meets an obstacle
to that if not. -/
theorem load_mapping (host : Host) {path : Path} {tree : FileTree} {content : List UInt8}
    {text : String} (stored : tree.read? path = .ok (some content))
    (decoded : String.fromUTF8? (ByteArray.mk content.toArray) = some text)
    (document : Yaml.documentOf (host.levels text.toList) text.toList = .ok (.map entries)) :
    ((∀ key, ¬ Faulty entries key) →
      (load host path tree).outcome =
        (ofValues host (rawValues entries) (.file (tree.fullPath path).text)).outcome ∧
      (∀ f : Field, (rawValues entries).find? f.name = Value.get? entries f.key) ∧
      (Contained host (rawValues entries) → Spoken host (rawValues entries) →
        (¬ ∀ f, ∃ x, Reads host (rawValues entries) f x) → ∃ r,
          (load host path tree).outcome = .error (.rejected r) ∧
          r.source = .file (tree.fullPath path).text ∧
          r.parameterNames = (faulty host (rawValues entries)).map Field.name)) ∧
    ((∃ key, Faulty entries key) → Tellable host entries → ∃ r,
      (load host path tree).outcome = .error (.rejected r) ∧
      r.source = .file (tree.fullPath path).text ∧
      r.parameterNames = (lacking entries).map Field.name) ∧
    ((∃ key, Faulty entries key) → ¬ Tellable host entries → ∃ obstacle,
      (load host path tree).outcome = .error (.untellable obstacle) ∧
      (host.collects (.map entries) = true → ¬ Ordered entries → obstacle = .kinds)) := by
  obtain ⟨distinct, isKey⟩ := Yaml.keys_of_documentOf document
  have keyed := Keyed.mk distinct isKey
  rw [outcome_load, ofFile_mapping stored decoded document]
  refine ⟨fun none => ?_, fun ⟨key, fault⟩ tellable => ?_, fun ⟨key, fault⟩ untellable => ?_⟩
  · rw [keyed.ofDocument_clean none]
    refine ⟨rfl, find?_rawValues entries, fun contained spoken fault => ?_⟩
    obtain ⟨r, ps, failed, source, names, -⟩ := outcome_rejected contained spoken fault
      (.file (tree.fullPath path).text)
    exact ⟨r, failed, source, names⟩
  · obtain ⟨r, failed, source, names⟩ := keyed.ofDocument_rejected fault tellable _
    rw [failed]
    exact ⟨r, rfl, source, names⟩
  · obtain ⟨obstacle, failed, kinds⟩ := keyed.ofDocument_untellable fault untellable _
    rw [failed]
    exact ⟨obstacle, rfl, kinds⟩

/-- A directory with one process file in it. -/
def directoryWith (content : String) : FileTree where
  entries := Catalog.empty.set "process.yaml" (.file content.toUTF8.toList)

/-- A file with an empty text, a field that is held and a key of no field. -/
def mixedFile : String :=
  "\x7b\"maximumChipSizeX\": \"\", \"minimumNodeDistance\": 1, \"depth\": 2\x7d"

def mixedEntries : List (Value × Value) :=
  [(.text "maximumChipSizeX", .text ""), (.text "minimumNodeDistance", .int 1),
    (.text "depth", .int 2)]

def isMixed : Except Yaml.Fault Value → Bool
  | .ok (.map [(.text "maximumChipSizeX", .text ""), (.text "minimumNodeDistance", .int 1),
      (.text "depth", .int 2)]) => true
  | _ => false

theorem mixedFile_decoded :
    Yaml.documentOf (Host.standard.levels mixedFile.toList) mixedFile.toList =
      .ok (.map mixedEntries) := by
  have checked : isMixed
      (Yaml.documentOf (Host.standard.levels mixedFile.toList) mixedFile.toList) = true := by
    decide +kernel
  generalize Yaml.documentOf (Host.standard.levels mixedFile.toList) mixedFile.toList = result
    at checked ⊢
  unfold isMixed at checked
  split at checked
  · rfl
  · cases checked

theorem mixedFile_rejected :
    let tree := directoryWith mixedFile
    let path : Path := ⟨["process.yaml"], false⟩
    tree.read? path = .ok (some mixedFile.toUTF8.toList) ∧
    String.fromUTF8? (ByteArray.mk mixedFile.toUTF8.toList.toArray) = some mixedFile ∧
    Yaml.documentOf (Host.standard.levels mixedFile.toList) mixedFile.toList =
      .ok (.map mixedEntries) ∧
    (∃ key, Faulty mixedEntries key) ∧ Tellable .standard mixedEntries ∧
    ∃ r, (load .standard path tree).outcome = .error (.rejected r) ∧
      r.parameterNames = (lacking mixedEntries).map Field.name := by
  intro tree path
  have stored : tree.read? path = .ok (some mixedFile.toUTF8.toList) :=
    Outcome.toOption_eq_some_iff.mp (by decide +kernel)
  have decoded : String.fromUTF8? (ByteArray.mk mixedFile.toUTF8.toList.toArray) =
      some mixedFile := by decide +kernel
  have fault : Faulty mixedEntries (.text "depth") :=
    .unknown (v := .int 2) (by simp [mixedEntries]) fun f => by cases f <;> simp [Field.key]
  have texts (key : Value) (h : Faulty mixedEntries key) : ∃ s, key = .text s := by
    cases h with
    | unknown listed =>
        simp only [mixedEntries, List.mem_cons, Prod.mk.injEq, List.not_mem_nil, or_false] at listed
        rcases listed with ⟨rfl, -⟩ | ⟨rfl, -⟩ | ⟨rfl, -⟩ <;> exact ⟨_, rfl⟩
    | lacking => exact ⟨_, rfl⟩
  have tellable : Tellable .standard mixedEntries := by
    refine ⟨by decide +kernel, .inl ⟨.text, fun key h => ?_⟩, fun key h => ?_⟩ <;>
      obtain ⟨s, rfl⟩ := texts key h <;> rfl
  obtain ⟨r, failed, -, names⟩ :=
    (load_mapping .standard stored decoded mixedFile_decoded).2.1 ⟨_, fault⟩ tellable
  exact ⟨stored, decoded, mixedFile_decoded, ⟨_, fault⟩, tellable, r, failed, names⟩

def isEmptyMapping : Except Yaml.Fault Value → Bool
  | .ok (.map []) => true
  | _ => false

theorem emptyMapping_decoded :
    Yaml.documentOf (Host.standard.levels "\x7b\x7d".toList) "\x7b\x7d".toList =
      .ok (.map []) := by
  have checked : isEmptyMapping
      (Yaml.documentOf (Host.standard.levels "\x7b\x7d".toList) "\x7b\x7d".toList) = true := by
    decide +kernel
  generalize Yaml.documentOf (Host.standard.levels "\x7b\x7d".toList) "\x7b\x7d".toList = result
    at checked ⊢
  unfold isEmptyMapping at checked
  split at checked
  · rfl
  · cases checked

/-- An empty mapping lacks every field, and is rejected for them in the order of their keys,
which is not that of their declaration. -/
theorem emptyMapping_rejected :
    ∃ r, (load .standard ⟨["process.yaml"], false⟩ (directoryWith "\x7b\x7d")).outcome =
        .error (.rejected r) ∧
      r.parameterNames = Field.byKey.map Field.name ∧
      r.parameterNames ≠ Field.all.map Field.name := by
  have stored : (directoryWith "\x7b\x7d").read? ⟨["process.yaml"], false⟩ =
      .ok (some "\x7b\x7d".toUTF8.toList) :=
    Outcome.toOption_eq_some_iff.mp (by decide +kernel)
  have decoded : String.fromUTF8? (ByteArray.mk "\x7b\x7d".toUTF8.toList.toArray) =
      some "\x7b\x7d" := by decide +kernel
  have lacks (f : Field) : ¬ Holds [] f := by
    rintro ⟨_, found, -⟩
    cases found
  have texts (key : Value) (h : Faulty [] key) : ∃ s, key = .text s := by
    cases h with
    | unknown listed => cases listed
    | lacking => exact ⟨_, rfl⟩
  have tellable : Tellable .standard [] := by
    refine ⟨by decide +kernel, .inl ⟨.text, fun key h => ?_⟩, fun key h => ?_⟩ <;>
      obtain ⟨s, rfl⟩ := texts key h <;> rfl
  obtain ⟨distinct, isKey⟩ := Yaml.keys_of_documentOf emptyMapping_decoded
  obtain ⟨r, failed, -, names⟩ := (Keyed.mk distinct isKey).ofDocument_rejected
    (.lacking (lacks .crossingAngle)) tellable _
  have all : lacking [] = Field.byKey := List.filter_eq_self.mpr fun f _ => by simpa using lacks f
  rw [outcome_load, ofFile_mapping stored decoded emptyMapping_decoded, failed]
  rw [all] at names
  exact ⟨r, rfl, names, by rw [names]; decide⟩

end FluidChip.Parameters
