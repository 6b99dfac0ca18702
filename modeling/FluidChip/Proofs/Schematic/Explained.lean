import FluidChip.CommandLine.Run
import FluidChip.Host
import FluidChip.Proofs.Document.Defaults
import FluidChip.Proofs.Document.Faulty
import FluidChip.Proofs.Schematic.Joined
import FluidChip.Proofs.Schematic.Symbols
import FluidChip.Proofs.Yaml.Document

/-!
# Faults that are told

The program tells a user of a fault of a schematic file if the fault is of one of the kinds
that the loader has for it, with a message and a report.  Others escape: a scalar that has
no value, a text that is nested too deep, a check that cannot be carried out, problems that
have no order or are too many levels deep, and fields that have no order or no text.
-/

namespace FluidChip.Schematic

open Document Document.Format Outcome

variable {host : Host} {entries : List (Value × Value)} {document : Value} {path fallback : String}
  {issues : List (Value × Outline)} {content : List UInt8} {fault : LoadFault}

/-! ## Told faults -/

/-- A fault is of a kind that the loader has for it, with a message and a report. -/
structure LoadFault.Told (fault : LoadFault) : Prop where
  kind : fault.kind = "ParsingError" ∨ fault.kind = "SchemaValidationError"
  message : ∃ text, fault.message? = some text
  report : ∃ report, fault.report? = some report

theorem LoadFault.told_iff_report : fault.Told ↔ ∃ report, fault.report? = some report := by
  refine ⟨Told.report, fun ⟨report, reported⟩ => ?_⟩
  cases fault with
  | flawed path flaw =>
      refine ⟨.inl ?_, ⟨_, rfl⟩, ⟨report, reported⟩⟩
      cases flaw with
      | misfit m =>
          cases m with
          | taken failure => cases reported
          | _ => rfl
      | _ => rfl
  | unfit path issues =>
      obtain ⟨fields, sorted, -⟩ := Option.map_eq_some_iff.mp reported
      exact ⟨.inr rfl, ⟨_, Option.map_eq_some_iff.mpr ⟨fields, sorted, rfl⟩⟩, ⟨report, reported⟩⟩
  | _ => cases reported

theorem told_unfit_iff : (LoadFault.unfit path issues).Told ↔
    Sortable (issues.map (·.1)) ∧ Outline.entriesLimit? issues = none := by
  rw [LoadFault.told_iff_report, ← Outline.exists_inOrder_iff]
  simp only [LoadFault.report?, Option.map_eq_some_iff, toOption_eq_some_iff]
  constructor
  · rintro ⟨-, ordered, told, -⟩
    exact ⟨ordered, told⟩
  · rintro ⟨ordered, told⟩
    exact ⟨_, ordered, told, rfl⟩

theorem told_flawed {flaw : Flaw} (kept : ∀ failure, flaw ≠ .misfit (.taken failure)) :
    (LoadFault.flawed path flaw).Told := by
  rw [LoadFault.told_iff_report]
  cases flaw with
  | misfit m =>
      cases m with
      | taken failure => exact absurd rfl (kept failure)
      | _ => exact ⟨_, rfl⟩
  | _ => exact ⟨_, rfl⟩

/-! ## Documents -/

/-- A document with its defaults. -/
abbrev completed (entries : List (Value × Value)) : List (Value × Value) :=
  fillFields format entries

/-- All keys are whole numbers, truth values or texts. -/
def Plain (document : Value) : Prop :=
  ∀ key, document.HasKey key → isWhole key = true ∨ isText key = true

theorem meets_plain (a b : Value) (ha : isWhole a = true ∨ isText a = true)
    (hb : isWhole b = true ∨ isText b = true) : Document.Meets a b := by
  have number {v : Value} (whole : isWhole v = true) : v.order? = some .number := by
    cases v with
    | int | bool => rfl
    | _ => cases whole
  have text {v : Value} (text : isText v = true) : v.order? = some .text := by
    cases v with
    | text => rfl
    | _ => cases text
  cases second : isWhole b with
  | false =>
      rcases ha with whole | first
      · exact .whole whole second
      · exact .ordered (text first) (text (hb.resolve_left (by simp [second])))
  | true =>
      rcases ha with whole | first
      · exact .ordered (number whole) (number second)
      · refine .text first ?_
        cases b with
        | text => cases second
        | _ => rfl

/-- The problems of a document with its defaults. -/
abbrev problemsOf (entries : List (Value × Value)) : List Problem :=
  recordProblems format (completed entries)

/-- A document has a fault that is not told. -/
inductive Confuses (host : Host) (entries : List (Value × Value)) : Prop
  /-- A check cannot be carried out. -/
  | baffling (baffles : (record false format).Baffles (.map (completed entries)))
  /-- The problems have no order, for the sake of some other key. -/
  | unplaced (strange : ¬ Plain (.map (completed entries)))
      (unordered : arrange? (problemsOf entries) = none)
  /-- There are problems, and the host cannot gather those of a document so deep. -/
  | deep (faulty : problemsOf entries ≠ []) (ungathered : host.collects (.map entries) = false)
  /-- The keys at fault have no order. -/
  | unsorted (disorder : ¬ OneOrder (Faulty format (completed entries)))
  /-- A key on the way to a problem has no text. -/
  | unspoken {leaf : List Value × Reason} {key : Value}
      (listed : leaf ∈ Problem.leavesOf (problemsOf entries)) (onWay : key ∈ leaf.1)
      (mute : ¬ key.HasText) : Confuses host entries

theorem format_names : (format.map (·.1.name)).Nodup := by
  decide

theorem arrange?_of_baffles
    (baffles : (record false format).Baffles (.map (completed entries))) :
    arrange? (problemsOf entries) = none := by
  rw [← recordProblems_undecided_iff false] at baffles
  cases arranged : arrange? (problemsOf entries) with
  | none => rfl
  | some made =>
      have decided := (allAlike_of_arrange? arranged).decided.2
      rw [baffles] at decided
      cases decided

/-- Plain keys all meet, so that nothing but an undecided check is in the way of an order. -/
theorem baffles_of_plain (plain : Plain (.map (completed entries)))
    (unordered : arrange? (problemsOf entries) = none) :
    (record false format).Baffles (.map (completed entries)) := by
  have covers : Covers (fun key => isWhole key = true ∨ isText key = true)
      (.map (completed entries)) := ⟨fun _ => .inl rfl, fun _ => .inr rfl, plain⟩
  by_contra decided
  obtain ⟨made, arranged⟩ := (exists_arrange?_record_iff meets_plain covers false).mpr decided
  cases unordered.symm.trans arranged

/-- The keys at fault in an arranged document have an order and texts just when the outline
of its problems is told. -/
theorem outline_arranged_iff {made : List Problem}
    (isKey : ∀ entry ∈ entries, entry.1.isKey = true)
    (arranged : arrange? (problemsOf entries) = some made) :
    (Sortable ((Outline.ofProblems made).map (·.1)) ∧
        Outline.entriesLimit? (Outline.ofProblems made) = none) ↔
      OneOrder (Faulty format (completed entries)) ∧
        ∀ leaf ∈ Problem.leavesOf (problemsOf entries), ∀ key ∈ leaf.1, key.HasText := by
  have keys : ∀ entry ∈ completed entries, entry.1.isKey = true := by
    have kept : ∀ key ∈ (completed entries).map (·.1), key.isKey = true :=
      keys_fillFields (fun _ => rfl) (by simpa using fun a b => isKey (a, b))
    exact fun entry listed => kept entry.1 (List.mem_map_of_mem listed)
  rw [sortable_arranged_iff format_names arranged keys, Outline.entriesLimit?_ofProblems]
  simp only [(allAlike_of_arrange? arranged).leaves.mem_iff]

/-- A fault of an arranged document is told if its problems can be gathered, and the keys at
fault have an order and texts. -/
theorem confuses_arranged_iff {made : List Problem}
    (isKey : ∀ entry ∈ entries, entry.1.isKey = true)
    (arranged : arrange? (problemsOf entries) = some made) :
    Confuses host entries ↔
      made ≠ [] ∧ host.collects (.map entries) = false ∨
        ¬ (Sortable ((Outline.ofProblems made).map (·.1)) ∧
          Outline.entriesLimit? (Outline.ofProblems made) = none) := by
  rw [outline_arranged_iff isKey arranged]
  have placed : arrange? (problemsOf entries) ≠ none := by simp [arranged]
  have some_problem : problemsOf entries ≠ [] ↔ made ≠ [] := by
    refine not_congr ⟨fun none => ?_, ?_⟩
    · rw [none] at arranged
      exact (Option.some.inj arranged).symm
    · rintro rfl
      exact arrange?_eq_some_nil arranged
  constructor
  · intro h
    cases h with
    | baffling baffles => exact absurd (arrange?_of_baffles baffles) placed
    | unplaced strange unordered => exact absurd unordered placed
    | deep faulty ungathered => exact .inl ⟨some_problem.mp faulty, ungathered⟩
    | unsorted disorder => exact .inr fun told => disorder told.1
    | unspoken listed onWay mute => exact .inr fun told => mute (told.2 _ listed _ onWay)
  · rintro (⟨faulty, ungathered⟩ | untold)
    · exact .deep (some_problem.mpr faulty) ungathered
    · by_contra clear
      refine untold ⟨by_contra fun disorder => clear (.unsorted disorder), ?_⟩
      exact fun leaf listed key onWay => by_contra fun mute => clear (.unspoken listed onWay mute)

theorem ofDocument_of_undrafted (undrafted : draftOf host path document = .error fault)
    (fallback : String) :
    ofDocument host path fallback document = .error fault := by
  rw [ofDocument, undrafted]
  rfl

/-- What keeps the parts of a draft from being joined is told. -/
theorem told_of_drafted {d : Draft} (drafted : draftOf host path document = .ok d)
    (failed : ofDocument host path fallback document = .error fault) : fault.Told := by
  rw [ofDocument, drafted] at failed
  obtain ⟨m, refused, rfl⟩ := mapError_error_iff.mp failed
  refine told_flawed fun failure same => ?_
  cases same
  exact assemble_spares (distinct_of_draftOf drafted) _ refused (.other failure)

theorem untold_undecidable (obstacle : Obstacle) : ¬ (LoadFault.undecidable obstacle).Told := by
  intro told
  obtain ⟨_, reported⟩ := told.report
  cases reported

theorem ofDocument_untold_iff (isKey : ∀ entry ∈ entries, entry.1.isKey = true) :
    (∃ fault, ofDocument host path fallback (.map entries) = .error fault ∧ ¬ fault.Told) ↔
      Confuses host entries := by
  cases arranged : arrange? (problemsOf entries) with
  | none =>
      have drafted : draftOf host path (.map entries) =
          .error (.undecidable (Problem.firstObstacle (problemsOf entries))) := by
        simp only [draftOf, arranged]
      refine iff_of_true ⟨_, ofDocument_of_undrafted drafted fallback, untold_undecidable _⟩ ?_
      by_cases plain : Plain (.map (completed entries))
      · exact .baffling (baffles_of_plain plain arranged)
      · exact .unplaced plain arranged
  | some made =>
      rw [confuses_arranged_iff isKey arranged]
      cases made with
      | nil =>
          have told : Sortable ((Outline.ofProblems []).map (·.1)) ∧
              Outline.entriesLimit? (Outline.ofProblems []) = none := ⟨.inl (by
            simp [Outline.ofProblems, Problem.leavesOf]), rfl⟩
          refine iff_of_false ?_ (by simp [told])
          rintro ⟨fault, failed, untold⟩
          have drafted : draftOf host path (.map entries) =
              .ok (.ofDocument (completed entries)) := by
            simp only [draftOf, arranged]
          exact untold (told_of_drafted drafted failed)
      | cons p rest =>
          have unfit : (LoadFault.unfit path (Outline.ofProblems (p :: rest))).Told ↔ _ :=
            told_unfit_iff
          rw [← unfit]
          have drafted : draftOf host path (.map entries) =
              if host.collects (.map entries) then
                .error (.unfit path (Outline.ofProblems (p :: rest)))
              else .error (.undecidable (.noText .nesting)) := by
            simp only [draftOf, arranged]
          cases gathered : host.collects (.map entries) with
          | false =>
              rw [gathered] at drafted
              refine iff_of_true ⟨_, ofDocument_of_undrafted drafted _, untold_undecidable _⟩ ?_
              exact .inl ⟨List.cons_ne_nil _ _, rfl⟩
          | true =>
              rw [gathered] at drafted
              rw [ofDocument_of_undrafted drafted]
              simp

theorem ofDocument_of_ne_map (host : Host) (path fallback : String)
    (other : ∀ entries, document ≠ .map entries) :
    ofDocument host path fallback document = .error (.flawed path .empty) ∨
      ofDocument host path fallback document = .error (.flawed path .notMapping) := by
  rw [ofDocument, draftOf.eq_def]
  split
  · exact .inl rfl
  · exact absurd rfl (other _)
  · exact .inr rfl

/-! ## Contents -/

/-- A content has a fault that is not told. -/
@[mk_iff]
inductive Escapes (host : Host) (content : List UInt8) : Prop
  /-- A scalar has the form of a value and is none, or the text is nested too deep. -/
  | valueless {text : String} {fault : Yaml.Fault}
      (decoded : String.fromUTF8? (ByteArray.mk content.toArray) = some text)
      (failed : Yaml.documentOf (host.levels text.toList) text.toList = .error fault)
      (wellFormed : fault.isMalformed = false) : Escapes host content
  | confused {text : String} {entries : List (Value × Value)}
      (decoded : String.fromUTF8? (ByteArray.mk content.toArray) = some text)
      (read : Yaml.documentOf (host.levels text.toList) text.toList = .ok (.map entries))
      (confuses : Confuses host entries) : Escapes host content

theorem escapes_iff_of_decoded {text : String}
    (decoded : String.fromUTF8? (ByteArray.mk content.toArray) = some text) :
    Escapes host content ↔
      (∃ fault, Yaml.documentOf (host.levels text.toList) text.toList = .error fault ∧
        fault.isMalformed = false) ∨
      ∃ entries, Yaml.documentOf (host.levels text.toList) text.toList = .ok (.map entries) ∧
        Confuses host entries := by
  simp [escapes_iff, decoded]

theorem ofBytes_untold_iff :
    (∃ fault, ofBytes host path fallback content = .error fault ∧ ¬ fault.Told) ↔
      Escapes host content := by
  have all_told {flaw : Flaw} (kept : ∀ failure, flaw ≠ .misfit (.taken failure)) :
      ¬ ∃ fault, (Except.error (.flawed path flaw) : Except LoadFault Schematic) = .error fault ∧
        ¬ fault.Told := by
    rintro ⟨fault, same, untold⟩
    cases same
    exact untold (told_flawed kept)
  cases decoded : String.fromUTF8? (ByteArray.mk content.toArray) with
  | none =>
      simp only [ofBytes, decoded]
      exact iff_of_false (all_told (by simp)) (by simp [escapes_iff, decoded])
  | some text =>
      rw [escapes_iff_of_decoded decoded]
      cases read : Yaml.documentOf (host.levels text.toList) text.toList with
      | error fault =>
          simp only [ofBytes, decoded, read]
          cases malformed : fault.isMalformed with
          | true => exact iff_of_false (all_told (by simp)) (by simp [malformed])
          | false =>
              refine iff_of_true ⟨_, rfl, fun told => ?_⟩ (.inl ⟨fault, rfl, malformed⟩)
              obtain ⟨_, reported⟩ := told.report
              cases reported
      | ok document =>
          simp only [ofBytes, decoded, read]
          by_cases mapping : ∃ entries, document = .map entries
          · obtain ⟨entries, rfl⟩ := mapping
            rw [ofDocument_untold_iff (Yaml.keys_of_documentOf read).2]
            simp
          · have other := fun entries same => mapping ⟨entries, same⟩
            refine iff_of_false ?_ (by simpa using fun entries same => absurd same (other entries))
            rcases ofDocument_of_ne_map host path fallback other with failed | failed
            · exact failed ▸ all_told (by simp)
            · exact failed ▸ all_told (by simp)

/-! ## Runs -/

theorem ofFile_stored {path : Path} {tree : FileTree}
    (stored : tree.read? path = .ok (some content)) :
    ofFile host path tree =
      ofBytes host (tree.fullPath path).text (tree.fullPath path).stem content := by
  rw [ofFile, stored]

/-- Once the parameters are there, the program ends with the code for a failure on a fault of
the schematic that is told, and escapes on any other. -/
theorem exitCode_execute {name : String} {tree : FileTree} {a : CommandLine.Arguments}
    {p : Parameters} (given : (CommandLine.loadParameters host a tree).outcome = .ok p)
    (failed : (load host (.ofText name) tree).outcome = .error fault) :
    CommandLine.exitCode? (CommandLine.execute host name a tree).2.outcome = some 1 ↔
      fault.Told := by
  have loaded : (CommandLine.loadParameters host a tree >>= fun p =>
      CommandLine.loadSchematic host (.ofText name) tree >>= fun s =>
        (pure (p, s) : Run CommandLine.Failure (Parameters × Schematic))).outcome =
      .error (CommandLine.schematicFailure fault) := by
    simp only [Run.outcome_bind, given, CommandLine.loadSchematic, Run.mapError,
      Run.outcome_onError, failed]
    rfl
  simp only [CommandLine.execute, loaded, CommandLine.schematicFailure]
  rw [LoadFault.told_iff_report]
  cases fault.report? with
  | none => simp [CommandLine.exitCode?]
  | some report => simp [CommandLine.exitCode?]

/-- A file with a number for a key and without nodes. -/
def strayKey : String := "\x7b1: \"a\"\x7d"

def strayEntries : List (Value × Value) := [(.int 1, .text "a")]

def isStray : Except Yaml.Fault Value → Bool
  | .ok (.map [(.int 1, .text "a")]) => true
  | _ => false

theorem strayKey_decoded :
    Yaml.documentOf (Host.standard.levels strayKey.toList) strayKey.toList =
      .ok (.map strayEntries) := by
  have checked : isStray
      (Yaml.documentOf (Host.standard.levels strayKey.toList) strayKey.toList) = true := by
    decide +kernel
  generalize Yaml.documentOf (Host.standard.levels strayKey.toList) strayKey.toList = result
    at checked ⊢
  unfold isStray at checked
  split at checked
  · rfl
  · cases checked

theorem strayKey_confuses : Confuses host strayEntries := by
  have filled : completed strayEntries = strayEntries := by rfl
  refine .unsorted fun one => ?_
  rw [filled] at one
  have stray : Faulty format strayEntries (.int 1) :=
    .unknown (v := .text "a") (List.mem_singleton_self _) nofun
  have lacking : Faulty format strayEntries (.text "nodes") :=
    .lacking (f := ({ name := "nodes", required := true },
      .list 1 (some "id") (.record false nodeFields))) (by simp [format]) rfl rfl
  rcases one with ⟨o, each⟩ | null
  · cases (each _ stray).trans (each _ lacking).symm
  · cases null _ stray

/-- A file with a list for the identifier of a node. -/
def listIdentifier : String :=
  "\x7b\"nodes\": [\x7b\"id\": [\"a\"], \"type\": \"channelCrossing\"\x7d]\x7d"

def isUndecidable {α : Type} : Except LoadFault α → Bool
  | .error (.undecidable .kinds) => true
  | _ => false

end FluidChip.Schematic
