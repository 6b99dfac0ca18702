import FluidChip.Proofs.Document
import FluidChip.Proofs.Schematic.Building
import FluidChip.Schematic.Load

/-!
# Loaded schematics

A document that the loader accepts gives identifiers to its nodes, ports and
connections.  The schematic that is assembled from it is well formed, and its
names are these identifiers.
-/

namespace FluidChip.Schematic

open Document Outcome Text

/-! ## Drafts -/

/-- All names that a draft gives to nodes, ports and connections are of some
kind. -/
structure Draft.Spelled (P : String → Prop) (d : Draft) : Prop where
  nodes : ∀ part ∈ d.nodes, P part.id ∧ ∀ label ∈ part.ports, P label
  connections : ∀ part ∈ d.connections, P part.id

namespace Draft

variable {fields : List (Document.Field × Format)} {entries : List (Value × Value)} {v : Value}

theorem items_fit (fit : Format.FieldsFit fields entries) {field : Document.Field}
    {atLeast : Nat} {distinct : Option String} {item : Format}
    (listed : (field, .list atLeast distinct item) ∈ fields) :
    ∀ v ∈ itemsAt entries field.name, item.Fits v := by
  unfold itemsAt
  cases present : Value.get? entries field.name with
  | none => simp
  | some v => exact (fit.fits field _ listed v present).items

theorem isIdentifier_id (fit : Format.FieldsFit fields entries) (listed : idField ∈ fields) :
    isIdentifier (textAt entries "id") = true := by
  obtain ⟨v, present⟩ := fit.required idField.1 (List.mem_map_of_mem listed) rfl
  obtain ⟨text, rfl, legal⟩ := (fit.fits _ _ listed v present).identifier
  have found : Value.get? entries "id" = some (.text text) := present
  simpa [textAt, textAt?, found, textOf?] using legal

theorem isIdentifier_part (distinct : (fields.map (·.1.name)).Nodup) (listed : idField ∈ fields)
    (h : (Format.record false fields).Fits v) :
    isIdentifier (part v).id = true ∧ Format.FieldsFit fields (entriesOf v) := by
  rcases h.record distinct with ⟨nullable, -⟩ | ⟨entries, rfl, fit⟩
  · cases nullable
  · exact ⟨isIdentifier_id fit listed, fit⟩

theorem isIdentifier_ports (fit : Format.FieldsFit nodeFields (entriesOf v)) :
    ∀ label ∈ (part v).ports, isIdentifier label = true := by
  intro label hlabel
  obtain ⟨item, hitem, read⟩ := List.mem_filterMap.mp hlabel
  have listed : ({ name := "ports" }, .list 0 none (.identifier false false)) ∈ nodeFields := by
    simp [nodeFields]
  obtain ⟨text, rfl, legal⟩ := (items_fit fit listed item hitem).identifier
  cases read
  exact legal

theorem spelled_ofDocument (fit : Format.FieldsFit format entries) :
    (ofDocument entries).Spelled fun name => isIdentifier name = true := by
  constructor
  case nodes =>
    intro made hmade
    obtain ⟨v, hv, rfl⟩ := List.mem_map.mp hmade
    have listed : ({ name := "nodes", required := true },
        .list 1 (some "id") (.record false nodeFields)) ∈ format := by simp [format]
    have fits := items_fit fit listed v hv
    obtain ⟨legal, inside⟩ := isIdentifier_part (by decide) (by simp [nodeFields]) fits
    exact ⟨legal, isIdentifier_ports inside⟩
  case connections =>
    intro made hmade
    obtain ⟨v, hv, rfl⟩ := List.mem_map.mp hmade
    have listed : ({ name := "connections" },
        .list 0 (some "id") (.record false connectionFields)) ∈ format := by simp [format]
    have fits := items_fit fit listed v hv
    exact (isIdentifier_part (by decide) (by simp [connectionFields]) fits).1

/-! ## Assembling -/

variable {s s' : Schematic} {P : String → Prop} {d : Draft} {made : DraftPart}

theorem addNode_ok (h : addNode s made = .ok s') :
    s.addNode made.id made.typeName made.ports made.attributes = .ok s' := by
  obtain ⟨-, -, h⟩ := bind_ok_iff.mp h
  exact mapError_ok_iff.mp h

theorem addConnection_ok (h : addConnection s made = .ok s') : ∃ source target,
    s.addConnection made.id source target made.typeName made.attributes = .ok s' := by
  obtain ⟨-, -, h⟩ := bind_ok_iff.mp h
  obtain ⟨source, -, h⟩ := bind_ok_iff.mp h
  obtain ⟨target, -, h⟩ := bind_ok_iff.mp h
  exact ⟨source, target, mapError_ok_iff.mp h⟩

theorem addConstraint_ok (h : addConstraint s made = .ok s') :
    s.addConstraint made.id made.typeName made.attributes = .ok s' := by
  obtain ⟨-, -, h⟩ := bind_ok_iff.mp h
  exact mapError_ok_iff.mp h

theorem assemble_ok (spelled : d.Spelled P) {fallback : String}
    (h : d.assemble fallback = .ok s) : s.WellFormed ∧ s.Spelled P := by
  obtain ⟨nodes, joined, h⟩ := bind_ok_iff.mp h
  obtain ⟨connections, connected, constrained⟩ := bind_ok_iff.mp h
  let start : Schematic := .empty (d.name.getD fallback)
  have typed : (d.declareTypes start).WellFormed ∧ (d.declareTypes start).Spelled P := by
    obtain ⟨nodesBelow, nodesDistinct, below, distinct, owned, portsDistinct⟩ :=
      wellFormed_empty (d.name.getD fallback)
    obtain ⟨spelledNodes, spelledPorts, spelledConnections⟩ :=
      spelled_empty (P := P) (d.name.getD fallback)
    exact ⟨⟨nodesBelow, nodesDistinct, below, distinct, owned, portsDistinct⟩,
      ⟨spelledNodes, spelledPorts, spelledConnections⟩⟩
  have withNodes : nodes.WellFormed ∧ nodes.Spelled P := by
    refine foldlM_preserves (I := fun s => s.WellFormed ∧ s.Spelled P) ?_ joined typed
    rintro made hmade s s' step ⟨formed, names⟩
    obtain ⟨hid, hports⟩ := spelled.nodes made hmade
    exact ⟨formed.addNode (addNode_ok step), names.addNode hid hports (addNode_ok step)⟩
  have withConnections : connections.WellFormed ∧ connections.Spelled P := by
    refine foldlM_preserves (I := fun s => s.WellFormed ∧ s.Spelled P) ?_ connected withNodes
    rintro made hmade s s' step ⟨formed, names⟩
    obtain ⟨source, target, step⟩ := addConnection_ok step
    exact ⟨formed.addConnection step, names.addConnection (spelled.connections made hmade) step⟩
  refine foldlM_preserves (I := fun s => s.WellFormed ∧ s.Spelled P) ?_ constrained withConnections
  rintro made - s s' step ⟨formed, names⟩
  exact ⟨formed.addConstraint (addConstraint_ok step), names.addConstraint (addConstraint_ok step)⟩

end Draft

/-! ## Loading -/

variable {host : Host} {s : Schematic}

/-- A draft is read from a mapping with which, completed by its defaults, nothing is wrong. -/
theorem draftOf_ok {path : String} {document : Value} {d : Draft}
    (h : draftOf host path document = .ok d) :
    ∃ entries, document = .map entries ∧
      Format.recordProblems format (Format.fillFields format entries) = [] ∧
      d = .ofDocument (Format.fillFields format entries) := by
  unfold draftOf at h
  split at h
  · cases h
  · rename_i entries
    dsimp only at h
    split at h
    · cases h
    · rename_i arranged
      cases h
      exact ⟨entries, rfl, arrange?_eq_some_nil arranged, rfl⟩
    · split at h <;> cases h
  · cases h

theorem ofDocument_ok {path fallback : String} {document : Value}
    (h : ofDocument host path fallback document = .ok s) :
    s.WellFormed ∧ s.Spelled fun name => isIdentifier name = true := by
  obtain ⟨draft, drafted, h⟩ := bind_ok_iff.mp h
  obtain ⟨entries, -, none, rfl⟩ := draftOf_ok drafted
  have fit := Format.fieldsFit_of_problems (by decide) none
  exact Draft.assemble_ok (Draft.spelled_ofDocument fit) (mapError_ok_iff.mp h)

theorem ofBytes_ok {path fallback : String} {content : List UInt8}
    (h : ofBytes host path fallback content = .ok s) :
    ∃ document, ofDocument host path fallback document = .ok s := by
  unfold ofBytes at h
  split at h
  · cases h
  · split at h
    · split at h <;> cases h
    · exact ⟨_, h⟩

theorem ofFile_ok {path : Path} {tree : FileTree} (h : ofFile host path tree = .ok s) :
    ∃ at' fallback document, ofDocument host at' fallback document = .ok s := by
  unfold ofFile at h
  split at h
  · cases h
  · cases h
  · obtain ⟨document, h⟩ := ofBytes_ok h
    exact ⟨_, _, document, h⟩

theorem ofDocument_misfit {path fallback at' : String} {document : Value} {m : Misfit}
    (h : ofDocument host path fallback document = .error (.flawed at' (.misfit m))) :
    ∃ d, draftOf host path document = .ok d ∧ d.assemble fallback = .error m := by
  rcases bind_error_iff.mp h with h | ⟨d, drafted, h⟩
  · unfold draftOf at h
    split at h
    · cases h
    · dsimp only at h
      split at h
      · cases h
      · cases h
      · split at h <;> cases h
    · cases h
  · obtain ⟨m, refused, same⟩ := mapError_error_iff.mp h
    cases same
    exact ⟨d, drafted, refused⟩

/-- A misfit comes from the assembling of a draft. -/
theorem ofFile_misfit {path : Path} {tree : FileTree} {at' : String} {m : Misfit}
    (h : ofFile host path tree = .error (.flawed at' (.misfit m))) :
    ∃ path fallback document d, draftOf host path document = .ok d ∧
      d.assemble fallback = .error m := by
  unfold ofFile at h
  split at h
  · cases h
  · cases h
  unfold ofBytes at h
  split at h
  · cases h
  split at h
  · split at h <;> cases h
  obtain ⟨d, drafted, refused⟩ := ofDocument_misfit h
  exact ⟨_, _, _, d, drafted, refused⟩

theorem outcome_load (path : Path) (tree : FileTree) :
    (load host path tree).outcome = ofFile host path tree := by
  simp only [load, Run.info, Run.outcome_bind, Run.outcome_log, Run.outcome_ofExcept]
  cases ofFile host path tree <;> rfl

theorem load_ok {path : Path} {tree : FileTree} (h : (load host path tree).outcome = .ok s) :
    ∃ at' fallback document, ofDocument host at' fallback document = .ok s :=
  ofFile_ok (outcome_load path tree ▸ h)

end FluidChip.Schematic
