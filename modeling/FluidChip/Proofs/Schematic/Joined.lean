import FluidChip.Proofs.Schematic.Assembled
import FluidChip.Proofs.Schematic.Reading

/-!
# What loading promises

The parts of a draft have different ids, so none is refused for its name when it is
added.  In the schematic that comes out, every port is registered under one name on
one node, its owner, and connections end on such ports.
-/

namespace FluidChip.Schematic

open Document Document.Format Outcome

/-! ## Promises -/

/-- No two parts of one kind share an id. -/
structure Draft.Distinct (d : Draft) : Prop where
  nodes : (d.nodes.map (·.id)).Nodup
  connections : (d.connections.map (·.id)).Nodup
  constraints : (d.constraints.map (·.id)).Nodup

/-- A part is refused because its name is taken. -/
inductive Misfit.RepeatsName : Misfit → Prop
  | node (id schematic name : String) :
      RepeatsName (.badNode id (.duplicate (.node schematic name)))
  | other (failure : Failure) : RepeatsName (.taken failure)

/-- A port is registered under a label on a node of the schematic. -/
def Hangs (s : Schematic) (port : PortId) (id : NodeId) (label : String) : Prop :=
  id ∈ s.nodes.values ∧ (label, port) ∈ (s.node id).ports.entries

/-- A port is registered on its owner, and nowhere else, under one label. -/
def Settled (s : Schematic) (port : PortId) : Prop :=
  ∃ label, s.Hangs port (s.owner port) label ∧
    ∀ id other, s.Hangs port id other → id = s.owner port ∧ other = label

structure Joined (s : Schematic) : Prop where
  ports : ∀ port id label, s.Hangs port id label → s.Settled port
  ends : ∀ c ∈ s.connections.values,
    s.Settled (s.connection c).source ∧ s.Settled (s.connection c).target

variable {host : Host} {s s' : Schematic} {d : Draft} {name typeName fallback path : String}
  {attributes : Attributes}

/-! ## Names that are new -/

theorem ids_nodup {entries : List (Value × Value)} (field : Field) (n : Nat)
    (fields : List (Field × Format)) (fit : FieldsFit format entries)
    (listed : (field, list n (some "id") (record false fields)) ∈ format)
    (names : (fields.map (·.1.name)).Nodup) (hasId : idField ∈ fields) :
    (((Draft.itemsAt entries field.name).map Draft.part).map (·.id)).Nodup := by
  unfold Draft.itemsAt
  cases present : Value.get? entries field.name with
  | none => simp
  | some v =>
      obtain ⟨-, -, apart, each⟩ := fits_list_iff.mp (fit.fits _ _ listed v present)
      exact (distinctItems_iff fun x member => exists_id names hasId (each x member)).mp
        (apart "id" rfl)

theorem distinct_of_draftOf {document : Value} (h : draftOf host path document = .ok d) :
    d.Distinct := by
  obtain ⟨entries, -, faultless, rfl⟩ := draftOf_ok h
  have fit := fieldsFit_of_problems (by decide) faultless
  constructor
  case nodes =>
    exact ids_nodup ⟨"nodes", true, none⟩ 1 nodeFields fit (by simp [format]) (by decide)
      (by simp [nodeFields])
  case connections =>
    exact ids_nodup ⟨"connections", false, none⟩ 0 connectionFields fit (by simp [format])
      (by decide) (by simp [connectionFields])
  case constraints =>
    exact ids_nodup ⟨"constraints", false, none⟩ 0 constraintFields fit (by simp [format])
      (by decide) (by simp [constraintFields])

theorem spares_addPorts {node : NodeId} {labels : List String} :
    Spares (fun failure => ∃ schematic name, failure = .duplicate (.node schematic name))
      (s.addPorts node labels) := by
  induction labels generalizing s with
  | nil => exact .pure s
  | cons label rest ih =>
      refine .bind ?_ fun _ _ => ih
      unfold addPort
      split
      · exact .error (by simp)
      · exact .pure _

theorem spares_addNode {labels : List String} (new : name ∉ s.nodes.names) :
    Spares (fun failure => ∃ schematic name, failure = .duplicate (.node schematic name))
      (s.addNode name typeName labels attributes) := by
  rw [addNode, Catalog.contains_eq_false_iff.mpr new]
  exact .bind spares_addPorts fun _ _ => .pure _

theorem addNode_names {labels : List String}
    (h : s.addNode name typeName labels attributes = .ok s') :
    s'.nodes.names = s.nodes.names ++ [name] ∧ s'.connections = s.connections ∧
      s'.constraints = s.constraints := by
  obtain ⟨new, made, ports, rfl⟩ := addNode_ok h
  have frame := addPorts_eq ports
  have nodes : made.nodes = s.nodes := by rw [frame]; rfl
  refine ⟨?_, by rw [frame]; rfl, by rw [frame]; rfl⟩
  rw [← nodes] at new
  rw [Catalog.names_set_of_notMem new, nodes]

/-- Nodes leave the other parts as they are. -/
theorem foldlM_addNode_frame {parts : List DraftPart}
    (h : parts.foldlM Draft.addNode s = .ok s') :
    s'.connections = s.connections ∧ s'.constraints = s.constraints := by
  refine foldlM_preserves
    (I := fun made => made.connections = s.connections ∧ made.constraints = s.constraints)
    ?_ h ⟨rfl, rfl⟩
  rintro part - made made' step ⟨connections, constraints⟩
  obtain ⟨-, connections', constraints'⟩ := addNode_names (Draft.addNode_ok step)
  exact ⟨connections'.trans connections, constraints'.trans constraints⟩

theorem addConnection_names {source target : PortId}
    (h : s.addConnection name source target typeName attributes = .ok s') :
    s'.connections.names = s.connections.names ++ [name] ∧ s'.constraints = s.constraints := by
  obtain ⟨new, -⟩ := addConnection_ok h
  rw [addConnection_of_notMem new] at h
  cases h
  exact ⟨Catalog.names_set_of_notMem new, rfl⟩

theorem foldlM_addConnection_constraints {parts : List DraftPart}
    (h : parts.foldlM Draft.addConnection s = .ok s') : s'.constraints = s.constraints := by
  refine foldlM_preserves (I := fun made => made.constraints = s.constraints) ?_ h rfl
  rintro part - made made' step same
  obtain ⟨source, target, step⟩ := Draft.addConnection_ok step
  exact (addConnection_names step).2.trans same

theorem spares_requireDeclared {types : Hierarchy} {kind : String} {part : DraftPart} :
    Spares Misfit.RepeatsName (Draft.requireDeclared types kind part) := by
  unfold Draft.requireDeclared
  split
  · exact .pure ()
  · exact .error nofun

theorem spares_endOf {part : DraftPart} {place : String} :
    Spares Misfit.RepeatsName (Draft.endOf s part place) :=
  .mapError fun _ _ => nofun

/-- Parts with different ids are added one after another, each under a new name. -/
theorem spares_foldlM (names : Schematic → List String) {parts : List DraftPart}
    {add : Schematic → DraftPart → Except Misfit Schematic}
    (distinct : (parts.map (·.id)).Nodup) (empty : names s = [])
    (each : ∀ part s, part.id ∉ names s → Spares Misfit.RepeatsName (add s part) ∧
      ∀ s', add s part = .ok s' → names s' = names s ++ [part.id]) :
    Spares Misfit.RepeatsName (parts.foldlM add s) := by
  refine .foldlM (I := fun front s => names s = front.map (·.id)) ?_ empty
  intro front part back whole s built
  have new : part.id ∉ names s := built ▸ notMem_front whole distinct
  obtain ⟨good, step⟩ := each part s new
  refine ⟨good, fun s' h => ?_⟩
  rw [step s' h, built, List.map_append, List.map_singleton]

theorem spares_nodes {parts : List DraftPart} (distinct : (parts.map (·.id)).Nodup)
    (unmade : s.nodes.names = []) :
    Spares Misfit.RepeatsName (parts.foldlM Draft.addNode s) := by
  refine spares_foldlM (·.nodes.names) distinct unmade fun part s new => ⟨?_, ?_⟩
  · refine .bind spares_requireDeclared fun _ _ => .mapError ?_
    rintro failure failed ⟨_, schematic, name⟩
    exact spares_addNode new _ failed ⟨schematic, name, rfl⟩
  · exact fun s' h => (addNode_names (Draft.addNode_ok h)).1

theorem spares_connections {parts : List DraftPart} (distinct : (parts.map (·.id)).Nodup)
    (unjoined : s.connections.names = []) :
    Spares Misfit.RepeatsName (parts.foldlM Draft.addConnection s) := by
  refine spares_foldlM (·.connections.names) distinct unjoined
    fun part s new => ⟨?_, fun s' h => ?_⟩
  · exact .bind spares_requireDeclared fun _ _ => .bind spares_endOf fun _ _ =>
      .bind spares_endOf fun _ _ => .mapError (.of_ok (addConnection_of_notMem new))
  · obtain ⟨source, target, h⟩ := Draft.addConnection_ok h
    exact (addConnection_names h).1

theorem spares_constraints {parts : List DraftPart} (distinct : (parts.map (·.id)).Nodup)
    (free : s.constraints.names = []) :
    Spares Misfit.RepeatsName (parts.foldlM Draft.addConstraint s) := by
  refine spares_foldlM (·.constraints.names) distinct free fun part s new => ?_
  have made : s.addConstraint part.id part.typeName part.attributes = .ok _ :=
    addConstraint_of_notMem new
  refine ⟨.bind spares_requireDeclared fun _ _ => .mapError (.of_ok made), fun s' h => ?_⟩
  cases (Draft.addConstraint_ok h).symm.trans made
  exact Catalog.names_set_of_notMem new

/-- After the checks of a document, no part can be refused for its name. -/
theorem assemble_spares (distinct : d.Distinct) :
    Spares Misfit.RepeatsName (d.assemble fallback) := by
  refine .bind (spares_nodes distinct.nodes rfl) fun joined hnodes => ?_
  obtain ⟨unjoined, free⟩ := foldlM_addNode_frame hnodes
  refine .bind (spares_connections distinct.connections (by rw [unjoined]; rfl))
    fun connected hconnections => ?_
  have free' := (foldlM_addConnection_constraints hconnections).trans free
  exact spares_constraints distinct.constraints (by rw [free']; rfl)

/-! ## Ports in their places -/

/-- Connections end on registered ports. -/
def Ends (s : Schematic) : Prop :=
  ∀ c ∈ s.connections.values, (∃ id label, s.Hangs (s.connection c).source id label) ∧
    ∃ id label, s.Hangs (s.connection c).target id label

theorem WellFormed.settled (formed : s.WellFormed) {port : PortId} {id : NodeId} {label : String}
    (hangs : s.Hangs port id label) : s.Settled port := by
  obtain rfl : s.owner port = id := (formed.portsOwned id port (List.mem_map_of_mem hangs.2)).2
  exact ⟨label, hangs, fun id other elsewhere => formed.registered_once elsewhere.2 hangs.2⟩

theorem joined_of_ends (formed : s.WellFormed) (ends : s.Ends) : s.Joined := by
  refine ⟨fun _ _ _ => formed.settled, fun c listed => ?_⟩
  obtain ⟨⟨_, _, source⟩, ⟨_, _, target⟩⟩ := ends c listed
  exact ⟨formed.settled source, formed.settled target⟩

theorem hangs_of_getPort {node label : String} {port : PortId}
    (h : s.getPort node label = .ok port) : ∃ id label, s.Hangs port id label := by
  obtain ⟨id, named, found⟩ := getPort_ok_iff.mp h
  exact ⟨id, label, List.mem_map_of_mem named, Catalog.find?_eq_some_iff.mp found⟩

theorem Ends.addConnection (ends : s.Ends) (formed : s.WellFormed) {source target : PortId}
    (from' : ∃ id label, s.Hangs source id label) (to' : ∃ id label, s.Hangs target id label)
    (h : s.addConnection name source target typeName attributes = .ok s') : s'.Ends := by
  obtain ⟨new, -⟩ := addConnection_ok h
  rw [addConnection_of_notMem new] at h
  cases h
  intro c listed
  rcases (Catalog.mem_values_set_of_notMem new).mp listed with old | rfl
  · have below := formed.connectionsBelow c old
    have other : c ≠ ⟨s.next⟩ := by
      rintro rfl
      simp at below
    simp only [setConnection, if_neg other]
    exact ends c old
  · simp only [setConnection, if_pos]
    exact ⟨from', to'⟩

theorem assemble_joined (h : d.assemble fallback = .ok s) : s.WellFormed ∧ s.Joined := by
  obtain ⟨joined, hnodes, h⟩ := bind_ok_iff.mp h
  obtain ⟨connected, hconnections, h⟩ := bind_ok_iff.mp h
  have typed : (d.declareTypes (.empty (d.name.getD fallback))).WellFormed := by
    obtain ⟨nodesBelow, nodesDistinct, below, distinct, owned, portsDistinct⟩ :=
      wellFormed_empty (d.name.getD fallback)
    exact ⟨nodesBelow, nodesDistinct, below, distinct, owned, portsDistinct⟩
  have formed : joined.WellFormed :=
    foldlM_preserves (fun _ _ _ _ step formed => formed.addNode (Draft.addNode_ok step))
      hnodes typed
  have unjoined : joined.connections.values = [] := by
    rw [(foldlM_addNode_frame hnodes).1]
    rfl
  have ended : connected.WellFormed ∧ connected.Ends := by
    refine foldlM_preserves (I := fun s => s.WellFormed ∧ s.Ends) ?_ hconnections
      ⟨formed, by simp [Ends, unjoined]⟩
    rintro part - s s' step ⟨formed, ends⟩
    obtain ⟨-, -, step⟩ := bind_ok_iff.mp step
    obtain ⟨source, from', step⟩ := bind_ok_iff.mp step
    obtain ⟨target, to', step⟩ := bind_ok_iff.mp step
    have step := mapError_ok_iff.mp step
    have from' := hangs_of_getPort (mapError_ok_iff.mp from')
    have to' := hangs_of_getPort (mapError_ok_iff.mp to')
    exact ⟨formed.addConnection step, ends.addConnection formed from' to' step⟩
  have last : s.WellFormed ∧ s.Ends := by
    refine foldlM_preserves (I := fun s => s.WellFormed ∧ s.Ends) ?_ h ended
    rintro part - s s' step ⟨formed, ends⟩
    have step := Draft.addConstraint_ok step
    refine ⟨formed.addConstraint step, ?_⟩
    rw [addConstraint_ok step]
    exact ends
  exact ⟨last.1, joined_of_ends last.1 last.2⟩

end FluidChip.Schematic
