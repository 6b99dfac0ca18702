import FluidChip.Proofs.Outcome
import FluidChip.Schematic
import Mathlib.Data.List.Nodup

/-!
# Building schematics

Whatever is added to a schematic gets an identity of its own.  So each entity goes
by one name, and a port is registered once, on the node that owns it.  The names
of a schematic are those it was given.
-/

namespace FluidChip.Schematic

open Outcome

/-- Entities have different identities, all of them given out before, and ports
are registered on their owners. -/
structure WellFormed (s : Schematic) : Prop where
  nodesBelow : ∀ id ∈ s.nodes.values, id.index < s.next
  nodesDistinct : s.nodes.values.Nodup
  connectionsBelow : ∀ id ∈ s.connections.values, id.index < s.next
  connectionsDistinct : s.connections.values.Nodup
  portsOwned : ∀ id, ∀ port ∈ (s.node id).ports.values, port.index < s.next ∧ s.owner port = id
  portsDistinct : ∀ id, (s.node id).ports.values.Nodup

/-- Each entity goes by one name, and each port of a node is registered once, on the node
that it belongs to. -/
structure Orderly (s : Schematic) : Prop where
  nodesOnce : s.nodes.values.Nodup
  connectionsOnce : s.connections.values.Nodup
  portsOnce : ∀ id ∈ s.nodes.values, (s.node id).ports.values.Nodup
  portsOwned : ∀ id ∈ s.nodes.values, ∀ port ∈ (s.node id).ports.values, s.owner port = id

theorem WellFormed.orderly {s : Schematic} (w : s.WellFormed) : s.Orderly where
  nodesOnce := w.nodesDistinct
  connectionsOnce := w.connectionsDistinct
  portsOnce := fun id _ => w.portsDistinct id
  portsOwned := fun id _ port mem => (w.portsOwned id port mem).2

/-- All names of nodes, ports and connections are of some kind. -/
structure Spelled (P : String → Prop) (s : Schematic) : Prop where
  nodes : ∀ name ∈ s.nodes.names, P name
  ports : ∀ id, ∀ label ∈ (s.node id).ports.names, P label
  connections : ∀ name ∈ s.connections.names, P name

/-- The names under which a schematic holds something are of some kind. -/
structure Labelled (P : String → Prop) (s : Schematic) : Prop where
  nodes : ∀ name ∈ s.nodes.names, P name
  ports : ∀ id ∈ s.nodes.values, ∀ label ∈ (s.node id).ports.names, P label
  connections : ∀ name ∈ s.connections.names, P name

variable {s s' : Schematic} {P : String → Prop} {name : String}

theorem Spelled.labelled (spelled : s.Spelled P) : s.Labelled P :=
  ⟨spelled.nodes, fun id _ => spelled.ports id, spelled.connections⟩

/-- A port is registered once, whatever nodes there are. -/
theorem WellFormed.registered_once (w : s.WellFormed) {port : PortId} {id id' : NodeId}
    {label label' : String} (here : (label, port) ∈ (s.node id).ports.entries)
    (there : (label', port) ∈ (s.node id').ports.entries) : id = id' ∧ label = label' := by
  have owned := (w.portsOwned id port (List.mem_map_of_mem here)).2
  have owned' := (w.portsOwned id' port (List.mem_map_of_mem there)).2
  subst owned
  subst owned'
  have same := List.inj_on_of_nodup_map (w.portsDistinct _) here there rfl
  exact ⟨rfl, (Prod.mk.inj same).1⟩

theorem wellFormed_empty (name : String) : (empty name).WellFormed := by
  constructor <;> simp [empty, EmptyCollection.emptyCollection, Catalog.empty, Catalog.values]

theorem spelled_empty (name : String) : (empty name).Spelled P := by
  constructor <;> simp [empty, EmptyCollection.emptyCollection, Catalog.empty, Catalog.names]

/-! ## Ports -/

theorem addPort_ok {node : NodeId} (h : s.addPort node name = .ok s') :
    name ∉ (s.node node).ports.names ∧
      s' = (s.newPort node).2.registerPort node name ⟨s.next⟩ := by
  unfold addPort at h
  split at h
  · cases h
  · rename_i new
    cases h
    exact ⟨Catalog.contains_eq_false_iff.mp (by simpa using new), rfl⟩

theorem addPort_of_notMem {node : NodeId} (new : name ∉ (s.node node).ports.names) :
    s.addPort node name = .ok ((s.newPort node).2.registerPort node name ⟨s.next⟩) := by
  rw [addPort, Catalog.contains_eq_false_iff.mpr new]
  rfl

theorem node_addPort {node : NodeId} (h : s.addPort node name = .ok s') (id : NodeId) :
    (s'.node id).ports =
      if id = node then (s.node node).ports.set name ⟨s.next⟩ else (s.node id).ports := by
  obtain ⟨-, rfl⟩ := addPort_ok h
  by_cases same : id = node <;> simp [registerPort, setNode, newPort, same]

theorem WellFormed.addPort (w : s.WellFormed) {node : NodeId}
    (h : s.addPort node name = .ok s') : s'.WellFormed := by
  obtain ⟨new, made⟩ := addPort_ok h
  have next : s'.next = s.next + 1 := by rw [made]; rfl
  have nodes : s'.nodes = s.nodes := by rw [made]; rfl
  have connections : s'.connections = s.connections := by rw [made]; rfl
  have owner (port : PortId) : s'.owner port = if port = ⟨s.next⟩ then node else s.owner port := by
    rw [made]; rfl
  have kept {id : NodeId} {port : PortId} (hport : port ∈ (s.node id).ports.values) :
      port.index < s'.next ∧ s'.owner port = id := by
    obtain ⟨below, owned⟩ := w.portsOwned id port hport
    have other : port ≠ ⟨s.next⟩ := by
      rintro rfl
      simp at below
    rw [owner, if_neg other, next]
    exact ⟨by omega, owned⟩
  constructor
  case nodesBelow =>
    intro id hid
    rw [nodes] at hid
    have below := w.nodesBelow id hid
    omega
  case nodesDistinct => exact nodes ▸ w.nodesDistinct
  case connectionsBelow =>
    intro id hid
    rw [connections] at hid
    have below := w.connectionsBelow id hid
    omega
  case connectionsDistinct => exact connections ▸ w.connectionsDistinct
  case portsOwned =>
    intro id port hport
    rw [node_addPort h] at hport
    split at hport
    · rename_i same
      subst same
      rcases (Catalog.mem_values_set_of_notMem new).mp hport with old | rfl
      · exact kept old
      · rw [owner, if_pos rfl, next]
        exact ⟨Nat.lt_succ_self _, rfl⟩
    · exact kept hport
  case portsDistinct =>
    intro id
    rw [node_addPort h]
    split
    · refine Catalog.nodup_values_set new (fun old => ?_) (w.portsDistinct node)
      exact Nat.lt_irrefl _ (w.portsOwned node _ old).1
    · exact w.portsDistinct id

theorem Spelled.addPort (w : s.Spelled P) {node : NodeId} (hname : P name)
    (h : s.addPort node name = .ok s') : s'.Spelled P := by
  obtain ⟨-, made⟩ := addPort_ok h
  constructor
  case nodes =>
    rw [made]
    exact w.nodes
  case ports =>
    intro id label hlabel
    rw [node_addPort h] at hlabel
    split at hlabel
    · rcases Catalog.mem_names_set.mp hlabel with rfl | old
      · exact hname
      · exact w.ports node label old
    · exact w.ports id label hlabel
  case connections =>
    rw [made]
    exact w.connections

/-- What adding a port preserves, adding several does. -/
theorem addPorts_preserves {I : Schematic → Prop} {node : NodeId} {labels : List String}
    (each : ∀ label ∈ labels, ∀ s s', s.addPort node label = .ok s' → I s → I s')
    (h : s.addPorts node labels = .ok s') (start : I s) : I s' := by
  induction labels generalizing s with
  | nil =>
      cases h
      exact start
  | cons label rest ih =>
      obtain ⟨next, step, h⟩ := bind_ok_iff.mp h
      have after := each label List.mem_cons_self s next step start
      exact ih (fun other hother => each other (List.mem_cons_of_mem _ hother)) h after

/-- Ports leave the rest as it is. -/
theorem addPorts_frame {node : NodeId} {labels : List String}
    (h : s.addPorts node labels = .ok s') :
    s'.nodes = s.nodes ∧ s'.connections = s.connections ∧ s.next ≤ s'.next := by
  refine addPorts_preserves (I := fun made => made.nodes = s.nodes ∧
    made.connections = s.connections ∧ s.next ≤ made.next) ?_ h ⟨rfl, rfl, Nat.le_refl _⟩
  rintro label - made made' step ⟨nodes, connections, next⟩
  obtain ⟨-, rfl⟩ := addPort_ok step
  exact ⟨nodes, connections, Nat.le_succ_of_le next⟩

/-! ## Nodes -/

/-- A schematic with a node that has no name yet. -/
def withNode (s : Schematic) (typeName : String) (attributes : Attributes) : Schematic :=
  { s with next := s.next + 1 }.setNode ⟨s.next⟩ { typeName := typeName, attributes := attributes }

theorem addNode_ok {typeName : String} {labels : List String} {attributes : Attributes}
    (h : s.addNode name typeName labels attributes = .ok s') :
    name ∉ s.nodes.names ∧ ∃ made,
      (s.withNode typeName attributes).addPorts ⟨s.next⟩ labels = .ok made ∧
      s' = { made with nodes := made.nodes.set name ⟨s.next⟩ } := by
  unfold addNode at h
  split at h
  · cases h
  · rename_i new
    obtain ⟨made, ports, h⟩ := bind_ok_iff.mp h
    cases h
    exact ⟨Catalog.contains_eq_false_iff.mp (by simpa using new), made, ports, rfl⟩

theorem addNode_of_notMem {typeName : String} {labels : List String} {attributes : Attributes}
    (new : name ∉ s.nodes.names) :
    s.addNode name typeName labels attributes =
      (s.withNode typeName attributes).addPorts ⟨s.next⟩ labels >>= fun made =>
        .ok { made with nodes := made.nodes.set name ⟨s.next⟩ } := by
  rw [addNode, Catalog.contains_eq_false_iff.mpr new]
  rfl

theorem ports_withNode (typeName : String) (attributes : Attributes) (id : NodeId) :
    ((s.withNode typeName attributes).node id).ports =
      if id = ⟨s.next⟩ then {} else (s.node id).ports := by
  by_cases same : id = ⟨s.next⟩ <;> simp [withNode, setNode, same]

theorem WellFormed.withNode (w : s.WellFormed) (typeName : String) (attributes : Attributes) :
    (s.withNode typeName attributes).WellFormed := by
  constructor
  case nodesBelow => exact fun id hid => Nat.lt_succ_of_lt (w.nodesBelow id hid)
  case nodesDistinct => exact w.nodesDistinct
  case connectionsBelow => exact fun id hid => Nat.lt_succ_of_lt (w.connectionsBelow id hid)
  case connectionsDistinct => exact w.connectionsDistinct
  case portsOwned =>
    intro id port hport
    rw [ports_withNode] at hport
    split at hport
    · cases hport
    · obtain ⟨below, owned⟩ := w.portsOwned id port hport
      exact ⟨Nat.lt_succ_of_lt below, owned⟩
  case portsDistinct =>
    intro id
    rw [ports_withNode]
    split
    · exact List.nodup_nil
    · exact w.portsDistinct id

theorem WellFormed.addNode (w : s.WellFormed) {typeName : String} {labels : List String}
    {attributes : Attributes} (h : s.addNode name typeName labels attributes = .ok s') :
    s'.WellFormed := by
  obtain ⟨new, made, ports, rfl⟩ := addNode_ok h
  have built : made.WellFormed :=
    addPorts_preserves (fun _ _ _ _ step w => WellFormed.addPort w step) ports
      (w.withNode typeName attributes)
  obtain ⟨nodes, -, next⟩ := addPorts_frame ports
  have new : name ∉ made.nodes.names := nodes ▸ new
  constructor
  case nodesBelow =>
    intro id hid
    rcases (Catalog.mem_values_set_of_notMem new).mp hid with old | rfl
    · exact built.nodesBelow id old
    · exact next
  case nodesDistinct =>
    refine Catalog.nodup_values_set new (fun old => ?_) built.nodesDistinct
    rw [nodes] at old
    exact Nat.lt_irrefl _ (w.nodesBelow _ old)
  case connectionsBelow => exact built.connectionsBelow
  case connectionsDistinct => exact built.connectionsDistinct
  case portsOwned => exact built.portsOwned
  case portsDistinct => exact built.portsDistinct

theorem Spelled.addNode (w : s.Spelled P) {typeName : String} {labels : List String}
    {attributes : Attributes} (hname : P name) (hlabels : ∀ label ∈ labels, P label)
    (h : s.addNode name typeName labels attributes = .ok s') : s'.Spelled P := by
  obtain ⟨-, made, ports, rfl⟩ := addNode_ok h
  have start : (s.withNode typeName attributes).Spelled P := by
    refine ⟨w.nodes, fun id label hlabel => ?_, w.connections⟩
    rw [ports_withNode] at hlabel
    split at hlabel
    · cases hlabel
    · exact w.ports id label hlabel
  have built : made.Spelled P :=
    addPorts_preserves
      (fun label hlabel _ _ step w => Spelled.addPort w (hlabels label hlabel) step) ports start
  refine ⟨fun other hother => ?_, built.ports, built.connections⟩
  rcases Catalog.mem_names_set.mp hother with rfl | old
  · exact hname
  · exact built.nodes other old

/-! ## Connections and constraints -/

theorem addConnection_ok {source target : PortId} {typeName : String} {attributes : Attributes}
    (h : s.addConnection name source target typeName attributes = .ok s') :
    name ∉ s.connections.names ∧ s'.nodes = s.nodes ∧ s'.node = s.node ∧ s'.owner = s.owner ∧
      s'.next = s.next + 1 ∧ s'.connections = s.connections.set name ⟨s.next⟩ := by
  unfold addConnection at h
  split at h
  · cases h
  · rename_i new
    cases h
    exact ⟨Catalog.contains_eq_false_iff.mp (by simpa using new), rfl, rfl, rfl, rfl, rfl⟩

theorem WellFormed.addConnection (w : s.WellFormed) {source target : PortId} {typeName : String}
    {attributes : Attributes}
    (h : s.addConnection name source target typeName attributes = .ok s') : s'.WellFormed := by
  obtain ⟨new, nodes, node, owner, next, connections⟩ := addConnection_ok h
  constructor
  case nodesBelow =>
    intro id hid
    rw [nodes] at hid
    have below := w.nodesBelow id hid
    omega
  case nodesDistinct => exact nodes ▸ w.nodesDistinct
  case connectionsBelow =>
    intro id hid
    rw [connections] at hid
    rcases (Catalog.mem_values_set_of_notMem new).mp hid with old | rfl
    · have below := w.connectionsBelow id old
      omega
    · rw [next]
      exact Nat.lt_succ_self _
  case connectionsDistinct =>
    rw [connections]
    exact Catalog.nodup_values_set new (fun old => Nat.lt_irrefl _ (w.connectionsBelow _ old))
      w.connectionsDistinct
  case portsOwned =>
    intro id port hport
    rw [node] at hport
    obtain ⟨below, owned⟩ := w.portsOwned id port hport
    exact ⟨by omega, owner ▸ owned⟩
  case portsDistinct => exact node ▸ w.portsDistinct

theorem Spelled.addConnection (w : s.Spelled P) {source target : PortId} {typeName : String}
    {attributes : Attributes} (hname : P name)
    (h : s.addConnection name source target typeName attributes = .ok s') : s'.Spelled P := by
  obtain ⟨-, nodes, node, -, -, connections⟩ := addConnection_ok h
  refine ⟨nodes ▸ w.nodes, node ▸ w.ports, fun other hother => ?_⟩
  rw [connections] at hother
  rcases Catalog.mem_names_set.mp hother with rfl | old
  · exact hname
  · exact w.connections other old

/-- A constraint is nothing but a name and what stands under it. -/
theorem addConstraint_ok {typeName : String} {attributes : Attributes}
    (h : s.addConstraint name typeName attributes = .ok s') :
    s' = { s with constraints := s'.constraints } := by
  unfold addConstraint at h
  split at h
  · cases h
  · cases h
    rfl

theorem WellFormed.addConstraint (w : s.WellFormed) {typeName : String} {attributes : Attributes}
    (h : s.addConstraint name typeName attributes = .ok s') : s'.WellFormed := by
  rw [addConstraint_ok h]
  exact ⟨w.nodesBelow, w.nodesDistinct, w.connectionsBelow, w.connectionsDistinct, w.portsOwned,
    w.portsDistinct⟩

theorem Spelled.addConstraint (w : s.Spelled P) {typeName : String} {attributes : Attributes}
    (h : s.addConstraint name typeName attributes = .ok s') : s'.Spelled P := by
  rw [addConstraint_ok h]
  exact ⟨w.nodes, w.ports, w.connections⟩

end FluidChip.Schematic
