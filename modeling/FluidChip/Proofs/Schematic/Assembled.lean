import FluidChip.Proofs.Schematic.Load
import FluidChip.Proofs.Unknown
import Mathlib.Data.List.Basic
import Mathlib.Data.List.Forall2
import Mathlib.Data.List.TakeDrop

/-!
# Assembling consistent drafts

The parts of a draft can be joined just when their types are declared, no node
names a port twice, and every connection ends on ports of nodes.  The schematic
then has these parts, in this order, and no others.
-/

namespace FluidChip.Schematic

open Outcome Text

/-! ## Drafts and their schematics -/

def Draft.HasPort (d : Draft) (place : String) : Prop :=
  ∃ part ∈ d.nodes, ∃ label ∈ part.ports, place = part.id ++ "." ++ label

/-- What is declared is there under its name, over what the library declares. -/
def Draft.Declares (library : Hierarchy) (own : List (String × Option String))
    (part : DraftPart) : Prop :=
  part.typeName ∈ library.names ∨ part.typeName ∈ own.map Prod.fst

/-- The parts of a draft can be joined. -/
structure Draft.Consistent (d : Draft) : Prop where
  nodes : ∀ part ∈ d.nodes, Declares Hierarchy.standardNodes d.nodeTypes part ∧ part.ports.Nodup
  connections : ∀ part ∈ d.connections,
    Declares Hierarchy.standardConnections d.connectionTypes part ∧
      d.HasPort part.source ∧ d.HasPort part.target
  constraints : ∀ part ∈ d.constraints,
    Declares Hierarchy.standardConstraints d.constraintTypes part

/-- What every draft of a document satisfies. -/
structure Draft.Regular (d : Draft) : Prop where
  nodeTypes : (d.nodeTypes.map Prod.fst).Nodup
  connectionTypes : (d.connectionTypes.map Prod.fst).Nodup
  constraintTypes : (d.constraintTypes.map Prod.fst).Nodup
  nodes : (d.nodes.map (·.id)).Nodup
  connections : (d.connections.map (·.id)).Nodup
  constraints : (d.constraints.map (·.id)).Nodup
  ends : ∀ part ∈ d.nodes, part.source = "" ∧ part.target = ""
  places : ∀ part ∈ d.connections, isEndpoint part.source = true ∧ isEndpoint part.target = true

/-- A port, by the names of its node and of itself. -/
def AtPort (s : Schematic) (place : String) (port : PortId) : Prop :=
  ∃ node id label, (node, id) ∈ s.nodes.entries ∧ (label, port) ∈ (s.node id).ports.entries ∧
    place = node ++ "." ++ label

def nodePart (s : Schematic) (entry : String × NodeId) : DraftPart where
  id := entry.1
  typeName := (s.node entry.2).typeName
  ports := (s.node entry.2).ports.names
  attributes := (s.node entry.2).attributes

structure ConnectionPart (s : Schematic) (part : DraftPart) (entry : String × ConnectionId) :
    Prop where
  id : entry.1 = part.id
  type : (s.connection entry.2).typeName = part.typeName
  attributes : (s.connection entry.2).attributes = part.attributes
  source : s.AtPort part.source (s.connection entry.2).source
  target : s.AtPort part.target (s.connection entry.2).target

/-- A schematic is made of the parts of a draft, and of nothing else. -/
structure Draft.Builds (d : Draft) (fallback : String) (s : Schematic) : Prop where
  name : s.name = d.name.getD fallback
  nodeTypes : ∀ n, s.nodeTypes.find? n =
    (Catalog.lookup n d.nodeTypes).or (Hierarchy.standardNodes.find? n)
  connectionTypes : ∀ n, s.connectionTypes.find? n =
    (Catalog.lookup n d.connectionTypes).or (Hierarchy.standardConnections.find? n)
  constraintTypes : ∀ n, s.constraintTypes.find? n =
    (Catalog.lookup n d.constraintTypes).or (Hierarchy.standardConstraints.find? n)
  nodes : s.nodes.entries.map s.nodePart = d.nodes
  connections : List.Forall₂ s.ConnectionPart d.connections s.connections.entries
  constraints : s.constraints.entries = d.constraints.map fun part =>
    (part.id, { typeName := part.typeName, attributes := part.attributes })

variable {s s' : Schematic} {d : Draft} {part : DraftPart} {place fallback : String}
  {port : PortId}

/-! ## Places -/

theorem pointSides?_eq_some_iff {cs front back : List Char} :
    pointSides? cs = some (front, back) ↔
      cs = front ++ '.' :: back ∧ '.' ∉ front ∧ '.' ∉ back := by
  unfold pointSides?
  rw [List.span_eq_takeWhile_dropWhile]
  have before : '.' ∉ cs.takeWhile (· ≠ '.') := fun inside => by
    simpa using List.all_eq_true.mp List.all_takeWhile _ inside
  have parts := List.takeWhile_append_dropWhile (p := fun c : Char => c ≠ '.') (l := cs)
  cases rest : cs.dropWhile (· ≠ '.') with
  | nil =>
      rw [rest, List.append_nil] at parts
      rw [parts] at before
      simp only [reduceCtorEq, false_iff]
      rintro ⟨rfl, -⟩
      simp at before
  | cons c after =>
      obtain rfl : c = '.' := by
        have stop := List.head_dropWhile_not (fun c : Char => c ≠ '.') (l := cs)
          (rest ▸ List.cons_ne_nil c after)
        simp only [rest, List.head_cons] at stop
        simpa using stop
      rw [rest] at parts
      simp only
      by_cases again : '.' ∈ after
      · rw [if_pos (by simpa using again)]
        simp only [reduceCtorEq, false_iff]
        rintro ⟨same, clear, clear'⟩
        rw [← parts] at same
        obtain ⟨-, -, rfl⟩ := (List.append_cons_inj_of_notMem clear clear').mp same.symm
        exact clear' again
      · rw [if_neg (by simpa using again)]
        simp only [Option.some.injEq, Prod.mk.injEq]
        constructor
        · rintro ⟨rfl, rfl⟩
          exact ⟨parts.symm, before, again⟩
        · rintro ⟨same, clear, clear'⟩
          rw [← parts] at same
          obtain ⟨rfl, -, rfl⟩ := (List.append_cons_inj_of_notMem clear clear').mp same.symm
          exact ⟨rfl, rfl⟩

/-- A place names a node and one of its ports in one way only. -/
theorem endOf_ok_iff (legal : isEndpoint place = true) :
    Draft.endOf s part place = .ok port ↔ s.AtPort place port := by
  unfold isEndpoint at legal
  split at legal
  · rename_i front back sides
    obtain ⟨whole, clear, clear'⟩ := pointSides?_eq_some_iff.mp sides
    simp only [Draft.endOf, endpointNames, sides, mapError_ok_iff, getPort_ok_iff,
      Catalog.find?_eq_some_iff]
    constructor
    · rintro ⟨id, node, label⟩
      refine ⟨_, id, _, node, label, ?_⟩
      rw [← String.toList_inj, whole]
      simp
    · rintro ⟨node, id, label, named, owned, rfl⟩
      have same : node.toList ++ '.' :: label.toList = front ++ '.' :: back := by
        rw [← whole]
        simp
      obtain ⟨rfl, -, rfl⟩ := (List.append_cons_inj_of_notMem clear clear').mp same.symm
      simp only [String.ofList_toList]
      exact ⟨id, named, owned⟩
  · cases legal

theorem hasPort_iff (nodes : s.nodes.entries.map s.nodePart = d.nodes) :
    d.HasPort place ↔ ∃ port, s.AtPort place port := by
  rw [Draft.HasPort, ← nodes]
  constructor
  · rintro ⟨part, listed, label, owned, rfl⟩
    obtain ⟨⟨node, id⟩, named, rfl⟩ := List.mem_map.mp listed
    obtain ⟨⟨label, port⟩, found, rfl⟩ := List.mem_map.mp owned
    exact ⟨port, node, id, label, named, found, rfl⟩
  · rintro ⟨port, node, id, label, named, owned, rfl⟩
    exact ⟨_, List.mem_map_of_mem named, label, List.mem_map_of_mem owned, rfl⟩

/-! ## Nodes -/

theorem addPorts_eq {node : NodeId} {labels : List String}
    (h : s.addPorts node labels = .ok s') :
    s' = { s with node := s'.node, owner := s'.owner, next := s'.next } := by
  refine addPorts_preserves (I := fun made =>
    made = { s with node := made.node, owner := made.owner, next := made.next }) ?_ h rfl
  intro label _ made made' step same
  obtain ⟨-, rfl⟩ := addPort_ok step
  rw [same]
  rfl

/-- Ports come to the node they are added to, and nothing else becomes of nodes. -/
theorem nodePart_addPorts {node : NodeId} {labels : List String}
    (h : s.addPorts node labels = .ok s') (entry : String × NodeId) :
    s'.nodePart entry = if entry.2 = node then
        { s.nodePart entry with ports := (s.node node).ports.names ++ labels }
      else s.nodePart entry := by
  induction labels generalizing s with
  | nil =>
      cases h
      split
      · rename_i here
        simp [nodePart, here]
      · rfl
  | cons label rest ih =>
      obtain ⟨made, step, h⟩ := bind_ok_iff.mp h
      obtain ⟨new, rfl⟩ := addPort_ok step
      rw [ih h]
      split
      · rename_i here
        simp [nodePart, here, registerPort, setNode, newPort, Catalog.names_set_of_notMem new]
      · rename_i other
        simp [nodePart, other, registerPort, setNode, newPort]

theorem addPorts_succeeds {node : NodeId} {labels : List String} (distinct : labels.Nodup)
    (new : ∀ label ∈ labels, label ∉ (s.node node).ports.names) :
    ∃ s', s.addPorts node labels = .ok s' := by
  induction labels generalizing s with
  | nil => exact ⟨s, rfl⟩
  | cons label rest ih =>
      obtain ⟨first, distinct⟩ := List.nodup_cons.mp distinct
      obtain ⟨new, others⟩ := List.forall_mem_cons.mp new
      have step := addPort_of_notMem new
      have later : ∀ other ∈ rest, other ∉
          (((s.newPort node).2.registerPort node label ⟨s.next⟩).node node).ports.names := by
        intro other listed
        rw [node_addPort step, if_pos rfl, Catalog.mem_names_set, not_or]
        refine ⟨?_, others other listed⟩
        rintro rfl
        exact first listed
      obtain ⟨s', made⟩ := ih distinct later
      exact ⟨s', bind_ok_iff.mpr ⟨_, step, made⟩⟩

/-- A node with a new name and ports of different names can always be added. -/
theorem addNode_succeeds (new : part.id ∉ s.nodes.names) (distinct : part.ports.Nodup) :
    ∃ s', s.addNode part.id part.typeName part.ports part.attributes = .ok s' := by
  have start : ((s.withNode part.typeName part.attributes).node ⟨s.next⟩).ports = {} := by
    rw [ports_withNode, if_pos rfl]
  obtain ⟨made, ports⟩ : ∃ made, (s.withNode part.typeName part.attributes).addPorts ⟨s.next⟩
      part.ports = .ok made :=
    addPorts_succeeds distinct fun label _ => by rw [start]; exact List.not_mem_nil
  rw [addNode_of_notMem new]
  exact ⟨_, bind_ok_iff.mpr ⟨made, ports, rfl⟩⟩

theorem Draft.Builds.addNode (built : d.Builds fallback s) (formed : s.WellFormed)
    (unjoined : d.connections = []) (ends : part.source = "" ∧ part.target = "")
    (h : s.addNode part.id part.typeName part.ports part.attributes = .ok s') :
    part.ports.Nodup ∧ { d with nodes := d.nodes ++ [part] }.Builds fallback s' := by
  obtain ⟨new, made, ports, rfl⟩ := Schematic.addNode_ok h
  have frame := addPorts_eq ports
  have nodes : made.nodes = s.nodes := by rw [frame]; rfl
  have entries : (made.nodes.set part.id ⟨s.next⟩).entries =
      s.nodes.entries ++ [(part.id, ⟨s.next⟩)] := by
    rw [nodes]
    exact Catalog.place_of_notMem new
  have added : made.nodePart (part.id, ⟨s.next⟩) = part := by
    obtain ⟨id, typeName, labels, source, target, attributes⟩ := part
    obtain ⟨rfl, rfl⟩ := ends
    rw [nodePart_addPorts ports, if_pos rfl]
    simp [nodePart, withNode, setNode, EmptyCollection.emptyCollection, Catalog.empty,
      Catalog.names]
  have kept : ∀ entry ∈ s.nodes.entries, made.nodePart entry = s.nodePart entry := by
    intro entry listed
    have below := formed.nodesBelow _ (List.mem_map_of_mem listed)
    have other : entry.2 ≠ ⟨s.next⟩ := by
      rintro same
      simp [same] at below
    rw [nodePart_addPorts ports, if_neg other]
    simp [nodePart, withNode, setNode, other]
  have distinct : part.ports.Nodup := by
    rw [← added]
    exact (made.node ⟨s.next⟩).ports.nodup
  refine ⟨distinct, ?_⟩
  have none : s.connections.entries = [] := by
    have related := built.connections
    rw [unjoined] at related
    exact List.forall₂_nil_left_iff.mp related
  constructor
  case name => rw [frame]; exact built.name
  case nodeTypes => rw [frame]; exact built.nodeTypes
  case connectionTypes => rw [frame]; exact built.connectionTypes
  case constraintTypes => rw [frame]; exact built.constraintTypes
  case nodes =>
    rw [entries, List.map_append, List.map_singleton, ← built.nodes]
    exact congrArg₂ _ (List.map_congr_left kept) (congrArg (fun made => [made]) added)
  case connections =>
    have same : made.connections.entries = [] := by
      rw [frame]
      exact none
    simp [unjoined, same]
  case constraints => rw [frame]; exact built.constraints

/-! ## Connections and constraints -/

theorem addConnection_of_notMem {name typeName : String} {source target : PortId}
    {attributes : Attributes} (new : name ∉ s.connections.names) :
    s.addConnection name source target typeName attributes = .ok
      { { s with next := s.next + 1 }.setConnection ⟨s.next⟩
          { source, target, typeName, attributes } with
        connections := s.connections.set name ⟨s.next⟩ } := by
  rw [Schematic.addConnection, Catalog.contains_eq_false_iff.mpr new]
  rfl

theorem Draft.Builds.addConnection (built : d.Builds fallback s) (formed : s.WellFormed)
    {source target : PortId} (from' : s.AtPort part.source source)
    (to' : s.AtPort part.target target)
    (h : s.addConnection part.id source target part.typeName part.attributes = .ok s') :
    { d with connections := d.connections ++ [part] }.Builds fallback s' := by
  obtain ⟨new, -⟩ := Schematic.addConnection_ok h
  rw [addConnection_of_notMem new] at h
  cases h
  refine ⟨built.name, built.nodeTypes, built.connectionTypes, built.constraintTypes, built.nodes,
    ?_, built.constraints⟩
  have entries : (s.connections.set part.id ⟨s.next⟩).entries =
      s.connections.entries ++ [(part.id, ⟨s.next⟩)] := Catalog.place_of_notMem new
  simp only [entries]
  refine List.rel_append ?_ (List.forall₂_cons.mpr ⟨?_, List.Forall₂.nil⟩)
  · obtain ⟨long, each⟩ := List.forall₂_iff_zip.mp built.connections
    refine List.forall₂_iff_zip.mpr ⟨long, fun {old entry} both => ?_⟩
    have below := formed.connectionsBelow _ (List.mem_map_of_mem (List.of_mem_zip both).2)
    have other : entry.2 ≠ ⟨s.next⟩ := by
      rintro same
      simp [same] at below
    obtain ⟨id, type, attributes, source, target⟩ := each both
    constructor
    case id => exact id
    all_goals simp only [setConnection, if_neg other]
    case type => exact type
    case attributes => exact attributes
    case source => exact source
    case target => exact target
  · constructor
    case id => rfl
    all_goals simp only [setConnection, if_pos]
    case source => exact from'
    case target => exact to'

theorem addConstraint_of_notMem {name typeName : String} {attributes : Attributes}
    (new : name ∉ s.constraints.names) :
    s.addConstraint name typeName attributes = .ok
      { s with constraints := s.constraints.set name { typeName, attributes } } := by
  rw [Schematic.addConstraint, Catalog.contains_eq_false_iff.mpr new]
  rfl

theorem Draft.Builds.addConstraint (built : d.Builds fallback s)
    (h : s.addConstraint part.id part.typeName part.attributes = .ok s') :
    { d with constraints := d.constraints ++ [part] }.Builds fallback s' := by
  unfold Schematic.addConstraint at h
  split at h
  · cases h
  · rename_i new
    cases h
    have new : part.id ∉ s.constraints.names :=
      Catalog.contains_eq_false_iff.mp (by simpa using new)
    refine ⟨built.name, built.nodeTypes, built.connectionTypes, built.constraintTypes, built.nodes,
      built.connections.imp fun _ _ ⟨id, type, attributes, source, target⟩ =>
        ⟨id, type, attributes, source, target⟩, ?_⟩
    rw [List.map_append, ← built.constraints]
    exact Catalog.place_of_notMem new

/-! ## Names taken -/

namespace Draft.Builds

theorem nodeNames (built : d.Builds fallback s) : s.nodes.names = d.nodes.map (·.id) := by
  rw [← built.nodes, List.map_map]
  rfl

theorem connectionNames (built : d.Builds fallback s) :
    s.connections.names = d.connections.map (·.id) := by
  have names {parts entries} (related : List.Forall₂ s.ConnectionPart parts entries) :
      entries.map Prod.fst = parts.map (·.id) := by
    induction related with
    | nil => rfl
    | cons first _ ih => rw [List.map_cons, List.map_cons, ih, first.id]
  exact names built.connections

theorem constraintNames (built : d.Builds fallback s) :
    s.constraints.names = d.constraints.map (·.id) := by
  rw [Catalog.names, built.constraints, List.map_map]
  rfl

end Draft.Builds

theorem requireDeclared_ok_iff {types library : Hierarchy} {own : List (String × Option String)}
    (kind : String) (part : DraftPart)
    (merged : ∀ n, types.find? n = (Catalog.lookup n own).or (library.find? n)) :
    Draft.requireDeclared types kind part = .ok () ↔ Draft.Declares library own part := by
  have declared : types.contains part.typeName = true ↔ Draft.Declares library own part := by
    rw [← Bool.not_eq_false, Catalog.contains_eq_false_iff, ← Catalog.find?_eq_none_iff, merged,
      Option.or_eq_none_iff, Catalog.lookup_eq_none_iff, Catalog.find?_eq_none_iff, Draft.Declares]
    tauto
  rw [← declared, Draft.requireDeclared]
  split <;> simp_all

/-! ## Joining -/

theorem notMem_front {xs front back : List DraftPart} (whole : xs = front ++ part :: back)
    (distinct : (xs.map (·.id)).Nodup) : part.id ∉ front.map (·.id) := by
  rw [whole, List.map_append, List.map_cons, List.nodup_append] at distinct
  exact fun old => distinct.2.2 _ old _ List.mem_cons_self rfl

theorem declareTypes_builds (regular : d.Regular) :
    { d with nodes := [], connections := [], constraints := [] }.Builds fallback
      (d.declareTypes (.empty (d.name.getD fallback))) := by
  constructor
  case name => rfl
  case nodeTypes => exact Catalog.find?_setAll regular.nodeTypes
  case connectionTypes => exact Catalog.find?_setAll regular.connectionTypes
  case constraintTypes => exact Catalog.find?_setAll regular.constraintTypes
  case nodes => rfl
  case connections => exact .nil
  case constraints => rfl

theorem nodes_build (regular : d.Regular) (formed : s.WellFormed)
    (start : { d with nodes := [], connections := [], constraints := [] }.Builds fallback s) :
    (∀ s', d.nodes.foldlM Draft.addNode s = .ok s' →
      (∀ part ∈ d.nodes, Draft.Declares Hierarchy.standardNodes d.nodeTypes part ∧
        part.ports.Nodup) ∧
      s'.WellFormed ∧ { d with connections := [], constraints := [] }.Builds fallback s') ∧
    ((∀ part ∈ d.nodes, Draft.Declares Hierarchy.standardNodes d.nodeTypes part ∧
        part.ports.Nodup) → ∃ s', d.nodes.foldlM Draft.addNode s = .ok s') := by
  refine foldlM_builds (I := fun front s => s.WellFormed ∧
    { d with nodes := front, connections := [], constraints := [] }.Builds fallback s) ?_
    ⟨formed, start⟩
  rintro front part back whole s ⟨formed, built⟩
  have declared := requireDeclared_ok_iff "node" part built.nodeTypes
  have ends := regular.ends part (whole ▸ List.mem_append_right front List.mem_cons_self)
  constructor
  · intro s' h
    obtain ⟨⟨⟩, known, h⟩ := bind_ok_iff.mp h
    have h := mapError_ok_iff.mp h
    obtain ⟨distinct, built⟩ := built.addNode formed rfl ends h
    exact ⟨⟨declared.mp known, distinct⟩, formed.addNode h, built⟩
  · rintro ⟨known, distinct⟩
    have new : part.id ∉ s.nodes.names := by
      rw [built.nodeNames]
      exact notMem_front whole regular.nodes
    obtain ⟨s', h⟩ := addNode_succeeds new distinct
    exact ⟨s', bind_ok_iff.mpr ⟨(), declared.mpr known, mapError_ok_iff.mpr h⟩⟩

theorem connections_build (regular : d.Regular) (formed : s.WellFormed)
    (start : { d with connections := [], constraints := [] }.Builds fallback s) :
    (∀ s', d.connections.foldlM Draft.addConnection s = .ok s' →
      (∀ part ∈ d.connections,
        Draft.Declares Hierarchy.standardConnections d.connectionTypes part ∧
          d.HasPort part.source ∧ d.HasPort part.target) ∧
      s'.WellFormed ∧ { d with constraints := [] }.Builds fallback s') ∧
    ((∀ part ∈ d.connections,
        Draft.Declares Hierarchy.standardConnections d.connectionTypes part ∧
          d.HasPort part.source ∧ d.HasPort part.target) →
      ∃ s', d.connections.foldlM Draft.addConnection s = .ok s') := by
  refine foldlM_builds (I := fun front s => s.WellFormed ∧
    { d with connections := front, constraints := [] }.Builds fallback s) ?_ ⟨formed, start⟩
  rintro front part back whole s ⟨formed, built⟩
  have declared := requireDeclared_ok_iff "connection" part
    built.connectionTypes
  obtain ⟨from', to'⟩ := regular.places part
    (whole ▸ List.mem_append_right front List.mem_cons_self)
  have ports {place : String} : d.HasPort place ↔ ∃ port, s.AtPort place port :=
    hasPort_iff (d := d) built.nodes
  constructor
  · intro s' h
    obtain ⟨⟨⟩, known, h⟩ := bind_ok_iff.mp h
    obtain ⟨source, hsource, h⟩ := bind_ok_iff.mp h
    obtain ⟨target, htarget, h⟩ := bind_ok_iff.mp h
    have h := mapError_ok_iff.mp h
    have hsource := (endOf_ok_iff from').mp hsource
    have htarget := (endOf_ok_iff to').mp htarget
    exact ⟨⟨declared.mp known, ports.mpr ⟨source, hsource⟩, ports.mpr ⟨target, htarget⟩⟩,
      formed.addConnection h, built.addConnection formed hsource htarget h⟩
  · rintro ⟨known, hsource, htarget⟩
    obtain ⟨source, hsource⟩ := ports.mp hsource
    obtain ⟨target, htarget⟩ := ports.mp htarget
    have new : part.id ∉ s.connections.names := by
      rw [built.connectionNames]
      exact notMem_front whole regular.connections
    exact ⟨_, bind_ok_iff.mpr ⟨(), declared.mpr known,
      bind_ok_iff.mpr ⟨source, (endOf_ok_iff from').mpr hsource,
        bind_ok_iff.mpr ⟨target, (endOf_ok_iff to').mpr htarget,
          mapError_ok_iff.mpr (addConnection_of_notMem new)⟩⟩⟩⟩

theorem constraints_build (regular : d.Regular)
    (start : { d with constraints := [] }.Builds fallback s) :
    (∀ s', d.constraints.foldlM Draft.addConstraint s = .ok s' →
      (∀ part ∈ d.constraints,
        Draft.Declares Hierarchy.standardConstraints d.constraintTypes part) ∧
      d.Builds fallback s') ∧
    ((∀ part ∈ d.constraints,
        Draft.Declares Hierarchy.standardConstraints d.constraintTypes part) →
      ∃ s', d.constraints.foldlM Draft.addConstraint s = .ok s') := by
  refine foldlM_builds (I := fun front s => { d with constraints := front }.Builds fallback s) ?_
    start
  intro front part back whole s built
  have declared := requireDeclared_ok_iff "constraint" part
    built.constraintTypes
  constructor
  · intro s' h
    obtain ⟨⟨⟩, known, h⟩ := bind_ok_iff.mp h
    exact ⟨declared.mp known, built.addConstraint (mapError_ok_iff.mp h)⟩
  · intro known
    have new : part.id ∉ s.constraints.names := by
      rw [built.constraintNames]
      exact notMem_front whole regular.constraints
    exact ⟨_, bind_ok_iff.mpr ⟨(), declared.mpr known,
      mapError_ok_iff.mpr (addConstraint_of_notMem new)⟩⟩

/-- A draft can be assembled just when it is consistent, and is built as it stands. -/
theorem assemble_builds (regular : d.Regular) :
    (∀ s, d.assemble fallback = .ok s → d.Consistent ∧ d.Builds fallback s) ∧
      (d.Consistent → ∃ s, d.assemble fallback = .ok s) := by
  have typed : (d.declareTypes (.empty (d.name.getD fallback))).WellFormed := by
    obtain ⟨nodesBelow, nodesDistinct, below, distinct, owned, portsDistinct⟩ :=
      wellFormed_empty (d.name.getD fallback)
    exact ⟨nodesBelow, nodesDistinct, below, distinct, owned, portsDistinct⟩
  have nodes := nodes_build regular typed (declareTypes_builds regular)
  constructor
  · intro s h
    obtain ⟨joined, hnodes, h⟩ := bind_ok_iff.mp h
    obtain ⟨connected, hconnections, h⟩ := bind_ok_iff.mp h
    obtain ⟨good, formed, built⟩ := nodes.1 joined hnodes
    obtain ⟨good', -, built⟩ := (connections_build regular formed built).1 connected hconnections
    obtain ⟨good'', built⟩ := (constraints_build regular built).1 s h
    exact ⟨⟨good, good', good''⟩, built⟩
  · rintro ⟨good, good', good''⟩
    obtain ⟨joined, hnodes⟩ := nodes.2 good
    obtain ⟨-, formed, built⟩ := nodes.1 joined hnodes
    obtain ⟨connected, hconnections⟩ := (connections_build regular formed built).2 good'
    obtain ⟨-, -, built⟩ := (connections_build regular formed built).1 connected hconnections
    obtain ⟨s, h⟩ := (constraints_build regular built).2 good''
    exact ⟨s, bind_ok_iff.mpr ⟨joined, hnodes, bind_ok_iff.mpr ⟨connected, hconnections, h⟩⟩⟩

end FluidChip.Schematic
