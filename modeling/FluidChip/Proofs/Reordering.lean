import FluidChip.Proofs.Unknown
import Mathlib.Data.List.Perm.Basic
import Mathlib.Logic.Equiv.Defs

/-!
# Schematics in another order

A schematic may hold the same entities in another order, and know them under
other identities.  Its unknowns have the same symbols then, and it has a
namespace just when the first schematic has one.
-/

namespace FluidChip

open Outcome

/-! ## Catalogs -/

theorem perm_filter_map {α β : Type} {f : α → β} {l : List α} {l' : List β}
    (perm : (l.map f).Perm l') {P : α → Bool} {Q : β → Bool} (same : ∀ a ∈ l, Q (f a) = P a) :
    ((l.filter P).map f).Perm (l'.filter Q) := by
  have kept := perm.filter Q
  rw [List.filter_map] at kept
  rwa [← List.filter_congr same]

/-- The entries of a catalog in some order, with renamed values. -/
def Catalog.Reordered {α : Type} (f : α → α) (c c' : Catalog α) : Prop :=
  (c.entries.map fun q => (q.1, f q.2)).Perm c'.entries

namespace Catalog.Reordered

variable {α : Type} {f : Equiv.Perm α} {c c' : Catalog α} (h : c.Reordered f c')

include h

theorem mem_entries_iff {name : String} {a : α} :
    (name, f a) ∈ c'.entries ↔ (name, a) ∈ c.entries := by
  rw [← h.mem_iff, List.mem_map]
  constructor
  · rintro ⟨⟨other, b⟩, mem, same⟩
    obtain ⟨rfl, renamed⟩ := Prod.mk.inj same
    obtain rfl : b = a := f.injective renamed
    exact mem
  · exact fun mem => ⟨_, mem, rfl⟩

theorem mem_entries' {q : String × α} :
    q ∈ c'.entries ↔ ∃ p ∈ c.entries, (p.1, f p.2) = q := by
  rw [← h.mem_iff, List.mem_map]

theorem perm_values : (c.values.map f).Perm c'.values := by
  have perm := List.Perm.map Prod.snd h
  rw [List.map_map] at perm
  rw [values, List.map_map]
  exact perm

theorem mem_values_iff {a : α} : f a ∈ c'.values ↔ a ∈ c.values := by
  rw [← h.perm_values.mem_iff, List.mem_map_of_injective f.injective]

theorem mem_values' {b : α} : b ∈ c'.values ↔ ∃ a ∈ c.values, f a = b := by
  rw [← h.perm_values.mem_iff, List.mem_map]

theorem nodup_values (distinct : c.values.Nodup) : c'.values.Nodup :=
  h.perm_values.nodup (distinct.map f.injective)

theorem find?_eq (name : String) : c'.find? name = (c.find? name).map f := by
  refine Option.ext fun b => ?_
  obtain ⟨a, rfl⟩ := f.surjective b
  rw [find?_eq_some_iff, h.mem_entries_iff, ← find?_eq_some_iff]
  simp

theorem symm : c'.Reordered f.symm c := by
  have perm := (List.Perm.map (fun q => (q.1, f.symm q.2)) h).symm
  rw [List.map_map] at perm
  simpa [Catalog.Reordered, Function.comp_def] using perm

theorem nameOf?_eq [DecidableEq α] (distinct : c.values.Nodup) {a : α} {name : String}
    (named : Schematic.nameOf? c a = some name) : Schematic.nameOf? c' (f a) = some name := by
  rw [Schematic.nameOf?_eq_some_iff (h.nodup_values distinct), h.mem_entries_iff]
  exact Schematic.mem_entries_of_nameOf? named

end Catalog.Reordered

def Catalog.reversed {α : Type} (f : α → α) (c : Catalog α) : Catalog α where
  entries := (c.entries.map fun q => (q.1, f q.2)).reverse
  nodup := by
    have same : Prod.fst ∘ (fun q : String × α => (q.1, f q.2)) = Prod.fst := rfl
    rw [List.map_reverse, List.map_map, List.nodup_reverse, same]
    exact c.nodup

theorem Catalog.reversed_reordered {α : Type} (f : α → α) (c : Catalog α) :
    c.Reordered f (c.reversed f) :=
  (List.reverse_perm _).symm

theorem Catalog.reversed_perm {α : Type} (c : Catalog α) :
    c.entries.Perm (c.reversed id).entries := by
  have perm : (c.entries.map fun q => (q.1, id q.2)).Perm _ := c.reversed_reordered id
  simpa using perm

/-! ## Schematics -/

/-- New identities for entities. -/
structure Renaming where
  node : Equiv.Perm NodeId
  port : Equiv.Perm PortId
  connection : Equiv.Perm ConnectionId

namespace Renaming

variable (ρ : Renaming)

def symm : Renaming := ⟨ρ.node.symm, ρ.port.symm, ρ.connection.symm⟩

def unknown : Unknown → Unknown
  | .pi => .pi
  | .node quantity id => .node quantity (ρ.node id)
  | .port id => .port (ρ.port id)
  | .connection quantity id => .connection quantity (ρ.connection id)

end Renaming

structure Node.Reordered (ρ : Renaming) (n n' : Node) : Prop where
  typeName : n'.typeName = n.typeName
  attributes : n'.attributes = n.attributes
  ports : n.ports.Reordered ρ.port n'.ports

structure Connection.Renamed (ρ : Renaming) (c c' : Connection) : Prop where
  typeName : c'.typeName = c.typeName
  attributes : c'.attributes = c.attributes
  source : c'.source = ρ.port c.source
  target : c'.target = ρ.port c.target

namespace Schematic

/-- A port on a node that the schematic holds, or at an end of a connection that
it holds. -/
inductive Meets (s : Schematic) (port : PortId) : Prop
  | registered {n : NodeId} (node : n ∈ s.nodes.values)
      (mem : port ∈ (s.node n).ports.values)
  | source {c : ConnectionId} (mem : c ∈ s.connections.values)
      (same : (s.connection c).source = port)
  | target {c : ConnectionId} (mem : c ∈ s.connections.values)
      (same : (s.connection c).target = port)

/-- Schematics that differ in nothing but identities and the order of nodes, of
the ports of a node, of connections, of constraints and of declared types. -/
structure Reordered (ρ : Renaming) (s s' : Schematic) : Prop where
  nodeTypes : s.nodeTypes.entries.Perm s'.nodeTypes.entries
  connectionTypes : s.connectionTypes.entries.Perm s'.connectionTypes.entries
  constraintTypes : s.constraintTypes.entries.Perm s'.constraintTypes.entries
  constraints : s.constraints.entries.Perm s'.constraints.entries
  nodes : s.nodes.Reordered ρ.node s'.nodes
  connections : s.connections.Reordered ρ.connection s'.connections
  node : ∀ n ∈ s.nodes.values, (s.node n).Reordered ρ (s'.node (ρ.node n))
  connection : ∀ c ∈ s.connections.values,
    (s.connection c).Renamed ρ (s'.connection (ρ.connection c))
  owner : ∀ port, s.Meets port → s'.owner (ρ.port port) = ρ.node (s.owner port)

/-- A schematic with new identities and all its entries in reverse order. -/
def mirrored (ρ : Renaming) (s : Schematic) : Schematic where
  name := s.name
  nodeTypes := s.nodeTypes.reversed id
  connectionTypes := s.connectionTypes.reversed id
  constraintTypes := s.constraintTypes.reversed id
  nodes := s.nodes.reversed ρ.node
  connections := s.connections.reversed ρ.connection
  constraints := s.constraints.reversed id
  node n :=
    let node := s.node (ρ.node.symm n)
    { node with ports := node.ports.reversed ρ.port }
  owner port := ρ.node (s.owner (ρ.port.symm port))
  connection c :=
    let connection := s.connection (ρ.connection.symm c)
    { connection with
      source := ρ.port connection.source
      target := ρ.port connection.target }
  next := s.next

theorem mirrored_reordered (ρ : Renaming) (s : Schematic) : s.Reordered ρ (s.mirrored ρ) where
  nodeTypes := s.nodeTypes.reversed_perm
  connectionTypes := s.connectionTypes.reversed_perm
  constraintTypes := s.constraintTypes.reversed_perm
  constraints := s.constraints.reversed_perm
  nodes := s.nodes.reversed_reordered ρ.node
  connections := s.connections.reversed_reordered ρ.connection
  node n _ := by
    have same : (s.mirrored ρ).node (ρ.node n) =
        { s.node n with ports := (s.node n).ports.reversed ρ.port } := by
      simp [mirrored]
    rw [same]
    exact ⟨rfl, rfl, (s.node n).ports.reversed_reordered ρ.port⟩
  connection c _ := by
    have same : (s.mirrored ρ).connection (ρ.connection c) =
        { s.connection c with
          source := ρ.port (s.connection c).source
          target := ρ.port (s.connection c).target } := by
      simp [mirrored]
    rw [same]
    exact ⟨rfl, rfl, rfl, rfl⟩
  owner port _ := by
    simp [mirrored]

namespace Reordered

variable {ρ : Renaming} {s s' : Schematic} (h : s.Reordered ρ s')

include h

theorem meets {port : PortId} (meets : s'.Meets (ρ.port port)) : s.Meets port := by
  cases meets with
  | registered node mem =>
      obtain ⟨n, hn, rfl⟩ := h.nodes.mem_values'.mp node
      exact .registered hn ((h.node n hn).ports.mem_values_iff.mp mem)
  | source mem same =>
      obtain ⟨c, hc, rfl⟩ := h.connections.mem_values'.mp mem
      rw [(h.connection c hc).source] at same
      exact .source hc (ρ.port.injective same)
  | target mem same =>
      obtain ⟨c, hc, rfl⟩ := h.connections.mem_values'.mp mem
      rw [(h.connection c hc).target] at same
      exact .target hc (ρ.port.injective same)

theorem symm : s'.Reordered ρ.symm s where
  nodeTypes := h.nodeTypes.symm
  connectionTypes := h.connectionTypes.symm
  constraintTypes := h.constraintTypes.symm
  constraints := h.constraints.symm
  nodes := h.nodes.symm
  connections := h.connections.symm
  node := by
    intro n' hn'
    obtain ⟨n, hn, rfl⟩ := h.nodes.mem_values'.mp hn'
    obtain ⟨typeName, attributes, ports⟩ := h.node n hn
    simp only [Renaming.symm, Equiv.symm_apply_apply]
    exact ⟨typeName.symm, attributes.symm, ports.symm⟩
  connection := by
    intro c' hc'
    obtain ⟨c, hc, rfl⟩ := h.connections.mem_values'.mp hc'
    obtain ⟨typeName, attributes, source, target⟩ := h.connection c hc
    simp only [Renaming.symm, Equiv.symm_apply_apply]
    exact ⟨typeName.symm, attributes.symm, by simp [source], by simp [target]⟩
  owner := by
    intro port' meets
    obtain ⟨port, rfl⟩ := ρ.port.surjective port'
    simp [Renaming.symm, h.owner port (h.meets meets)]

theorem sourceNode {c : ConnectionId} (hc : c ∈ s.connections.values) :
    s'.sourceNode (ρ.connection c) = ρ.node (s.sourceNode c) := by
  rw [Schematic.sourceNode, (h.connection c hc).source, h.owner _ (.source hc rfl)]
  rfl

theorem targetNode {c : ConnectionId} (hc : c ∈ s.connections.values) :
    s'.targetNode (ρ.connection c) = ρ.node (s.targetNode c) := by
  rw [Schematic.targetNode, (h.connection c hc).target, h.owner _ (.target hc rfl)]
  rfl

/-! ## Unknowns -/

theorem perm_nodeUnknowns {n : NodeId} (hn : n ∈ s.nodes.values) :
    ((s.nodeUnknowns n).map ρ.unknown).Perm (s'.nodeUnknowns (ρ.node n)) := by
  have ports := (h.node n hn).ports.perm_values.map Unknown.port
  rw [List.map_map] at ports
  rw [nodeUnknowns, List.map_append, List.map_map]
  exact ports.append_left _

theorem perm_unknowns : (s.unknowns.map ρ.unknown).Perm s'.unknowns := by
  have nodes : ((s.nodes.values.flatMap s.nodeUnknowns).map ρ.unknown).Perm
      (s'.nodes.values.flatMap s'.nodeUnknowns) := by
    refine .trans ?_ (h.nodes.perm_values.flatMap_right _)
    rw [List.map_flatMap, List.flatMap_map]
    exact List.Perm.flatMap_left _ fun n hn => h.perm_nodeUnknowns hn
  have connections : ((s.connections.values.flatMap connectionUnknowns).map ρ.unknown).Perm
      (s'.connections.values.flatMap connectionUnknowns) := by
    refine .trans ?_ (h.connections.perm_values.flatMap_right _)
    rw [List.map_flatMap, List.flatMap_map]
    exact .refl _
  rw [unknowns, List.map_cons, List.map_append]
  exact (nodes.append connections).cons _

/-! ## Symbols -/

variable {names : Catalog String} (distinct : s.namespace? = .ok names)

include distinct

theorem nodeName {n : NodeId} {name : String} (named : s.nodeName n = .ok name) :
    s'.nodeName (ρ.node n) = .ok name := by
  rw [nodeName_ok_iff] at named ⊢
  exact h.nodes.nameOf?_eq (nodup_nodes distinct) named

theorem connectionName {c : ConnectionId} {name : String}
    (named : s.connectionName c = .ok name) : s'.connectionName (ρ.connection c) = .ok name := by
  rw [connectionName_ok_iff] at named ⊢
  exact h.connections.nameOf?_eq (nodup_connections distinct) named

theorem portSymbol {port : PortId} {symbol : Symbol} (made : s.portSymbol port = .ok symbol) :
    s'.portSymbol (ρ.port port) = .ok symbol := by
  obtain ⟨hnode, hport⟩ := owner_of_portSymbol made
  have owner := h.owner port (.registered hnode hport)
  simp only [Schematic.portSymbol, bind_ok_iff, portName_ok_iff] at made ⊢
  obtain ⟨node, named, label, labelled, made⟩ := made
  rw [owner]
  exact ⟨node, h.nodeName distinct named, label,
    (h.node _ hnode).ports.nameOf?_eq (nodup_ports distinct hnode) labelled, made⟩

theorem symbolOf {u : Unknown} {symbol : Symbol} (made : s.symbolOf u = .ok symbol) :
    s'.symbolOf (ρ.unknown u) = .ok symbol := by
  cases u with
  | pi => exact made
  | node quantity id =>
      simp only [Schematic.symbolOf, Renaming.unknown, nodeSymbol, bind_ok_iff] at made ⊢
      obtain ⟨name, named, made⟩ := made
      exact ⟨name, h.nodeName distinct named, made⟩
  | port id => exact h.portSymbol distinct made
  | connection quantity id =>
      simp only [Schematic.symbolOf, Renaming.unknown, connectionSymbol, bind_ok_iff] at made ⊢
      obtain ⟨name, named, made⟩ := made
      exact ⟨name, h.connectionName distinct named, made⟩

theorem named {u : Unknown} (registered : s.Registers u) :
    s'.named (ρ.unknown u) = s.named u :=
  (symbolOf_ok_iff.mp (h.symbolOf distinct (resolves_of_registers distinct registered))).2

theorem namespace_ok : ∃ names', s'.namespace? = .ok names' := by
  refine exists_namespace ?_ ?_
  · intro u' hu'
    obtain ⟨u, hu, rfl⟩ := List.mem_map.mp (h.perm_unknowns.mem_iff.mpr hu')
    have registered := mem_unknowns.mp hu
    have made := h.symbolOf distinct (resolves_of_registers distinct registered)
    exact (symbolOf_ok_iff.mp made).1
  · have symbols : (s.unknowns.map ρ.unknown).map (fun u => (s'.named u).name) =
        s.unknowns.map fun u => (s.named u).name := by
      rw [List.map_map]
      exact List.map_congr_left fun u hu =>
        congrArg Symbol.name (h.named distinct (mem_unknowns.mp hu))
    rw [← (h.perm_unknowns.map _).nodup_iff, symbols]
    exact nodup_names_unknowns distinct

end Reordered

end Schematic

end FluidChip
