import FluidChip.Proofs.Reordering.Alike
import FluidChip.Proofs.Reordering.TypeTable
import FluidChip.Proofs.Rule.Term

/-!
# Settings of schematics in another order

What the rules ask of a setting, they ask of single entities: their symbols,
types and attributes are the same in a setting of the reordered schematic.
-/

namespace FluidChip

open Outcome

/-- Settings of reordered schematics on one host, under the same parameters and with
type tables that agree. -/
structure Setting.Reordered (ρ : Renaming) (g g' : Setting) : Prop where
  schematic : g.schematic.Reordered ρ g'.schematic
  parameters : g'.parameters = g.parameters
  host : g'.host = g.host
  table : g.table.Agree g'.table
  distinct : ∃ names, g.schematic.namespace? = .ok names

namespace Setting.Reordered

variable {ρ : Renaming} {g g' : Setting} (h : g.Reordered ρ g')

include h

/-! ## Entities -/

theorem mem_nodes (n' : NodeId) : n' ∈ g'.nodes ↔ ∃ n ∈ g.nodes, ρ.node n = n' :=
  h.schematic.nodes.mem_values'

theorem mem_node_entries (q : String × NodeId) : q ∈ g'.schematic.nodes.entries ↔
    ∃ p ∈ g.schematic.nodes.entries, (p.1, ρ.node p.2) = q :=
  h.schematic.nodes.mem_entries'

theorem mem_ports {n : NodeId} (hn : n ∈ g.nodes) (port' : PortId) :
    port' ∈ (g'.schematic.node (ρ.node n)).ports.values ↔
      ∃ port ∈ (g.schematic.node n).ports.values, ρ.port port = port' :=
  (h.schematic.node n hn).ports.mem_values'

theorem mem_connections (c' : ConnectionId) :
    c' ∈ g'.connections ↔ ∃ c ∈ g.connections, ρ.connection c = c' :=
  h.schematic.connections.mem_values'

theorem nodup_nodes : g.nodes.Nodup := by
  obtain ⟨names, distinct⟩ := h.distinct
  exact Schematic.nodup_nodes distinct

theorem nodup_nodes' : g'.nodes.Nodup := h.schematic.nodes.nodup_values h.nodup_nodes

theorem nodup_connections : g.connections.Nodup := by
  obtain ⟨names, distinct⟩ := h.distinct
  exact Schematic.nodup_connections distinct

theorem nodup_connections' : g'.connections.Nodup :=
  h.schematic.connections.nodup_values h.nodup_connections

theorem getNode (name : String) :
    Carries ρ.node (g.schematic.getNode name) (g'.schematic.getNode name) := by
  intro n found
  rw [Schematic.getNode_ok_iff] at found ⊢
  exact h.schematic.nodes.mem_entries_iff.mpr found

theorem keeps_connectionName (c : ConnectionId) :
    Keeps (g.schematic.connectionName c) (g'.schematic.connectionName (ρ.connection c)) := by
  obtain ⟨names, distinct⟩ := h.distinct
  exact fun _ => h.schematic.connectionName distinct

theorem nodeType {n : NodeId} (hn : n ∈ g.nodes) : g'.nodeType (ρ.node n) = g.nodeType n :=
  (h.schematic.node n hn).typeName

theorem isJunction {n : NodeId} (hn : n ∈ g.nodes) :
    g'.table.isJunction (g'.nodeType (ρ.node n)) = g.table.isJunction (g.nodeType n) := by
  rw [h.nodeType hn]
  exact h.table.nodeIsA _ _

theorem isControlPoint {n : NodeId} (hn : n ∈ g.nodes) :
    g'.table.isControlPoint (g'.nodeType (ρ.node n)) = g.table.isControlPoint (g.nodeType n) := by
  rw [h.nodeType hn, h.table.isControlPoint]

theorem nodeAttributes {n : NodeId} (hn : n ∈ g.nodes) :
    (g'.schematic.node (ρ.node n)).attributes = (g.schematic.node n).attributes :=
  (h.schematic.node n hn).attributes

theorem connectionAttributes {c : ConnectionId} (hc : c ∈ g.connections) :
    (g'.schematic.connection (ρ.connection c)).attributes =
      (g.schematic.connection c).attributes :=
  (h.schematic.connection c hc).attributes

theorem isChannel {c : ConnectionId} (hc : c ∈ g.connections) :
    g'.table.isChannel (g'.schematic.connection (ρ.connection c)).typeName =
      g.table.isChannel (g.schematic.connection c).typeName := by
  rw [h.table.isChannel, (h.schematic.connection c hc).typeName]

theorem perm_channels :
    (g.channels.map fun q => (q.1, ρ.connection q.2)).Perm g'.channels :=
  perm_filter_map h.schematic.connections fun _ hq => h.isChannel (List.mem_map_of_mem hq)

theorem mem_channels (q : String × ConnectionId) :
    q ∈ g'.channels ↔ ∃ p ∈ g.channels, (p.1, ρ.connection p.2) = q := by
  rw [← h.perm_channels.mem_iff, List.mem_map]

/-- Nodes of types that some test picks out. -/
theorem mem_nodes_of_type {test test' : String → Bool} (same : ∀ t, test' t = test t)
    (q : String × NodeId) :
    (q ∈ g'.schematic.nodes.entries.filter fun p => test' (g'.nodeType p.2)) ↔
      ∃ p ∈ g.schematic.nodes.entries.filter (fun p => test (g.nodeType p.2)),
        (p.1, ρ.node p.2) = q := by
  have kept (p : String × NodeId) (hp : p ∈ g.schematic.nodes.entries) :
      test' (g'.nodeType (ρ.node p.2)) = test (g.nodeType p.2) := by
    rw [same, h.nodeType (List.mem_map_of_mem hp)]
  rw [← (perm_filter_map h.schematic.nodes kept).mem_iff, List.mem_map]

/-- Constraints of a type. -/
theorem mem_constraints_of_type (base : String) (q : String × Constraint) :
    (q ∈ g'.schematic.constraints.entries.filter fun p =>
      g'.table.constraintIsA p.2.typeName base) ↔
    ∃ p ∈ g.schematic.constraints.entries.filter
      (fun p => g.table.constraintIsA p.2.typeName base), p = q := by
  simp only [h.table.constraintIsA, exists_eq_right]
  exact (h.schematic.constraints.symm.filter _).mem_iff

/-! ## Symbols -/

theorem keeps_symbol (u : Unknown) :
    Keeps (g.schematic.symbolOf u) (g'.schematic.symbolOf (ρ.unknown u)) := by
  obtain ⟨names, distinct⟩ := h.distinct
  exact fun _ => h.schematic.symbolOf distinct

theorem resolves {u : Unknown} (resolves : g.schematic.Resolves u) :
    g'.schematic.Resolves (ρ.unknown u) :=
  (Schematic.symbolOf_ok_iff.mp (h.keeps_symbol u _ resolves)).1

theorem term_eq {u : Unknown} (resolves : g.schematic.Resolves u) :
    g'.term (ρ.unknown u) = g.term u :=
  congrArg Sexp.symbol (Schematic.symbolOf_ok_iff.mp (h.keeps_symbol u _ resolves)).2

theorem keeps_term (u : Unknown) :
    Keeps (do return Sexp.symbol (← g.schematic.symbolOf u))
      (do return Sexp.symbol (← g'.schematic.symbolOf (ρ.unknown u))) :=
  (h.keeps_symbol u).bind fun _ _ => .refl _

theorem keeps_x (n : NodeId) : Keeps (g.x n) (g'.x (ρ.node n)) := h.keeps_term (.node .x n)

theorem keeps_y (n : NodeId) : Keeps (g.y n) (g'.y (ρ.node n)) := h.keeps_term (.node .y n)

theorem keeps_pressure (n : NodeId) : Keeps (g.pressure n) (g'.pressure (ρ.node n)) :=
  h.keeps_term (.node .pressure n)

theorem keeps_portPressure (port : PortId) :
    Keeps (g.portPressure port) (g'.portPressure (ρ.port port)) :=
  h.keeps_term (.port port)

theorem keeps_length (c : ConnectionId) : Keeps (g.length c) (g'.length (ρ.connection c)) :=
  h.keeps_term (.connection .length c)

theorem keeps_flow (c : ConnectionId) : Keeps (g.flow c) (g'.flow (ρ.connection c)) :=
  h.keeps_term (.connection .flow c)

theorem keeps_resistance (c : ConnectionId) :
    Keeps (g.resistance c) (g'.resistance (ρ.connection c)) :=
  h.keeps_term (.connection .resistance c)

/-! ## Flows -/

theorem perm_connectionsAtPort (port : PortId) :
    ((g.schematic.connectionsAtPort port).map fun q => (q.1, ρ.connection q.2)).Perm
      (g'.schematic.connectionsAtPort (ρ.port port)) := by
  refine perm_filter_map h.schematic.connections fun q hq => ?_
  have renamed := h.schematic.connection q.2 (List.mem_map_of_mem hq)
  simp only [renamed.source, renamed.target, ρ.port.injective.eq_iff]

theorem perm_channelsAt (port : PortId) :
    (((g.schematic.connectionsAtPort port).filter fun q =>
      g.table.isChannel (g.schematic.connection q.2).typeName).map
        fun q => (q.1, ρ.connection q.2)).Perm
      ((g'.schematic.connectionsAtPort (ρ.port port)).filter fun q =>
        g'.table.isChannel (g'.schematic.connection q.2).typeName) := by
  refine perm_filter_map (h.perm_connectionsAtPort port) fun q hq => ?_
  exact h.isChannel (List.mem_map_of_mem (List.mem_of_mem_filter hq))

theorem inflowTerm_eq {c : ConnectionId}
    (resolves : g.schematic.Resolves (.connection .flow c)) (port : PortId) :
    g'.inflowTerm (ρ.port port) (ρ.connection c) = g.inflowTerm port c := by
  have registered : c ∈ g.connections := Schematic.registers_of_symbolOf resolves
  have flow : g'.term (.connection .flow (ρ.connection c)) = g.term (.connection .flow c) :=
    h.term_eq resolves
  unfold inflowTerm
  simp only [(h.schematic.connection c registered).target, ρ.port.injective.eq_iff, flow]

theorem keeps_inflow (port : PortId) (c : ConnectionId) :
    Keeps (g.schematic.inflow port c)
      (g'.schematic.inflow (ρ.port port) (ρ.connection c)) := by
  intro e made
  obtain ⟨resolves, rfl⟩ := inflow_ok_iff.mp made
  exact inflow_ok_iff.mpr ⟨h.resolves resolves, h.inflowTerm_eq resolves port⟩

end Setting.Reordered

end FluidChip
