import FluidChip.Proofs.Meaning.Hydraulic
import FluidChip.Proofs.Reordering.Setting

/-!
# Hydraulic rules in another order

All rules but one speak of single ports and channels.  The balance of a node adds
up the flows at its ports in the order in which they are held, and a sum does not
depend on that order.
-/

namespace FluidChip

open Outcome Formula Sexp

/-! ## Flows at a node -/

namespace Setting.Reordered

variable {ρ : Renaming} {g g' : Setting} (h : g.Reordered ρ g')

include h

theorem perm_channelsAtPort (port : PortId) :
    ((g.channelsAtPort port).map ρ.connection).Perm (g'.channelsAtPort (ρ.port port)) := by
  have perm := (h.perm_channelsAt port).map Prod.snd
  rw [List.map_map] at perm
  rw [channelsAtPort, List.map_map]
  exact perm

/-- Whatever is read off the channels at the ports of a node. -/
theorem perm_atPorts {α : Type*} {n : NodeId} (hn : n ∈ g.nodes) {F F' : PortId → ConnectionId → α}
    (same : ∀ port ∈ (g.schematic.node n).ports.values, ∀ c ∈ g.channelsAtPort port,
      F' (ρ.port port) (ρ.connection c) = F port c) :
    ((g.schematic.node n).ports.values.flatMap fun port =>
      (g.channelsAtPort port).map (F port)).Perm
    ((g'.schematic.node (ρ.node n)).ports.values.flatMap fun port =>
      (g'.channelsAtPort port).map (F' port)) := by
  refine .trans ?_ ((h.schematic.node n hn).ports.perm_values.flatMap_right _)
  rw [List.flatMap_map]
  refine List.Perm.flatMap_left _ fun port hport => ?_
  have perm := (h.perm_channelsAtPort port).map (F' (ρ.port port))
  rw [List.map_map] at perm
  refine .trans (.of_eq ?_) perm
  exact List.map_congr_left fun c hc => (same port hport c hc).symm

theorem signedFlow_eq {K : Type*} [Field K] (v : Symbol → K) {c : ConnectionId}
    (resolves : g.schematic.Resolves (.connection .flow c)) (port : PortId) :
    g'.signedFlow v (ρ.port port) (ρ.connection c) = g.signedFlow v port c := by
  have registered : c ∈ g.connections := Schematic.registers_of_symbolOf resolves
  have flow : g'.amount v (.connection .flow (ρ.connection c)) =
      g.amount v (.connection .flow c) :=
    congrArg v (Schematic.symbolOf_ok_iff.mp (h.keeps_symbol _ _ resolves)).2
  unfold signedFlow
  simp only [(h.schematic.connection c registered).target, ρ.port.injective.eq_iff, flow]

end Setting.Reordered

namespace Rule

open Setting

theorem alike_balanceOf {terms terms' : List Sexp} (perm : terms.Perm terms')
    (sums : ∀ (K : Type) [Field K] [LinearOrder K] (v : Symbol → K),
      (sumOf terms).value v = (sumOf terms').value v) :
    Alike (balanceOf terms) (balanceOf terms') := by
  cases terms with
  | nil =>
      obtain rfl := perm.nil_eq
      exact .refl []
  | cons t rest =>
      cases terms' with
      | nil => exact absurd perm.eq_nil (List.cons_ne_nil t rest)
      | cons t' rest' =>
          intro T test
          simp only [balanceOf, List.forall_mem_singleton]
          exact test.assert_iff sums fun _ _ _ _ => rfl

variable {ρ : Renaming} {g g' : Setting}

theorem mem_connections_of_mem_channels {q : String × ConnectionId} (hq : q ∈ g.channels) :
    q.2 ∈ g.connections :=
  List.mem_map_of_mem (List.mem_of_mem_filter hq)

variable (h : g.Reordered ρ g')

include h

/-! ## Declarations and ports -/

theorem follows_hydraulicDeclarations :
    Follows (hydraulicDeclarations g) (hydraulicDeclarations g') := by
  refine Relates.bind (relates_parts h.mem_nodes fun n hn => ?_) fun _ _ pressures =>
    Relates.bind (relates_parts h.mem_channels fun q _ => .of_keeps ?_) fun _ _ flows =>
      .pure (pressures.append flows)
  · refine (h.keeps_symbol (.node .pressure n)).relates_bind fun node => ?_
    refine Relates.bind (follows_mapM (h.mem_ports hn) fun port _ => ?_)
      fun _ _ ports => .pure (Alike.append (.refl [declare node]) ports)
    exact (h.keeps_symbol (.port port)).bind fun _ _ => .refl _
  · exact (h.keeps_symbol (.connection .flow q.2)).bind fun _ _ =>
      (h.keeps_symbol (.connection .resistance q.2)).bind fun _ _ => .refl _

theorem follows_portPressures : Follows (portPressures g) (portPressures g') :=
  follows_joined h.mem_nodes fun n hn => follows_mapM (h.mem_ports hn) fun port _ =>
    (h.keeps_portPressure port).bind fun _ _ => (h.keeps_pressure n).bind fun _ _ => .refl _

/-! ## Channels -/

theorem follows_resistances : Follows (resistances g) (resistances g') := by
  refine follows_joined h.mem_channels fun ⟨name, c⟩ hq => .of_keeps ?_
  show Keeps (resistanceRules g name c) (resistanceRules g' name (ρ.connection c))
  unfold resistanceRules
  rw [h.host, h.connectionAttributes (mem_connections_of_mem_channels hq)]
  exact (h.keeps_resistance c).bind fun _ _ => (h.keeps_length c).bind fun _ _ => .refl _

theorem follows_pressureDrops : Follows (pressureDrops g) (pressureDrops g') := by
  refine follows_mapM h.mem_channels fun ⟨name, c⟩ hq => ?_
  have renamed := h.schematic.connection c (mem_connections_of_mem_channels hq)
  simp only [renamed.source, renamed.target]
  exact (h.keeps_portPressure _).bind fun _ _ => (h.keeps_portPressure _).bind fun _ _ =>
    (h.keeps_flow c).bind fun _ _ => (h.keeps_resistance c).bind fun _ _ => .refl _

theorem follows_fixedPressures : Follows (fixedPressures g) (fixedPressures g') := by
  refine follows_joined (h.mem_nodes_of_type h.table.isPressurePoint) fun ⟨name, n⟩ kept =>
    .of_keeps ?_
  have registered : n ∈ g.nodes := List.mem_map_of_mem (List.mem_of_mem_filter kept)
  simp only [h.host, h.nodeAttributes registered]
  exact Keeps.bind (.refl _) fun given _ => keeps_fixed (h.keeps_pressure n)

/-! ## Balance -/

theorem follows_inflows {n : NodeId} (hn : n ∈ g.nodes) :
    Follows (inflows g n) (inflows g' (ρ.node n)) := by
  refine follows_joined (h.mem_ports hn) fun port _ => ?_
  have mem (q : String × ConnectionId) := (h.perm_channelsAt port).symm.mem_iff (a := q)
  simp only [List.mem_map] at mem
  exact follows_mapM mem fun ⟨_, c⟩ _ => h.keeps_inflow port c

theorem alike_inflowTerms {n : NodeId} (hn : n ∈ g.nodes)
    (flows : ∀ port ∈ (g.schematic.node n).ports.values,
      ∀ c ∈ g.channelsAtPort port, g.schematic.Resolves (.connection .flow c)) :
    Alike (balanceOf (g.inflowTerms n)) (balanceOf (g'.inflowTerms (ρ.node n))) := by
  have terms : (g.inflowTerms n).Perm (g'.inflowTerms (ρ.node n)) :=
    h.perm_atPorts hn fun port hport c hc => h.inflowTerm_eq (flows port hport c hc) port
  refine alike_balanceOf terms fun K _ _ v => ?_
  have amounts : (g.inflows v n).Perm (g'.inflows v (ρ.node n)) :=
    h.perm_atPorts hn fun port hport c hc => h.signedFlow_eq v (flows port hport c hc) port
  rw [value_sumOf (values_inflowTerms n), value_sumOf (values_inflowTerms _), amounts.sum_eq]

theorem follows_balance (q : String × NodeId) (hq : q ∈ g.schematic.nodes.entries) :
    Follows (balance g q.1 q.2).outcome (balance g' q.1 (ρ.node q.2)).outcome := by
  have registered : q.2 ∈ g.nodes := List.mem_map_of_mem hq
  rw [outcome_balance, outcome_balance, h.isControlPoint registered]
  split
  · exact .of_keeps (.refl _)
  · intro es made
    obtain ⟨terms, found, rfl⟩ := map_ok_iff.mp made
    obtain ⟨rfl, flows⟩ := inflows_ok found
    -- terms are no statements: that they are alike says nothing, only that there are some
    obtain ⟨terms', found', -⟩ := follows_inflows h registered _ found
    obtain ⟨rfl, -⟩ := inflows_ok found'
    exact ⟨_, map_ok_iff.mpr ⟨_, found', rfl⟩, alike_inflowTerms h registered flows⟩

theorem follows_conservation : Follows (conservation g).outcome (conservation g').outcome := by
  rw [outcome_conservation, outcome_conservation]
  exact follows_joined h.mem_node_entries fun q hq => follows_balance h q hq

/-! ## The group -/

theorem follows_hydraulicRules {r : Rule} (hr : r ∈ hydraulicGroup.rules) :
    Follows (r.outcome g) (r.outcome g') := by
  simp only [hydraulicGroup, hydraulicRules, List.mem_cons, List.not_mem_nil, or_false] at hr
  rcases hr with rfl | rfl | rfl | rfl | rfl | rfl
  · exact follows_hydraulicDeclarations h
  · exact follows_portPressures h
  · exact follows_resistances h
  · exact follows_pressureDrops h
  · exact follows_conservation h
  · exact follows_fixedPressures h

end Rule

end FluidChip
