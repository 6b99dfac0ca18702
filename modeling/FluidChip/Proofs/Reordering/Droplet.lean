import FluidChip.Proofs.Reordering.Setting
import FluidChip.Proofs.Rule.Droplet

/-!
# Droplet rules in another order

A junction finds its branches by the labels of its ports, and what it asks of them
does not depend on their identities.
-/

namespace FluidChip

open Outcome

theorem Setting.Reordered.attached {ρ : Renaming} {g g' : Setting} (h : g.Reordered ρ g')
    {n : NodeId} (hn : n ∈ g.nodes) {label : String} {port : PortId} {c : ConnectionId}
    (attached : g.Attached n label port c) :
    g'.Attached (ρ.node n) label (ρ.port port) (ρ.connection c) := by
  obtain ⟨labelled, name, only⟩ := attached
  refine ⟨?_, name, ?_⟩
  · rw [(h.schematic.node n hn).ports.find?_eq, labelled]
    rfl
  · have perm := h.perm_connectionsAtPort port
    rw [only] at perm
    exact (List.singleton_perm.mp perm).symm

namespace Rule

open Formula Setting

variable {ρ : Renaming} {g g' : Setting} (h : g.Reordered ρ g')

include h

theorem carries_branch {n : NodeId} (hn : n ∈ g.nodes) (b : Branch) :
    Carries (fun q => (ρ.port q.1, ρ.connection q.2)) (branch g n b)
      (branch g' (ρ.node n) b) := by
  intro ⟨port, c⟩ found
  have attached := h.attached hn ((branch_ok_iff hn).mp found)
  exact (branch_ok_iff (h.schematic.nodes.mem_values_iff.mpr hn)).mpr attached

theorem keeps_junctionRules (name : String) {n : NodeId} (hn : n ∈ g.nodes) :
    Keeps (junctionRules g name n) (junctionRules g' name (ρ.node n)) := by
  unfold junctionRules
  refine (carries_branch h hn .continuous).bind fun ⟨continuousPort, continuous⟩ _ => ?_
  refine (carries_branch h hn .dispersed).bind fun ⟨dispersedPort, dispersed⟩ _ => ?_
  refine (carries_branch h hn .output).bind fun ⟨outputPort, output⟩ _ => ?_
  refine (h.keeps_inflow _ _).bind fun _ _ => (h.keeps_inflow _ _).bind fun _ _ =>
    (h.keeps_inflow _ _).bind fun _ _ => ?_
  have flows : Keeps
      ([continuous, dispersed, output].mapM fun c => do
        return declare (← g.schematic.connectionSymbol .flow c))
      ([ρ.connection continuous, ρ.connection dispersed, ρ.connection output].mapM fun c => do
        return declare (← g'.schematic.connectionSymbol .flow c)) :=
    keeps_mapM_map (fun c => (h.keeps_symbol (.connection .flow c)).bind fun _ _ => .refl _) _
  simp only [h.host, h.nodeAttributes hn]
  refine Keeps.bind (.refl _) fun alpha _ => ?_
  refine (h.keeps_connectionName output).bind fun outputName named => ?_
  rw [h.connectionAttributes (Schematic.mem_connections_of_connectionName named)]
  exact Keeps.bind (.refl _) fun width _ => (h.keeps_symbol (.node .dropletLength n)).bind
    fun _ _ => flows.bind fun _ _ => .refl _

theorem follows_junctions : Follows (junctions g).outcome (junctions g').outcome := by
  rw [outcome_junctions, outcome_junctions]
  refine follows_joined (h.mem_nodes_of_type fun t => h.table.nodeIsA t _) fun q kept => ?_
  have registered : q.2 ∈ g.nodes := List.mem_map_of_mem (List.mem_of_mem_filter kept)
  exact .of_keeps ((keeps_junctionRules h q.1 registered).bind fun _ _ => .refl _)

theorem keeps_dropletVolume (name : String) (attributes : Attributes) :
    Keeps (dropletVolume g name attributes) (dropletVolume g' name attributes) := by
  simp only [dropletVolume, h.host]
  refine Keeps.bind (.refl _) fun label _ => (h.getNode label).bind fun n found => ?_
  have registered : n ∈ g.nodes := List.mem_map_of_mem (Schematic.getNode_ok_iff.mp found)
  rw [h.isJunction registered]
  split
  · exact .of_throw
  refine Keeps.bind (.refl _) fun volume _ => (carries_branch h registered .output).bind ?_
  rintro ⟨port, output⟩ -
  refine (h.keeps_connectionName output).bind fun outputName named => ?_
  rw [h.connectionAttributes (Schematic.mem_connections_of_connectionName named)]
  exact Keeps.bind (.refl _) fun width _ => Keeps.bind (.refl _) fun height _ =>
    (h.keeps_symbol (.node .dropletLength n)).bind fun _ _ => .refl _

theorem follows_dropletVolumes : Follows (dropletVolumes g) (dropletVolumes g') :=
  follows_joined (h.mem_constraints_of_type _) fun q _ =>
    .of_keeps (keeps_dropletVolume h q.1 q.2.attributes)

theorem follows_dropletRules {r : Rule} (hr : r ∈ dropletGroup.rules) :
    Follows (r.outcome g) (r.outcome g') := by
  simp only [dropletGroup, dropletRules, List.mem_cons, List.not_mem_nil, or_false] at hr
  rcases hr with rfl | rfl
  · exact follows_junctions h
  · exact follows_dropletVolumes h

end Rule

end FluidChip
