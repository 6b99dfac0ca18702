import FluidChip.TypeTable
import FluidChip.Proofs.Hierarchy

/-!
# Resolved type tables

What the parts of a resolved table are.  A type is a pressure or a voltage control
point just when the node hierarchy derives it from the type of that name.
-/

namespace FluidChip

open Outcome

namespace SubtypeGraph

variable {g : SubtypeGraph} {base special name : String}

theorem mem_nodes_of_isSubtype (h : g.isSubtype special base = true) : special ∈ g.nodes := by
  simp only [isSubtype, Bool.and_eq_true, List.contains_iff_mem] at h
  exact h.1.1

theorem isSubtype_self (h : base ∈ g.nodes) : g.isSubtype base base = true := by
  obtain ⟨n, size⟩ : ∃ n, g.nodes.length = n + 1 :=
    Nat.exists_eq_add_one.mpr (List.length_pos_of_mem h)
  simp [isSubtype, h, size, chain]

theorem beq_or_derived (closed : ∀ a b, g.Link a b → b ∈ g.nodes) (h : base ∈ g.nodes) :
    (name == base || (g.derived base).contains name) = g.isSubtype name base := by
  by_cases same : name = base
  · subst same
    simp [isSubtype_self h]
  · rw [Bool.eq_iff_iff]
    simp [same, mem_derived_iff closed]

end SubtypeGraph

namespace TypeTable

variable {s : Schematic} {t : TypeTable}

/-! ## Requiring types -/

theorem require_ok_iff {h : Hierarchy} {name kind : String} {d : TypeDeclaration} :
    require h name kind = .ok d ↔ d.name = name ∧ (name, d.supertype) ∈ h.entries := by
  obtain ⟨own, supertype⟩ := d
  rw [require, ← Catalog.find?_eq_some_iff]
  cases found : h.find? name with
  | none => simp
  | some _ => simp [eq_comm]

theorem exists_require_iff {h : Hierarchy} {name : String} (kind : String) :
    (∃ d, require h name kind = .ok d) ↔ name ∈ h.names := by
  simp only [require_ok_iff, Catalog.names, List.mem_map, Prod.exists]
  constructor
  · rintro ⟨d, rfl, mem⟩
    exact ⟨_, _, mem, rfl⟩
  · rintro ⟨_, supertype, mem, rfl⟩
    exact ⟨⟨_, supertype⟩, rfl, mem⟩

theorem requireSpecialized_ok_iff {g : SubtypeGraph} {base special : TypeDeclaration}
    {done : Unit} :
    requireSpecialized g base special = .ok done ↔
      g.isSubtype special.name base.name = true := by
  unfold requireSpecialized
  split <;> simp_all

/-! ## Resolving -/

/-- What the parts of a resolved table are. -/
structure Resolved (s : Schematic) (t : TypeTable) : Prop where
  nodeGraph : s.nodeTypes.graph "node" = .ok t.nodeGraph
  connectionGraph : s.connectionTypes.graph "connection" = .ok t.connectionGraph
  constraintGraph : s.constraintTypes.graph "constraint" = .ok t.constraintGraph
  controlPoint : require s.nodeTypes "controlPoint" "node" = .ok t.controlPoint
  pressurePoint : require s.nodeTypes "pressureControlPoint" "node" = .ok t.pressurePoint
  voltagePoint : require s.nodeTypes "voltageControlPoint" "node" = .ok t.voltagePoint
  pressureControls : t.nodeGraph.isSubtype t.pressurePoint.name t.controlPoint.name = true
  voltageControls : t.nodeGraph.isSubtype t.voltagePoint.name t.controlPoint.name = true
  derivedPressure : t.derivedPressure = t.nodeGraph.derived t.pressurePoint.name
  derivedVoltage : t.derivedVoltage = t.nodeGraph.derived t.voltagePoint.name
  channel : require s.connectionTypes "channel" "connection" = .ok t.channel
  constraintTypes : ∃ placement volume, t.constraintTypes = [placement, volume] ∧
    require s.constraintTypes placementType "constraint" = .ok placement ∧
    require s.constraintTypes volumeType "constraint" = .ok volume

theorem ofSchematic_ok_iff : ofSchematic s = .ok t ↔ Resolved s t := by
  rw [ofSchematic, mapError_ok_iff]
  simp only [resolve, bind_ok_iff, pure_ok_iff, requireSpecialized_ok_iff]
  constructor
  · rintro ⟨nodes, hnodes, connections, hconnections, constraints, hconstraints, control,
      hcontrol, pressure, hpressure, voltage, hvoltage, _, special, _, special', channel,
      hchannel, placement, hplacement, volume, hvolume, rfl⟩
    exact ⟨hnodes, hconnections, hconstraints, hcontrol, hpressure, hvoltage, special, special',
      rfl, rfl, hchannel, placement, volume, rfl, hplacement, hvolume⟩
  · intro r
    obtain ⟨placement, volume, same, hplacement, hvolume⟩ := r.constraintTypes
    refine ⟨_, r.nodeGraph, _, r.connectionGraph, _, r.constraintGraph, _, r.controlPoint, _,
      r.pressurePoint, _, r.voltagePoint, (), r.pressureControls, (), r.voltageControls, _,
      r.channel, _, hplacement, _, hvolume, ?_⟩
    rw [← r.derivedPressure, ← r.derivedVoltage, ← same]

namespace Resolved

variable (r : Resolved s t)

include r

theorem controlPoint_name : t.controlPoint.name = "controlPoint" :=
  (require_ok_iff.mp r.controlPoint).1

theorem pressurePoint_name : t.pressurePoint.name = "pressureControlPoint" :=
  (require_ok_iff.mp r.pressurePoint).1

theorem voltagePoint_name : t.voltagePoint.name = "voltageControlPoint" :=
  (require_ok_iff.mp r.voltagePoint).1

theorem nodes_closed (a b : String) (link : t.nodeGraph.Link a b) : b ∈ t.nodeGraph.nodes :=
  (Hierarchy.graph_ok r.nodeGraph).1.closed a b link

theorem isPressurePoint_eq (typeName : String) :
    t.isPressurePoint typeName = t.nodeIsA typeName "pressureControlPoint" := by
  have listed := SubtypeGraph.mem_nodes_of_isSubtype r.pressureControls
  rw [isPressurePoint, nodeIsA, r.derivedPressure, ← r.pressurePoint_name]
  exact SubtypeGraph.beq_or_derived r.nodes_closed listed

theorem isVoltagePoint_eq (typeName : String) :
    t.isVoltagePoint typeName = t.nodeIsA typeName "voltageControlPoint" := by
  have listed := SubtypeGraph.mem_nodes_of_isSubtype r.voltageControls
  rw [isVoltagePoint, nodeIsA, r.derivedVoltage, ← r.voltagePoint_name]
  exact SubtypeGraph.beq_or_derived r.nodes_closed listed

end Resolved

theorem isPressurePoint_eq (h : ofSchematic s = .ok t) (typeName : String) :
    t.isPressurePoint typeName = t.nodeIsA typeName "pressureControlPoint" :=
  (ofSchematic_ok_iff.mp h).isPressurePoint_eq typeName

end TypeTable

end FluidChip
