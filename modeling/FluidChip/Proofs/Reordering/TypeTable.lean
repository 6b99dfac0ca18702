import FluidChip.Proofs.Hierarchy
import FluidChip.Proofs.Reordering
import FluidChip.Proofs.TypeTable

/-!
# Type tables of hierarchies in another order

Links do not depend on the order of declarations, so neither does what a type
table answers.
-/

namespace FluidChip

open Outcome Relation

namespace Hierarchy

variable {h h' : Hierarchy} (perm : h.entries.Perm h'.entries)

include perm

theorem link_eq_of_perm : h'.Link = h.Link := by
  funext a b
  exact propext perm.symm.mem_iff

theorem mem_names_iff_of_perm {a : String} : a ∈ h'.names ↔ a ∈ h.names :=
  (perm.symm.map Prod.fst).mem_iff

theorem find?_eq_of_perm (name : String) : h'.find? name = h.find? name := by
  refine Option.ext fun supertype => ?_
  rw [Catalog.find?_eq_some_iff, Catalog.find?_eq_some_iff]
  exact perm.symm.mem_iff

theorem graph_of_perm {kind : String} {g : SubtypeGraph} (ok : h.graph kind = .ok g) :
    ∃ g', h'.graph kind = .ok g' ∧ ∀ a b, g'.isSubtype a b = g.isSubtype a b := by
  obtain ⟨graphs, acyclic⟩ := graph_ok ok
  cases made : h'.graph kind with
  | error fault =>
      rcases graph_error_iff.mp ⟨fault, made⟩ with ⟨a, b, link, missing⟩ | ⟨a, loop⟩
      · rw [link_eq_of_perm perm] at link
        exact absurd ((mem_names_iff_of_perm perm).mpr (graphs.declared a b link)) missing
      · rw [link_eq_of_perm perm] at loop
        exact absurd loop (acyclic a)
  | ok g' =>
      refine ⟨g', rfl, fun a b => ?_⟩
      obtain ⟨graphs', acyclic'⟩ := graph_ok made
      rw [Bool.eq_iff_iff, graphs'.isSubtype_iff acyclic', graphs.isSubtype_iff acyclic,
        link_eq_of_perm perm, mem_names_iff_of_perm perm, mem_names_iff_of_perm perm]

end Hierarchy

namespace TypeTable

/-- Tables with the same answers. -/
structure Agree (t t' : TypeTable) : Prop where
  nodeIsA : ∀ a b, t'.nodeIsA a b = t.nodeIsA a b
  isControlPoint : ∀ a, t'.isControlPoint a = t.isControlPoint a
  isPressurePoint : ∀ a, t'.isPressurePoint a = t.isPressurePoint a
  isChannel : ∀ a, t'.isChannel a = t.isChannel a
  constraintIsA : ∀ a b, t'.constraintIsA a b = t.constraintIsA a b

theorem require_of_perm {h h' : Hierarchy} (perm : h.entries.Perm h'.entries)
    {name kind : String} {d : TypeDeclaration} (ok : require h name kind = .ok d) :
    require h' name kind = .ok d := by
  rwa [require, Hierarchy.find?_eq_of_perm perm]

theorem ofSchematic_reordered {ρ : Renaming} {s s' : Schematic} (h : s.Reordered ρ s')
    {t : TypeTable} (ok : ofSchematic s = .ok t) :
    ∃ t', ofSchematic s' = .ok t' ∧ t.Agree t' := by
  have r := ofSchematic_ok_iff.mp ok
  obtain ⟨nodes', hnodes', sameNodes⟩ := Hierarchy.graph_of_perm h.nodeTypes r.nodeGraph
  obtain ⟨connections', hconnections', sameConnections⟩ :=
    Hierarchy.graph_of_perm h.connectionTypes r.connectionGraph
  obtain ⟨constraints', hconstraints', sameConstraints⟩ :=
    Hierarchy.graph_of_perm h.constraintTypes r.constraintGraph
  obtain ⟨placement, volume, same, hplacement, hvolume⟩ := r.constraintTypes
  let t' : TypeTable := { t with
    nodeGraph := nodes', connectionGraph := connections', constraintGraph := constraints'
    derivedPressure := nodes'.derived t.pressurePoint.name
    derivedVoltage := nodes'.derived t.voltagePoint.name }
  have r' : Resolved s' t' := {
    nodeGraph := hnodes'
    connectionGraph := hconnections'
    constraintGraph := hconstraints'
    controlPoint := require_of_perm h.nodeTypes r.controlPoint
    pressurePoint := require_of_perm h.nodeTypes r.pressurePoint
    voltagePoint := require_of_perm h.nodeTypes r.voltagePoint
    pressureControls := (sameNodes _ _).trans r.pressureControls
    voltageControls := (sameNodes _ _).trans r.voltageControls
    derivedPressure := rfl
    derivedVoltage := rfl
    channel := require_of_perm h.connectionTypes r.channel
    constraintTypes := ⟨placement, volume, same, require_of_perm h.constraintTypes hplacement,
      require_of_perm h.constraintTypes hvolume⟩ }
  refine ⟨t', ofSchematic_ok_iff.mpr r', ?_⟩
  constructor
  · exact sameNodes
  · exact fun a => sameNodes a t.controlPoint.name
  · intro a
    rw [r'.isPressurePoint_eq, r.isPressurePoint_eq]
    exact sameNodes a _
  · exact fun a => sameConnections a t.channel.name
  · exact sameConstraints

end TypeTable

end FluidChip
