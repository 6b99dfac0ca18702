import FluidChip.Host
import FluidChip.Proofs.Schematic.Assembled
import FluidChip.Proofs.Schematic.Reading

/-!
# Accepted documents

The loader accepts a decoded document just when it follows the grammar and the draft
that it gives is consistent.
-/

namespace FluidChip

open Document Grammar

namespace Grammar

variable {α : Type} {entries : List (Value × Value)} {name : String} {reads : Value → α → Prop}
  {a b : α}

theorem At.required (h : At entries name reads none a) :
    ∃ v, Value.get? entries name = some v ∧ reads v a := by
  unfold At at h
  split at h
  · cases h
  · exact ⟨_, ‹_›, h⟩

theorem At.optional (h : At entries name reads (some b) a) :
    a = b ∨ ∃ v, Value.get? entries name = some v ∧ reads v a := by
  unfold At at h
  split at h
  · cases h
    exact .inl rfl
  · exact .inr ⟨_, ‹_›, h⟩

end Grammar

namespace Schematic

open Document.Format Outcome

variable {entries : List (Value × Value)} {d : Draft} {document v : Value}
  {reads : List (Value × Value) → DraftPart → Prop} {parts : List DraftPart}

theorem Parts.read (h : Parts reads v parts) : ∀ part ∈ parts, ∃ entries, reads entries part := by
  intro part listed
  obtain ⟨⟨items, -, related⟩, -⟩ := h
  obtain ⟨item, -, entries, -, read⟩ := mem_of_forall₂ related listed
  exact ⟨entries, read⟩

theorem parts_of_at {name : String} (h : At entries name (Parts reads) (some []) parts) :
    (parts.map (·.id)).Nodup ∧ ∀ part ∈ parts, ∃ entries, reads entries part := by
  rcases h.optional with rfl | ⟨v, -, read⟩
  · exact ⟨List.nodup_nil, by simp⟩
  · exact ⟨read.2, read.read⟩

theorem regular_of_read (decoded : document.Decoded) (h : Mapping DocumentRead document d) :
    d.Regular := by
  obtain ⟨entries, rfl, read⟩ := h
  have types : (d.nodeTypes.map Prod.fst).Nodup ∧ (d.connectionTypes.map Prod.fst).Nodup ∧
      (d.constraintTypes.map Prod.fst).Nodup := by
    rcases read.types.optional with same | ⟨types, found, declared, rfl, types⟩
    · simp only [Prod.mk.injEq] at same
      simp [same]
    · have inside := decoded.under found
      exact ⟨nodup_of_at types.nodes inside, nodup_of_at types.connections inside,
        nodup_of_at types.constraints inside⟩
  obtain ⟨nodes, -, listed⟩ := read.nodes.required
  obtain ⟨connectionIds, connections⟩ := parts_of_at read.connections
  constructor
  case nodeTypes => exact types.1
  case connectionTypes => exact types.2.1
  case constraintTypes => exact types.2.2
  case nodes => exact listed.2
  case connections => exact connectionIds
  case constraints => exact (parts_of_at read.constraints).1
  case ends =>
    intro part member
    obtain ⟨_, node⟩ := listed.read part member
    exact node.ends
  case places =>
    intro part member
    obtain ⟨_, connection⟩ := connections part member
    obtain ⟨_, -, -, source⟩ := connection.source.required
    obtain ⟨_, -, -, target⟩ := connection.target.required
    exact ⟨source, target⟩

/-- Which documents are accepted, and what becomes of them. -/
theorem ofDocument_accepts (host : Host) (path fallback : String) (decoded : document.Decoded) :
    ((∃ s, ofDocument host path fallback document = .ok s) ↔
      ∃ d, Mapping DocumentRead document d ∧ d.Consistent) ∧
    ∀ s, ofDocument host path fallback document = .ok s →
      ∃ d, Mapping DocumentRead document d ∧ d.Consistent ∧ d.Builds fallback s := by
  have sound (s : Schematic) (h : ofDocument host path fallback document = .ok s) :
      ∃ d, Mapping DocumentRead document d ∧ d.Consistent ∧ d.Builds fallback s := by
    obtain ⟨d, drafted, h⟩ := bind_ok_iff.mp h
    have read := (draftOf_ok_iff decoded).mp drafted
    have built := (assemble_builds (regular_of_read decoded read)).1 s (mapError_ok_iff.mp h)
    exact ⟨d, read, built⟩
  refine ⟨⟨?_, ?_⟩, sound⟩
  · rintro ⟨s, h⟩
    obtain ⟨d, read, good, -⟩ := sound s h
    exact ⟨d, read, good⟩
  · rintro ⟨d, read, good⟩
    obtain ⟨s, made⟩ := (assemble_builds (regular_of_read decoded read)).2 good
    exact ⟨s, bind_ok_iff.mpr ⟨d, (draftOf_ok_iff decoded).mpr read, mapError_ok_iff.mpr made⟩⟩

/-- A crossing of two ports, joined by a channel. -/
def joinedPorts : Value :=
  .map [(.text "nodes", .list [.map [(.text "id", .text "a"),
      (.text "type", .text "channelCrossing"), (.text "ports", .list [.text "p", .text "q"])]]),
    (.text "connections", .list [.map [(.text "id", .text "c"), (.text "type", .null),
      (.text "from", .text "a.p"), (.text "to", .text "a.q")]])]

theorem joinedPorts_decoded : joinedPorts.Decoded := by
  refine .map (by unfold Value.DistinctKeys; decide) ?_
  simp only [List.forall_mem_cons, List.not_mem_nil, false_implies, implies_true, and_true]
  constructor
  case left =>
    refine .list (List.forall_mem_singleton.mpr (.map (by unfold Value.DistinctKeys; decide) ?_))
    simp only [List.forall_mem_cons, List.not_mem_nil, false_implies, implies_true, and_true]
    refine ⟨.text _, .text _, .list ?_⟩
    simp only [List.forall_mem_cons, List.not_mem_nil, false_implies, implies_true, and_true]
    exact ⟨.text _, .text _⟩
  case right =>
    refine .list (List.forall_mem_singleton.mpr (.map (by unfold Value.DistinctKeys; decide) ?_))
    simp only [List.forall_mem_cons, List.not_mem_nil, false_implies, implies_true, and_true]
    exact ⟨.text _, .null, .text _, .text _⟩

theorem joinedPorts_accepted : joinedPorts.Decoded ∧ ∃ s d,
    ofDocument .standard "chip.yaml" "chip" joinedPorts = .ok s ∧ Mapping DocumentRead joinedPorts d ∧
      d.Consistent ∧ d.Builds "chip" s := by
  have checked : (ofDocument .standard "chip.yaml" "chip" joinedPorts).toOption.isSome = true := by
    decide +kernel
  obtain ⟨s, made⟩ := Option.isSome_iff_exists.mp checked
  have made := toOption_eq_some_iff.mp made
  obtain ⟨-, builds⟩ := ofDocument_accepts .standard "chip.yaml" "chip" joinedPorts_decoded
  obtain ⟨d, read, good, built⟩ := builds s made
  exact ⟨joinedPorts_decoded, s, d, made, read, good, built⟩

/-- A node of a type whose supertype is said to be null. -/
def nullSupertype : Value :=
  .map [(.text "types", .map [(.text "nodes",
      .map [(.text "t", .map [(.text "supertype", .null)])])]),
    (.text "nodes", .list [.map [(.text "id", .text "a"), (.text "type", .text "t")]])]

/-- A document that is refused as unfit for its format. -/
def isUnfit : Except LoadFault Schematic → Bool
  | .error (.unfit _ _) => true
  | _ => false

/-- It is refused, although the supertype may be null as far as its kind goes. -/
theorem nullSupertype_refused : ∃ path issues,
    ofDocument .standard "chip.yaml" "chip" nullSupertype = .error (.unfit path issues) := by
  have checked : isUnfit (ofDocument .standard "chip.yaml" "chip" nullSupertype) = true := by
    decide +kernel
  unfold isUnfit at checked
  split at checked
  · exact ⟨_, _, ‹_›⟩
  · cases checked

end Schematic

end FluidChip
