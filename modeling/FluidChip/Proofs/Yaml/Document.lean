import FluidChip.Proofs.Document.Defaults
import FluidChip.Proofs.Document.Keys
import FluidChip.Proofs.Outcome
import FluidChip.Yaml.Document

/-!
# Decoded mappings

The mapping that a text is decoded to has every key once, and none that is a collection.
-/

namespace FluidChip

open Document Outcome

variable {entries : List (Value × Value)} {key value : Value}

/-! ## Keys as they are written -/

namespace Value

theorem keys_setKey (key value : Value) (entries : List (Value × Value)) :
    (setKey key value entries).map (·.1) = insertKey (entries.map (·.1)) key := by
  unfold insertKey
  induction entries with
  | nil => rfl
  | cons entry rest ih =>
      rw [setKey]
      cases same : entry.1.sameKey key with
      | true => simp [same]
      | false =>
          rw [if_neg Bool.false_ne_true, List.map_cons, ih, List.map_cons, List.any_cons, same,
            Bool.false_or]
          split <;> rfl

theorem keys_ofWritten (entries : List (Value × Value)) :
    (ofWritten entries).map (·.1) = (entries.map (·.1)).foldl insertKey [] := by
  unfold ofWritten
  suffices onward : ∀ made : List (Value × Value),
      (entries.foldl (fun made entry => setKey entry.1 entry.2 made) made).map (·.1) =
        (entries.map (·.1)).foldl insertKey (made.map (·.1)) from onward []
  induction entries with
  | nil => exact fun _ => rfl
  | cons entry rest ih =>
      intro made
      rw [List.foldl_cons, ih, keys_setKey]
      rfl

theorem distinctKeys_ofWritten (entries : List (Value × Value)) :
    DistinctKeys (ofWritten entries) := by
  rw [distinctKeys_iff, keys_ofWritten]
  exact foldl_insertKey_pairwise .nil

end Value

/-! ## Keys as they are built -/

namespace Yaml

theorem Built.result_ok_iff {α : Type} {b : Built α} {a : α} :
    b.result = .ok a ↔ b.faults = [] ∧ b.value = a := by
  unfold Built.result
  obtain ⟨value, faults⟩ := b
  cases faults with
  | nil => simp [Built.firstFault?]
  | cons fault rest =>
      have failed : Built.firstFault? (fault :: rest) ≠ none := by
        rw [Built.firstFault?]
        split
        · simp
        · split <;> simp
      split
      · rename_i none
        exact absurd none failed
      · simp

theorem isKey_of_buildEntries {level : Nat} {nodes : List (Node × Node)}
    (h : (buildEntries level nodes).faults = []) :
    ∀ entry ∈ (buildEntries level nodes).value, entry.1.isKey = true := by
  induction nodes with
  | nil => simp [buildEntries]
  | cons node rest ih =>
      obtain ⟨k, v⟩ := node
      rw [buildEntries] at h ⊢
      simp only [List.append_eq_nil_iff, ite_eq_left_iff] at h
      obtain ⟨⟨⟨-, fit⟩, -⟩, others⟩ := h
      refine List.forall_mem_cons.mpr ⟨?_, ih others⟩
      by_contra unfit
      exact absurd (fit unfit) (by simp)

theorem scalarOf_ne_map (tag : Tag) (text : String) : scalarOf tag text ≠ .ok (.map entries) := by
  have mapped {α : Type} {f : α → Value} (r : Except Fault α) (other : ∀ a, f a ≠ .map entries) :
      f <$> r ≠ .ok (.map entries) := by
    cases r with
    | error fault => nofun
    | ok a => exact fun h => other a (Except.ok.inj h)
  cases tag with
  | truth => exact mapped (truthOf text) nofun
  | int => exact mapped (intOf text) nofun
  | float => exact mapped (floatOf text) nofun
  | binary => exact mapped (bytesOf text) nofun
  | moment => exact mapped (momentOf text) nofun
  | _ => nofun

theorem map_of_build {level : Nat} {node : Node} (faultless : (build level node).faults = [])
    (h : (build level node).value = .map entries) :
    Value.DistinctKeys entries ∧ ∀ entry ∈ entries, entry.1.isKey = true := by
  cases node with
  | scalar tag text =>
      rw [build] at h
      split at h
      · cases h
      · split at h
        · rename_i v made
          obtain rfl : v = .map entries := h
          exact absurd made (scalarOf_ne_map tag text)
        · cases h
  | sequence tag items =>
      rw [build] at h
      split at h
      · cases h
      · split at h <;> cases h
  | mapping tag nodes fault =>
      by_cases fits : tag = .mapping ∨ tag = .members
      · cases fault with
        | some fault =>
            rw [build, if_pos fits] at h
            cases h
        | none =>
            rw [build, if_pos fits] at h faultless
            have faultless : (buildEntries (level + 1) nodes).faults = [] := faultless
            have made : (if tag = .mapping then
                Value.map (Value.ofWritten (buildEntries (level + 1) nodes).value) else
                .members ((Value.ofWritten (buildEntries (level + 1) nodes).value).map (·.1))) =
                .map entries := h
            split at made
            · cases made
              refine ⟨Value.distinctKeys_ofWritten _, fun entry listed => ?_⟩
              have key : entry.1 ∈ (Value.ofWritten (buildEntries (level + 1) nodes).value).map
                  (·.1) := List.mem_map_of_mem listed
              rw [Value.keys_ofWritten] at key
              rcases mem_foldl_insertKey key with none | written
              · cases none
              · obtain ⟨source, member, same⟩ := List.mem_map.mp written
                exact same ▸ isKey_of_buildEntries faultless source member
            · cases made
      · cases fault <;> rw [build, if_neg fits] at h <;> cases h

/-- A text that is decoded to a mapping gives it keys that are distinct and no collections. -/
theorem keys_of_documentOf {levels : Nat} {text : List Char}
    (h : documentOf levels text = .ok (.map entries)) :
    Value.DistinctKeys entries ∧ ∀ entry ∈ entries, entry.1.isKey = true := by
  obtain ⟨root?, -, h⟩ := bind_ok_iff.mp h
  cases root? with
  | none => cases h
  | some root =>
      obtain ⟨faultless, value⟩ := Built.result_ok_iff.mp h
      exact map_of_build faultless value

end Yaml

end FluidChip
