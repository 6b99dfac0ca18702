import FluidChip.Proofs.Declaration
import FluidChip.Proofs.Meaning

/-!
# The meaning of a program

Directives and declarations ask nothing of an assignment, and dropping repeated
declarations changes no assertion, so a program means what pi and the three
groups of rules contribute.
-/

namespace FluidChip

open Formula Sexp

variable {K : Type*} [Field K] [LinearOrder K] {v : Symbol → K}

namespace Sexp

theorem satisfies_filter {es : List Sexp} :
    Satisfies v (es.filter (isForm assertWord)) ↔ Satisfies v es := by
  simp only [Satisfies, List.mem_filter]
  exact ⟨fun h e he isAssert => h e ⟨he, isAssert⟩ isAssert, fun h e he => h e he.1⟩

theorem satisfies_declares {symbols : List Symbol} : Satisfies v (symbols.map declare) := by
  intro e he isAssert
  obtain ⟨symbol, -, rfl⟩ := List.mem_map.mp he
  simp at isAssert

theorem satisfies_arranged {declared : List Symbol} {assertions : List Sexp} :
    Satisfies v (setLogic :: (declared.map declare ++ assertions ++ [checkSat, exit])) ↔
      Satisfies v assertions := by
  have directive : ∀ e ∈ [setLogic, checkSat, exit], e.isForm assertWord = false := by
    decide
  simp only [satisfies_cons, satisfies_append, satisfies_declares, satisfies_nil]
  simp [directive setLogic, directive checkSat, directive exit]

end Sexp

namespace Schematic.Compiled

variable {host : Host} {s : Schematic} {p : Parameters} {program : List Sexp}
  (c : Compiled host s p program)

theorem satisfies_program :
    Satisfies v program ↔ Satisfies v piForms ∧ Satisfies v c.contributions := by
  obtain ⟨declared, -, -, forms⟩ := c.arranged
  calc Satisfies v program
      ↔ Satisfies v c.assertions := by
        rw [iff_of_eq (congrArg (Satisfies v) forms)]
        exact satisfies_arranged
    _ ↔ Satisfies v (piForms ++ c.contributions) := satisfies_filter
    _ ↔ _ := satisfies_append

theorem satisfies_contributions :
    Satisfies v c.contributions ↔
      Satisfies v c.placed ∧ Satisfies v c.droplets ∧ Satisfies v c.hydraulics := by
  simp only [contributions, satisfies_append, and_assoc]

end Schematic.Compiled

end FluidChip
