import FluidChip.Proofs.Meaning.Program
import FluidChip.Proofs.Namespace
import FluidChip.Proofs.Reordering.Droplet
import FluidChip.Proofs.Reordering.Hydraulic
import FluidChip.Proofs.Reordering.Placement

/-!
# Programs of schematics in another order

Every rule of a reordered schematic follows the same rule of the first, and so do
the groups of rules.  The programs then differ in the order and the shape of their
expressions only.
-/

namespace FluidChip

open Outcome Formula Sexp

/-- Programs that declare the same symbols and have the same satisfying
assignments. -/
structure Program.Equivalent (program program' : List Sexp) : Prop where
  declares : ∀ symbol, declare symbol ∈ program ↔ declare symbol ∈ program'
  satisfies : ∀ (K : Type) [Field K] [LinearOrder K] (v : Symbol → K),
    Satisfies v program ↔ Satisfies v program'

namespace Schematic

variable {ρ : Renaming}

/-! ## Groups of rules -/

theorem follows_contribution {g g' : Setting} {group : Rule.Group}
    (hgroup : group ∈ Rule.programGroups)
    (each : ∀ r ∈ group.rules, Rule.Follows (r.outcome g) (r.outcome g')) :
    Rule.Follows (contribution g group).outcome (contribution g' group).outcome := by
  intro es ok
  obtain ⟨parts, made, rfl⟩ := (contribution_ok_iff hgroup).mp ok
  have rules (r : Rule) : r ∈ group.rules ↔ ∃ other ∈ group.rules, id other = r := by simp
  obtain ⟨parts', made', alike⟩ := Rule.relates_parts rules each _ made
  exact ⟨_, (contribution_ok_iff hgroup).mpr ⟨parts', made', rfl⟩, alike⟩

namespace Compiled

variable {host : Host} {s s' : Schematic} {p : Parameters} {program : List Sexp}
  (c : Compiled host s p program)

theorem reordered (h : s.Reordered ρ s') :
    ∃ program', ∃ c' : Compiled host s' p program', Alike c.contributions c'.contributions := by
  obtain ⟨table', resolved', agree⟩ := TypeTable.ofSchematic_reordered h c.resolved
  obtain ⟨names', distinct'⟩ := h.namespace_ok c.distinct
  have settings : Setting.Reordered ρ ⟨s, p, c.table, host⟩ ⟨s', p, table', host⟩ :=
    ⟨h, rfl, rfl, agree, c.names, c.distinct⟩
  obtain ⟨placed', placement', placed⟩ := follows_contribution mem_placementGroup
    (fun _ hr => Rule.follows_placementRules settings hr) _ c.placement
  obtain ⟨droplets', droplet', droplets⟩ := follows_contribution mem_dropletGroup
    (fun _ hr => Rule.follows_dropletRules settings hr) _ c.droplet
  obtain ⟨hydraulics', hydraulic', hydraulics⟩ := follows_contribution mem_hydraulicGroup
    (fun _ hr => Rule.follows_hydraulicRules settings hr) _ c.hydraulic
  exact ⟨_, ⟨table', names', placed', droplets', hydraulics', resolved', distinct', placement',
    droplet', hydraulic', rfl⟩, (placed.append droplets).append hydraulics⟩

theorem equivalent_of_alike {program' : List Sexp} (c' : Compiled host s' p program')
    (alike : Alike c.contributions c'.contributions) : Program.Equivalent program program' where
  declares symbol := by
    rw [c.declare_mem_program_iff, c'.declare_mem_program_iff, List.mem_append, List.mem_append]
    exact or_congr_right (alike.declares symbol)
  satisfies K _ _ v := by
    rw [c.satisfies_program, c'.satisfies_program]
    exact and_congr_right fun _ => alike.satisfies v

end Compiled

/-! ## Programs -/

theorem compiles_of_reordered {host : Host} {s s' : Schematic} (h : s.Reordered ρ s')
    {p : Parameters} {program : List Sexp} (ok : (s.compile host p).outcome = .ok program) :
    ∃ program', (s'.compile host p).outcome = .ok program' ∧
      Program.Equivalent program program' := by
  obtain ⟨c⟩ := compiled_of_compile ok
  obtain ⟨program', c', alike⟩ := c.reordered h
  exact ⟨program', c'.compile_ok, c.equivalent_of_alike c' alike⟩

/-- The order in which a schematic holds its entities, and their identities, decide
neither whether it has a program nor what the program means. -/
theorem compile_reordered {s s' : Schematic} (h : s.Reordered ρ s') (host : Host)
    (p : Parameters) :
    ((∃ program, (s.compile host p).outcome = .ok program) ↔
      ∃ program', (s'.compile host p).outcome = .ok program') ∧
    ∀ program program', (s.compile host p).outcome = .ok program →
      (s'.compile host p).outcome = .ok program' → Program.Equivalent program program' := by
  refine ⟨⟨?_, ?_⟩, ?_⟩
  · rintro ⟨program, ok⟩
    obtain ⟨program', ok', -⟩ := compiles_of_reordered h ok
    exact ⟨program', ok'⟩
  · rintro ⟨program', ok'⟩
    obtain ⟨program, ok, -⟩ := compiles_of_reordered h.symm ok'
    exact ⟨program, ok⟩
  · intro program program' ok ok'
    obtain ⟨other, made, equivalent⟩ := compiles_of_reordered h ok
    obtain rfl : other = program' := Except.ok.inj (made.symm.trans ok')
    exact equivalent

/-- Two nodes, two ports and two connections change identities. -/
def crossed : Renaming where
  node := Equiv.swap ⟨0⟩ ⟨2⟩
  port := Equiv.swap ⟨1⟩ ⟨3⟩
  connection := Equiv.swap ⟨7⟩ ⟨8⟩

theorem bend_crossed : ∃ s p program program', bend = .ok s ∧
    (s.compile .standard p).outcome = .ok program ∧
    ((s.mirrored crossed).compile .standard p).outcome = .ok program' ∧
    program.map Sexp.symbols ≠ program'.map Sexp.symbols ∧
    Program.Equivalent program program' := by
  have checked : (bend.toOption.bind fun s =>
      (Parameters.ofNumbers .standard bendNumbers).toOption.bind fun p =>
      (s.compile .standard p).outcome.toOption.bind fun program =>
      ((s.mirrored crossed).compile .standard p).outcome.toOption.map fun program' =>
        decide (program.map Sexp.symbols ≠ program'.map Sexp.symbols)) = some true := by
    decide +kernel
  simp only [Option.bind_eq_some_iff, Option.map_eq_some_iff, toOption_eq_some_iff,
    decide_eq_true_eq] at checked
  obtain ⟨s, built, p, -, program, ok, program', ok', different⟩ := checked
  exact ⟨s, p, program, program', built, ok, ok', different,
    (compile_reordered (s.mirrored_reordered crossed) .standard p).2 program program' ok ok'⟩

end Schematic

end FluidChip
