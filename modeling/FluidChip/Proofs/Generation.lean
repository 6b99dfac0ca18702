import FluidChip.Generation
import FluidChip.Proofs.Declaration
import FluidChip.Proofs.FileTree

/-!
# What a generation leaves behind

A generation ends in one of three ways: the program stands at its path and
nothing else has changed, or the schematic does not compile, or its program
cannot be written.  After a failure the tree is the one before.
-/

namespace FluidChip.Schematic

open Outcome

/-- How the generation of a schematic ends, in which tree and with which answer. -/
inductive Generated (host : Host) (s : Schematic) (p : Parameters) (directory : String)
    (t : FileTree) : FileTree → Except Generation.Fault Path → Prop where
  | written {program place after} (compiled : (s.compile host p).outcome = .ok program)
      (located : after.locate (s.outputPath directory) = .ok place)
      (replaced : t.Replaced after place
        (String.join (program.map fun e => e.text ++ "\n")).toUTF8.toList) :
      Generated host s p directory t after (.ok (s.outputPath directory))
  | refused {failure} (compiled : (s.compile host p).outcome = .error failure) :
      Generated host s p directory t t (.error (.compilation failure))
  | unwritable {program fault} (compiled : (s.compile host p).outcome = .ok program)
      (stuck : ¬ t.Replaceable (s.partialPath directory) (s.outputPath directory)) :
      Generated host s p directory t t (.error (.output fault))

variable {host : Host} {s : Schematic} {p : Parameters} {directory : String} {t : FileTree}

theorem generate_of_error {failure : Failure} (h : (s.compile host p).outcome = .error failure)
    (directory : String) (t : FileTree) :
    (s.generate host p directory t).1 = t ∧
      (s.generate host p directory t).2.outcome = .error (.compilation failure) := by
  simp [generate, h]

theorem generate_of_ok {program : List Sexp} (h : (s.compile host p).outcome = .ok program)
    {after : FileTree} {answer : Except FileTree.Fault Unit}
    (replaced : t.replace (s.partialPath directory) (s.outputPath directory)
      (Program.text program).toUTF8.toList = (after, answer)) :
    (s.generate host p directory t).1 = after ∧ (s.generate host p directory t).2.outcome =
      (answer.mapError Generation.Fault.output).map fun _ => s.outputPath directory := by
  simp only [generate, h, replaced]
  cases answer <;> exact ⟨rfl, rfl⟩

/-- Where nothing stands under the partial name, a generation writes its program
or changes nothing. -/
theorem generate_atomic
    (free : ∀ place, t.locate (s.partialPath directory) = .ok place → t.find? place = none) :
    s.Generated host p directory t (s.generate host p directory t).1
      (s.generate host p directory t).2.outcome := by
  cases compiled : (s.compile host p).outcome with
  | error failure =>
      obtain ⟨same, answer⟩ := generate_of_error compiled directory t
      rw [same, answer]
      exact .refused compiled
  | ok program =>
      rcases FileTree.replace_cases (s.outputPath directory)
        (Program.text program).toUTF8.toList free with
        ⟨place, after, located, replaced, run⟩ | ⟨stuck, fault, run⟩
      · obtain ⟨same, answer⟩ := generate_of_ok compiled run
        rw [same, answer]
        exact .written compiled located replaced
      · obtain ⟨same, answer⟩ := generate_of_ok compiled run
        rw [same, answer]
        exact .unwritable compiled stuck

/-- An output directory with the program of an earlier generation. -/
def bendTree : FileTree :=
  (FileTree.put {} ["out"] .directory).put ["out", "bend.smt2"] (.file [40, 41, 10])

theorem bend_generated : ∃ s p, bend = .ok s ∧
    Parameters.ofNumbers .standard bendNumbers = .ok p ∧
    (∀ place, bendTree.locate (s.partialPath "out") = .ok place → bendTree.find? place = none) ∧
    s.Generated .standard p "out" bendTree (s.generate .standard p "out" bendTree).1
      (s.generate .standard p "out" bendTree).2.outcome := by
  obtain ⟨s, p, -, built, numbers, -⟩ := bend_compiles
  have checked : (bend.map fun s =>
      (bendTree.locate (s.partialPath "out")).map bendTree.find?).toOption =
        some (.ok none) := by
    decide +kernel
  have free : ∀ place, bendTree.locate (s.partialPath "out") = .ok place →
      bendTree.find? place = none := by
    intro place located
    rw [built] at checked
    simpa [located, Except.map, Except.toOption] using checked
  exact ⟨s, p, built, numbers, free, generate_atomic free⟩

end FluidChip.Schematic
