import FluidChip.Compilation
import FluidChip.Proofs.Outcome

/-!
# What a group of rules contributes

A rule that does not look at its own visit makes the same of a setting at every
run, so a group of such rules contributes their results one after another.  A
program is put together from the contributions of the three groups.
-/

namespace FluidChip

open Outcome Formula

/-! ## Rules that ignore their visits -/

namespace Rule

/-- What a rule makes of a setting at its first run. -/
def outcome (g : Setting) (r : Rule) : Except Failure (List Sexp) :=
  (r.step g ⟨1, .error (.noResult r.name .computing)⟩).outcome

def Steady (g : Setting) (r : Rule) : Prop :=
  ∀ visit, (r.step g visit).outcome = r.outcome g

variable {g : Setting}

theorem steady_of_mem_programGroups {group : Group} (hgroup : group ∈ programGroups)
    {r : Rule} (hr : r ∈ group.rules) : r.Steady g := by
  simp only [programGroups, List.mem_cons, List.not_mem_nil, or_false] at hgroup
  rcases hgroup with rfl | rfl | rfl
  · simp only [placementGroup, placementRules, List.mem_cons, List.not_mem_nil,
      or_false] at hr
    rcases hr with rfl | rfl | rfl | rfl | rfl | rfl | rfl <;> exact fun _ => rfl
  · simp only [dropletGroup, dropletRules, List.mem_cons, List.not_mem_nil, or_false] at hr
    rcases hr with rfl | rfl <;> exact fun _ => rfl
  · simp only [hydraulicGroup, hydraulicRules, List.mem_cons, List.not_mem_nil,
      or_false] at hr
    rcases hr with rfl | rfl | rfl | rfl | rfl | rfl <;> exact fun _ => rfl

end Rule

/-! ## Runs of trees -/

namespace RuleTree

variable {g : Setting}

theorem outcome_leaf {r : Rule} (steady : r.Steady g) (id : Nat) (c : RuleCache) :
    ((leaf id r).run g c).2.outcome = r.outcome g := by
  rw [run, RuleCache.outcome_settle]
  exact steady _

theorem outcome_runAll {rules : List Rule} (steady : ∀ r ∈ rules, r.Steady g)
    (first : Nat) (c : RuleCache) :
    (runAll g ((List.range' first rules.length).zipWith leaf rules) c).2.outcome =
      (rules.mapM (Rule.outcome g)).map List.flatten := by
  induction rules generalizing first c with
  | nil => rfl
  | cons r rest ih =>
      have here := outcome_leaf (steady r List.mem_cons_self) first c
      have others := ih fun r hr => steady r (List.mem_cons_of_mem _ hr)
      rw [List.length_cons, List.range'_succ, List.zipWith_cons_cons, List.mapM_cons, ← here]
      unfold runAll
      cases made : ((leaf first r).run g c).2.outcome with
      | error failure => simp [made, bind, Except.bind, Except.map]
      | ok es =>
          simp only [made, others]
          cases rest.mapM (Rule.outcome g) <;> rfl

theorem outcome_tree {group : Rule.Group} (hgroup : group ∈ Rule.programGroups)
    (c : RuleCache) :
    (group.tree.run g c).2.outcome =
      (group.rules.mapM (Rule.outcome g)).map List.flatten := by
  rw [Rule.Group.tree, ofRules, run, RuleCache.outcome_settle]
  exact outcome_runAll (fun _ hr => Rule.steady_of_mem_programGroups hgroup hr) 0 _

end RuleTree

/-! ## Contributions -/

namespace Schematic

variable {g : Setting} {group : Rule.Group} {es : List Sexp}

theorem outcome_contribution (hgroup : group ∈ Rule.programGroups) :
    (contribution g group).outcome = (group.rules.mapM (Rule.outcome g)).map List.flatten := by
  have logged : (contribution g group).outcome = (group.tree.run g {}).2.outcome := by
    rw [contribution, Run.outcome_bind]
    cases made : (group.tree.run g {}).2.outcome <;> rfl
  rw [logged, RuleTree.outcome_tree hgroup]

theorem contribution_ok_iff (hgroup : group ∈ Rule.programGroups) :
    (contribution g group).outcome = .ok es ↔
      ∃ parts, group.rules.mapM (Rule.outcome g) = .ok parts ∧ parts.flatten = es := by
  rw [outcome_contribution hgroup, map_ok_iff]

theorem forall_contribution (hgroup : group ∈ Rule.programGroups)
    (h : (contribution g group).outcome = .ok es) {P : Sexp → Prop}
    (each : ∀ r ∈ group.rules, ∀ made, r.outcome g = .ok made → ∀ e ∈ made, P e) :
    ∀ e ∈ es, P e := by
  obtain ⟨parts, made, rfl⟩ := (contribution_ok_iff hgroup).mp h
  intro e he
  obtain ⟨r, hr, part, ok, mem⟩ := step_of_flatten made he
  exact each r hr part ok e mem

theorem contribution_has (hgroup : group ∈ Rule.programGroups)
    (h : (contribution g group).outcome = .ok es) {r : Rule} (hr : r ∈ group.rules) :
    ∃ made, r.outcome g = .ok made ∧ ∀ e ∈ made, e ∈ es := by
  obtain ⟨parts, all, rfl⟩ := (contribution_ok_iff hgroup).mp h
  obtain ⟨made, -, ok⟩ := result_of_step all hr
  exact ⟨made, ok, fun e he => result_mem_flatten all hr ok he⟩

theorem mem_placementGroup : Rule.placementGroup ∈ Rule.programGroups := by
  simp [Rule.programGroups]

theorem mem_dropletGroup : Rule.dropletGroup ∈ Rule.programGroups := by
  simp [Rule.programGroups]

theorem mem_hydraulicGroup : Rule.hydraulicGroup ∈ Rule.programGroups := by
  simp [Rule.programGroups]

/-! ## Programs -/

/-- The steps of a compilation that ended in a program. -/
structure Compiled (host : Host) (s : Schematic) (p : Parameters) (program : List Sexp) where
  table : TypeTable
  names : Catalog String
  placed : List Sexp
  droplets : List Sexp
  hydraulics : List Sexp
  resolved : TypeTable.ofSchematic s = .ok table
  distinct : s.namespace? = .ok names
  placement : (contribution ⟨s, p, table, host⟩ Rule.placementGroup).outcome = .ok placed
  droplet : (contribution ⟨s, p, table, host⟩ Rule.dropletGroup).outcome = .ok droplets
  hydraulic : (contribution ⟨s, p, table, host⟩ Rule.hydraulicGroup).outcome = .ok hydraulics
  forms : program = setLogic :: (Program.arrange (piForms ++ (placed ++ droplets ++ hydraulics)) ++
    [checkSat, exit])

theorem compiled_of_compile {host : Host} {s : Schematic} {p : Parameters} {program : List Sexp}
    (h : (s.compile host p).outcome = .ok program) :
    Nonempty (Compiled host s p program) := by
  have ok_bind {α β : Type} {r : Except Failure α} {f : α → Except Failure β} {b : β} :
      r.bind f = .ok b ↔ ∃ a, r = .ok a ∧ f a = .ok b := bind_ok_iff
  simp only [compile, typeTable, checkedNamespace, Run.debug, Run.info, Run.outcome_bind,
    Run.outcome_onError, Run.outcome_ofExcept, Run.outcome_log, Run.outcome_pure,
    Run.outcome_mapM, ok_bind] at h
  obtain ⟨table, ⟨-, -, table', resolved, -, -, same⟩, names,
    ⟨names', distinct, -, -, same'⟩, -, -, parts, made, forms⟩ := h
  cases same
  cases same'
  simp only [Rule.programGroups, List.mapM_cons, List.mapM_nil, bind_ok_iff, pure_ok_iff]
    at made
  obtain ⟨placed, placement, -, ⟨droplets, droplet, -, ⟨hydraulics, hydraulic, -, rfl, rfl⟩,
    rfl⟩, rfl⟩ := made
  cases forms
  exact ⟨⟨table, names, placed, droplets, hydraulics, resolved, distinct, placement, droplet,
    hydraulic, by simp⟩⟩

theorem Compiled.compile_ok {host : Host} {s : Schematic} {p : Parameters} {program : List Sexp}
    (c : Compiled host s p program) : (s.compile host p).outcome = .ok program := by
  have bind_ok {α β : Type} (a : α) (f : α → Except Failure β) : (Except.ok a).bind f = f a := rfl
  simp only [compile, typeTable, checkedNamespace, Run.debug, Run.info, Run.outcome_bind,
    Run.outcome_onError, Run.outcome_ofExcept, Run.outcome_log, Run.outcome_pure,
    Run.outcome_mapM, c.resolved, c.distinct, bind_ok]
  have groups : (Rule.programGroups.mapM fun group =>
      (contribution ⟨s, p, c.table, host⟩ group).outcome) =
      .ok [c.placed, c.droplets, c.hydraulics] := by
    simp only [Rule.programGroups, List.mapM_cons, List.mapM_nil, c.placement, c.droplet,
      c.hydraulic]
    rfl
  rw [groups, bind_ok]
  refine congrArg Except.ok (.trans ?_ c.forms.symm)
  simp

end Schematic

end FluidChip
