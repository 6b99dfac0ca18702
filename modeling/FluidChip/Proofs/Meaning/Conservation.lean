import FluidChip.Proofs.Meaning.Hydraulic

/-!
# Conservation node by node

At a node that is no control point the rule of conservation sets a sum to zero.  The
sum is the net flow into the node, except that a channel from a port to itself is
counted as if it only ended there.  Nothing is set to zero where no channel touches
the node.
-/

namespace FluidChip

open Outcome Formula Sexp

namespace Setting

variable (g : Setting)

def Touches (c : ConnectionId) (n : NodeId) : Prop :=
  (g.schematic.connection c).source ∈ (g.schematic.node n).ports.values ∨
    (g.schematic.connection c).target ∈ (g.schematic.node n).ports.values

/-- What the rule of conservation makes at a node, whichever numbers the symbols have. -/
inductive Conserves (n : NodeId) : List Sexp → Prop
  | exempt (control : g.table.isControlPoint (g.nodeType n) = true) : Conserves n []
  | untouched (free : g.table.isControlPoint (g.nodeType n) = false)
      (apart : ∀ c ∈ g.channelIds, ¬ g.Touches c n) : Conserves n []
  | conserved (free : g.table.isControlPoint (g.nodeType n) = false) {c : ConnectionId}
      (channel : c ∈ g.channelIds) (touches : g.Touches c n) {sum : Sexp}
      (value : ∀ (K : Type) [Field K] [LinearOrder K] (v : Symbol → K), sum.value v =
        some (g.totalFlow v (g.entering n) - g.totalFlow v (g.leaving n) +
          g.totalFlow v (g.looping n))) :
      Conserves n [assert .equal sum zero]

def balanceAt (n : NodeId) : List Sexp :=
  if g.table.isControlPoint (g.nodeType n) then [] else Rule.balanceOf (g.inflowTerms n)

variable {g} {names : Catalog String} {n : NodeId}

/-! ## Terms -/

theorem inflowTerms_eq_nil_iff : g.inflowTerms n = [] ↔ ∀ c ∈ g.channelIds, ¬ g.Touches c n := by
  simp only [inflowTerms, List.flatMap_eq_nil_iff, List.map_eq_nil_iff, channelsAtPort_eq,
    List.filter_eq_nil_iff, decide_eq_true_eq, Touches]
  constructor
  · rintro none c hc (source | target)
    · exact none _ source c hc (.inl rfl)
    · exact none _ target c hc (.inr rfl)
  · rintro none port hport c hc (rfl | rfl)
    · exact none c hc (.inl hport)
    · exact none c hc (.inr hport)

theorem inflows_eq (distinct : g.schematic.namespace? = .ok names) (n : NodeId) :
    Rule.inflows g n = .ok (g.inflowTerms n) := by
  have found : ∃ terms, Rule.inflows g n = .ok terms := by
    simp only [Rule.inflows, bind_ok_iff, pure_ok_iff]
    rw [exists_comm]
    simp only [exists_and_left, exists_eq', and_true, exists_mapM_ok_iff]
    intro port _ q hq
    have listed : q ∈ g.schematic.connections.entries :=
      List.mem_of_mem_filter (List.mem_of_mem_filter hq)
    have registered : g.schematic.Registers (.connection .flow q.2) := List.mem_map_of_mem listed
    exact ⟨_, inflow_ok_iff.mpr ⟨Schematic.resolves_of_registers distinct registered, rfl⟩⟩
  obtain ⟨terms, made⟩ := found
  rw [made, (Rule.inflows_ok made).1]

/-! ## Assertions -/

theorem conservation_eq (distinct : g.schematic.namespace? = .ok names) :
    (Rule.conservation g).outcome = .ok (g.nodes.flatMap g.balanceAt) := by
  have parts : (g.schematic.nodes.entries.mapM fun q => (Rule.balance g q.1 q.2).outcome) =
      .ok (g.schematic.nodes.entries.map fun q => g.balanceAt q.2) := by
    refine mapM_eq_map fun q _ => ?_
    rw [Rule.outcome_balance, inflows_eq distinct, balanceAt]
    split <;> rfl
  rw [Rule.outcome_conservation, parts]
  rw [nodes, Catalog.values, List.flatMap_def, List.map_map]
  rfl

theorem conserves_balanceAt (distinct : g.schematic.namespace? = .ok names) (hn : n ∈ g.nodes) :
    g.Conserves n (g.balanceAt n) := by
  have channels := nodup_channelIds distinct
  have ports := Schematic.nodup_ports distinct hn
  rw [balanceAt]
  split
  · rename_i control
    exact .exempt control
  · rename_i free
    rw [Bool.not_eq_true] at free
    cases terms : g.inflowTerms n with
    | nil => exact .untouched free (inflowTerms_eq_nil_iff.mp terms)
    | cons term rest =>
        have touched : ¬ ∀ c ∈ g.channelIds, ¬ g.Touches c n := by
          rw [← inflowTerms_eq_nil_iff, terms]
          exact List.cons_ne_nil term rest
        push Not at touched
        obtain ⟨c, channel, touches⟩ := touched
        refine .conserved free channel touches fun K _ _ v => ?_
        rw [← terms, value_sumOf (Rule.values_inflowTerms n), sum_inflows_ports ports channels]

end Setting

namespace Rule

open Setting

/-- Where the schematic has a namespace, the rule of conservation treats its nodes one
after the other, each as its channels demand. -/
theorem conservation_conserves (g : Setting) {names : Catalog String}
    (distinct : g.schematic.namespace? = .ok names) :
    ∃ parts, (conservation g).outcome = .ok parts.flatten ∧
      List.Forall₂ g.Conserves g.nodes parts := by
  refine ⟨g.nodes.map g.balanceAt, ?_, ?_⟩
  · rw [conservation_eq distinct, List.flatMap_def]
  · rw [List.forall₂_map_right_iff, List.forall₂_same]
    exact fun n hn => conserves_balanceAt distinct hn

end Rule

namespace Schematic

theorem bend_conserves : ∃ (g : Setting) (names : Catalog String), bend = .ok g.schematic ∧
    g.schematic.namespace? = .ok names ∧
    ∃ parts, (Rule.conservation g).outcome = .ok parts.flatten ∧
      List.Forall₂ g.Conserves g.nodes parts := by
  obtain ⟨s, p, program, built, -, h⟩ := bend_compiles
  obtain ⟨c⟩ := compiled_of_compile h
  exact ⟨⟨s, p, c.table, .standard⟩, c.names, built, c.distinct,
    Rule.conservation_conserves _ c.distinct⟩

/-- A node with one port and a channel from that port to itself. -/
def whirl : Except Failure Schematic := do
  let s ← (empty "whirl").addNode "joint" "channelCrossing" ["p"]
  s.addConnection "loop" (← s.getPort "joint" "p") (← s.getPort "joint" "p")

/-- The channel brings nothing into the node, and yet its flow is what is set to zero. -/
theorem whirl_counted : ∃ g : Setting, whirl = .ok g.schematic ∧
    TypeTable.ofSchematic g.schematic = .ok g.table ∧
    (∃ names, g.schematic.namespace? = .ok names) ∧ ∃ n ∈ g.nodes, ∃ sum : Sexp,
      g.table.isControlPoint (g.nodeType n) = false ∧
      (Rule.conservation g).outcome = .ok [assert .equal sum zero] ∧
      ∃ v : Symbol → ℚ, sum.value v = some 1 ∧
        g.totalFlow v (g.entering n) - g.totalFlow v (g.leaving n) = 0 := by
  have checked : (whirl.toOption.bind fun s => (TypeTable.ofSchematic s).toOption.bind fun t =>
      (Parameters.ofNumbers .standard bendNumbers).toOption.bind fun p =>
      s.namespace?.toOption.bind fun _ => s.nodes.values.head?.bind fun n =>
      (s.node n).ports.values.head?.bind fun port => s.connections.values.head?.filter fun c =>
        !t.isControlPoint (s.node n).typeName && s.nodes.values == [n] &&
        (s.node n).ports.values == [port] && Setting.channelIds ⟨s, p, t, .standard⟩ == [c] &&
        (s.connection c).source == port && (s.connection c).target == port).isSome = true := by
    decide +kernel
  obtain ⟨c, checked⟩ := Option.isSome_iff_exists.mp checked
  simp only [Option.bind_eq_some_iff, Option.filter_eq_some_iff, toOption_eq_some_iff,
    Bool.and_eq_true, Bool.not_eq_true', beq_iff_eq] at checked
  obtain ⟨s, built, t, resolved, p, -, names, distinct, n, -, port, -, -,
    ⟨⟨⟨⟨free, single⟩, ports⟩, channels⟩, source⟩, target⟩ := checked
  let g : Setting := ⟨s, p, t, .standard⟩
  have terms : g.inflowTerms n = [g.term (.connection .flow c)] := by
    simp [g, Setting.inflowTerms, Setting.channelsAtPort_eq, Setting.inflowTerm, ports, channels,
      source, target]
  have nodes : g.nodes = [n] := single
  have outcome : (Rule.conservation g).outcome =
      .ok [assert .equal (g.term (.connection .flow c)) zero] := by
    have balance : g.balanceAt n = Rule.balanceOf (g.inflowTerms n) :=
      if_neg (Bool.eq_false_iff.mp free)
    rw [Setting.conservation_eq distinct, nodes, List.flatMap_singleton, balance, terms]
    rfl
  refine ⟨g, built, resolved, ⟨names, distinct⟩, n, ?_, g.term (.connection .flow c), free,
    outcome, fun _ => 1, value_symbol _, ?_⟩
  · exact nodes ▸ List.mem_singleton_self n
  · simp [g, Setting.entering, Setting.leaving, ports, channels, source, target]

end Schematic

end FluidChip
