import FluidChip.Proofs.Declaration
import FluidChip.Proofs.Meaning.Balance
import FluidChip.Proofs.TypeTable

/-!
# The meaning of the hydraulic rules

An assignment satisfies what the hydraulic rules contribute just when its
pressures, flows and resistances are those of a circuit.
-/

namespace FluidChip

open Outcome Formula Sexp Number

variable {K : Type*} [Field K]

/-! ## Circuits -/

/-- The law of the resistance of a channel, with the numbers that the literals of
its rule write. -/
def CrossSection.Law (host : Host) (resistance length pi : K) : CrossSection → Prop
  | .unknown => True
  | .circular radius viscosity => ∃ fourth, host.power? radius 4 = some fourth ∧
      resistance * pi * ((written fourth : ℚ) : K) =
        ((written (8.0 * viscosity) : ℚ) : K) * length
  | .rectangular width height viscosity => ∃ coefficient,
      Rule.rectangularCoefficient host width height viscosity = .ok coefficient ∧
        resistance = ((written coefficient : ℚ) : K) * length

namespace Setting

section Amounts

variable (g : Setting) (v : Symbol → K)

def pressureAt (n : NodeId) : K := g.amount v (.node .pressure n)

def pressureAtPort (port : PortId) : K := g.amount v (.port port)

def resistanceOf (c : ConnectionId) : K := g.amount v (.connection .resistance c)

end Amounts

variable [LinearOrder K]

/-- The pressures, flows and resistances of an assignment make a circuit. -/
structure Circuit (g : Setting) (v : Symbol → K) : Prop where
  level : ∀ n ∈ g.nodes, ∀ port ∈ (g.schematic.node n).ports.values,
    g.pressureAtPort v port = g.pressureAt v n
  resistance : ∀ name c, (name, c) ∈ g.channels → 0 < g.resistanceOf v c ∧
    ∃ shape, CrossSection.Given g.host ("channel '" ++ name ++ "'")
        (g.schematic.connection c).attributes shape ∧
      shape.Law g.host (g.resistanceOf v c) (g.lengthOf v c) (v Schematic.pi)
  drop : ∀ name c, (name, c) ∈ g.channels →
    g.pressureAt v (g.schematic.sourceNode c) - g.pressureAt v (g.schematic.targetNode c) =
      g.flowOf v c * g.resistanceOf v c
  conserved : ∀ n ∈ g.nodes, g.table.isControlPoint (g.nodeType n) = false →
    g.netFlow v n = 0
  fixed : ∀ name n, (name, n) ∈ g.schematic.nodes.entries →
    g.table.nodeIsA (g.nodeType n) "pressureControlPoint" = true →
    ∀ x, (g.schematic.node n).attributes.quantity? g.host "pressure" .pressure
        ("node '" ++ name ++ "'") = .ok (some x) →
      g.pressureAt v n = ((written x : ℚ) : K)

end Setting

namespace Rule

open Setting

variable [LinearOrder K] {g : Setting} {es : List Sexp} {v : Symbol → K}

/-! ## Rules one by one -/

theorem satisfies_hydraulicDeclarations (h : hydraulicDeclarations g = .ok es) :
    Satisfies v es := by
  obtain ⟨rfl, -⟩ := hydraulicDeclarations_ok h
  exact satisfies_declarations

theorem satisfies_portPressures (h : portPressures g = .ok es) :
    Satisfies v es ↔ ∀ n ∈ g.nodes, ∀ port ∈ (g.schematic.node n).ports.values,
      g.pressureAtPort v port = g.pressureAt v n := by
  refine satisfies_joined h fun n _ made ok => ?_
  refine forall_result_iff ok fun port _ e made => ?_
  simp only [bind_ok_iff, pure_ok_iff, portPressure_ok_iff, pressure_ok_iff] at made
  obtain ⟨_, ⟨-, rfl⟩, _, ⟨-, rfl⟩, rfl⟩ := made
  rw [satisfied_assert (value_term _) (value_term _)]
  rfl

theorem satisfies_rules {shape : CrossSection} {resistance length : Sexp} {r l : K}
    (hresistance : resistance.value v = some r) (hlength : length.value v = some l)
    (h : shape.Rules g.host resistance length es) :
    Satisfies v es ↔ shape.Law g.host r l (v Schematic.pi) := by
  cases h with
  | unknown => simp [CrossSection.Law]
  | @circular radius viscosity fourth eight hfourth height =>
      rw [satisfies_assert
        (value_product_triple hresistance (value_symbol _) (value_literal fourth))
        (value_product_pair (value_literal eight) hlength), height]
      simp [CrossSection.Law, hfourth, Relation.Between]
  | @rectangular width height viscosity coefficient ok =>
      rw [satisfies_assert hresistance
        (value_product_pair (value_literal coefficient) hlength)]
      simp [CrossSection.Law, ok, Relation.Between]

theorem satisfies_resistanceRules {name : String} {c : ConnectionId}
    (h : resistanceRules g name c = .ok es) :
    Satisfies v es ↔ 0 < g.resistanceOf v c ∧
      ∃ shape, CrossSection.Given g.host ("channel '" ++ name ++ "'")
          (g.schematic.connection c).attributes shape ∧
        shape.Law g.host (g.resistanceOf v c) (g.lengthOf v c) (v Schematic.pi) := by
  obtain ⟨-, -, shape, model, given, rules, rfl⟩ := resistanceRules_ok h
  rw [satisfies_cons, satisfied_assert (value_term _) value_zero,
    satisfies_rules (value_term _) (value_term _) rules]
  refine and_congr_right fun _ => ?_
  constructor
  · exact fun law => ⟨shape, given, law⟩
  · rintro ⟨other, given', law⟩
    exact given.unique given' ▸ law

theorem satisfies_resistances (h : resistances g = .ok es) :
    Satisfies v es ↔ ∀ name c, (name, c) ∈ g.channels → 0 < g.resistanceOf v c ∧
      ∃ shape, CrossSection.Given g.host ("channel '" ++ name ++ "'")
          (g.schematic.connection c).attributes shape ∧
        shape.Law g.host (g.resistanceOf v c) (g.lengthOf v c) (v Schematic.pi) := by
  rw [← Prod.forall']
  exact satisfies_joined h fun (name, c) _ made ok => satisfies_resistanceRules ok

theorem satisfies_pressureDrops (h : pressureDrops g = .ok es) :
    Satisfies v es ↔ ∀ q ∈ g.channels,
      g.pressureAtPort v (g.schematic.connection q.2).source -
        g.pressureAtPort v (g.schematic.connection q.2).target =
      g.flowOf v q.2 * g.resistanceOf v q.2 := by
  obtain ⟨rfl, -⟩ := pressureDrops_ok h
  simp only [Satisfies, List.forall_mem_map]
  refine forall₂_congr fun q _ => ?_
  rw [dropLaw, satisfied_assert (value_difference (value_term _) (value_term _))
    (value_product_pair (value_term _) (value_term _))]
  rfl

theorem ports_of_pressureDrops (h : pressureDrops g = .ok es) {c : ConnectionId}
    (hc : c ∈ g.channelIds) :
    g.schematic.Resolves (.port (g.schematic.connection c).source) ∧
      g.schematic.Resolves (.port (g.schematic.connection c).target) := by
  obtain ⟨⟨name, c⟩, channel, rfl⟩ := List.mem_map.mp hc
  obtain ⟨source, target, -, -⟩ := (pressureDrops_ok h).2 _ channel
  exact ⟨source, target⟩

theorem values_inflowTerms (n : NodeId) : values v (g.inflowTerms n) = some (g.inflows v n) :=
  values_flatMap fun _ _ => values_map fun _ _ => value_inflowTerm _ _

theorem satisfies_balance {name : String} {n : NodeId}
    (h : (balance g name n).outcome = .ok es) :
    Satisfies v es ↔
      (g.table.isControlPoint (g.nodeType n) = false → (g.inflows v n).sum = 0) := by
  rcases balance_ok h with ⟨control, rfl⟩ | ⟨free, -, ⟨none, rfl⟩ | rfl⟩
  · simp [control]
  · have empty : g.inflows v n = [] := by
      have found := values_inflowTerms (v := v) (g := g) n
      rw [none, values] at found
      exact (Option.some.inj found).symm
    simp [empty]
  · rw [satisfies_assert (value_sumOf (values_inflowTerms n)) value_zero, free]
    simp [Relation.Between]

theorem satisfies_conservation (h : (conservation g).outcome = .ok es) :
    Satisfies v es ↔ ∀ n ∈ g.nodes, g.table.isControlPoint (g.nodeType n) = false →
      (g.inflows v n).sum = 0 := by
  obtain ⟨parts, rfl, hparts⟩ := conservation_ok h
  rw [nodes, Catalog.values, List.forall_mem_map]
  exact satisfies_parts hparts fun _ _ _ ok => satisfies_balance ok

theorem satisfies_fixedPressures (h : fixedPressures g = .ok es) :
    Satisfies v es ↔ ∀ name n, (name, n) ∈ g.schematic.nodes.entries →
      g.table.isPressurePoint (g.nodeType n) = true →
      ∀ x, (g.schematic.node n).attributes.quantity? g.host "pressure" .pressure
          ("node '" ++ name ++ "'") = .ok (some x) →
        g.pressureAt v n = ((written x : ℚ) : K) := by
  rw [satisfies_joined h (Q := fun q =>
    ∀ x, (g.schematic.node q.2).attributes.quantity? g.host "pressure" .pressure
        ("node '" ++ q.1 ++ "'") = .ok (some x) →
      g.pressureAt v q.2 = ((written x : ℚ) : K)) fun (name, n) _ made ok => ?_]
  · simp only [List.mem_filter, and_imp, Prod.forall]
  · obtain ⟨given, read, ok⟩ := bind_ok_iff.mp ok
    have level (t : Sexp) (found : g.pressure n = .ok t) :
        t.value v = some (g.pressureAt v n) := by
      obtain ⟨-, rfl⟩ := pressure_ok_iff.mp found
      exact value_term _
    rw [satisfies_fixed level ok, read]
    simp

/-! ## The group -/

section Network

variable {names : Catalog String} {drops : List Sexp}

theorem mem_ports_iff (distinct : g.schematic.namespace? = .ok names) {port : PortId}
    (resolves : g.schematic.Resolves (.port port)) {n : NodeId} (hn : n ∈ g.nodes) :
    port ∈ (g.schematic.node n).ports.values ↔ g.schematic.owner port = n := by
  constructor
  · exact Schematic.owner_of_mem_ports distinct hn
  · rintro rfl
    exact (Schematic.owner_of_portSymbol resolves).2

omit [LinearOrder K] in
theorem drop_between_nodes (h : pressureDrops g = .ok drops)
    (level : ∀ n ∈ g.nodes, ∀ port ∈ (g.schematic.node n).ports.values,
      g.pressureAtPort v port = g.pressureAt v n)
    {c : ConnectionId} (hc : c ∈ g.channelIds) :
    g.pressureAtPort v (g.schematic.connection c).source -
        g.pressureAtPort v (g.schematic.connection c).target =
      g.pressureAt v (g.schematic.sourceNode c) -
        g.pressureAt v (g.schematic.targetNode c) := by
  obtain ⟨source, target⟩ := ports_of_pressureDrops h hc
  obtain ⟨hsource, onSource⟩ := Schematic.owner_of_portSymbol source
  obtain ⟨htarget, onTarget⟩ := Schematic.owner_of_portSymbol target
  rw [level _ hsource _ onSource, level _ htarget _ onTarget]
  rfl

/-- Where drops follow the resistances, a channel from a port to itself carries no
flow, so the flows into a node may be summed over channels. -/
theorem sum_inflows_eq (distinct : g.schematic.namespace? = .ok names)
    (h : pressureDrops g = .ok drops)
    (positive : ∀ name c, (name, c) ∈ g.channels → 0 < g.resistanceOf v c)
    (ohm : ∀ q ∈ g.channels,
      g.pressureAtPort v (g.schematic.connection q.2).source -
          g.pressureAtPort v (g.schematic.connection q.2).target =
        g.flowOf v q.2 * g.resistanceOf v q.2)
    {n : NodeId} (hn : n ∈ g.nodes) : (g.inflows v n).sum = g.netFlow v n := by
  refine sum_inflows (Schematic.nodup_ports distinct hn) (nodup_channelIds distinct) ?_ ?_ ?_
  · intro c hc loop
    obtain ⟨⟨name, c⟩, channel, rfl⟩ := List.mem_map.mp hc
    have still := ohm _ channel
    rw [loop, sub_self] at still
    exact (mul_eq_zero.mp still.symm).resolve_right (positive name c channel).ne'
  · intro c hc
    exact mem_ports_iff distinct (ports_of_pressureDrops h hc).1 hn
  · intro c hc
    exact mem_ports_iff distinct (ports_of_pressureDrops h hc).2 hn

/-- A circuit is what the rules say one by one, with drops taken between nodes and
flows summed over channels. -/
theorem satisfies_hydraulicGroup (distinct : g.schematic.namespace? = .ok names)
    (resolved : TypeTable.ofSchematic g.schematic = .ok g.table)
    (h : (Schematic.contribution g hydraulicGroup).outcome = .ok es) :
    Satisfies v es ↔ g.Circuit v := by
  obtain ⟨drops, made, -⟩ := Schematic.contribution_has Schematic.mem_hydraulicGroup h
    (r := .ofExcept "ChannelPressureDropStrategy" pressureDrops)
    (by simp [hydraulicGroup, hydraulicRules])
  have listed {q : String × ConnectionId} (hq : q ∈ g.channels) : q.2 ∈ g.channelIds :=
    List.mem_map_of_mem hq
  rw [satisfies_contribution Schematic.mem_hydraulicGroup h
    (.cons (fun _ made => iff_of_true (satisfies_hydraulicDeclarations made) trivial) <|
      .cons (fun _ => satisfies_portPressures) <| .cons (fun _ => satisfies_resistances) <|
      .cons (fun _ => satisfies_pressureDrops) <| .cons (fun _ => satisfies_conservation) <|
      .cons (fun _ => satisfies_fixedPressures) .nil)]
  simp only [List.forall_mem_cons, List.not_mem_nil, false_implies, implies_true, and_true,
    true_and, TypeTable.isPressurePoint_eq resolved]
  constructor
  · rintro ⟨level, resistance, ohm, conserved, fixed⟩
    have sums {n : NodeId} (hn : n ∈ g.nodes) :=
      sum_inflows_eq distinct made (fun name c channel => (resistance name c channel).1) ohm hn
    refine ⟨level, resistance, fun name c channel => ?_, fun n hn free => ?_, fixed⟩
    · rw [← drop_between_nodes made level (listed channel)]
      exact ohm _ channel
    · rw [← sums hn]
      exact conserved n hn free
  · rintro ⟨level, resistance, drop, conserved, fixed⟩
    have ohm (q : String × ConnectionId) (hq : q ∈ g.channels) :
        g.pressureAtPort v (g.schematic.connection q.2).source -
            g.pressureAtPort v (g.schematic.connection q.2).target =
          g.flowOf v q.2 * g.resistanceOf v q.2 := by
      rw [drop_between_nodes made level (listed hq)]
      exact drop q.1 q.2 hq
    have sums {n : NodeId} (hn : n ∈ g.nodes) :=
      sum_inflows_eq distinct made (fun name c channel => (resistance name c channel).1) ohm hn
    refine ⟨level, resistance, ohm, fun n hn free => ?_, fixed⟩
    rw [sums hn]
    exact conserved n hn free

end Network

end Rule

namespace Schematic

/-- The assertions of the hydraulic rules are true of an assignment just when it
makes a circuit. -/
theorem hydraulic_meaning {host : Host} {s : Schematic} {p : Parameters} {program : List Sexp}
    (h : (s.compile host p).outcome = .ok program) :
    ∃ table es, TypeTable.ofSchematic s = .ok table ∧
      (contribution ⟨s, p, table, host⟩ Rule.hydraulicGroup).outcome = .ok es ∧
      (∀ e ∈ es, e ∈ program) ∧
      ∀ (K : Type) [Field K] [LinearOrder K] [IsStrictOrderedRing K] (v : Symbol → K),
        Satisfies v es ↔ Setting.Circuit ⟨s, p, table, host⟩ v := by
  obtain ⟨c⟩ := compiled_of_compile h
  refine ⟨c.table, c.hydraulics, c.resolved, c.hydraulic, fun e he => ?_,
    fun K _ _ _ v => Rule.satisfies_hydraulicGroup c.distinct c.resolved c.hydraulic⟩
  exact c.mem_program (List.mem_append_right _ he)

theorem bend_circuit : ∃ s p program, bend = .ok s ∧
    (s.compile .standard p).outcome = .ok program ∧
    ∃ table es, TypeTable.ofSchematic s = .ok table ∧
      (contribution ⟨s, p, table, .standard⟩ Rule.hydraulicGroup).outcome = .ok es ∧
      (∀ e ∈ es, e ∈ program) ∧
      ∀ (K : Type) [Field K] [LinearOrder K] [IsStrictOrderedRing K] (v : Symbol → K),
        Satisfies v es ↔ Setting.Circuit ⟨s, p, table, .standard⟩ v := by
  obtain ⟨s, p, program, built, -, h⟩ := bend_compiles
  exact ⟨s, p, program, built, h, hydraulic_meaning h⟩

end Schematic

end FluidChip
