import FluidChip.Proofs.Meaning.Hydraulic
import FluidChip.Proofs.Meaning.Program
import Mathlib.Algebra.Order.Ring.Rat
import Mathlib.Tactic.FieldSimp
import Mathlib.Tactic.LinearCombination

/-!
# The meaning of the droplet rules

The rule of a junction speaks of flows into its ports, whichever way the channels
run.  Together with the hydraulic rules, which leave a channel from the junction
to itself without flow, it makes both phases flow in, the mixture flow out, and
the length of a droplet follow the quotient of the two flows.
-/

namespace FluidChip

open Outcome Formula Sexp Number Rule

variable {K : Type*} [Field K]

namespace Setting

variable (g : Setting) (v : Symbol → K)

def dropletLength (junction : NodeId) : K := g.amount v (.node .dropletLength junction)

variable [LinearOrder K]

/-! ## What the rules ask -/

/-- The width of an output channel and the factor of a junction, as they are
given. -/
structure Scaled (junction : NodeId) (output : ConnectionId) (width alpha : Float) : Prop where
  width : Reads g.host (g.schematic.connection output).attributes "width" .length (some width)
  alpha : ∃ given, Reads g.host (g.schematic.node junction).attributes "alpha" .ratio given ∧
    given.getD defaultAlpha = alpha

/-- The flows at a junction and the law of its droplets, multiplied through by the
flow of the continuous phase. -/
structure Squeezes (junction : NodeId) (port : Branch → PortId)
    (channel : Branch → ConnectionId) : Prop where
  attached : ∀ b, g.Attached junction b.label (port b) (channel b)
  continuous : 0 < g.signedFlow v (port .continuous) (channel .continuous)
  dispersed : 0 < g.signedFlow v (port .dispersed) (channel .dispersed)
  output : g.signedFlow v (port .output) (channel .output) < 0
  law : ∃ width alpha, g.Scaled junction (channel .output) width alpha ∧
    g.dropletLength v junction * g.signedFlow v (port .continuous) (channel .continuous) =
      ((written width : ℚ) : K) * (g.signedFlow v (port .continuous) (channel .continuous) +
        ((written alpha : ℚ) : K) * g.signedFlow v (port .dispersed) (channel .dispersed))

/-- A droplet fills the cross-section of the output channel over its length with
the volume given. -/
def Filled (attributes : Attributes) (junction : NodeId) (output : ConnectionId) : Prop :=
  ∃ volume width height, Reads g.host attributes "volume" .volume (some volume) ∧
    Reads g.host (g.schematic.connection output).attributes "width" .length (some width) ∧
    Reads g.host (g.schematic.connection output).attributes "height" .length (some height) ∧
    g.dropletLength v junction * ((written width : ℚ) : K) * ((written height : ℚ) : K) =
      ((written volume : ℚ) : K)

/-- The droplets of the junction that a constraint names have the volume that it
gives. -/
inductive Fills (attributes : Attributes) : Prop where
  | intro {target : Value} {junction : NodeId} {port : PortId} {output : ConnectionId}
      (named : attributes.find? "junction" = some target)
      (found : g.schematic.getNode target.plain = .ok junction)
      (attached : g.Attached junction Branch.output.label port output)
      (filled : g.Filled v attributes junction output)

end Setting

theorem Setting.Attached.unique {g : Setting} {n : NodeId} {label : String} {port port' : PortId}
    {c c' : ConnectionId} (h : g.Attached n label port c) (h' : g.Attached n label port' c') :
    port = port' ∧ c = c' := by
  obtain ⟨labelled, name, only⟩ := h
  obtain ⟨labelled', name', only'⟩ := h'
  cases labelled.symm.trans labelled'
  cases only.symm.trans only'
  exact ⟨rfl, rfl⟩

theorem Setting.reads_unique {host : Host} {attributes : Attributes} {key : String}
    {m : Quantity.Measure} {given given' : Option Float} (h : Reads host attributes key m given)
    (h' : Reads host attributes key m given') : given = given' :=
  Except.ok.inj ((h "").symm.trans (h' _))

theorem Setting.Scaled.unique {g : Setting} {junction : NodeId} {output : ConnectionId}
    {width width' alpha alpha' : Float} (h : g.Scaled junction output width alpha)
    (h' : g.Scaled junction output width' alpha') : width = width' ∧ alpha = alpha' := by
  obtain ⟨readWidth, given, readAlpha, rfl⟩ := h
  obtain ⟨readWidth', given', readAlpha', rfl⟩ := h'
  exact ⟨Option.some.inj (reads_unique readWidth readWidth'),
    congrArg (Option.getD · defaultAlpha) (reads_unique readAlpha readAlpha')⟩

namespace Rule

open Setting

variable [LinearOrder K] {g : Setting} {es : List Sexp} {v : Symbol → K}

theorem satisfies_junctionRules {name note : String} {junction : NodeId}
    (registered : junction ∈ g.nodes) (h : junctionRules g name junction = .ok (es, note)) :
    Satisfies v es ↔ ∃ port channel, g.Squeezes v junction port channel := by
  obtain ⟨at', width, alpha, -, -, readWidth, ⟨given, readAlpha, sameAlpha⟩, rfl⟩ :=
    junctionRules_ok h
  have attached (b : Branch) : g.Attached junction b.label (at'.port b) (at'.channel b) :=
    (branch_ok_iff registered).mp (at'.attached b)
  have flow (b : Branch) :
      (at'.flow b).value v = some (g.signedFlow v (at'.port b) (at'.channel b)) :=
    value_inflowTerm _ _
  have mixture := value_sum_pair (flow .continuous)
    (value_product_pair (value_literal alpha) (flow .dispersed))
  simp only [satisfies_cons, satisfies_nil, isForm_assert_declare, Bool.false_eq_true,
    false_implies, true_and, and_true, satisfied_assert (flow .continuous) value_zero,
    satisfied_assert (flow .dispersed) value_zero, satisfied_assert (flow .output) value_zero,
    satisfied_assert (value_product_pair (value_term _) (flow .continuous))
      (value_product_pair (value_literal width) mixture), Relation.Between]
  have scaled : g.Scaled junction (at'.channel .output) width.value alpha.value :=
    ⟨readWidth, given, readAlpha, sameAlpha.symm⟩
  constructor
  · rintro ⟨continuous, dispersed, output, law⟩
    exact ⟨at'.port, at'.channel, attached, continuous, dispersed, output, _, _, scaled, law⟩
  · rintro ⟨port, channel, other, continuous, dispersed, output, _, _, scaled', law⟩
    obtain rfl : port = at'.port := funext fun b => ((other b).unique (attached b)).1
    obtain rfl : channel = at'.channel := funext fun b => ((other b).unique (attached b)).2
    obtain ⟨rfl, rfl⟩ := scaled'.unique scaled
    exact ⟨continuous, dispersed, output, law⟩

theorem satisfies_junctions (h : (junctions g).outcome = .ok es) :
    Satisfies v es ↔ ∀ n ∈ g.nodes, g.table.isJunction (g.nodeType n) = true →
      ∃ port channel, g.Squeezes v n port channel := by
  obtain ⟨parts, rfl, hparts⟩ := junctions_ok h
  rw [satisfies_parts hparts (Q := fun q => ∃ port channel, g.Squeezes v q.2 port channel)
    fun (name, n) kept made ok => ?_]
  · simp only [List.mem_filter, and_imp, Setting.nodes, Catalog.values, List.forall_mem_map]
  · obtain ⟨⟨_, note⟩, rules, same⟩ := bind_ok_iff.mp ok
    obtain rfl := pure_ok_iff.mp same
    exact satisfies_junctionRules (List.mem_map_of_mem (List.mem_filter.mp kept).1) rules

theorem satisfies_dropletVolume {name : String} {attributes : Attributes}
    (h : dropletVolume g name attributes = .ok es) :
    Satisfies v es ↔ g.Fills v attributes := by
  obtain @⟨target, junction, port, output, width, height, volume, named, -, -, found, isJunction,
    attached, readVolume, readWidth, readHeight, -⟩ := dropletVolume_ok h
  have registered : junction ∈ g.nodes :=
    List.mem_map_of_mem (Schematic.getNode_ok_iff.mp found)
  have at' := (branch_ok_iff registered).mp attached
  simp only [satisfies_cons, satisfies_nil, isForm_assert_declare, Bool.false_eq_true,
    false_implies, true_and, and_true, satisfied_assert (value_product_triple (value_term _)
      (value_literal width) (value_literal height)) (value_literal volume), Relation.Between]
  constructor
  · exact fun full => ⟨named, found, at', _, _, _, readVolume, readWidth, readHeight, full⟩
  · rintro ⟨named', found', at'', _, _, _, readVolume', readWidth', readHeight', full⟩
    cases named.symm.trans named'
    cases found.symm.trans found'
    obtain ⟨rfl, rfl⟩ := at'.unique at''
    cases reads_unique readVolume readVolume'
    cases reads_unique readWidth readWidth'
    cases reads_unique readHeight readHeight'
    exact full

theorem satisfies_dropletVolumes (h : dropletVolumes g = .ok es) :
    Satisfies v es ↔ ∀ q ∈ g.schematic.constraints.entries,
      g.table.constraintIsA q.2.typeName TypeTable.volumeType = true →
        g.Fills v q.2.attributes := by
  rw [satisfies_joined h fun q _ made ok => satisfies_dropletVolume ok]
  simp only [List.mem_filter, and_imp]

/-! ## The group -/

theorem satisfies_dropletGroup
    (h : (Schematic.contribution g dropletGroup).outcome = .ok es) :
    Satisfies v es ↔
      (∀ n ∈ g.nodes, g.table.isJunction (g.nodeType n) = true →
        ∃ port channel, g.Squeezes v n port channel) ∧
      ∀ q ∈ g.schematic.constraints.entries,
        g.table.constraintIsA q.2.typeName TypeTable.volumeType = true →
          g.Fills v q.2.attributes := by
  rw [satisfies_contribution Schematic.mem_dropletGroup h
    (.cons (fun _ => satisfies_junctions) <| .cons (fun _ => satisfies_dropletVolumes) .nil)]
  simp only [List.forall_mem_cons, List.not_mem_nil, false_implies, implies_true, and_true]

end Rule

namespace Setting

variable [LinearOrder K] {g : Setting} {v : Symbol → K}
  {junction : NodeId} {port : Branch → PortId} {channel : Branch → ConnectionId}

/-! ## Flows at a junction -/

/-- Between the ends of such a channel there is no drop. -/
theorem Circuit.still (circuit : g.Circuit v) {c : ConnectionId} (hc : c ∈ g.channelIds)
    (loop : g.schematic.sourceNode c = g.schematic.targetNode c) : g.flowOf v c = 0 := by
  obtain ⟨⟨name, c⟩, listed, rfl⟩ := List.mem_map.mp hc
  have drop := circuit.drop name c listed
  rw [loop, sub_self] at drop
  exact (mul_eq_zero.mp drop.symm).resolve_right (circuit.resistance name c listed).1.ne'

omit [LinearOrder K] in
theorem signedFlow_eq_zero_iff {p : PortId} {c : ConnectionId} :
    g.signedFlow v p c = 0 ↔ g.flowOf v c = 0 := by
  unfold signedFlow flowOf
  split
  · rfl
  · exact neg_eq_zero

namespace Squeezes

variable (squeezes : g.Squeezes v junction port channel)

include squeezes

theorem signedFlow_ne_zero (b : Branch) : g.signedFlow v (port b) (channel b) ≠ 0 := by
  cases b
  · exact squeezes.continuous.ne'
  · exact squeezes.dispersed.ne'
  · exact squeezes.output.ne

theorem end_at_port (b : Branch) :
    (g.schematic.connection (channel b)).source = port b ∨
      (g.schematic.connection (channel b)).target = port b := by
  obtain ⟨name, only⟩ := (squeezes.attached b).only
  have listed : (name, channel b) ∈ g.schematic.connectionsAtPort (port b) := by simp [only]
  simpa using (List.mem_filter.mp listed).2

theorem port_mem (b : Branch) : port b ∈ (g.schematic.node junction).ports.values :=
  List.mem_map_of_mem (Catalog.lookup_mem (squeezes.attached b).labelled)

/-- The quotient form of the law. -/
theorem length_eq : ∃ width alpha, g.Scaled junction (channel .output) width alpha ∧
    g.dropletLength v junction = ((written width : ℚ) : K) *
      (1 + ((written alpha : ℚ) : K) *
        (g.signedFlow v (port .dispersed) (channel .dispersed) /
          g.signedFlow v (port .continuous) (channel .continuous))) := by
  obtain ⟨width, alpha, scaled, law⟩ := squeezes.law
  have flows := squeezes.continuous.ne'
  refine ⟨width, alpha, scaled, ?_⟩
  field_simp
  linear_combination law

section Balance

variable {names : Catalog String} (distinct : g.schematic.namespace? = .ok names)
  (circuit : g.Circuit v) (registered : junction ∈ g.nodes)
  (channels : ∀ b, channel b ∈ g.channelIds)

include distinct circuit registered channels

/-- Flow at the port of a branch is flow into the junction: the other end of its
channel is on another node. -/
theorem netShare_eq (b : Branch) :
    g.netShare v junction (channel b) = g.signedFlow v (port b) (channel b) := by
  have owner := Schematic.owner_of_mem_ports distinct registered (squeezes.port_mem b)
  have apart : g.schematic.sourceNode (channel b) ≠ g.schematic.targetNode (channel b) :=
    fun loop => squeezes.signedFlow_ne_zero b
      (signedFlow_eq_zero_iff.mpr (circuit.still (channels b) loop))
  unfold netShare signedFlow
  by_cases target : (g.schematic.connection (channel b)).target = port b
  · have here : g.schematic.targetNode (channel b) = junction := by
      rw [Schematic.targetNode, target, owner]
    rw [if_pos here, if_neg (here ▸ apart), if_pos target, sub_zero, flowOf]
  · have source := (squeezes.end_at_port b).resolve_right target
    have here : g.schematic.sourceNode (channel b) = junction := by
      rw [Schematic.sourceNode, source, owner]
    rw [if_pos here, if_neg (here ▸ apart.symm), if_neg target, zero_sub, flowOf]

/-- A channel on two branches would run from the junction to itself. -/
theorem channel_injective : Function.Injective channel := by
  intro b b' same
  by_contra other
  have ports : port b ≠ port b' := by
    intro meet
    have nodup := Schematic.nodup_ports distinct registered
    have first := Catalog.lookup_mem (squeezes.attached b).labelled
    have second := Catalog.lookup_mem (squeezes.attached b').labelled
    rw [← meet] at second
    have labels := List.inj_on_of_nodup_map nodup first second rfl
    cases b <;> cases b' <;> first | exact other rfl | simp [Branch.label] at labels
  have owner (b : Branch) :=
    Schematic.owner_of_mem_ports distinct registered (squeezes.port_mem b)
  have apart : g.schematic.sourceNode (channel b) ≠ g.schematic.targetNode (channel b) :=
    fun loop => squeezes.signedFlow_ne_zero b
      (signedFlow_eq_zero_iff.mpr (circuit.still (channels b) loop))
  have one := squeezes.end_at_port b
  have two := squeezes.end_at_port b'
  rw [← same] at two
  unfold Schematic.sourceNode Schematic.targetNode at apart
  rcases one with one | one <;> rcases two with two | two
  · exact ports (one.symm.trans two)
  · exact apart (by rw [one, two, owner, owner])
  · exact apart (by rw [one, two, owner, owner])
  · exact ports (one.symm.trans two)

theorem outflow_eq (free : g.table.isControlPoint (g.nodeType junction) = false)
    (only : ∀ c ∈ g.channelIds, g.schematic.sourceNode c = junction ∨
      g.schematic.targetNode c = junction → ∃ b, c = channel b) :
    -g.signedFlow v (port .output) (channel .output) =
      g.signedFlow v (port .continuous) (channel .continuous) +
        g.signedFlow v (port .dispersed) (channel .dispersed) := by
  have nodup := nodup_channelIds distinct
  have injective := squeezes.channel_injective distinct circuit registered channels
  have share := squeezes.netShare_eq distinct circuit registered channels
  have balance := circuit.conserved junction registered free
  have branches : ∑ c ∈ g.channelIds.toFinset, g.netShare v junction c =
      ∑ c ∈ {channel .continuous, channel .dispersed, channel .output},
        g.netShare v junction c := by
    refine (Finset.sum_subset ?_ fun c hc outside => ?_).symm
    · intro c hc
      simp only [Finset.mem_insert, Finset.mem_singleton] at hc
      rcases hc with rfl | rfl | rfl <;> exact List.mem_toFinset.mpr (channels _)
    · unfold netShare
      have away := mt (only c (List.mem_toFinset.mp hc)) fun ⟨b, same⟩ => outside (by
        rw [same]
        cases b <;> simp)
      rw [not_or] at away
      rw [if_neg away.1, if_neg away.2, sub_zero]
  rw [netFlow_eq_sum nodup, branches, Finset.sum_insert, Finset.sum_insert,
    Finset.sum_singleton, share, share, share] at balance
  · linear_combination -balance
  · simp [injective.eq_iff]
  · simp [injective.eq_iff]

end Balance

end Squeezes

variable (g v junction port channel) in
/-- How a junction makes droplets: what flows at its ports, how long the droplets
are, and what volume they have. -/
structure Pinches : Prop where
  attached : ∀ b, g.Attached junction b.label (port b) (channel b)
  continuous : 0 < g.signedFlow v (port .continuous) (channel .continuous)
  dispersed : 0 < g.signedFlow v (port .dispersed) (channel .dispersed)
  output : g.signedFlow v (port .output) (channel .output) < 0
  length : ∃ width alpha, g.Scaled junction (channel .output) width alpha ∧
    g.dropletLength v junction = ((written width : ℚ) : K) *
      (1 + ((written alpha : ℚ) : K) *
        (g.signedFlow v (port .dispersed) (channel .dispersed) /
          g.signedFlow v (port .continuous) (channel .continuous)))
  volume : ∀ q ∈ g.schematic.constraints.entries,
    g.table.constraintIsA q.2.typeName TypeTable.volumeType = true →
    ∀ target, q.2.attributes.find? "junction" = some target →
      g.schematic.getNode target.plain = .ok junction →
      g.Filled v q.2.attributes junction (channel .output)
  outflow : g.table.isControlPoint (g.nodeType junction) = false →
    (∀ b, channel b ∈ g.channelIds) →
    (∀ c ∈ g.channelIds, g.schematic.sourceNode c = junction ∨
      g.schematic.targetNode c = junction → ∃ b, c = channel b) →
    -g.signedFlow v (port .output) (channel .output) =
      g.signedFlow v (port .continuous) (channel .continuous) +
        g.signedFlow v (port .dispersed) (channel .dispersed)

omit [LinearOrder K] in
theorem Fills.at_junction {attributes : Attributes} (fills : g.Fills v attributes)
    {target : Value} (named : attributes.find? "junction" = some target)
    (found : g.schematic.getNode target.plain = .ok junction) {p : PortId} {output : ConnectionId}
    (attached : g.Attached junction Branch.output.label p output) :
    g.Filled v attributes junction output := by
  obtain ⟨named', found', attached', filled⟩ := fills
  cases named.symm.trans named'
  cases found.symm.trans found'
  obtain ⟨rfl, rfl⟩ := attached.unique attached'
  exact filled

end Setting

namespace Schematic

/-- Under every assignment that satisfies a program, every T-junction of its
schematic makes droplets. -/
theorem droplet_meaning {host : Host} {s : Schematic} {p : Parameters} {program : List Sexp}
    (h : (s.compile host p).outcome = .ok program) {table : TypeTable}
    (resolved : TypeTable.ofSchematic s = .ok table)
    {K : Type} [Field K] [LinearOrder K] {v : Symbol → K} (satisfied : Satisfies v program)
    {junction : NodeId} (registered : junction ∈ s.nodes.values)
    (isJunction : table.isJunction (s.node junction).typeName = true) :
    ∃ port channel, Setting.Pinches ⟨s, p, table, host⟩ v junction port channel := by
  obtain ⟨c⟩ := compiled_of_compile h
  obtain rfl : c.table = table := Except.ok.inj (c.resolved.symm.trans resolved)
  obtain ⟨-, droplets, hydraulics⟩ :=
    c.satisfies_contributions.mp (c.satisfies_program.mp satisfied).2
  obtain ⟨junctions, volumes⟩ := (Rule.satisfies_dropletGroup c.droplet).mp droplets
  have circuit := (Rule.satisfies_hydraulicGroup c.distinct c.resolved c.hydraulic).mp hydraulics
  obtain ⟨port, channel, squeezes⟩ := junctions junction registered isJunction
  exact ⟨port, channel, {
    attached := squeezes.attached
    continuous := squeezes.continuous
    dispersed := squeezes.dispersed
    output := squeezes.output
    length := squeezes.length_eq
    volume := fun q mem isVolume _ named found =>
      (volumes q mem isVolume).at_junction named found (squeezes.attached .output)
    outflow := fun free channels only =>
      squeezes.outflow_eq c.distinct circuit registered channels free only }⟩

/-! ## A chip with a T-junction -/

def tee : Except Failure Schematic := do
  let s ← (empty "tee").addNode "oil" "fluidEntry" ["out"]
  let s ← s.addNode "water" "fluidEntry" ["out"]
  let s ← s.addNode "tee" "tJunction" ["continuous", "dispersed", "output"]
  let s ← s.addNode "outlet" "fluidExit" ["in"] (.ofList [("pressure", .int 0)])
  let s ← s.addConnection "carrier" (← s.getPort "oil" "out") (← s.getPort "tee" "continuous")
  let s ← s.addConnection "sample" (← s.getPort "tee" "dispersed") (← s.getPort "water" "out")
  let s ← s.addConnection "train" (← s.getPort "tee" "output") (← s.getPort "outlet" "in")
    "channel" (.ofList [("width", .float 0.5), ("height", .float 0.25),
      ("viscosity", .float 2.0)])
  s.addConstraint "size" "channelDropletVolume"
    (.ofList [("junction", .text "tee"), ("volume", .float 0.09375)])

/-- Channels of length eight, with the second phase fed against the direction of
its channel. -/
def teeAmounts : List (String × ℚ) :=
  let train : ℚ := 8 * 4484671532846715 / 1000000000000
  [("constant_pi", 3141592653589793 / 1000000000000000),
   ("oil_pos_x", 2), ("oil_pos_y", 10), ("water_pos_x", 10), ("water_pos_y", 18),
   ("tee_pos_x", 10), ("tee_pos_y", 10), ("outlet_pos_x", 18), ("outlet_pos_y", 10),
   ("carrier_pos_x", 8), ("sample_pos_x", 8), ("train_pos_x", 8),
   ("carrier_flowrate", 2), ("sample_flowrate", -1), ("train_flowrate", 3),
   ("tee_droplet_length", 3 / 4),
   ("carrier_resistance", 1), ("sample_resistance", 1), ("train_resistance", train),
   ("oil_pressure", 3 * train + 2), ("oil_out_pressure", 3 * train + 2),
   ("water_pressure", 3 * train + 1), ("water_out_pressure", 3 * train + 1),
   ("tee_pressure", 3 * train), ("tee_continuous_pressure", 3 * train),
   ("tee_dispersed_pressure", 3 * train), ("tee_output_pressure", 3 * train)]

def teeAmount (symbol : Symbol) : ℚ := (Catalog.lookup symbol.name teeAmounts).getD 0

theorem tee_satisfied : ∃ s p program table junction, tee = .ok s ∧
    (s.compile .standard p).outcome = .ok program ∧ TypeTable.ofSchematic s = .ok table ∧
    Satisfies teeAmount program ∧ junction ∈ s.nodes.values ∧
    table.isJunction (s.node junction).typeName = true := by
  have checked : (tee.toOption.bind fun s =>
      (Parameters.ofNumbers .standard bendNumbers).toOption.bind fun p =>
      (s.compile .standard p).outcome.toOption.bind fun program =>
      (TypeTable.ofSchematic s).toOption.bind fun table =>
      (s.getNode "tee").toOption.map fun junction =>
        decide (Satisfies teeAmount program) && table.isJunction (s.node junction).typeName) =
      some true := by
    decide +kernel
  simp only [Option.bind_eq_some_iff, Option.map_eq_some_iff, toOption_eq_some_iff,
    Bool.and_eq_true, decide_eq_true_eq] at checked
  obtain ⟨s, built, p, -, program, ok, table, resolved, junction, found, satisfied, isJunction⟩ :=
    checked
  exact ⟨s, p, program, table, junction, built, ok, resolved, satisfied,
    List.mem_map_of_mem (getNode_ok_iff.mp found), isJunction⟩

theorem tee_pinches : ∃ s p program table junction, tee = .ok s ∧
    (s.compile .standard p).outcome = .ok program ∧ TypeTable.ofSchematic s = .ok table ∧
    Satisfies teeAmount program ∧ junction ∈ s.nodes.values ∧
    table.isJunction (s.node junction).typeName = true ∧
    ∃ port channel, Setting.Pinches ⟨s, p, table, .standard⟩ teeAmount junction port channel := by
  obtain ⟨s, p, program, table, junction, built, ok, resolved, satisfied, registered,
    isJunction⟩ := tee_satisfied
  exact ⟨s, p, program, table, junction, built, ok, resolved, satisfied, registered, isJunction,
    droplet_meaning ok resolved satisfied registered isJunction⟩

end Schematic

end FluidChip
