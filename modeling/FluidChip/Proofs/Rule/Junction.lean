import FluidChip.Proofs.Meaning.Droplet

/-!
# How junctions are wired

A junction needs one connection, of whatever type, on each of its three branches.
One that lacks it is refused, with the fault of the branch.  The rules of wired
junctions speak of the flows of these connections; where one is a channel, the
hydraulic rules give it a resistance and a drop of pressure.
-/

namespace FluidChip

open Outcome Formula Sexp

namespace Setting

variable (g : Setting)

/-- One connection on every branch. -/
def Wired (junction : NodeId) : Prop :=
  ∀ b : Rule.Branch, ∃ port c, g.Attached junction b.label port c

/-- What is raised over a branch without a port, or one that carries no connection
or several. -/
inductive Misloaded (junction : NodeId) (b : Rule.Branch) : Failure → Prop
  | noPort {name : String} (named : (name, junction) ∈ g.schematic.nodes.entries)
      (absent : (g.schematic.node junction).ports.find? b.label = none) :
      Misloaded junction b
        (.topology (.noPort name b.label (g.schematic.node junction).ports.names))
  | load {name : String} {port : PortId} (named : (name, junction) ∈ g.schematic.nodes.entries)
      (labelled : (g.schematic.node junction).ports.find? b.label = some port)
      (count : (g.schematic.connectionsAtPort port).length ≠ 1) :
      Misloaded junction b
        (.topology (.portLoad name b.label ((g.schematic.connectionsAtPort port).map (·.1))))

/-- Why the rule of junctions fails: over a branch, or over something else that a
junction with all its branches wired lacks. -/
inductive JunctionsRefused : Failure → Prop
  | misloaded {junction : NodeId} {b : Rule.Branch} {failure : Failure}
      (node : junction ∈ g.nodes)
      (isJunction : g.table.isJunction (g.nodeType junction) = true)
      (fault : g.Misloaded junction b failure) : JunctionsRefused failure
  | wired {name : String} {junction : NodeId} {failure : Failure}
      (node : (name, junction) ∈ g.schematic.nodes.entries)
      (isJunction : g.table.isJunction (g.nodeType junction) = true)
      (wired : g.Wired junction)
      (fault : Rule.junctionRules g name junction = .error failure) : JunctionsRefused failure

/-- The flow and the resistance of a connection are declared, and laws given for
them. -/
structure Governed (es : List Sexp) (c : ConnectionId) : Prop where
  flow : g.declaration (.connection .flow c) ∈ es
  resistance : g.declaration (.connection .resistance c) ∈ es
  positive : assert .greater (g.term (.connection .resistance c)) zero ∈ es
  drop : g.dropLaw c ∈ es

variable {g}

/-! ## Attached channels -/

theorem Attached.mem_connections {n : NodeId} {label : String} {port : PortId}
    {c : ConnectionId} (attached : g.Attached n label port c) :
    ∃ name, (name, c) ∈ g.schematic.connections.entries := by
  obtain ⟨name, only⟩ := attached.only
  have listed : (name, c) ∈ g.schematic.connectionsAtPort port := by simp [only]
  exact ⟨name, List.mem_of_mem_filter listed⟩

theorem Attached.channelsAtPort_eq {n : NodeId} {label : String} {port : PortId}
    {c : ConnectionId} (attached : g.Attached n label port c)
    (channel : g.table.isChannel (g.schematic.connection c).typeName = true) :
    g.channelsAtPort port = [c] := by
  obtain ⟨name, only⟩ := attached.only
  simp [channelsAtPort, only, channel]

end Setting

namespace Rule

open Setting

variable {g : Setting} {junction : NodeId} {failure : Failure}

theorem governed_of_contribution {es : List Sexp}
    (h : (Schematic.contribution g hydraulicGroup).outcome = .ok es) {name : String}
    {c : ConnectionId} (channel : (name, c) ∈ g.channels) : g.Governed es c := by
  have has {r : Rule} (listed : r ∈ hydraulicGroup.rules) :=
    Schematic.contribution_has Schematic.mem_hydraulicGroup h listed
  have declared {u : Unknown} (hu : u ∈ g.hydraulicUnknowns) : g.declaration u ∈ es := by
    obtain ⟨_, made, within⟩ := has (r := .ofExcept "PressureFlowDeclarationStrategy"
      hydraulicDeclarations) (by simp [hydraulicGroup, hydraulicRules])
    obtain ⟨rfl, -⟩ := hydraulicDeclarations_ok made
    exact within _ (List.mem_map_of_mem hu)
  constructor
  case flow => exact declared (flow_mem_hydraulicUnknowns channel)
  case resistance => exact declared (resistance_mem_hydraulicUnknowns channel)
  case positive =>
    obtain ⟨laws, made, within⟩ := has (r := .ofExcept "ChannelResistanceStrategy" resistances)
      (by simp [hydraulicGroup, hydraulicRules])
    obtain ⟨parts, each, same⟩ := bind_ok_iff.mp made
    obtain rfl := pure_ok_iff.mp same
    obtain ⟨rules, hrules, ok⟩ := result_of_step each channel
    obtain ⟨-, -, shape, model, -, -, rfl⟩ := resistanceRules_ok ok
    exact within _ (List.mem_flatten.mpr ⟨_, hrules, List.mem_cons_self⟩)
  case drop =>
    obtain ⟨_, made, within⟩ := has (r := .ofExcept "ChannelPressureDropStrategy" pressureDrops)
      (by simp [hydraulicGroup, hydraulicRules])
    obtain ⟨rfl, -⟩ := pressureDrops_ok made
    exact within _ (List.mem_map.mpr ⟨_, channel, rfl⟩)

/-! ## Failing -/

theorem branch_error (registered : junction ∈ g.nodes) {b : Branch}
    (h : branch g junction b = .error failure) : g.Misloaded junction b failure := by
  obtain ⟨name, named⟩ := Schematic.exists_nameOf? registered
  have mem := Schematic.mem_entries_of_nameOf? named
  have found : g.schematic.nodeName junction = .ok name := Schematic.nodeName_ok_iff.mpr named
  have node : g.schematic.getNode name = .ok junction := Schematic.getNode_ok_iff.mpr mem
  simp only [branch, found, bind_error_iff, reduceCtorEq, Except.ok.injEq, exists_eq_left',
    false_or] at h
  simp only [Schematic.getPort, node, bind_error_iff, bind_ok_iff, reduceCtorEq, Except.ok.injEq,
    exists_eq_left', false_or] at h
  cases labelled : (g.schematic.node junction).ports.find? b.label with
  | none =>
      rcases h with absent | ⟨port, read, -⟩
      · rw [labelled] at absent
        cases absent
        exact .noPort mem labelled
      · rw [labelled] at read
        cases read
  | some port =>
      rcases h with absent | ⟨port', read, load⟩
      · rw [labelled] at absent
        cases absent
      · rw [labelled] at read
        cases read
        split at load
        · cases load
        · rename_i several
          cases load
          refine .load mem labelled fun single => ?_
          obtain ⟨⟨name, c⟩, only⟩ := List.length_eq_one_iff.mp single
          exact several name c only

theorem junctionRules_error (registered : junction ∈ g.nodes) {name : String}
    (h : junctionRules g name junction = .error failure) :
    (∃ b, g.Misloaded junction b failure) ∨ g.Wired junction := by
  simp only [junctionRules] at h
  rcases bind_error_iff.mp h with fault | ⟨⟨_, _⟩, continuous, h⟩
  · exact .inl ⟨_, branch_error registered fault⟩
  rcases bind_error_iff.mp h with fault | ⟨⟨_, _⟩, dispersed, h⟩
  · exact .inl ⟨_, branch_error registered fault⟩
  rcases bind_error_iff.mp h with fault | ⟨⟨_, _⟩, output, -⟩
  · exact .inl ⟨_, branch_error registered fault⟩
  right
  intro b
  cases b with
  | continuous => exact ⟨_, _, (branch_ok_iff registered).mp continuous⟩
  | dispersed => exact ⟨_, _, (branch_ok_iff registered).mp dispersed⟩
  | output => exact ⟨_, _, (branch_ok_iff registered).mp output⟩

theorem junctions_error (h : (junctions g).outcome = .error failure) :
    g.JunctionsRefused failure := by
  rw [outcome_junctions] at h
  rcases bind_error_iff.mp h with failed | ⟨_, -, done⟩
  · obtain ⟨⟨name, junction⟩, kept, failed⟩ := step_of_error failed
    obtain ⟨node, isJunction⟩ := List.mem_filter.mp kept
    have registered : junction ∈ g.nodes := List.mem_map_of_mem node
    rcases bind_error_iff.mp failed with fault | ⟨_, -, done⟩
    · rcases junctionRules_error registered fault with ⟨b, misloaded⟩ | wired
      · exact .misloaded registered isJunction misloaded
      · exact .wired node isJunction wired fault
    · cases done
  · cases done

theorem wired_of_junctions {es : List Sexp} (h : (junctions g).outcome = .ok es)
    (node : junction ∈ g.nodes) (isJunction : g.table.isJunction (g.nodeType junction) = true) :
    g.Wired junction := by
  obtain ⟨parts, -, hparts⟩ := junctions_ok h
  obtain ⟨⟨name, _⟩, mem, rfl⟩ := List.mem_map.mp node
  obtain ⟨_, -, ok⟩ := result_of_step hparts (List.mem_filter.mpr ⟨mem, isJunction⟩)
  obtain ⟨⟨made, note⟩, rules, -⟩ := bind_ok_iff.mp ok
  obtain ⟨at', -⟩ := junctionRules_ok rules
  exact fun b => ⟨_, _, (branch_ok_iff node).mp (at'.attached b)⟩

theorem junctions_refused (node : junction ∈ g.nodes)
    (isJunction : g.table.isJunction (g.nodeType junction) = true)
    (unwired : ¬ g.Wired junction) :
    ∃ failure, (junctions g).outcome = .error failure ∧ g.JunctionsRefused failure := by
  cases made : (junctions g).outcome with
  | ok es => exact absurd (wired_of_junctions made node isJunction) unwired
  | error failure => exact ⟨failure, rfl, junctions_error made⟩

/-- Junctions that lack a connection on a branch, or have several, are refused; so
they are with no channel or several on a branch that carries channels only.  Where
none is refused, all flows that the rules speak of are flows of connections on
branches, and the hydraulic rules govern those that are channels. -/
theorem junctions_load (g : Setting) :
    (∀ junction ∈ g.nodes, g.table.isJunction (g.nodeType junction) = true →
      ¬ g.Wired junction →
      ∃ failure, (junctions g).outcome = .error failure ∧ g.JunctionsRefused failure) ∧
    (∀ junction ∈ g.nodes, g.table.isJunction (g.nodeType junction) = true →
      ∀ (b : Branch) port, (g.schematic.node junction).ports.find? b.label = some port →
      (∀ q ∈ g.schematic.connectionsAtPort port,
        g.table.isChannel (g.schematic.connection q.2).typeName = true) →
      (g.channelsAtPort port).length ≠ 1 →
      ∃ failure, (junctions g).outcome = .error failure ∧ g.JunctionsRefused failure) ∧
    ∀ es, (junctions g).outcome = .ok es →
      (∀ e ∈ es, Statement g.JunctionSymbol e) ∧
      ∀ junction ∈ g.nodes, g.table.isJunction (g.nodeType junction) = true →
        ∀ (b : Branch) port c, g.Attached junction b.label port c →
        g.table.isChannel (g.schematic.connection c).typeName = true →
        ∀ hydraulics, (Schematic.contribution g hydraulicGroup).outcome = .ok hydraulics →
          g.Governed hydraulics c := by
  refine ⟨fun junction node isJunction => junctions_refused node isJunction, ?_, ?_⟩
  · intro junction node isJunction b port labelled channels count
    refine junctions_refused node isJunction fun wired => ?_
    obtain ⟨port', c, attached⟩ := wired b
    obtain rfl : port' = port := Option.some.inj (attached.labelled.symm.trans labelled)
    obtain ⟨name, only⟩ := attached.only
    have channel := channels (name, c) (by simp [only])
    rw [attached.channelsAtPort_eq channel] at count
    exact count rfl
  · intro es made
    refine ⟨junctions_statements made, ?_⟩
    intro junction node isJunction b port c attached channel hydraulics h
    obtain ⟨name, listed⟩ := attached.mem_connections
    exact governed_of_contribution h (List.mem_filter.mpr ⟨listed, channel⟩)

end Rule

namespace Schematic

/-- The chip with a T-junction, where nothing feeds the second phase. -/
def starved : Except Failure Schematic := return (← tee).deleteConnection "sample"

/-- The chip with a T-junction, the second phase fed through a connection that is
no channel. -/
def bypassed : Except Failure Schematic := do
  let s := (← starved).declareConnectionType "wire" none
  s.addConnection "sample" (← s.getPort "tee" "dispersed") (← s.getPort "water" "out") "wire"

/-- The junction of a chip, with its port for the second phase. -/
def dispersedPort? (s : Schematic) (t : TypeTable) : Option (NodeId × PortId) := do
  let junction ← (s.getNode "tee").toOption
  guard (t.isJunction (s.node junction).typeName)
  let port ← (s.node junction).ports.find? "dispersed"
  return (junction, port)

theorem dispersedPort?_eq_some {s : Schematic} {t : TypeTable} {junction : NodeId}
    {port : PortId} (h : s.dispersedPort? t = some (junction, port)) :
    junction ∈ s.nodes.values ∧ t.isJunction (s.node junction).typeName = true ∧
      (s.node junction).ports.find? "dispersed" = some port := by
  obtain ⟨node, found, h⟩ := Option.bind_eq_some_iff.mp h
  obtain ⟨_, isJunction, h⟩ := Option.bind_eq_some_iff.mp h
  obtain ⟨port', labelled, h⟩ := Option.bind_eq_some_iff.mp h
  cases h
  have listed := getNode_ok_iff.mp (toOption_eq_some_iff.mp found)
  exact ⟨List.mem_map_of_mem listed, by simpa using isJunction, labelled⟩

theorem tee_load_starved_refused :
    (∃ g : Setting, tee = .ok g.schematic ∧ ∃ junction port c,
      g.Attached junction "dispersed" port c ∧
      ∃ es, (contribution g Rule.hydraulicGroup).outcome = .ok es ∧ g.Governed es c) ∧
    ∃ g : Setting, starved = .ok g.schematic ∧
      ∃ failure, (Rule.junctions g).outcome = .error failure ∧ g.JunctionsRefused failure := by
  constructor
  · have checked : (tee.toOption.bind fun s => (TypeTable.ofSchematic s).toOption.bind fun t =>
        (Parameters.ofNumbers .standard bendNumbers).toOption.bind fun p =>
        (Rule.junctions ⟨s, p, t, .standard⟩).outcome.toOption.bind fun _ =>
        (contribution ⟨s, p, t, .standard⟩ Rule.hydraulicGroup).outcome.toOption.bind fun _ =>
        (s.dispersedPort? t).bind fun q => (s.connectionsAtPort q.2).head?.filter fun q' =>
        (s.connectionsAtPort q.2).length == 1 && t.isChannel (s.connection q'.2).typeName
        ).isSome = true := by
      decide +kernel
    obtain ⟨⟨name, c⟩, checked⟩ := Option.isSome_iff_exists.mp checked
    simp only [Option.bind_eq_some_iff, Option.filter_eq_some_iff, toOption_eq_some_iff,
      Bool.and_eq_true, beq_iff_eq] at checked
    obtain ⟨s, built, t, -, p, -, es, made, hydraulics, contributed, ⟨junction, port⟩, found,
      first, single, channel⟩ := checked
    obtain ⟨node, isJunction, labelled⟩ := dispersedPort?_eq_some found
    have attached : Setting.Attached ⟨s, p, t, .standard⟩ junction Rule.Branch.dispersed.label
        port c := by
      obtain ⟨q, only⟩ := List.length_eq_one_iff.mp single
      rw [only] at first
      cases first
      exact ⟨labelled, name, only⟩
    have governed := ((Rule.junctions_load ⟨s, p, t, .standard⟩).2.2 es made).2 junction node
      isJunction .dispersed port c attached channel hydraulics contributed
    exact ⟨⟨s, p, t, .standard⟩, built, junction, port, c, attached, hydraulics, contributed,
      governed⟩
  · have checked : (starved.toOption.bind fun s => (TypeTable.ofSchematic s).toOption.bind fun t =>
        (Parameters.ofNumbers .standard bendNumbers).toOption.bind fun _ =>
        (s.dispersedPort? t).filter fun q => (s.connectionsAtPort q.2).isEmpty).isSome = true := by
      decide +kernel
    obtain ⟨⟨junction, port⟩, checked⟩ := Option.isSome_iff_exists.mp checked
    simp only [Option.bind_eq_some_iff, Option.filter_eq_some_iff, toOption_eq_some_iff,
      List.isEmpty_iff] at checked
    obtain ⟨s, built, t, -, p, -, found, none⟩ := checked
    obtain ⟨node, isJunction, labelled⟩ := dispersedPort?_eq_some found
    have empty : Setting.channelsAtPort ⟨s, p, t, .standard⟩ port = [] := by
      simp [Setting.channelsAtPort, none]
    exact ⟨⟨s, p, t, .standard⟩, built, (Rule.junctions_load ⟨s, p, t, .standard⟩).2.1 junction
      node isJunction .dispersed port labelled (by simp [none]) (by simp [empty])⟩

/-- A connection that is no channel passes for one: the junction is accepted. -/
theorem bypassed_accepted : ∃ g : Setting, bypassed = .ok g.schematic ∧
    TypeTable.ofSchematic g.schematic = .ok g.table ∧ ∃ junction port,
      junction ∈ g.nodes ∧ g.table.isJunction (g.nodeType junction) = true ∧
      (g.schematic.node junction).ports.find? Rule.Branch.dispersed.label = some port ∧
      (g.channelsAtPort port).length ≠ 1 ∧ ∃ es, (Rule.junctions g).outcome = .ok es := by
  have checked : (bypassed.toOption.bind fun s => (TypeTable.ofSchematic s).toOption.bind fun t =>
      (Parameters.ofNumbers .standard bendNumbers).toOption.bind fun p =>
      (Rule.junctions ⟨s, p, t, .standard⟩).outcome.toOption.bind fun _ =>
      (s.dispersedPort? t).filter fun q => (Setting.channelsAtPort ⟨s, p, t, .standard⟩ q.2).isEmpty
      ).isSome = true := by
    decide +kernel
  obtain ⟨⟨junction, port⟩, checked⟩ := Option.isSome_iff_exists.mp checked
  simp only [Option.bind_eq_some_iff, Option.filter_eq_some_iff, toOption_eq_some_iff,
    List.isEmpty_iff] at checked
  obtain ⟨s, built, t, resolved, p, -, es, made, found, none⟩ := checked
  obtain ⟨node, isJunction, labelled⟩ := dispersedPort?_eq_some found
  exact ⟨⟨s, p, t, .standard⟩, built, resolved, junction, port, node, isJunction, labelled,
    by simp [none], es, made⟩

end Schematic

end FluidChip
