import FluidChip.Compilation
import FluidChip.Proofs.Declaration
import FluidChip.Proofs.Hierarchy
import FluidChip.Proofs.TypeTable

/-!
# When a type table resolves, and what it answers

A schematic has a type table just when its hierarchies have subtype graphs, the
types that the rules ask for are declared, and the two kinds of sources are
control points.  The index of the table then answers as the graph does, and the
nodes whose pressure is fixed are among those where flow need not be conserved.
-/

namespace FluidChip

open Outcome Relation

namespace Hierarchy

variable {h : Hierarchy} {kind : String} {g : SubtypeGraph}

/-- Every supertype is declared and no chain of links returns to its start. -/
structure Sound (h : Hierarchy) : Prop where
  declared : ∀ a b, h.Link a b → b ∈ h.names
  acyclic : ∀ a, ¬ TransGen h.Link a a

theorem sound_of_graph (ok : h.graph kind = .ok g) : h.Sound := by
  obtain ⟨graphs, acyclic⟩ := graph_ok ok
  exact ⟨graphs.declared, acyclic⟩

theorem exists_graph_of_sound (sound : h.Sound) (kind : String) : ∃ g, h.graph kind = .ok g := by
  cases made : h.graph kind with
  | ok g => exact ⟨g, rfl⟩
  | error fault =>
      rcases graph_error_iff.mp ⟨fault, made⟩ with ⟨a, b, link, missing⟩ | ⟨a, loop⟩
      · exact absurd (sound.declared a b link) missing
      · exact absurd loop (sound.acyclic a)

theorem isSubtype_iff_of_graph (ok : h.graph kind = .ok g) {a b : String} :
    g.isSubtype a b = true ↔ a ∈ h.names ∧ b ∈ h.names ∧ ReflTransGen h.Link a b := by
  obtain ⟨graphs, acyclic⟩ := graph_ok ok
  exact graphs.isSubtype_iff acyclic

/-- Of two different declared types, one is a subtype of the other just when a
chain of links leads up to it. -/
theorem isSubtype_iff_transGen (ok : h.graph kind = .ok g) {a b : String}
    (ha : a ∈ h.names) (hb : b ∈ h.names) (ne : b ≠ a) :
    g.isSubtype a b = true ↔ TransGen h.Link a b := by
  rw [isSubtype_iff_of_graph ok, reflTransGen_iff_eq_or_transGen]
  simp [ha, hb, ne]

end Hierarchy

/-- What a schematic has to declare for its rules to run. -/
structure Schematic.Typed (s : Schematic) : Prop where
  nodes : s.nodeTypes.Sound
  connections : s.connectionTypes.Sound
  constraints : s.constraintTypes.Sound
  nodeTypes : ∀ name ∈ ["controlPoint", "pressureControlPoint", "voltageControlPoint"],
    name ∈ s.nodeTypes.names
  connectionTypes : "channel" ∈ s.connectionTypes.names
  constraintTypes : ∀ name ∈ ["controlPointPlacement", "channelDropletVolume"],
    name ∈ s.constraintTypes.names
  specialized : ∀ name ∈ ["pressureControlPoint", "voltageControlPoint"],
    TransGen s.nodeTypes.Link name "controlPoint"

/-! ## Resolving what is declared -/

namespace TypeTable

variable {s : Schematic} {t : TypeTable}

theorem Resolved.typed (r : Resolved s t) : s.Typed := by
  obtain ⟨placement, volume, -, hplacement, hvolume⟩ := r.constraintTypes
  have control := (exists_require_iff _).mp ⟨_, r.controlPoint⟩
  have pressure := (exists_require_iff _).mp ⟨_, r.pressurePoint⟩
  have voltage := (exists_require_iff _).mp ⟨_, r.voltagePoint⟩
  have pressureControls := r.pressureControls
  have voltageControls := r.voltageControls
  rw [r.pressurePoint_name, r.controlPoint_name,
    Hierarchy.isSubtype_iff_transGen r.nodeGraph pressure control (by decide)]
    at pressureControls
  rw [r.voltagePoint_name, r.controlPoint_name,
    Hierarchy.isSubtype_iff_transGen r.nodeGraph voltage control (by decide)]
    at voltageControls
  constructor
  case nodes => exact Hierarchy.sound_of_graph r.nodeGraph
  case connections => exact Hierarchy.sound_of_graph r.connectionGraph
  case constraints => exact Hierarchy.sound_of_graph r.constraintGraph
  case nodeTypes => simp [control, pressure, voltage]
  case connectionTypes => exact (exists_require_iff _).mp ⟨_, r.channel⟩
  case constraintTypes =>
    have hasPlacement := (exists_require_iff _).mp ⟨_, hplacement⟩
    have hasVolume := (exists_require_iff _).mp ⟨_, hvolume⟩
    simpa using ⟨hasPlacement, hasVolume⟩
  case specialized => simp [pressureControls, voltageControls]

theorem exists_resolved (typed : s.Typed) : ∃ t, Resolved s t := by
  obtain ⟨nodes, hnodes⟩ := Hierarchy.exists_graph_of_sound typed.nodes "node"
  obtain ⟨connections, hconnections⟩ :=
    Hierarchy.exists_graph_of_sound typed.connections "connection"
  obtain ⟨constraints, hconstraints⟩ :=
    Hierarchy.exists_graph_of_sound typed.constraints "constraint"
  have hasControl := typed.nodeTypes "controlPoint" (by simp)
  have hasPressure := typed.nodeTypes "pressureControlPoint" (by simp)
  have hasVoltage := typed.nodeTypes "voltageControlPoint" (by simp)
  obtain ⟨control, hcontrol⟩ := (exists_require_iff "node").mpr hasControl
  obtain ⟨pressure, hpressure⟩ := (exists_require_iff "node").mpr hasPressure
  obtain ⟨voltage, hvoltage⟩ := (exists_require_iff "node").mpr hasVoltage
  obtain ⟨channel, hchannel⟩ :=
    (exists_require_iff "connection").mpr typed.connectionTypes
  obtain ⟨placement, hplacement⟩ := (exists_require_iff "constraint").mpr
    (typed.constraintTypes placementType (by decide))
  obtain ⟨volume, hvolume⟩ := (exists_require_iff "constraint").mpr
    (typed.constraintTypes volumeType (by decide))
  have controls {name : String} (special : name ∈ ["pressureControlPoint", "voltageControlPoint"]) :
      nodes.isSubtype name "controlPoint" = true := by
    have up := typed.specialized name special
    rw [Hierarchy.isSubtype_iff_of_graph hnodes]
    exact ⟨typed.nodeTypes name (List.mem_cons_of_mem _ special), hasControl, up.to_reflTransGen⟩
  refine ⟨⟨nodes, connections, constraints, control, pressure, voltage,
    nodes.derived pressure.name, nodes.derived voltage.name, channel, [placement, volume]⟩,
    hnodes, hconnections, hconstraints, hcontrol, hpressure, hvoltage, ?_, ?_, rfl, rfl,
    hchannel, placement, volume, rfl, hplacement, hvolume⟩
  · rw [(require_ok_iff.mp hpressure).1, (require_ok_iff.mp hcontrol).1]
    exact controls (by simp)
  · rw [(require_ok_iff.mp hvoltage).1, (require_ok_iff.mp hcontrol).1]
    exact controls (by simp)

/-! ## The index -/

/-- The sets of derived types answer as the graph does, for declared and for
undeclared types, and a source of either kind is a control point. -/
structure Indexed (t : TypeTable) : Prop where
  pressure : ∀ typeName, t.isPressurePoint typeName = t.nodeIsA typeName "pressureControlPoint"
  voltage : ∀ typeName, t.isVoltagePoint typeName = t.nodeIsA typeName "voltageControlPoint"
  pressureControls : ∀ typeName, t.isPressurePoint typeName = true →
    t.isControlPoint typeName = true
  voltageControls : ∀ typeName, t.isVoltagePoint typeName = true →
    t.isControlPoint typeName = true

theorem Resolved.indexed (r : Resolved s t) : t.Indexed := by
  obtain ⟨graphs, acyclic⟩ := Hierarchy.graph_ok r.nodeGraph
  have orders := graphs.orders acyclic
  constructor
  case pressure => exact r.isPressurePoint_eq
  case voltage => exact r.isVoltagePoint_eq
  case pressureControls =>
    intro typeName source
    rw [r.isPressurePoint_eq, ← r.pressurePoint_name] at source
    exact orders.trans _ _ _ source r.pressureControls
  case voltageControls =>
    intro typeName source
    rw [r.isVoltagePoint_eq, ← r.voltagePoint_name] at source
    exact orders.trans _ _ _ source r.voltageControls

end TypeTable

/-! ## Fixed pressures -/

/-- An expression that fixes the pressure of a node where flow need not be
conserved. -/
inductive Rule.FixesSource (g : Setting) : Sexp → Prop
  | intro {name : String} {node : NodeId} {value : Literal}
      (registered : (name, node) ∈ g.schematic.nodes.entries)
      (exempt : ∀ other, (Rule.balance g other node).outcome = .ok []) :
      FixesSource g (Formula.assert .equal (g.term (.node .pressure node)) (.literal value))

theorem Rule.fixedPressures_exempt {g : Setting} (indexed : g.table.Indexed) {es : List Sexp}
    (h : Rule.fixedPressures g = .ok es) : ∀ e ∈ es, Rule.FixesSource g e := by
  intro e he
  obtain ⟨⟨name, node⟩, point, made, ok, mem⟩ := step_of_joined h he
  obtain ⟨registered, isPoint⟩ := List.mem_filter.mp point
  have control := indexed.pressureControls _ isPoint
  obtain ⟨given, -, ok⟩ := bind_ok_iff.mp ok
  rcases Setting.fixed_ok_iff.mp ok with ⟨-, rfl⟩ | ⟨value, term, -, read, rfl⟩
  · cases mem
  · obtain ⟨-, rfl⟩ := Setting.pressure_ok_iff.mp read
    obtain rfl := List.mem_singleton.mp mem
    refine .intro registered fun other => ?_
    rw [outcome_balance, if_pos control]

namespace Schematic

theorem outcome_typeTable (s : Schematic) : s.typeTable.outcome = TypeTable.ofSchematic s := by
  simp only [typeTable, Run.info, Run.debug, Run.outcome_bind, Run.outcome_log,
    Run.outcome_onError, Run.outcome_ofExcept, Run.outcome_pure]
  cases TypeTable.ofSchematic s <;> rfl

theorem typeTable_error {s : Schematic} {failure : Failure}
    (h : s.typeTable.outcome = .error failure) :
    ∃ fault, failure = .hierarchy fault (some s.name) := by
  rw [outcome_typeTable, TypeTable.ofSchematic] at h
  cases resolved : TypeTable.resolve s with
  | ok t => simp [resolved, Except.mapError] at h
  | error fault =>
      simp only [resolved, Except.mapError, Except.error.injEq] at h
      exact ⟨fault, h.symm⟩

/-- A schematic has a type table just when what its rules ask for is declared, and
is refused under its name else; the index of the table answers as its graph does,
and flow need not be conserved where pressure is fixed. -/
theorem typeTable_resolves (s : Schematic) :
    ((∃ t, s.typeTable.outcome = .ok t) ↔ s.Typed) ∧
    (∀ failure, s.typeTable.outcome = .error failure →
      ∃ fault, failure = .hierarchy fault (some s.name)) ∧
    ∀ t, s.typeTable.outcome = .ok t → t.Indexed ∧
      ∀ p host es, Rule.fixedPressures ⟨s, p, t, host⟩ = .ok es →
        ∀ e ∈ es, Rule.FixesSource ⟨s, p, t, host⟩ e := by
  simp only [outcome_typeTable, TypeTable.ofSchematic_ok_iff]
  refine ⟨?_, ?_, ?_⟩
  · constructor
    · rintro ⟨t, r⟩
      exact r.typed
    · exact TypeTable.exists_resolved
  · intro failure h
    exact typeTable_error ((outcome_typeTable s).trans h)
  · intro t r
    exact ⟨r.indexed, fun p host es h => Rule.fixedPressures_exempt r.indexed h⟩

/-- A chip where one kind of source derives from the other. -/
def rig : Except Failure Schematic :=
  (((empty "rig").declareNodeType "voltageControlPoint" (some "pressureControlPoint")
    ).declareNodeType "pump" (some "fluidEntry")).addNode "inlet" "pump" ["out"]
      (.ofList [("pressure", .int 2000)])

/-- A chip whose sources of pressure are no control points. -/
def loose : Schematic := (empty "loose").declareNodeType "pressureControlPoint" none

theorem rig_resolves_loose_refused :
    (∃ s t p es, rig = .ok s ∧ s.typeTable.outcome = .ok t ∧ t.Indexed ∧
      Rule.fixedPressures ⟨s, p, t, .standard⟩ = .ok es ∧ es ≠ [] ∧
      ∀ e ∈ es, Rule.FixesSource ⟨s, p, t, .standard⟩ e) ∧
    ∃ fault, loose.typeTable.outcome = .error (.hierarchy fault (some "loose")) := by
  constructor
  · have made : (rig.toOption.bind fun s => (TypeTable.ofSchematic s).toOption.bind fun t =>
        (Parameters.ofNumbers .standard bendNumbers).toOption.bind fun p =>
          (Rule.fixedPressures ⟨s, p, t, .standard⟩).toOption.filter fun es =>
            !es.isEmpty).isSome = true := by
      decide +kernel
    obtain ⟨es, made⟩ := Option.isSome_iff_exists.mp made
    simp only [Option.bind_eq_some_iff, Option.filter_eq_some_iff, toOption_eq_some_iff] at made
    obtain ⟨s, hs, t, ht, p, -, hes, some⟩ := made
    have resolved : s.typeTable.outcome = .ok t := (outcome_typeTable s).trans ht
    obtain ⟨indexed, fixes⟩ := (typeTable_resolves s).2.2 t resolved
    exact ⟨s, t, p, es, hs, resolved, indexed, hes, by simpa using some, fixes p _ es hes⟩
  · cases made : loose.typeTable.outcome with
    | ok t =>
        have typed := (typeTable_resolves loose).1.mp ⟨t, made⟩
        obtain ⟨b, link, -⟩ :=
          TransGen.head'_iff.mp (typed.specialized "pressureControlPoint" (by simp))
        have found := Catalog.find?_eq_some_iff.mpr link
        have top : loose.nodeTypes.find? "pressureControlPoint" = some none := rfl
        simp [top] at found
    | error failure =>
        obtain ⟨fault, rfl⟩ := (typeTable_resolves loose).2.1 failure made
        exact ⟨fault, rfl⟩

end Schematic

end FluidChip
