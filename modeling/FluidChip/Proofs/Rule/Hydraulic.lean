import FluidChip.Proofs.Contribution
import FluidChip.Proofs.Rule.Term

/-!
# What the hydraulic rules make

The rules speak of flows and resistances of channels only, all of which the first
rule declares.  The shape of a channel's cross-section decides which law its
resistance gets.
-/

namespace FluidChip

open Outcome Formula Sexp

/-! ## Cross-sections -/

inductive CrossSection where
  | unknown
  | circular (radius viscosity : Float)
  | rectangular (width height viscosity : Float)

namespace CrossSection

inductive Given (host : Host) (owner : String) (attributes : Attributes) : CrossSection → Prop
  | unknown (shape : Rule.shapeOf host attributes = .ok "rectangular")
      (width : attributes.quantity? host "width" .length owner = .ok none)
      (height : attributes.quantity? host "height" .length owner = .ok none) :
      Given host owner attributes .unknown
  | circular {radius viscosity : Float} (shape : Rule.shapeOf host attributes = .ok "circular")
      (hradius : attributes.positive host "radius" .length owner = .ok radius)
      (hviscosity : attributes.positive host "viscosity" .viscosity owner = .ok viscosity) :
      Given host owner attributes (.circular radius viscosity)
  | rectangular {width height viscosity : Float}
      (shape : Rule.shapeOf host attributes = .ok "rectangular")
      (hwidth : attributes.positive host "width" .length owner = .ok width)
      (hheight : attributes.positive host "height" .length owner = .ok height)
      (hviscosity : attributes.positive host "viscosity" .viscosity owner = .ok viscosity) :
      Given host owner attributes (.rectangular width height viscosity)

/-- The expressions for a cross-section, with the literals that are computed from
its measures. -/
inductive Rules (host : Host) (resistance length : Sexp) : CrossSection → List Sexp → Prop
  | unknown : Rules host resistance length .unknown []
  | circular {radius viscosity : Float} {fourth eight : Literal}
      (hfourth : host.power? radius 4 = some fourth.value)
      (height : eight.value = 8.0 * viscosity) :
      Rules host resistance length (.circular radius viscosity)
        [assert .equal (product [resistance, .symbol Schematic.pi, .literal fourth])
          (product [.literal eight, length])]
  | rectangular {width height viscosity : Float} {coefficient : Literal}
      (ok : Rule.rectangularCoefficient host width height viscosity = .ok coefficient.value) :
      Rules host resistance length (.rectangular width height viscosity)
        [assert .equal resistance (product [.literal coefficient, length])]

variable {host : Host} {owner : String} {attributes : Attributes}

theorem Given.unique {a b : CrossSection} (ha : Given host owner attributes a)
    (hb : Given host owner attributes b) : a = b := by
  cases ha with
  | unknown shape width height =>
      cases hb with
      | unknown => rfl
      | circular shape' => simp [shape] at shape'
      | rectangular _ hwidth =>
          have present := (Setting.positive_ok_iff.mp hwidth).1
          simp [width] at present
  | circular shape radius viscosity =>
      cases hb with
      | unknown shape' => simp [shape] at shape'
      | circular _ radius' viscosity' => simp_all
      | rectangular shape' => simp [shape] at shape'
  | rectangular shape width height viscosity =>
      cases hb with
      | unknown _ width' =>
          have present := (Setting.positive_ok_iff.mp width).1
          simp [width'] at present
      | circular shape' => simp [shape] at shape'
      | rectangular _ width' height' viscosity' => simp_all

end CrossSection

namespace Setting

variable (g : Setting)

def hydraulicUnknowns : List Unknown :=
  (g.nodes.flatMap fun id =>
    .node .pressure id :: (g.schematic.node id).ports.values.map .port) ++
  g.channels.flatMap fun q => [.connection .flow q.2, .connection .resistance q.2]

def channelsAtPort (port : PortId) : List ConnectionId :=
  ((g.schematic.connectionsAtPort port).filter fun (_, c) =>
    g.table.isChannel (g.schematic.connection c).typeName).map (·.2)

def inflowTerms (node : NodeId) : List Sexp :=
  (g.schematic.node node).ports.values.flatMap fun port =>
    (g.channelsAtPort port).map (g.inflowTerm port)

/-- The drop of pressure along a channel is its flow times its resistance. -/
def dropLaw (c : ConnectionId) : Sexp :=
  assert .equal
    (difference (g.term (.port (g.schematic.connection c).source))
      (g.term (.port (g.schematic.connection c).target)))
    (product [g.term (.connection .flow c), g.term (.connection .resistance c)])

theorem flow_mem_hydraulicUnknowns {g : Setting} {name : String} {c : ConnectionId}
    (channel : (name, c) ∈ g.channels) : .connection .flow c ∈ g.hydraulicUnknowns :=
  List.mem_append_right _ (List.mem_flatMap.mpr ⟨_, channel, by simp⟩)

theorem resistance_mem_hydraulicUnknowns {g : Setting} {name : String} {c : ConnectionId}
    (channel : (name, c) ∈ g.channels) : .connection .resistance c ∈ g.hydraulicUnknowns :=
  List.mem_append_right _ (List.mem_flatMap.mpr ⟨_, channel, by simp⟩)

end Setting

namespace Rule

open Setting

variable {g : Setting} {es : List Sexp}

/-! ## Inversions -/

theorem nodePressures_ok {id : NodeId} (h : (do
      let node ← g.schematic.nodeSymbol .pressure id
      let ports ← (g.schematic.node id).ports.values.mapM fun port =>
        return declare (← g.schematic.portSymbol port)
      return declare node :: ports) = .ok es) :
    (.node .pressure id :: (g.schematic.node id).ports.values.map .port).map g.declaration =
        es ∧
      g.schematic.Resolves (.node .pressure id) ∧
      ∀ port ∈ (g.schematic.node id).ports.values, g.schematic.Resolves (.port port) := by
  simp only [bind_ok_iff, pure_ok_iff, Schematic.nodeSymbol_ok_iff] at h
  obtain ⟨_, ⟨resolves, rfl⟩, ports, hports, rfl⟩ := h
  have made {port : PortId} {e : Sexp}
      (ok : (do return declare (← g.schematic.portSymbol port)) = .ok e) :
      g.schematic.Resolves (.port port) ∧ g.declaration (.port port) = e := by
    simp only [bind_ok_iff, pure_ok_iff, Schematic.portSymbol_ok_iff] at ok
    obtain ⟨_, ⟨resolves, rfl⟩, rfl⟩ := ok
    exact ⟨resolves, rfl⟩
  refine ⟨?_, resolves, fun port hport => ?_⟩
  · rw [List.map_cons, List.map_map]
    exact congrArg _ (results_eq_map hports fun port _ e ok => (made ok).2)
  · obtain ⟨e, -, ok⟩ := result_of_step hports hport
    exact (made ok).1

theorem channelDeclarations_ok {c : ConnectionId} (h : (do
      let flow ← g.schematic.connectionSymbol .flow c
      let resistance ← g.schematic.connectionSymbol .resistance c
      return [declare flow, declare resistance]) = .ok es) :
    [.connection .flow c, .connection .resistance c].map g.declaration = es ∧
      g.schematic.Resolves (.connection .flow c) ∧
      g.schematic.Resolves (.connection .resistance c) := by
  simp only [bind_ok_iff, pure_ok_iff, Schematic.connectionSymbol_ok_iff] at h
  obtain ⟨_, ⟨hflow, rfl⟩, _, ⟨hresistance, rfl⟩, rfl⟩ := h
  exact ⟨rfl, hflow, hresistance⟩

theorem hydraulicDeclarations_ok (h : hydraulicDeclarations g = .ok es) :
    g.hydraulicUnknowns.map g.declaration = es ∧
      ∀ u ∈ g.hydraulicUnknowns, g.schematic.Resolves u := by
  obtain ⟨pressures, hpressures, h⟩ := bind_ok_iff.mp h
  obtain ⟨flows, hflows, h⟩ := bind_ok_iff.mp h
  obtain rfl := pure_ok_iff.mp h
  constructor
  · rw [hydraulicUnknowns, List.map_append, List.map_flatMap, List.map_flatMap,
      List.flatMap_def, List.flatMap_def,
      results_eq_map hpressures fun id _ made ok => (nodePressures_ok ok).1,
      results_eq_map hflows fun q _ made ok => (channelDeclarations_ok ok).1]
  · intro u hu
    simp only [hydraulicUnknowns, List.mem_append, List.mem_flatMap, List.mem_map,
      List.mem_cons, List.not_mem_nil, or_false] at hu
    rcases hu with ⟨id, hid, hu⟩ | ⟨q, hq, hu⟩
    · obtain ⟨made, -, ok⟩ := result_of_step hpressures hid
      obtain ⟨-, node, ports⟩ := nodePressures_ok ok
      rcases hu with rfl | ⟨port, hport, rfl⟩
      · exact node
      · exact ports port hport
    · obtain ⟨made, -, ok⟩ := result_of_step hflows hq
      obtain ⟨-, flow, resistance⟩ := channelDeclarations_ok ok
      rcases hu with rfl | rfl
      · exact flow
      · exact resistance

theorem circularModel_ok {host : Host} {resistance length : Sexp} {owner : String}
    {attributes : Attributes} (shape : shapeOf host attributes = .ok "circular")
    {e : Sexp} (h : circularModel host resistance length owner attributes = .ok e) :
    ∃ c, CrossSection.Given host owner attributes c ∧ c.Rules host resistance length [e] := by
  simp only [circularModel] at h
  obtain ⟨radius, hradius, h⟩ := bind_ok_iff.mp h
  obtain ⟨viscosity, hviscosity, h⟩ := bind_ok_iff.mp h
  simp only [bind_ok_iff, pure_ok_iff, power_ok_iff, literal_ok_iff] at h
  obtain ⟨_, hfourth, _, ⟨r, rfl, rfl⟩, _, ⟨eight, height, rfl⟩, rfl⟩ := h
  exact ⟨_, .circular shape hradius hviscosity, .circular hfourth height⟩

theorem rectangularModel_ok {host : Host} {resistance length : Sexp} {owner : String}
    {attributes : Attributes} (shape : shapeOf host attributes = .ok "rectangular")
    (h : rectangularModel host resistance length owner attributes = .ok es) :
    ∃ c, CrossSection.Given host owner attributes c ∧ c.Rules host resistance length es := by
  simp only [rectangularModel] at h
  obtain ⟨width, hwidth, h⟩ := bind_ok_iff.mp h
  obtain ⟨height, hheight, h⟩ := bind_ok_iff.mp h
  split at h
  · rename_i none
    obtain rfl := pure_ok_iff.mp h
    simp only [Bool.and_eq_true, Option.isNone_iff_eq_none] at none
    obtain ⟨rfl, rfl⟩ := none
    exact ⟨_, .unknown shape hwidth hheight, .unknown⟩
  · simp only [bind_ok_iff, pure_ok_iff, literal_ok_iff] at h
    obtain ⟨width, hwidth, height, hheight, viscosity, hviscosity, _, hcoefficient, _,
      ⟨coefficient, rfl, rfl⟩, rfl⟩ := h
    exact ⟨_, .rectangular shape hwidth hheight hviscosity, .rectangular hcoefficient⟩

theorem resistanceRules_ok {name : String} {c : ConnectionId}
    (h : resistanceRules g name c = .ok es) :
    g.schematic.Resolves (.connection .resistance c) ∧
      g.schematic.Resolves (.connection .length c) ∧ ∃ shape model,
      CrossSection.Given g.host ("channel '" ++ name ++ "'")
        (g.schematic.connection c).attributes shape ∧
      shape.Rules g.host (g.term (.connection .resistance c)) (g.term (.connection .length c))
        model ∧
      es = assert .greater (g.term (.connection .resistance c)) zero :: model := by
  simp only [resistanceRules] at h
  obtain ⟨_, readResistance, h⟩ := bind_ok_iff.mp h
  obtain ⟨_, readLength, h⟩ := bind_ok_iff.mp h
  obtain ⟨hresistance, rfl⟩ := resistance_ok_iff.mp readResistance
  obtain ⟨hlength, rfl⟩ := length_ok_iff.mp readLength
  refine ⟨hresistance, hlength, ?_⟩
  obtain ⟨word, shape, h⟩ := bind_ok_iff.mp h
  split at h
  · rename_i round
    subst round
    obtain ⟨e, made, h⟩ := bind_ok_iff.mp h
    rw [pure_bind] at h
    obtain ⟨c, given, rules⟩ := circularModel_ok shape made
    exact ⟨c, [e], given, rules, (pure_ok_iff.mp h).symm⟩
  split at h
  · rename_i rectangular
    subst rectangular
    obtain ⟨model, made, h⟩ := bind_ok_iff.mp h
    obtain ⟨c, given, rules⟩ := rectangularModel_ok shape made
    exact ⟨c, model, given, rules, (pure_ok_iff.mp h).symm⟩
  · obtain ⟨_, thrown, -⟩ := bind_ok_iff.mp h
    cases thrown

theorem pressureDrops_ok (h : pressureDrops g = .ok es) :
    g.channels.map (fun q => g.dropLaw q.2) = es ∧ ∀ q ∈ g.channels,
      g.schematic.Resolves (.port (g.schematic.connection q.2).source) ∧
      g.schematic.Resolves (.port (g.schematic.connection q.2).target) ∧
      g.schematic.Resolves (.connection .flow q.2) ∧
      g.schematic.Resolves (.connection .resistance q.2) := by
  constructor
  · refine results_eq_map h fun (_, c) _ e made => ?_
    simp only [bind_ok_iff, pure_ok_iff, portPressure_ok_iff, flow_ok_iff,
      resistance_ok_iff] at made
    obtain ⟨_, ⟨-, rfl⟩, _, ⟨-, rfl⟩, _, ⟨-, rfl⟩, _, ⟨-, rfl⟩, rfl⟩ := made
    rfl
  · intro (_, c) channel
    obtain ⟨e, -, made⟩ := result_of_step h channel
    simp only [bind_ok_iff, portPressure_ok_iff, flow_ok_iff, resistance_ok_iff] at made
    obtain ⟨_, ⟨source, -⟩, _, ⟨target, -⟩, _, ⟨flow, -⟩, _, ⟨resistance, -⟩, -⟩ := made
    exact ⟨source, target, flow, resistance⟩

theorem inflows_ok {node : NodeId} (h : inflows g node = .ok es) :
    g.inflowTerms node = es ∧ ∀ port ∈ (g.schematic.node node).ports.values,
      ∀ c ∈ g.channelsAtPort port, g.schematic.Resolves (.connection .flow c) := by
  obtain ⟨terms, hterms, h⟩ := bind_ok_iff.mp h
  obtain rfl := pure_ok_iff.mp h
  constructor
  · rw [inflowTerms, List.flatMap_def]
    refine congrArg List.flatten (results_eq_map hterms fun port _ made ok => ?_)
    rw [channelsAtPort, List.map_map]
    refine results_eq_map ok fun (_, c) _ e ok => ?_
    exact (inflow_ok_iff.mp ok).2
  · intro port hport c hc
    obtain ⟨made, -, ok⟩ := result_of_step hterms hport
    obtain ⟨⟨name, c⟩, mem, rfl⟩ := List.mem_map.mp hc
    obtain ⟨e, -, ok⟩ := result_of_step ok mem
    exact (inflow_ok_iff.mp ok).1

def balanceOf : List Sexp → List Sexp
  | [] => []
  | terms => [assert .equal (sumOf terms) zero]

variable (g) in
theorem outcome_balance (name : String) (node : NodeId) :
    (balance g name node).outcome =
      if g.table.isControlPoint (g.nodeType node) then .ok []
      else (inflows g node).map balanceOf := by
  unfold balance
  split
  · rfl
  · rw [Run.outcome_ofExcept]
    cases inflows g node with
    | error failure => rfl
    | ok terms => cases terms <;> rfl

theorem balance_ok {name : String} {node : NodeId}
    (h : (balance g name node).outcome = .ok es) :
    (g.table.isControlPoint (g.nodeType node) = true ∧ es = []) ∨
      (g.table.isControlPoint (g.nodeType node) = false ∧
        inflows g node = .ok (g.inflowTerms node) ∧
        ((g.inflowTerms node = [] ∧ es = []) ∨
          es = [assert .equal (sumOf (g.inflowTerms node)) zero])) := by
  rw [outcome_balance] at h
  split at h
  · rename_i control
    exact .inl ⟨control, (Except.ok.inj h).symm⟩
  · rename_i free
    obtain ⟨terms, made, rfl⟩ := map_ok_iff.mp h
    obtain ⟨rfl, -⟩ := inflows_ok made
    refine .inr ⟨by simpa using free, made, ?_⟩
    cases g.inflowTerms node with
    | nil => exact .inl ⟨rfl, rfl⟩
    | cons term rest => exact .inr rfl

/-! ## Statements -/

theorem hydraulicDeclarations_statements (h : hydraulicDeclarations g = .ok es) :
    ∀ e ∈ es, Statement g.Declared e := by
  obtain ⟨rfl, resolves⟩ := hydraulicDeclarations_ok h
  refine statements_declarations (fun u hu => ?_) resolves
  simp only [hydraulicUnknowns, List.mem_append, List.mem_flatMap, List.mem_map,
    List.mem_cons, List.not_mem_nil, or_false] at hu
  rcases hu with ⟨id, -, rfl | ⟨port, -, rfl⟩⟩ | ⟨⟨name, c⟩, channel, rfl | rfl⟩
  · exact .pressure id
  · exact .port port
  · exact .flow channel
  · exact .resistance channel

theorem portPressures_statements (h : portPressures g = .ok es) :
    ∀ e ∈ es, Statement g.Declared e := by
  intro e he
  obtain ⟨id, -, made, ok, mem⟩ := step_of_joined h he
  obtain ⟨port, -, made⟩ := step_of_result ok mem
  simp only [bind_ok_iff, pure_ok_iff, portPressure_ok_iff, pressure_ok_iff] at made
  obtain ⟨_, ⟨hport, rfl⟩, _, ⟨hnode, rfl⟩, rfl⟩ := made
  exact .assertion .equal (over_term (.port port) hport) (over_term (.pressure id) hnode)

theorem rules_statements {shape : CrossSection} {resistance length : Sexp}
    (h : shape.Rules g.host resistance length es) (hresistance : resistance.Over g.Declared)
    (hlength : length.Over g.Declared) : ∀ e ∈ es, Statement g.Declared e := by
  have pi : (Sexp.symbol Schematic.pi).Over g.Declared := over_term .pi rfl
  intro e he
  cases h with
  | unknown => cases he
  | circular =>
      obtain rfl := List.mem_singleton.mp he
      exact .assertion .equal (by simp [hresistance, pi]) (by simp [hlength])
  | rectangular =>
      obtain rfl := List.mem_singleton.mp he
      exact .assertion .equal hresistance (by simp [hlength])

theorem resistances_statements (h : resistances g = .ok es) :
    ∀ e ∈ es, Statement g.Declared e := by
  intro e he
  obtain ⟨⟨name, c⟩, channel, made, ok, mem⟩ := step_of_joined h he
  obtain ⟨hresistance, hlength, shape, model, -, rules, rfl⟩ := resistanceRules_ok ok
  have resistance := over_term (.resistance channel) hresistance
  have length := over_term (.length c) hlength
  rcases List.mem_cons.mp mem with rfl | mem
  · exact .assertion .greater resistance over_zero
  · exact rules_statements rules resistance length e mem

theorem pressureDrops_statements (h : pressureDrops g = .ok es) :
    ∀ e ∈ es, Statement g.Declared e := by
  obtain ⟨rfl, resolves⟩ := pressureDrops_ok h
  intro e he
  obtain ⟨⟨name, c⟩, channel, rfl⟩ := List.mem_map.mp he
  obtain ⟨source, target, flow, resistance⟩ := resolves _ channel
  refine .assertion .equal ?_ ?_
  · simp [over_term (.port _) source, over_term (.port _) target]
  · simp [over_term (.flow channel) flow, over_term (.resistance channel) resistance]

theorem mem_channels_of_mem_channelsAtPort {port : PortId} {c : ConnectionId}
    (h : c ∈ g.channelsAtPort port) : ∃ name, (name, c) ∈ g.channels := by
  obtain ⟨⟨name, c⟩, mem, rfl⟩ := List.mem_map.mp h
  obtain ⟨attached, channel⟩ := List.mem_filter.mp mem
  exact ⟨name, List.mem_filter.mpr ⟨List.mem_of_mem_filter attached, channel⟩⟩

variable (g) in
theorem outcome_conservation : (conservation g).outcome = do
    let parts ← g.schematic.nodes.entries.mapM fun (name, node) => (balance g name node).outcome
    return parts.flatten := by
  simp only [conservation, Run.outcome_bind, Run.outcome_mapM, Run.outcome_pure]
  rfl

theorem conservation_ok (h : (conservation g).outcome = .ok es) :
    ∃ parts, parts.flatten = es ∧ (g.schematic.nodes.entries.mapM fun (name, node) =>
      (balance g name node).outcome) = .ok parts := by
  rw [outcome_conservation] at h
  obtain ⟨parts, hparts, same⟩ := bind_ok_iff.mp h
  exact ⟨parts, pure_ok_iff.mp same, hparts⟩

theorem conservation_statements (h : (conservation g).outcome = .ok es) :
    ∀ e ∈ es, Statement g.Declared e := by
  obtain ⟨parts, rfl, hparts⟩ := conservation_ok h
  intro e he
  obtain ⟨⟨name, node⟩, -, made, ok, mem⟩ := step_of_flatten hparts he
  rcases balance_ok ok with ⟨-, rfl⟩ | ⟨-, flows, ⟨-, rfl⟩ | rfl⟩
  · cases mem
  · cases mem
  · obtain rfl := List.mem_singleton.mp mem
    refine .assertion .equal (over_sumOf fun t ht => ?_) over_zero
    obtain ⟨port, hport, ht⟩ := List.mem_flatMap.mp ht
    obtain ⟨c, hc, rfl⟩ := List.mem_map.mp ht
    obtain ⟨name, channel⟩ := mem_channels_of_mem_channelsAtPort hc
    have resolves := (inflows_ok flows).2 port hport c hc
    exact over_inflowTerm (declared_named (.flow channel) resolves)

theorem fixedPressures_statements (h : fixedPressures g = .ok es) :
    ∀ e ∈ es, Statement g.Declared e := by
  intro e he
  obtain ⟨⟨name, id⟩, -, made, ok, mem⟩ := step_of_joined h he
  obtain ⟨given, -, ok⟩ := bind_ok_iff.mp ok
  rcases fixed_ok_iff.mp ok with ⟨-, rfl⟩ | ⟨r, t, -, read, rfl⟩
  · cases mem
  · obtain ⟨resolves, rfl⟩ := pressure_ok_iff.mp read
    obtain rfl := List.mem_singleton.mp mem
    exact .assertion .equal (over_term (.pressure id) resolves) (over_literal r)

theorem hydraulic_statements {r : Rule} (hr : r ∈ hydraulicGroup.rules)
    (h : r.outcome g = .ok es) : ∀ e ∈ es, Statement g.Declared e := by
  simp only [hydraulicGroup, hydraulicRules, List.mem_cons, List.not_mem_nil, or_false] at hr
  rcases hr with rfl | rfl | rfl | rfl | rfl | rfl
  · exact hydraulicDeclarations_statements h
  · exact portPressures_statements h
  · exact resistances_statements h
  · exact pressureDrops_statements h
  · exact conservation_statements h
  · exact fixedPressures_statements h

end Rule

end FluidChip
