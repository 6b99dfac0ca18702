import FluidChip.Proofs.Contribution
import FluidChip.Proofs.Declaration
import FluidChip.Proofs.Rule.Pairs
import FluidChip.Proofs.Schematic.Joined
import FluidChip.Proofs.Schematic.Symbols

/-!
# Lookups that find their entities

Rules name the nodes, connections and ports that they speak of.  Where every port of
a schematic hangs on its owner and connections end on such ports, whatever a rule
comes to has a name, whether or not the rule fails for another reason.
-/

namespace FluidChip

open Outcome

/-- An entity has no name in the schematic, whether or not that can be told. -/
inductive Failure.IsLookup : Failure → Prop
  | node (schematic shown : String) : IsLookup (.topology (.foreignNode schematic shown))
  | connection (schematic shown : String) :
      IsLookup (.topology (.foreignConnection schematic shown))
  | port (node : String) : IsLookup (.naming (.unregistered node))
  | untold {failure : Failure} (limit : Number.Limit) (inside : IsLookup failure) :
      IsLookup (.untold limit failure)

theorem Failure.not_isLookup_told {limit? : Option Number.Limit} {failure : Failure}
    (other : ¬ failure.IsLookup) : ¬ (Failure.told limit? failure).IsLookup := by
  cases limit? with
  | none => exact other
  | some limit =>
      intro h
      cases h with
      | untold limit inside => exact other inside

/-- All lookups on the way find their entities. -/
abbrev Finds {α : Type} (r : Except Failure α) : Prop := Spares Failure.IsLookup r

variable {s : Schematic} {g : Setting} {α : Type}

/-! ## Symbols -/

namespace Schematic

theorem finds_symbolNamed {name : String} : Finds (symbolNamed name) := by
  unfold symbolNamed
  split
  · exact .pure _
  · exact .error nofun

theorem finds_nodeName {id : NodeId} (listed : id ∈ s.nodes.values) : Finds (s.nodeName id) := by
  obtain ⟨name, named⟩ := exists_nameOf? listed
  exact .of_ok (nodeName_ok_iff.mpr named)

theorem finds_connectionName {c : ConnectionId} (listed : c ∈ s.connections.values) :
    Finds (s.connectionName c) := by
  obtain ⟨name, named⟩ := exists_nameOf? listed
  exact .of_ok (connectionName_ok_iff.mpr named)

theorem finds_nodeSymbol {q : NodeQuantity} {id : NodeId} (listed : id ∈ s.nodes.values) :
    Finds (s.nodeSymbol q id) :=
  .bind (finds_nodeName listed) fun _ _ => finds_symbolNamed

theorem finds_connectionSymbol {q : ConnectionQuantity} {c : ConnectionId}
    (listed : c ∈ s.connections.values) : Finds (s.connectionSymbol q c) :=
  .bind (finds_connectionName listed) fun _ _ => finds_symbolNamed

theorem finds_portSymbol {port : PortId} (settled : s.Settled port) :
    Finds (s.portSymbol port) := by
  obtain ⟨label, ⟨listed, registered⟩, -⟩ := settled
  obtain ⟨name, named⟩ := exists_nameOf? (List.mem_map_of_mem registered)
  refine .bind (finds_nodeName listed) fun _ _ => ?_
  refine .bind (.of_ok (portName_ok_iff.mpr named)) fun _ _ => ?_
  exact finds_symbolNamed

theorem finds_getNode {name : String} : Finds (s.getNode name) := by
  unfold getNode
  split
  · exact .pure _
  · exact .error nofun

theorem finds_getPort {node label : String} : Finds (s.getPort node label) := by
  refine .bind finds_getNode fun id _ => ?_
  split
  · exact .pure _
  · exact .error nofun

theorem finds_inflow {port : PortId} {c : ConnectionId} (listed : c ∈ s.connections.values) :
    Finds (s.inflow port c) := by
  refine .bind (finds_connectionSymbol listed) fun _ _ => ?_
  split <;> exact .pure _

theorem Joined.settled (joined : s.Joined) {id : NodeId} (listed : id ∈ s.nodes.values)
    {port : PortId} (registered : port ∈ (s.node id).ports.values) : s.Settled port := by
  obtain ⟨⟨label, port⟩, entry, rfl⟩ := List.mem_map.mp registered
  exact joined.ports port id label ⟨listed, entry⟩

theorem Settled.owner_mem {port : PortId} (settled : s.Settled port) :
    s.owner port ∈ s.nodes.values := by
  obtain ⟨_, ⟨listed, -⟩, -⟩ := settled
  exact listed

theorem mem_nodes_of_getNode {name : String} {id : NodeId} (h : s.getNode name = .ok id) :
    id ∈ s.nodes.values :=
  List.mem_map_of_mem (getNode_ok_iff.mp h)

/-- A schematic where all is in its place has its namespace, but for texts that are no
symbols and symbols that collide. -/
theorem finds_namespace? (joined : s.Joined) : Finds s.namespace? := by
  intro failure failed
  rcases grant_error failed with ⟨claim, listed, failed⟩ | ⟨_, _, _, rfl⟩
  · suffices found : Finds claim.symbol from found failure failed
    simp only [claims, List.cons_append, List.mem_cons, List.mem_append, List.mem_flatMap] at listed
    rcases listed with rfl | ⟨⟨name, id⟩, named, listed⟩ | ⟨⟨name, c⟩, named, listed⟩
    · exact .pure _
    · have node := List.mem_map_of_mem (f := Prod.snd) named
      simp only [nodeClaims, List.mem_append, List.mem_map, List.mem_cons, List.not_mem_nil,
        or_false] at listed
      rcases listed with (rfl | rfl | rfl | rfl) | ⟨⟨label, port⟩, entry, rfl⟩
      · exact finds_nodeSymbol node
      · exact finds_nodeSymbol node
      · exact finds_nodeSymbol node
      · exact finds_nodeSymbol node
      · exact finds_portSymbol (joined.ports port id label ⟨node, entry⟩)
    · have connection := List.mem_map_of_mem (f := Prod.snd) named
      simp only [connectionClaims, List.mem_cons, List.not_mem_nil, or_false] at listed
      rcases listed with rfl | rfl | rfl <;> exact finds_connectionSymbol connection
  · rintro ⟨⟩

end Schematic

/-! ## Values -/

theorem finds_literal {x : Float} : Finds (Rule.literal x) := .mapError fun _ _ => nofun

theorem finds_literalOf {m : Quantity.Magnitude} : Finds (Rule.literalOf m) := by
  cases m with
  | float x => exact finds_literal
  | int n => exact .bind (.mapError fun _ _ => nofun) fun _ _ => finds_literal

/-- A symbol taken as an expression is found where the symbol is. -/
theorem finds_symbolTerm {r : Except Failure Symbol} (h : Finds r) :
    Finds (do return Sexp.symbol (← r)) := .bind h fun _ _ => .pure _

theorem finds_quantity? {host : Host} {attributes : Attributes} {key owner : String}
    {m : Quantity.Measure} : Finds (attributes.quantity? host key m owner) := by
  unfold Attributes.quantity?
  split
  · exact .pure _
  · exact .pure _
  · split
    · split
      · exact .error nofun
      · exact .error (Failure.not_isLookup_told nofun)
    · split
      · exact .pure _
      · exact .error (Failure.not_isLookup_told nofun)

theorem finds_positive {host : Host} {attributes : Attributes} {key owner : String}
    {m : Quantity.Measure} : Finds (attributes.positive host key m owner) := by
  refine .bind (.bind finds_quantity? fun given _ => ?_) fun x _ => ?_
  · cases given with
    | some x => exact .pure _
    | none => exact .error nofun
  · dsimp only
    split
    · exact .error (Failure.not_isLookup_told nofun)
    · exact .pure _

theorem finds_plainText {host : Host} {v : Value} : Finds (Rule.plainText host v) := by
  unfold Rule.plainText
  split
  · exact .pure _
  · exact .error nofun

theorem finds_namedIn {host : Host} {attributes : Attributes} {constraint role : String} :
    Finds (Rule.namedIn host attributes constraint role) := by
  unfold Rule.namedIn
  split
  · exact .error nofun
  · exact .error nofun
  · exact finds_plainText

theorem finds_power {host : Host} {x : Float} {n : Nat} : Finds (Rule.power host x n) := by
  unfold Rule.power
  split
  · exact .pure _
  · exact .error nofun

namespace Rule

open Schematic

/-! ## Placement -/

theorem finds_squaredDistance {a b : NodeId} (ha : a ∈ g.nodes) (hb : b ∈ g.nodes) :
    Finds (squaredDistance g a b) := by
  refine .bind (finds_symbolTerm (finds_nodeSymbol hb)) fun _ _ => ?_
  refine .bind (finds_symbolTerm (finds_nodeSymbol ha)) fun _ _ => ?_
  refine .bind (finds_symbolTerm (finds_nodeSymbol hb)) fun _ _ => ?_
  refine .bind (finds_symbolTerm (finds_nodeSymbol ha)) fun _ _ => ?_
  exact .pure _

theorem finds_placementDeclarations : Finds (placementDeclarations g) := by
  refine .bind (.mapM fun id listed => ?nodes) fun _ _ => ?_
  case nodes =>
    refine .bind (finds_nodeSymbol listed) fun _ _ => ?_
    exact .bind (finds_nodeSymbol listed) fun _ _ => .pure _
  refine .bind (.mapM fun c listed => ?connections) fun _ _ => .pure _
  case connections => exact .bind (finds_connectionSymbol listed) fun _ _ => .pure _

theorem finds_chipArea : Finds (chipArea g) := by
  refine .bind (.mapM fun id listed => ?_) fun _ _ => .pure _
  refine .bind (finds_symbolTerm (finds_nodeSymbol listed)) fun _ _ => ?_
  refine .bind (finds_symbolTerm (finds_nodeSymbol listed)) fun _ _ => ?_
  exact .bind finds_literalOf fun _ _ => .bind finds_literalOf fun _ _ => .pure _

theorem finds_channelLengths : Finds (channelLengths g) := by
  refine .mapM fun c listed => ?_
  refine .bind (finds_symbolTerm (finds_connectionSymbol listed)) fun _ _ => ?_
  exact .bind finds_literalOf fun _ _ => .pure _

theorem finds_nodeDistances : Finds (nodeDistances g) := by
  refine .bind ?least fun _ _ => .mapM ?distance
  case least =>
    unfold squared
    split
    · exact .pure _
    · exact .bind finds_power fun _ _ => .pure _
  case distance =>
    rintro ⟨a, b⟩ listed
    obtain ⟨ha, hb⟩ := mem_of_mem_pairs listed
    exact .bind (finds_squaredDistance ha hb) fun _ _ => .bind finds_literalOf fun _ _ => .pure _

theorem sourceNode_mem (joined : g.schematic.Joined) {c : ConnectionId}
    (listed : c ∈ g.connections) : g.schematic.sourceNode c ∈ g.nodes :=
  (joined.ends c listed).1.owner_mem

theorem targetNode_mem (joined : g.schematic.Joined) {c : ConnectionId}
    (listed : c ∈ g.connections) : g.schematic.targetNode c ∈ g.nodes :=
  (joined.ends c listed).2.owner_mem

theorem farEnd_mem (joined : g.schematic.Joined) {node : NodeId} {c : ConnectionId}
    (listed : c ∈ g.connections) : farEnd g node c ∈ g.nodes := by
  unfold farEnd
  split
  · exact targetNode_mem joined listed
  · exact sourceNode_mem joined listed

theorem finds_channelGeometry (joined : g.schematic.Joined) : Finds (channelGeometry g) := by
  refine .mapM fun c listed => ?_
  refine .bind (finds_symbolTerm (finds_connectionSymbol listed)) fun _ _ => ?_
  have distance := finds_squaredDistance (sourceNode_mem joined listed)
    (targetNode_mem joined listed)
  exact .bind distance fun _ _ => .pure _

theorem mem_connections_of_spokes {node : NodeId} {c : ConnectionId} (h : c ∈ spokes g node) :
    c ∈ g.connections := by
  obtain ⟨⟨name, c⟩, attached, rfl⟩ := List.mem_map.mp (List.mem_of_mem_filter h)
  exact List.mem_map_of_mem (List.mem_of_mem_filter attached)

theorem finds_angleRule {cosine : Float} {node : NodeId} {first second : ConnectionId}
    (joined : g.schematic.Joined) (here : node ∈ g.nodes) (hfirst : first ∈ g.connections)
    (hsecond : second ∈ g.connections) : Finds (angleRule g cosine node first second) := by
  have there : farEnd g node first ∈ g.nodes := farEnd_mem joined hfirst
  have yonder : farEnd g node second ∈ g.nodes := farEnd_mem joined hsecond
  refine .bind (finds_symbolTerm (finds_nodeSymbol here)) fun _ _ => ?_
  refine .bind (finds_symbolTerm (finds_nodeSymbol here)) fun _ _ => ?_
  refine .bind (finds_symbolTerm (finds_nodeSymbol there)) fun _ _ => ?_
  refine .bind (finds_symbolTerm (finds_nodeSymbol there)) fun _ _ => ?_
  refine .bind (finds_symbolTerm (finds_nodeSymbol yonder)) fun _ _ => ?_
  refine .bind (finds_symbolTerm (finds_nodeSymbol yonder)) fun _ _ => ?_
  refine .bind (finds_symbolTerm (finds_connectionSymbol hfirst)) fun _ _ => ?_
  refine .bind (finds_symbolTerm (finds_connectionSymbol hsecond)) fun _ _ => ?_
  exact .bind finds_literal fun _ _ => .pure _

theorem finds_crossingAngles (joined : g.schematic.Joined) : Finds (crossingAngles g) := by
  refine .bind (.mapError fun _ _ => nofun) fun angle _ => ?_
  refine .bind (.mapM fun node here => .mapM ?_) fun _ _ => .pure _
  rintro ⟨first, second⟩ listed
  obtain ⟨hfirst, hsecond⟩ := mem_of_mem_pairs listed
  exact finds_angleRule joined here (mem_connections_of_spokes hfirst)
    (mem_connections_of_spokes hsecond)

theorem finds_pinned {name : String} {attributes : Attributes} :
    Finds (pinned g name attributes) := by
  simp only [pinned]
  refine .bind finds_namedIn fun label _ => .bind finds_getNode fun node found => ?_
  have here := mem_nodes_of_getNode found
  split
  · exact .error (by rintro ⟨⟩)
  refine .bind finds_quantity? fun x _ => .bind finds_quantity? fun y _ => ?_
  split
  · exact .error (by rintro ⟨⟩)
  have fixed {q : NodeQuantity} {values : List Float} : Finds (values.mapM fun v => do
      return Formula.assert .equal (← (do return Sexp.symbol (← g.schematic.nodeSymbol q node)))
        (← literal v)) := by
    refine .mapM fun v _ => .bind (finds_symbolTerm (finds_nodeSymbol here)) fun _ _ => ?_
    exact .bind finds_literal fun _ _ => .pure _
  exact .bind fixed fun _ _ => .bind fixed fun _ _ => .pure _

theorem finds_controlPlacements : Finds (controlPlacements g) := by
  refine .bind (.mapM ?_) fun _ _ => .pure _
  rintro ⟨name, c⟩ -
  exact finds_pinned

/-! ## Droplets -/

theorem finds_branch {junction : NodeId} {b : Branch} (here : junction ∈ g.nodes) :
    Finds (branch g junction b) := by
  refine .bind (finds_nodeName here) fun _ _ => .bind finds_getPort fun _ _ => ?_
  split
  · exact .pure _
  · exact .error nofun

theorem branch_mem {junction : NodeId} {b : Branch} {port : PortId} {c : ConnectionId}
    (h : branch g junction b = .ok (port, c)) : c ∈ g.connections := by
  obtain ⟨_, -, h⟩ := bind_ok_iff.mp h
  obtain ⟨at', -, h⟩ := bind_ok_iff.mp h
  split at h
  · rename_i name only attached
    cases pure_ok_iff.mp h
    have listed : (name, c) ∈ g.schematic.connectionsAtPort port := by simp [attached]
    exact List.mem_map_of_mem (List.mem_of_mem_filter listed)
  · cases h

theorem finds_junctionRules {name : String} {junction : NodeId} (here : junction ∈ g.nodes) :
    Finds (junctionRules g name junction) := by
  refine .bind (finds_branch here) fun ⟨_, continuous⟩ hcontinuous => ?_
  refine .bind (finds_branch here) fun ⟨_, dispersed⟩ hdispersed => ?_
  refine .bind (finds_branch here) fun ⟨_, output⟩ houtput => ?_
  have hcontinuous := branch_mem hcontinuous
  have hdispersed := branch_mem hdispersed
  have houtput := branch_mem houtput
  refine .bind (finds_inflow hcontinuous) fun _ _ => ?_
  refine .bind (finds_inflow hdispersed) fun _ _ => ?_
  refine .bind (finds_inflow houtput) fun _ _ => ?_
  refine .bind finds_quantity? fun _ _ => ?_
  refine .bind (finds_connectionName houtput) fun _ _ => ?_
  refine .bind finds_positive fun _ _ => ?_
  refine .bind (finds_nodeSymbol here) fun _ _ => ?_
  refine .bind (.mapM fun c listed => ?flows) fun _ _ => ?_
  case flows =>
    have listed : c ∈ g.connections := by
      simp only [List.mem_cons, List.not_mem_nil, or_false] at listed
      rcases listed with rfl | rfl | rfl <;> assumption
    exact .bind (finds_connectionSymbol listed) fun _ _ => .pure _
  exact .bind finds_literal fun _ _ => .bind finds_literal fun _ _ => .pure _

theorem finds_junctions : Finds (junctions g).outcome := by
  rw [junctions, Run.outcome_bind, Run.outcome_mapM]
  refine .bind (.mapM ?_) fun _ _ => .pure _
  rintro ⟨name, junction⟩ listed
  have here : junction ∈ g.nodes := List.mem_map_of_mem (List.mem_of_mem_filter listed)
  rw [Run.outcome_bind]
  exact .bind (finds_junctionRules here) fun made _ => .pure made.1

theorem finds_dropletVolume {name : String} {attributes : Attributes} :
    Finds (dropletVolume g name attributes) := by
  simp only [dropletVolume]
  refine .bind finds_namedIn fun label _ => .bind finds_getNode fun junction found => ?_
  have here := mem_nodes_of_getNode found
  split
  · exact .error (by rintro ⟨⟩)
  refine .bind finds_positive fun _ _ => ?_
  refine .bind (finds_branch here) fun sides hsides => ?_
  obtain ⟨_, output⟩ := sides
  refine .bind (finds_connectionName (branch_mem hsides)) fun _ _ => ?_
  refine .bind finds_positive fun _ _ => .bind finds_positive fun _ _ => ?_
  refine .bind (finds_nodeSymbol here) fun _ _ => ?_
  refine .bind finds_literal fun _ _ => .bind finds_literal fun _ _ => ?_
  exact .bind finds_literal fun _ _ => .pure _

theorem finds_dropletVolumes : Finds (dropletVolumes g) := by
  refine .bind (.mapM ?_) fun _ _ => .pure _
  rintro ⟨name, c⟩ -
  exact finds_dropletVolume

/-! ## Flow -/

theorem mem_connections_of_channels {name : String} {c : ConnectionId}
    (listed : (name, c) ∈ g.channels) : c ∈ g.connections :=
  List.mem_map_of_mem (List.mem_of_mem_filter listed)

theorem finds_hydraulicDeclarations (joined : g.schematic.Joined) :
    Finds (hydraulicDeclarations g) := by
  refine .bind (.mapM fun id here => ?nodes) fun _ _ => .bind (.mapM ?channels) fun _ _ => .pure _
  case nodes =>
    refine .bind (finds_nodeSymbol here) fun _ _ => .bind (.mapM fun port registered => ?_)
      fun _ _ => .pure _
    exact .bind (finds_portSymbol (joined.settled here registered)) fun _ _ => .pure _
  case channels =>
    rintro ⟨name, c⟩ listed
    have listed := mem_connections_of_channels listed
    refine .bind (finds_connectionSymbol listed) fun _ _ => ?_
    exact .bind (finds_connectionSymbol listed) fun _ _ => .pure _

theorem finds_portPressures (joined : g.schematic.Joined) : Finds (portPressures g) := by
  refine .bind (.mapM fun id here => .mapM fun port registered => ?_) fun _ _ => .pure _
  refine .bind (finds_symbolTerm (finds_portSymbol (joined.settled here registered))) fun _ _ => ?_
  exact .bind (finds_symbolTerm (finds_nodeSymbol here)) fun _ _ => .pure _

theorem finds_circularModel {host : Host} {resistance length : Sexp} {owner : String}
    {attributes : Attributes} :
    Finds (circularModel host resistance length owner attributes) := by
  refine .bind finds_positive fun _ _ => .bind finds_positive fun _ _ => ?_
  refine .bind finds_power fun _ _ => .bind finds_literal fun _ _ => ?_
  exact .bind finds_literal fun _ _ => .pure _

theorem finds_rectangularCoefficient {host : Host} {width height viscosity : Float} :
    Finds (rectangularCoefficient host width height viscosity) := by
  simp only [rectangularCoefficient]
  refine .bind finds_power fun _ _ => ?_
  split
  · exact .error nofun
  · exact .pure _

theorem finds_rectangularModel {host : Host} {resistance length : Sexp} {owner : String}
    {attributes : Attributes} :
    Finds (rectangularModel host resistance length owner attributes) := by
  refine .bind finds_quantity? fun _ _ => .bind finds_quantity? fun _ _ => ?_
  split
  · exact .pure _
  refine .bind finds_positive fun _ _ => .bind finds_positive fun _ _ => ?_
  refine .bind finds_positive fun _ _ => .bind finds_rectangularCoefficient fun _ _ => ?_
  exact .bind finds_literal fun _ _ => .pure _

theorem finds_shapeOf {host : Host} {attributes : Attributes} :
    Finds (shapeOf host attributes) := by
  unfold shapeOf
  split
  · exact .pure _
  · exact finds_plainText

theorem finds_resistances : Finds (resistances g) := by
  refine .bind (.mapM ?_) fun _ _ => .pure _
  rintro ⟨name, c⟩ listed
  have listed := mem_connections_of_channels listed
  refine .bind (finds_symbolTerm (finds_connectionSymbol listed)) fun _ _ => ?_
  refine .bind (finds_symbolTerm (finds_connectionSymbol listed)) fun _ _ => ?_
  refine .bind finds_shapeOf fun shape _ => ?_
  simp only
  split
  · exact .bind finds_circularModel fun _ _ => by rw [pure_bind]; exact .pure _
  · split
    · exact .bind finds_rectangularModel fun _ _ => .pure _
    · exact .error nofun

theorem finds_pressureDrops (joined : g.schematic.Joined) : Finds (pressureDrops g) := by
  refine .mapM ?_
  rintro ⟨name, c⟩ listed
  have listed := mem_connections_of_channels listed
  obtain ⟨source, target⟩ := joined.ends c listed
  refine .bind (finds_symbolTerm (finds_portSymbol source)) fun _ _ => ?_
  refine .bind (finds_symbolTerm (finds_portSymbol target)) fun _ _ => ?_
  refine .bind (finds_symbolTerm (finds_connectionSymbol listed)) fun _ _ => ?_
  exact .bind (finds_symbolTerm (finds_connectionSymbol listed)) fun _ _ => .pure _

theorem finds_inflows {node : NodeId} : Finds (inflows g node) := by
  refine .bind (.mapM fun port _ => .mapM ?_) fun _ _ => .pure _
  rintro ⟨name, c⟩ listed
  have attached := List.mem_of_mem_filter listed
  exact finds_inflow (List.mem_map_of_mem (List.mem_of_mem_filter attached))

theorem finds_conservation : Finds (conservation g).outcome := by
  rw [conservation, Run.outcome_bind, Run.outcome_mapM]
  refine .bind (.mapM ?_) fun _ _ => .pure _
  rintro ⟨name, node⟩ -
  simp only [balance]
  split
  · exact .pure _
  · refine .bind finds_inflows fun terms _ => ?_
    split <;> exact .pure _

theorem finds_fixedPressures : Finds (fixedPressures g) := by
  refine .bind (.mapM ?_) fun _ _ => .pure _
  rintro ⟨name, id⟩ listed
  have here : id ∈ g.nodes := List.mem_map_of_mem (List.mem_of_mem_filter listed)
  refine .bind finds_quantity? fun given _ => .mapM fun value _ => ?_
  refine .bind (finds_symbolTerm (finds_nodeSymbol here)) fun _ _ => ?_
  exact .bind finds_literal fun _ _ => .pure _

/-! ## All rules -/

theorem finds_rule (joined : g.schematic.Joined) {group : Group} (listed : group ∈ programGroups)
    {r : Rule} (member : r ∈ group.rules) : Finds (r.outcome g) := by
  simp only [programGroups, List.mem_cons, List.not_mem_nil, or_false] at listed
  rcases listed with rfl | rfl | rfl
  · simp only [placementGroup, placementRules, List.mem_cons, List.not_mem_nil,
      or_false] at member
    rcases member with rfl | rfl | rfl | rfl | rfl | rfl | rfl
    · exact finds_placementDeclarations
    · exact finds_chipArea
    · exact finds_channelLengths
    · exact finds_nodeDistances
    · exact finds_channelGeometry joined
    · exact finds_crossingAngles joined
    · exact finds_controlPlacements
  · simp only [dropletGroup, dropletRules, List.mem_cons, List.not_mem_nil, or_false] at member
    rcases member with rfl | rfl
    · exact finds_junctions
    · exact finds_dropletVolumes
  · simp only [hydraulicGroup, hydraulicRules, List.mem_cons, List.not_mem_nil,
      or_false] at member
    rcases member with rfl | rfl | rfl | rfl | rfl | rfl
    · exact finds_hydraulicDeclarations joined
    · exact finds_portPressures joined
    · exact finds_resistances
    · exact finds_pressureDrops joined
    · exact finds_conservation
    · exact finds_fixedPressures

end Rule

/-! ## Compiling -/

namespace Schematic

theorem finds_compile (joined : s.Joined) (host : Host) (p : Parameters) :
    Finds (s.compile host p).outcome := by
  have groups (table : TypeTable) :
      Finds (Rule.programGroups.mapM (contribution ⟨s, p, table, host⟩)).outcome := by
    rw [Run.outcome_mapM]
    refine .mapM fun group listed => ?_
    rw [outcome_contribution listed]
    exact .map (.mapM fun r member => Rule.finds_rule joined listed member)
  simp only [compile, typeTable, checkedNamespace, Run.debug, Run.info, Run.outcome_bind,
    Run.outcome_onError, Run.outcome_ofExcept, Run.outcome_log, Run.outcome_pure]
  refine .bind (.bind (.pure _) fun _ _ => ?types) fun table _ => ?_
  case types =>
    exact .bind (.mapError fun _ _ => by rintro ⟨⟩) fun _ _ => .bind (.pure _) fun _ _ => .pure _
  refine .bind (.bind (finds_namespace? joined) fun _ _ => .bind (.pure _) fun _ _ => .pure _)
    fun _ _ => ?_
  exact .bind (.pure _) fun _ _ => .bind (groups table) fun _ _ => .pure _

/-- Loading refuses no part for its name once the checks have passed.  In what is
loaded every port has its place, and compiling it, under any parameters, does not fail
for an entity without a name. -/
theorem load_joined (host : Host) (path : Path) (tree : FileTree) :
    (∀ at' m, (load host path tree).outcome = .error (.flawed at' (.misfit m)) →
      ¬ m.RepeatsName) ∧
    ∀ s, (load host path tree).outcome = .ok s → s.Joined ∧
      ∀ p failure, (s.compile host p).outcome = .error failure → ¬ failure.IsLookup := by
  rw [outcome_load]
  constructor
  · intro at' m h
    obtain ⟨at'', fallback, document, d, drafted, refused⟩ := ofFile_misfit h
    exact assemble_spares (distinct_of_draftOf drafted) m refused
  · intro s h
    obtain ⟨at', fallback, document, h⟩ := ofFile_ok h
    obtain ⟨d, -, h⟩ := bind_ok_iff.mp h
    obtain ⟨-, joined⟩ := assemble_joined (mapError_ok_iff.mp h)
    exact ⟨joined, finds_compile joined host⟩

/-- A node that names a port twice. -/
def splitPort : FileTree := directoryWith
  "\x7b\"nodes\": [\x7b\"id\": \"a\", \"type\": \"tJunction\", \"ports\": [\"p\", \"p\"]\x7d]\x7d"

/-- A constraint that does not say which node it places. -/
def unplaced : FileTree := directoryWith <|
  "\x7b\"nodes\": [\x7b\"id\": \"a\", \"type\": \"fluidEntry\", \"ports\": [\"p\"]\x7d]," ++
  "\"constraints\": [\x7b\"id\": \"k\", \"type\": \"controlPointPlacement\"\x7d]\x7d"

def misfit? : Except LoadFault Schematic → Option (String × Misfit)
  | .error (.flawed path (.misfit m)) => some (path, m)
  | _ => none

theorem misfit?_eq_some {r : Except LoadFault Schematic} {at' : String} {m : Misfit}
    (h : misfit? r = some (at', m)) : r = .error (.flawed at' (.misfit m)) := by
  unfold misfit? at h
  split at h
  · cases h
    rfl
  · cases h

theorem splitPort_unplaced_joined :
    (∃ at' m, (load .standard ⟨["chip.yaml"], false⟩ splitPort).outcome =
      .error (.flawed at' (.misfit m)) ∧ ¬ m.RepeatsName) ∧
    ∃ s p failure, (load .standard ⟨["chip.yaml"], false⟩ unplaced).outcome = .ok s ∧ s.Joined ∧
      (s.compile .standard p).outcome = .error failure ∧ ¬ failure.IsLookup := by
  constructor
  · have checked :
        (misfit? (load .standard ⟨["chip.yaml"], false⟩ splitPort).outcome).isSome = true := by
      decide +kernel
    obtain ⟨⟨at', m⟩, checked⟩ := Option.isSome_iff_exists.mp checked
    have refused := misfit?_eq_some checked
    exact ⟨at', m, refused, (load_joined _ _ _).1 at' m refused⟩
  · have checked :
        ((load .standard ⟨["chip.yaml"], false⟩ unplaced).outcome.toOption.bind fun s =>
        (Parameters.ofNumbers .standard bendNumbers).toOption.filter fun p =>
          (s.compile .standard p).outcome.toOption.isNone).isSome = true := by
      decide +kernel
    obtain ⟨p, checked⟩ := Option.isSome_iff_exists.mp checked
    simp only [Option.bind_eq_some_iff, Option.filter_eq_some_iff, toOption_eq_some_iff] at checked
    obtain ⟨s, loaded, -, failed⟩ := checked
    obtain ⟨joined, finds⟩ := (load_joined _ _ _).2 s loaded
    cases made : (s.compile .standard p).outcome with
    | ok program => simp [made, Except.toOption] at failed
    | error failure => exact ⟨s, p, failure, loaded, joined, made, finds p failure made⟩

end Schematic

end FluidChip
