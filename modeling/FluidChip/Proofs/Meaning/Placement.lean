import FluidChip.Proofs.Declaration
import FluidChip.Proofs.Meaning
import FluidChip.Proofs.Rule.Pairs
import Mathlib.Analysis.Real.Sqrt

/-!
# The meaning of the placement rules

An assignment satisfies what the placement rules contribute just when the chip
that it describes is one: nodes inside and apart, connections straight and long
enough, channels at a node spread out, and control points where they are pinned.
-/

namespace FluidChip

open Outcome Formula Sexp Number

variable {K : Type*} [Field K]

/-! ## Placed chips -/

namespace Setting

section Positions

variable (g : Setting) (v : Symbol → K)

def posX (n : NodeId) : K := g.amount v (.node .x n)

def posY (n : NodeId) : K := g.amount v (.node .y n)

/-- The squared distance of two nodes. -/
def gap (a b : NodeId) : K := (g.posX v b - g.posX v a) ^ 2 + (g.posY v b - g.posY v a) ^ 2

/-- The scalar product of the directions from a node to two others. -/
def dot (n a b : NodeId) : K :=
  (g.posX v a - g.posX v n) * (g.posX v b - g.posX v n) +
    (g.posY v a - g.posY v n) * (g.posY v b - g.posY v n)

/-- One end of a connection is on the first node, the other on the second. -/
def Ends (c : ConnectionId) (n a : NodeId) : Prop :=
  (g.schematic.sourceNode c = n ∧ g.schematic.targetNode c = a) ∨
    (g.schematic.targetNode c = n ∧ g.schematic.sourceNode c = a)

variable {g v}

theorem gap_comm (a b : NodeId) : g.gap v a b = g.gap v b a := by
  unfold gap
  ring

theorem dot_comm (n a b : NodeId) : g.dot v n a b = g.dot v n b a := by
  unfold dot
  ring

end Positions

/-- The number that the least squared distance of nodes writes. -/
def leastSquare (g : Setting) : ℚ :=
  match Rule.squared g.host g.parameters.nodeDistance with
  | .ok m => m.written
  | .error _ => 0

def cosine (g : Setting) : ℚ :=
  match g.parameters.crossingAngle.toFloat with
  | .ok angle => written (g.host.cosine angle)
  | .error _ => 0

/-- Every two nodes are kept apart, and every two channels that leave a node are
spread, by one assertion each. -/
structure CoversPairs (g : Setting) : Prop where
  nodes : Rule.PairedOnce g.nodes
  spokes : ∀ n, Rule.PairedOnce (Rule.spokes g n)
  distances : ∃ es, Rule.nodeDistances g = .ok es ∧
    es.length = (Rule.pairs g.nodes).length
  angles : ∃ es, Rule.crossingAngles g = .ok es ∧
    es.length = (g.nodes.map fun n => (Rule.pairs (Rule.spokes g n)).length).sum

structure Metric (g : Setting) (v : Symbol → ℝ) : Prop where
  length : ∀ c ∈ g.connections, 0 < g.lengthOf v c ∧
    g.lengthOf v c = √(g.gap v (g.schematic.sourceNode c) (g.schematic.targetNode c))
  spread : ∀ n ∈ g.nodes, ∀ c ∈ g.connections, ∀ d ∈ g.connections, c ≠ d →
    ∀ a b, g.Ends c n a → g.Ends d n b → a ≠ n → b ≠ n →
      g.dot v n a b ≤ √(g.gap v n a) * √(g.gap v n b) * (g.cosine : ℝ)

variable [LinearOrder K]

/-- The positions and lengths of an assignment make a chip. -/
structure Placed (g : Setting) (v : Symbol → K) : Prop where
  inside : ∀ n ∈ g.nodes, 0 < g.posX v n ∧ 0 < g.posY v n ∧
    g.posX v n < (g.parameters.chipSizeX.written : K) ∧
    g.posY v n < (g.parameters.chipSizeY.written : K)
  long : ∀ c ∈ g.connections, (g.parameters.channelLength.written : K) ≤ g.lengthOf v c
  straight : ∀ c ∈ g.connections,
    g.lengthOf v c ^ 2 = g.gap v (g.schematic.sourceNode c) (g.schematic.targetNode c)
  apart : ∀ a ∈ g.nodes, ∀ b ∈ g.nodes, a ≠ b → (g.leastSquare : K) ≤ g.gap v a b
  spread : ∀ n ∈ g.nodes, ∀ c ∈ g.connections, ∀ d ∈ g.connections, c ≠ d →
    ∀ a b, g.Ends c n a → g.Ends d n b → a ≠ n → b ≠ n →
      g.dot v n a b ≤ g.lengthOf v c * g.lengthOf v d * (g.cosine : K)
  pinned : ∀ name constraint, (name, constraint) ∈ g.schematic.constraints.entries →
    g.table.constraintIsA constraint.typeName TypeTable.placementType = true →
    ∃ pin : Rule.Pin g name constraint.attributes,
      (∀ x, pin.x = some x → g.posX v pin.node = (written x : K)) ∧
      (∀ y, pin.y = some y → g.posY v pin.node = (written y : K))

/-! ## Values of terms -/

variable {g : Setting} {v : Symbol → K}

theorem value_distanceTerm (a b : NodeId) :
    (g.distanceTerm a b).value v = some (g.gap v a b) :=
  value_sum_pair (value_square (value_difference (value_term _) (value_term _)))
    (value_square (value_difference (value_term _) (value_term _)))

theorem value_dotTerm (n a b : NodeId) :
    (g.dotTerm n a b).value v = some (g.dot v n a b) :=
  value_sum_pair
    (value_product_pair (value_difference (value_term _) (value_term _))
      (value_difference (value_term _) (value_term _)))
    (value_product_pair (value_difference (value_term _) (value_term _))
      (value_difference (value_term _) (value_term _)))

end Setting

namespace Rule

open Setting

variable [LinearOrder K] {g : Setting} {es : List Sexp} {v : Symbol → K}

/-! ## Rules one by one -/

theorem satisfies_placementDeclarations (h : placementDeclarations g = .ok es) :
    Satisfies v es := by
  obtain ⟨rfl, -⟩ := placementDeclarations_ok h
  exact satisfies_declarations

theorem satisfies_chipArea (h : chipArea g = .ok es) :
    Satisfies v es ↔ ∀ n ∈ g.nodes, 0 < g.posX v n ∧ 0 < g.posY v n ∧
      g.posX v n < (g.parameters.chipSizeX.written : K) ∧
      g.posY v n < (g.parameters.chipSizeY.written : K) := by
  refine satisfies_joined h fun n _ made ok => ?_
  obtain ⟨-, width, height, hwidth, hheight, rfl⟩ := insideChip_ok ok
  have x : (g.term (.node .x n)).value v = some (g.posX v n) := value_term _
  have y : (g.term (.node .y n)).value v = some (g.posY v n) := value_term _
  rw [satisfies_cons, satisfies_cons, satisfies_cons, satisfied_assert x value_zero,
    satisfied_assert y value_zero, satisfied_assert x (value_literal width),
    satisfies_assert y (value_literal height)]
  rw [Quantity.Magnitude.written_of_toFloat hwidth,
    Quantity.Magnitude.written_of_toFloat hheight]
  rfl

theorem satisfies_channelLengths (h : channelLengths g = .ok es) :
    Satisfies v es ↔
      ∀ c ∈ g.connections, (g.parameters.channelLength.written : K) ≤ g.lengthOf v c := by
  refine forall_result_iff h fun c _ made ok => ?_
  simp only [bind_ok_iff, pure_ok_iff, length_ok_iff, literalOf_ok_iff] at ok
  obtain ⟨_, ⟨-, rfl⟩, _, ⟨least, hleast, rfl⟩, rfl⟩ := ok
  rw [satisfied_assert (value_term _) (value_literal least),
    Quantity.Magnitude.written_of_toFloat hleast]
  rfl

theorem satisfies_nodeDistances (nodup : g.nodes.Nodup) (h : nodeDistances g = .ok es) :
    Satisfies v es ↔
      ∀ a ∈ g.nodes, ∀ b ∈ g.nodes, a ≠ b → (g.leastSquare : K) ≤ g.gap v a b := by
  obtain ⟨least, hleast, h⟩ := bind_ok_iff.mp h
  have square : g.leastSquare = least.written := by
    rw [leastSquare, hleast]
  rw [← forall_pairs_iff nodup fun a b le => by rwa [gap_comm]]
  refine forall_result_iff h fun (a, b) _ made ok => ?_
  simp only [bind_ok_iff, pure_ok_iff, squaredDistance_ok_iff, literalOf_ok_iff] at ok
  obtain ⟨_, ⟨-, rfl⟩, _, ⟨r, hr, rfl⟩, rfl⟩ := ok
  rw [satisfied_assert (value_distanceTerm a b) (value_literal r), square,
    Quantity.Magnitude.written_of_toFloat hr]
  rfl

theorem satisfies_channelGeometry (h : channelGeometry g = .ok es) :
    Satisfies v es ↔ ∀ c ∈ g.connections,
      g.lengthOf v c ^ 2 = g.gap v (g.schematic.sourceNode c) (g.schematic.targetNode c) := by
  refine forall_result_iff h fun c _ made ok => ?_
  simp only [bind_ok_iff, pure_ok_iff, length_ok_iff, squaredDistance_ok_iff] at ok
  obtain ⟨_, ⟨-, rfl⟩, _, ⟨-, rfl⟩, rfl⟩ := ok
  rw [satisfied_assert (value_square (value_term _)) (value_distanceTerm _ _)]
  rfl

/-! ## Crossing angles -/

theorem nodup_spokes (nodup : g.connections.Nodup) (n : NodeId) : (spokes g n).Nodup :=
  ((nodup.sublist (List.filter_sublist.map _)).filter _)

theorem mem_spokes {n : NodeId} {c : ConnectionId} :
    c ∈ spokes g n ↔ c ∈ g.connections ∧ ∃ a, g.Ends c n a ∧ a ≠ n := by
  have listed : c ∈ (g.schematic.connectionsAt n).map (·.2) ↔ c ∈ g.connections ∧
      (g.schematic.sourceNode c = n ∨ g.schematic.targetNode c = n) := by
    simp [Schematic.connectionsAt, connections, Catalog.values]
  rw [spokes, List.mem_filter, listed, decide_eq_true_eq, farEnd, and_assoc]
  refine and_congr_right fun _ => ?_
  constructor
  · rintro ⟨source | target, away⟩
    · rw [if_pos source] at away
      exact ⟨_, .inl ⟨source, rfl⟩, away⟩
    · by_cases source : g.schematic.sourceNode c = n
      · rw [if_pos source] at away
        exact absurd target away
      · exact ⟨_, .inr ⟨target, rfl⟩, source⟩
  · rintro ⟨a, ⟨source, rfl⟩ | ⟨target, rfl⟩, away⟩
    · exact ⟨.inl source, by rwa [if_pos source]⟩
    · exact ⟨.inr target, by rwa [if_neg away]⟩

theorem farEnd_of_ends {n a : NodeId} {c : ConnectionId} (h : g.Ends c n a) (away : a ≠ n) :
    farEnd g n c = a := by
  rcases h with ⟨source, rfl⟩ | ⟨-, rfl⟩
  · exact if_pos source
  · exact if_neg away

theorem satisfies_angleRule {n : NodeId} {c d : ConnectionId} {angle : Float} {e : Sexp}
    (h : angleRule g angle n c d = .ok e) :
    (e.isForm assertWord = true → Holds v e) ↔
      g.dot v n (farEnd g n c) (farEnd g n d) ≤
        g.lengthOf v c * g.lengthOf v d * ((written angle : ℚ) : K) := by
  obtain ⟨-, r, rfl, rfl⟩ := angleRule_ok_iff.mp h
  rw [satisfied_assert (value_dotTerm _ _ _)
    (value_product_triple (value_term _) (value_term _) (value_literal r))]
  rfl

theorem satisfies_crossingAngles (nodup : g.connections.Nodup)
    (h : crossingAngles g = .ok es) :
    Satisfies v es ↔ ∀ n ∈ g.nodes, ∀ c ∈ g.connections, ∀ d ∈ g.connections, c ≠ d →
      ∀ a b, g.Ends c n a → g.Ends d n b → a ≠ n → b ≠ n →
        g.dot v n a b ≤ g.lengthOf v c * g.lengthOf v d * (g.cosine : K) := by
  obtain ⟨angle, hangle, h⟩ := bind_ok_iff.mp h
  have cosine : g.cosine = written (g.host.cosine angle) := by
    have read : g.parameters.crossingAngle.toFloat = .ok angle := mapError_ok_iff.mp hangle
    rw [Setting.cosine, read]
  refine satisfies_joined h fun n _ made ok => ?_
  let P (c d : ConnectionId) : Prop := g.dot v n (farEnd g n c) (farEnd g n d) ≤
    g.lengthOf v c * g.lengthOf v d * ((written (g.host.cosine angle) : ℚ) : K)
  -- pairs stand in one order only, which the bound does not notice
  have symm (c d : ConnectionId) (le : P c d) : P d c := by
    simpa only [P, dot_comm n (farEnd g n d), mul_comm (g.lengthOf v d)] using le
  have each : Satisfies v made ↔ ∀ q ∈ pairs (spokes g n), P q.1 q.2 :=
    forall_result_iff ok fun (c, d) _ e made => satisfies_angleRule made
  rw [each, forall_pairs_iff (nodup_spokes nodup n) symm, cosine]
  constructor
  · intro all c hc d hd ne a b onA onB awayA awayB
    rw [← farEnd_of_ends onA awayA, ← farEnd_of_ends onB awayB]
    exact all c (mem_spokes.mpr ⟨hc, a, onA, awayA⟩) d (mem_spokes.mpr ⟨hd, b, onB, awayB⟩) ne
  · intro all c hc d hd ne
    obtain ⟨hc, a, onA, awayA⟩ := mem_spokes.mp hc
    obtain ⟨hd, b, onB, awayB⟩ := mem_spokes.mp hd
    have bound := all c hc d hd ne a b onA onB awayA awayB
    rwa [← farEnd_of_ends onA awayA, ← farEnd_of_ends onB awayB] at bound

/-! ## Control points -/

theorem Pin.eq {name : String} {attributes : Attributes} (a b : Pin g name attributes) :
    a.node = b.node ∧ a.x = b.x ∧ a.y = b.y := by
  have named : a.named = b.named := Option.some.inj (a.given.symm.trans b.given)
  have found := a.found
  rw [named, b.found] at found
  exact ⟨(Except.ok.inj found).symm, Except.ok.inj (a.atX.symm.trans b.atX),
    Except.ok.inj (a.atY.symm.trans b.atY)⟩

theorem satisfies_pinned {name : String} {attributes : Attributes}
    (h : pinned g name attributes = .ok es) :
    Satisfies v es ↔ ∃ pin : Pin g name attributes,
      (∀ x, pin.x = some x → g.posX v pin.node = ((written x : ℚ) : K)) ∧
      (∀ y, pin.y = some y → g.posY v pin.node = ((written y : ℚ) : K)) := by
  obtain ⟨pin, xs, ys, hxs, hys, rfl⟩ := pinned_ok h
  have x (t : Sexp) (ok : g.x pin.node = .ok t) : t.value v = some (g.posX v pin.node) := by
    obtain ⟨-, rfl⟩ := x_ok_iff.mp ok
    exact value_term _
  have y (t : Sexp) (ok : g.y pin.node = .ok t) : t.value v = some (g.posY v pin.node) := by
    obtain ⟨-, rfl⟩ := y_ok_iff.mp ok
    exact value_term _
  rw [satisfies_append, satisfies_fixed x hxs, satisfies_fixed y hys]
  constructor
  · exact fun fixed => ⟨pin, fixed⟩
  · rintro ⟨other, fixed⟩
    obtain ⟨node, sameX, sameY⟩ := pin.eq other
    rwa [node, sameX, sameY]

theorem satisfies_controlPlacements (h : controlPlacements g = .ok es) :
    Satisfies v es ↔ ∀ name constraint,
      (name, constraint) ∈ g.schematic.constraints.entries →
      g.table.constraintIsA constraint.typeName TypeTable.placementType = true →
      ∃ pin : Pin g name constraint.attributes,
        (∀ x, pin.x = some x → g.posX v pin.node = ((written x : ℚ) : K)) ∧
        (∀ y, pin.y = some y → g.posY v pin.node = ((written y : ℚ) : K)) := by
  rw [satisfies_joined h (Q := fun q =>
    ∃ pin : Pin g q.1 q.2.attributes,
      (∀ x, pin.x = some x → g.posX v pin.node = ((written x : ℚ) : K)) ∧
      (∀ y, pin.y = some y → g.posY v pin.node = ((written y : ℚ) : K)))
    fun _ _ _ ok => satisfies_pinned ok]
  simp only [List.mem_filter, and_imp, Prod.forall]

/-! ## The group -/

theorem satisfies_placementGroup (nodes : g.nodes.Nodup) (connections : g.connections.Nodup)
    (h : (Schematic.contribution g placementGroup).outcome = .ok es) :
    Satisfies v es ↔ g.Placed v := by
  rw [satisfies_contribution Schematic.mem_placementGroup h
    (.cons (fun _ made => iff_of_true (satisfies_placementDeclarations made) trivial) <|
      .cons (fun _ => satisfies_chipArea) <| .cons (fun _ => satisfies_channelLengths) <|
      .cons (fun _ => satisfies_nodeDistances nodes) <|
      .cons (fun _ => satisfies_channelGeometry) <|
      .cons (fun _ => satisfies_crossingAngles connections) <|
      .cons (fun _ => satisfies_controlPlacements) .nil)]
  simp only [List.forall_mem_cons, List.not_mem_nil, false_implies, implies_true, and_true,
    true_and]
  constructor
  · rintro ⟨inside, long, apart, straight, spread, pinned⟩
    exact ⟨inside, long, straight, apart, spread, pinned⟩
  · rintro ⟨inside, long, straight, apart, spread, pinned⟩
    exact ⟨inside, long, apart, straight, spread, pinned⟩

theorem coversPairs (nodes : g.nodes.Nodup) (connections : g.connections.Nodup)
    (h : (Schematic.contribution g placementGroup).outcome = .ok es) : g.CoversPairs := by
  obtain ⟨distances, hdistances, -⟩ := Schematic.contribution_has Schematic.mem_placementGroup h
    (r := .ofExcept "MinimumNodeDistanceStrategy" nodeDistances)
    (by simp [placementGroup, placementRules])
  obtain ⟨angles, hangles, -⟩ := Schematic.contribution_has Schematic.mem_placementGroup h
    (r := .ofExcept "ChannelCrossingAngleStrategy" crossingAngles)
    (by simp [placementGroup, placementRules])
  refine ⟨pairedOnce nodes, fun n => pairedOnce (nodup_spokes connections n),
    ⟨distances, hdistances, ?_⟩, ⟨angles, hangles, ?_⟩⟩
  · obtain ⟨least, -, made⟩ := bind_ok_iff.mp hdistances
    exact (mapM_ok_iff.mp made).length_eq.symm
  · obtain ⟨angle, -, made⟩ := bind_ok_iff.mp hangles
    obtain ⟨rules, hrules, made⟩ := bind_ok_iff.mp made
    obtain rfl := pure_ok_iff.mp made
    rw [List.length_flatten]
    refine congrArg List.sum (map_results hrules fun n _ made ok => ?_).symm
    exact (mapM_ok_iff.mp ok).length_eq

end Rule

namespace Setting

theorem Placed.metric {g : Setting} {v : Symbol → ℝ}
    (positive : 0 < g.parameters.channelLength.written) (h : g.Placed v) : g.Metric v := by
  have length (c : ConnectionId) (hc : c ∈ g.connections) : 0 < g.lengthOf v c ∧
      g.lengthOf v c = √(g.gap v (g.schematic.sourceNode c) (g.schematic.targetNode c)) := by
    have least : (0 : ℝ) < g.parameters.channelLength.written := by exact_mod_cast positive
    have long : 0 < g.lengthOf v c := lt_of_lt_of_le least (h.long c hc)
    refine ⟨long, ?_⟩
    rw [← h.straight c hc, Real.sqrt_sq long.le]
  have reach {c : ConnectionId} (hc : c ∈ g.connections) {n a : NodeId} (on : g.Ends c n a) :
      g.lengthOf v c = √(g.gap v n a) := by
    rw [(length c hc).2]
    rcases on with ⟨rfl, rfl⟩ | ⟨rfl, rfl⟩
    · rfl
    · rw [gap_comm]
  refine ⟨length, fun n hn c hc d hd ne a b onA onB awayA awayB => ?_⟩
  rw [← reach hc onA, ← reach hd onB]
  exact h.spread n hn c hc d hd ne a b onA onB awayA awayB

end Setting

namespace Schematic

/-- The assertions of the placement rules are true of an assignment just when it
places the chip. -/
theorem placement_meaning {host : Host} {s : Schematic} {p : Parameters} {program : List Sexp}
    {raw : Parameters.Field → Value} (inRange : Parameters.ofNumbers host raw = .ok p)
    (h : (s.compile host p).outcome = .ok program) :
    ∃ table es, TypeTable.ofSchematic s = .ok table ∧
      (contribution ⟨s, p, table, host⟩ Rule.placementGroup).outcome = .ok es ∧
      (∀ e ∈ es, e ∈ program) ∧
      0 < p.channelLength.written ∧ Setting.CoversPairs ⟨s, p, table, host⟩ ∧
      (∀ (K : Type) [Field K] [LinearOrder K] [IsStrictOrderedRing K] (v : Symbol → K),
        Satisfies v es ↔ Setting.Placed ⟨s, p, table, host⟩ v) ∧
      ∀ v : Symbol → ℝ, Satisfies v es → Setting.Metric ⟨s, p, table, host⟩ v := by
  obtain ⟨c⟩ := compiled_of_compile h
  have nodes : c.setting.nodes.Nodup := nodup_nodes c.distinct
  have connections : c.setting.connections.Nodup := nodup_connections c.distinct
  have positive : 0 < p.channelLength.written :=
    Parameters.written_pos_of_ofNumbers inRange (f := .channelLength) (by decide)
  refine ⟨c.table, c.placed, c.resolved, c.placement, fun e he => ?_, positive,
    Rule.coversPairs nodes connections c.placement, fun K _ _ _ v => ?_, fun v sat => ?_⟩
  · exact c.mem_program (List.mem_append_left _ (List.mem_append_left _ he))
  · exact Rule.satisfies_placementGroup nodes connections c.placement
  · have placed := (Rule.satisfies_placementGroup nodes connections c.placement).mp sat
    exact Setting.Placed.metric positive placed

theorem bend_placement : ∃ s p program, bend = .ok s ∧
    Parameters.ofNumbers .standard bendNumbers = .ok p ∧
    (s.compile .standard p).outcome = .ok program ∧
    ∃ table es, TypeTable.ofSchematic s = .ok table ∧
      (contribution ⟨s, p, table, .standard⟩ Rule.placementGroup).outcome = .ok es ∧
      (∀ e ∈ es, e ∈ program) ∧
      0 < p.channelLength.written ∧ Setting.CoversPairs ⟨s, p, table, .standard⟩ ∧
      (∀ (K : Type) [Field K] [LinearOrder K] [IsStrictOrderedRing K] (v : Symbol → K),
        Satisfies v es ↔ Setting.Placed ⟨s, p, table, .standard⟩ v) ∧
      ∀ v : Symbol → ℝ, Satisfies v es → Setting.Metric ⟨s, p, table, .standard⟩ v := by
  obtain ⟨s, p, program, built, inRange, h⟩ := bend_compiles
  exact ⟨s, p, program, built, inRange, h, placement_meaning inRange h⟩

end Schematic

end FluidChip
