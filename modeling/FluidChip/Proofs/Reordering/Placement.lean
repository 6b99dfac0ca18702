import FluidChip.Proofs.Meaning.Placement
import FluidChip.Proofs.Reordering.Setting

/-!
# Placement rules in another order

Rules for single entities make the same expressions for an entity whatever its
identity.  Distances and angles concern pairs: when the members of a pair change
places, the expression changes but not its value.
-/

namespace FluidChip.Rule

open Outcome Formula Sexp Setting

variable {ρ : Renaming} {g g' : Setting} (h : g.Reordered ρ g')

include h

/-! ## Rules for single entities -/

theorem keeps_nodeDeclarations (n : NodeId) :
    Keeps (nodeDeclarations g n) (nodeDeclarations g' (ρ.node n)) :=
  (h.keeps_symbol (.node .x n)).bind fun _ _ =>
    (h.keeps_symbol (.node .y n)).bind fun _ _ => .refl _

theorem follows_placementDeclarations :
    Follows (placementDeclarations g) (placementDeclarations g') := by
  refine Relates.bind (relates_parts h.mem_nodes fun n _ =>
    .of_keeps (keeps_nodeDeclarations h n)) fun _ _ placed => ?_
  refine Relates.bind (follows_mapM h.mem_connections fun c _ => ?_)
    fun _ _ measured => .pure (placed.append measured)
  exact (h.keeps_symbol (.connection .length c)).bind fun _ _ => .refl _

theorem follows_chipArea : Follows (chipArea g) (chipArea g') := by
  refine follows_joined h.mem_nodes fun n _ => .of_keeps ?_
  unfold insideChip
  rw [h.parameters]
  exact (h.keeps_x n).bind fun _ _ => (h.keeps_y n).bind fun _ _ => .refl _

theorem follows_channelLengths : Follows (channelLengths g) (channelLengths g') := by
  refine follows_mapM h.mem_connections fun c _ => ?_
  rw [h.parameters]
  exact (h.keeps_length c).bind fun _ _ => .refl _

theorem keeps_squaredDistance (a b : NodeId) :
    Keeps (squaredDistance g a b) (squaredDistance g' (ρ.node a) (ρ.node b)) :=
  (h.keeps_x b).bind fun _ _ => (h.keeps_x a).bind fun _ _ => (h.keeps_y b).bind fun _ _ =>
    (h.keeps_y a).bind fun _ _ => .refl _

theorem follows_channelGeometry : Follows (channelGeometry g) (channelGeometry g') := by
  refine follows_mapM h.mem_connections fun c hc => (h.keeps_length c).bind fun _ _ => ?_
  rw [h.schematic.sourceNode hc, h.schematic.targetNode hc]
  exact (keeps_squaredDistance h _ _).bind fun _ _ => .refl _

/-! ## Pairs -/

theorem follows_nodeDistances : Follows (nodeDistances g) (nodeDistances g') := by
  unfold nodeDistances
  rw [h.parameters, h.host]
  refine (Keeps.refl _).relates_bind fun least => ?_
  refine follows_pairs h.mem_nodes ρ.node.injective h.nodup_nodes h.nodup_nodes'
    (fun a _ b _ => (keeps_squaredDistance h a b).bind fun _ _ => .refl _) fun a b e made => ?_
  simp only [bind_ok_iff, pure_ok_iff, squaredDistance_ok_iff, literalOf_ok_iff] at made ⊢
  obtain ⟨_, ⟨⟨ha, hb⟩, rfl⟩, _, ⟨r, hr, rfl⟩, rfl⟩ := made
  refine ⟨_, ⟨_, ⟨⟨hb, ha⟩, rfl⟩, _, ⟨r, hr, rfl⟩, rfl⟩, fun T test => ?_⟩
  -- each difference changes its sign, and its square does not
  refine test.assert_iff (fun K _ _ v => ?_) fun K _ _ v => rfl
  rw [value_distanceTerm, value_distanceTerm, gap_comm]

theorem farEnd_reordered {c : ConnectionId} (hc : c ∈ g.connections) (n : NodeId) :
    farEnd g' (ρ.node n) (ρ.connection c) = ρ.node (farEnd g n c) := by
  unfold farEnd
  rw [h.schematic.sourceNode hc, h.schematic.targetNode hc]
  simp only [ρ.node.injective.eq_iff]
  split <;> rfl

theorem mem_spokes_reordered {n : NodeId} (c' : ConnectionId) :
    c' ∈ spokes g' (ρ.node n) ↔ ∃ c ∈ spokes g n, ρ.connection c = c' := by
  have ends {c : ConnectionId} (hc : c ∈ g.connections) (a : NodeId) :
      g'.Ends (ρ.connection c) (ρ.node n) (ρ.node a) ↔ g.Ends c n a := by
    unfold Ends
    rw [h.schematic.sourceNode hc, h.schematic.targetNode hc]
    simp only [ρ.node.injective.eq_iff]
  simp only [mem_spokes]
  constructor
  · rintro ⟨mem, a', on, away⟩
    obtain ⟨c, hc, rfl⟩ := (h.mem_connections c').mp mem
    obtain ⟨a, rfl⟩ := ρ.node.surjective a'
    exact ⟨c, ⟨hc, a, (ends hc a).mp on, mt (congrArg ρ.node) away⟩, rfl⟩
  · rintro ⟨c, ⟨hc, a, on, away⟩, rfl⟩
    exact ⟨(h.mem_connections _).mpr ⟨c, hc, rfl⟩, ρ.node a, (ends hc a).mpr on,
      ρ.node.injective.ne away⟩

theorem keeps_angleRule (cosine : Float) (n : NodeId) {c d : ConnectionId}
    (hc : c ∈ g.connections) (hd : d ∈ g.connections) :
    Keeps (angleRule g cosine n c d)
      (angleRule g' cosine (ρ.node n) (ρ.connection c) (ρ.connection d)) := by
  unfold angleRule
  rw [farEnd_reordered h hc, farEnd_reordered h hd]
  exact (h.keeps_x n).bind fun _ _ => (h.keeps_y n).bind fun _ _ =>
    (h.keeps_x _).bind fun _ _ => (h.keeps_y _).bind fun _ _ =>
    (h.keeps_x _).bind fun _ _ => (h.keeps_y _).bind fun _ _ =>
    (h.keeps_length c).bind fun _ _ => (h.keeps_length d).bind fun _ _ => .refl _

theorem follows_anglesAt (cosine : Float) (n : NodeId) :
    Follows ((pairs (spokes g n)).mapM fun q => angleRule g cosine n q.1 q.2)
      ((pairs (spokes g' (ρ.node n))).mapM fun q => angleRule g' cosine (ρ.node n) q.1 q.2) := by
  refine follows_pairs (mem_spokes_reordered h) ρ.connection.injective
    (nodup_spokes h.nodup_connections n) (nodup_spokes h.nodup_connections' _)
    (fun c hc d hd => keeps_angleRule h cosine n (mem_spokes.mp hc).1 (mem_spokes.mp hd).1)
    fun c d e made => ?_
  obtain ⟨⟨hn, hc, hd, first, second⟩, r, hr, rfl⟩ := angleRule_ok_iff.mp made
  refine ⟨_, angleRule_ok_iff.mpr ⟨⟨hn, hd, hc, second, first⟩, r, hr, rfl⟩, fun T test => ?_⟩
  refine test.assert_iff (fun K _ _ v => ?_) fun K _ _ v => ?_
  · rw [value_dotTerm, value_dotTerm, dot_comm]
  · rw [value_product_triple (value_term _) (value_term _) (value_literal r),
      value_product_triple (value_term _) (value_term _) (value_literal r),
      mul_comm (g.amount v (.connection .length c))]

theorem follows_crossingAngles : Follows (crossingAngles g) (crossingAngles g') := by
  unfold crossingAngles
  rw [h.parameters, h.host]
  refine (Keeps.refl _).relates_bind fun angle => ?_
  exact follows_joined h.mem_nodes fun n _ => follows_anglesAt h (g.host.cosine angle) n

/-! ## Control points -/

theorem keeps_pinned (name : String) (attributes : Attributes) :
    Keeps (pinned g name attributes) (pinned g' name attributes) := by
  intro es made
  obtain ⟨pin, xs, ys, hxs, hys, rfl⟩ := pinned_ok made
  have registered : pin.node ∈ g.nodes :=
    List.mem_map_of_mem (Schematic.getNode_ok_iff.mp pin.found)
  let pin' : Pin g' name attributes := {
    pin with
    node := ρ.node pin.node
    printed := h.host ▸ pin.printed
    found := h.getNode _ _ pin.found
    isControlPoint := by
      rw [h.isControlPoint registered]
      exact pin.isControlPoint
    atX := h.host ▸ pin.atX
    atY := h.host ▸ pin.atY }
  exact pinned_of_pin pin' (keeps_fixed (h.keeps_x pin.node) xs hxs)
    (keeps_fixed (h.keeps_y pin.node) ys hys)

theorem follows_controlPlacements : Follows (controlPlacements g) (controlPlacements g') :=
  follows_joined (h.mem_constraints_of_type _) fun q _ =>
    .of_keeps (keeps_pinned h q.1 q.2.attributes)

/-! ## The group -/

theorem follows_placementRules {r : Rule} (hr : r ∈ placementGroup.rules) :
    Follows (r.outcome g) (r.outcome g') := by
  simp only [placementGroup, placementRules, List.mem_cons, List.not_mem_nil, or_false] at hr
  rcases hr with rfl | rfl | rfl | rfl | rfl | rfl | rfl
  · exact follows_placementDeclarations h
  · exact follows_chipArea h
  · exact follows_channelLengths h
  · exact follows_nodeDistances h
  · exact follows_channelGeometry h
  · exact follows_crossingAngles h
  · exact follows_controlPlacements h

end FluidChip.Rule
