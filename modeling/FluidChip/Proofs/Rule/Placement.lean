import FluidChip.Proofs.Contribution
import FluidChip.Proofs.Rule.Term

/-!
# What the placement rules make

Each rule is inverted: where it succeeds, its expressions are stated outright.
All of them are statements over declared symbols.
-/

namespace FluidChip

open Outcome Formula Sexp

namespace Setting

variable (g : Setting)

def Located (id : NodeId) : Prop :=
  g.schematic.Resolves (.node .x id) ∧ g.schematic.Resolves (.node .y id)

def placementUnknowns : List Unknown :=
  (g.nodes.flatMap fun id => [.node .x id, .node .y id]) ++
    g.connections.map (.connection .length)

def distanceTerm (a b : NodeId) : Sexp :=
  sum [square (difference (g.term (.node .x b)) (g.term (.node .x a))),
    square (difference (g.term (.node .y b)) (g.term (.node .y a)))]

def dotTerm (node a b : NodeId) : Sexp :=
  sum [product [difference (g.term (.node .x a)) (g.term (.node .x node)),
      difference (g.term (.node .x b)) (g.term (.node .x node))],
    product [difference (g.term (.node .y a)) (g.term (.node .y node)),
      difference (g.term (.node .y b)) (g.term (.node .y node))]]

variable {g}

theorem over_distanceTerm {a b : NodeId} (ha : g.Located a) (hb : g.Located b) :
    (g.distanceTerm a b).Over g.Declared := by
  simp [distanceTerm, over_term (.x a) ha.1, over_term (.y a) ha.2, over_term (.x b) hb.1,
    over_term (.y b) hb.2]

theorem over_dotTerm {node a b : NodeId} (hnode : g.Located node) (ha : g.Located a)
    (hb : g.Located b) : (g.dotTerm node a b).Over g.Declared := by
  simp [dotTerm, over_term (.x a) ha.1, over_term (.y a) ha.2, over_term (.x b) hb.1,
    over_term (.y b) hb.2, over_term (.x node) hnode.1, over_term (.y node) hnode.2]

end Setting

namespace Rule

open Setting

variable {g : Setting} {es : List Sexp}

/-! ## Inversions -/

theorem nodeDeclarations_ok {id : NodeId} (h : nodeDeclarations g id = .ok es) :
    g.Located id ∧ [.node .x id, .node .y id].map g.declaration = es := by
  simp only [nodeDeclarations, bind_ok_iff, pure_ok_iff, Schematic.nodeSymbol_ok_iff] at h
  obtain ⟨_, ⟨hx, rfl⟩, _, ⟨hy, rfl⟩, rfl⟩ := h
  exact ⟨⟨hx, hy⟩, rfl⟩

theorem placementDeclarations_ok (h : placementDeclarations g = .ok es) :
    g.placementUnknowns.map g.declaration = es ∧
      ∀ u ∈ g.placementUnknowns, g.schematic.Resolves u := by
  obtain ⟨positions, hpositions, h⟩ := bind_ok_iff.mp h
  obtain ⟨lengths, hlengths, h⟩ := bind_ok_iff.mp h
  obtain rfl := pure_ok_iff.mp h
  have lengthOf {id : ConnectionId} {e : Sexp}
      (ok : (do return declare (← g.schematic.connectionSymbol .length id)) = .ok e) :
      g.schematic.Resolves (.connection .length id) ∧
        g.declaration (.connection .length id) = e := by
    simp only [bind_ok_iff, pure_ok_iff, Schematic.connectionSymbol_ok_iff] at ok
    obtain ⟨_, ⟨resolves, rfl⟩, rfl⟩ := ok
    exact ⟨resolves, rfl⟩
  constructor
  · rw [placementUnknowns, List.map_append, List.map_flatMap, List.map_map, List.flatMap_def,
      results_eq_map hpositions fun id _ made ok => (nodeDeclarations_ok ok).2]
    exact congrArg _ (results_eq_map hlengths fun id _ e ok => (lengthOf ok).2)
  · intro u hu
    simp only [placementUnknowns, List.mem_append, List.mem_flatMap, List.mem_map,
      List.mem_cons, List.not_mem_nil, or_false] at hu
    rcases hu with ⟨id, hid, rfl | rfl⟩ | ⟨id, hid, rfl⟩
    · obtain ⟨made, -, ok⟩ := result_of_step hpositions hid
      exact (nodeDeclarations_ok ok).1.1
    · obtain ⟨made, -, ok⟩ := result_of_step hpositions hid
      exact (nodeDeclarations_ok ok).1.2
    · obtain ⟨made, -, ok⟩ := result_of_step hlengths hid
      exact (lengthOf ok).1

theorem insideChip_ok {id : NodeId} (h : insideChip g id = .ok es) :
    g.Located id ∧ ∃ width height : Literal,
      g.parameters.chipSizeX.toFloat = .ok width.value ∧
      g.parameters.chipSizeY.toFloat = .ok height.value ∧
      es = [assert .greater (g.term (.node .x id)) zero,
        assert .greater (g.term (.node .y id)) zero,
        assert .less (g.term (.node .x id)) (.literal width),
        assert .less (g.term (.node .y id)) (.literal height)] := by
  simp only [insideChip, bind_ok_iff, pure_ok_iff, Setting.x_ok_iff, Setting.y_ok_iff,
    Setting.literalOf_ok_iff] at h
  obtain ⟨_, ⟨hx, rfl⟩, _, ⟨hy, rfl⟩, _, ⟨width, hwidth, rfl⟩, _, ⟨height, hheight, rfl⟩,
    rfl⟩ := h
  exact ⟨⟨hx, hy⟩, width, height, hwidth, hheight, rfl⟩

theorem squaredDistance_ok_iff {a b : NodeId} {e : Sexp} :
    squaredDistance g a b = .ok e ↔ (g.Located a ∧ g.Located b) ∧ g.distanceTerm a b = e := by
  simp only [squaredDistance, bind_ok_iff, pure_ok_iff, Setting.x_ok_iff, Setting.y_ok_iff]
  constructor
  · rintro ⟨_, ⟨xb, rfl⟩, _, ⟨xa, rfl⟩, _, ⟨yb, rfl⟩, _, ⟨ya, rfl⟩, rfl⟩
    exact ⟨⟨⟨xa, ya⟩, xb, yb⟩, rfl⟩
  · rintro ⟨⟨⟨xa, ya⟩, xb, yb⟩, rfl⟩
    exact ⟨_, ⟨xb, rfl⟩, _, ⟨xa, rfl⟩, _, ⟨yb, rfl⟩, _, ⟨ya, rfl⟩, rfl⟩

theorem angleRule_ok_iff {cosine : Float} {node : NodeId} {first second : ConnectionId}
    {e : Sexp} : angleRule g cosine node first second = .ok e ↔
      (g.Located node ∧ g.Located (farEnd g node first) ∧ g.Located (farEnd g node second) ∧
        g.schematic.Resolves (.connection .length first) ∧
        g.schematic.Resolves (.connection .length second)) ∧ ∃ r : Literal, r.value = cosine ∧
        assert .atMost (g.dotTerm node (farEnd g node first) (farEnd g node second))
          (product [g.term (.connection .length first), g.term (.connection .length second),
            .literal r]) = e := by
  simp only [angleRule, bind_ok_iff, pure_ok_iff, Setting.x_ok_iff, Setting.y_ok_iff,
    Setting.length_ok_iff, Setting.literal_ok_iff]
  constructor
  · rintro ⟨_, ⟨x, rfl⟩, _, ⟨y, rfl⟩, _, ⟨ax, rfl⟩, _, ⟨ay, rfl⟩, _, ⟨bx, rfl⟩, _, ⟨bY, rfl⟩,
      _, ⟨hfirst, rfl⟩, _, ⟨hsecond, rfl⟩, _, ⟨r, hr, rfl⟩, rfl⟩
    exact ⟨⟨⟨x, y⟩, ⟨ax, ay⟩, ⟨bx, bY⟩, hfirst, hsecond⟩, r, hr, rfl⟩
  · rintro ⟨⟨⟨x, y⟩, ⟨ax, ay⟩, ⟨bx, bY⟩, hfirst, hsecond⟩, r, hr, rfl⟩
    exact ⟨_, ⟨x, rfl⟩, _, ⟨y, rfl⟩, _, ⟨ax, rfl⟩, _, ⟨ay, rfl⟩, _, ⟨bx, rfl⟩, _, ⟨bY, rfl⟩,
      _, ⟨hfirst, rfl⟩, _, ⟨hsecond, rfl⟩, _, ⟨r, hr, rfl⟩, rfl⟩

/-- The node that a placement constraint is about, with the coordinates given. -/
structure Pin (g : Setting) (name : String) (attributes : Attributes) where
  named : Value
  node : NodeId
  x : Option Float
  y : Option Float
  given : attributes.find? "node" = some named
  notNull : named ≠ .null
  printed : g.host.limit? named = none
  found : g.schematic.getNode named.plain = .ok node
  isControlPoint : g.table.isControlPoint (g.nodeType node) = true
  atX : attributes.quantity? g.host "x" .length (Topology.ofConstraint name) = .ok x
  atY : attributes.quantity? g.host "y" .length (Topology.ofConstraint name) = .ok y
  some : x.isSome ∨ y.isSome

theorem pinned_ok {name : String} {attributes : Attributes}
    (h : pinned g name attributes = .ok es) :
    ∃ pin : Pin g name attributes, ∃ xs ys,
      (pin.x.toList.mapM fun v => do
        return assert .equal (← g.x pin.node) (← literal v)) = .ok xs ∧
      (pin.y.toList.mapM fun v => do
        return assert .equal (← g.y pin.node) (← literal v)) = .ok ys ∧
      es = xs ++ ys := by
  simp only [pinned] at h
  obtain ⟨label, named, h⟩ := bind_ok_iff.mp h
  obtain ⟨value, given, notNull, printed, rfl⟩ := namedIn_ok_iff.mp named
  obtain ⟨node, found, h⟩ := bind_ok_iff.mp h
  split at h
  · simp [bind_ok_iff, throw_ok_iff] at h
  rename_i control
  obtain ⟨x, atX, h⟩ := bind_ok_iff.mp h
  obtain ⟨y, atY, h⟩ := bind_ok_iff.mp h
  split at h
  · simp [bind_ok_iff, throw_ok_iff] at h
  rename_i coordinate
  obtain ⟨xs, hxs, h⟩ := bind_ok_iff.mp h
  obtain ⟨ys, hys, h⟩ := bind_ok_iff.mp h
  have coordinate' : x.isSome ∨ y.isSome := by
    cases x <;> cases y <;> simp at coordinate ⊢
  exact ⟨⟨value, node, x, y, given, notNull, printed, found, by simpa using control, atX, atY,
    coordinate'⟩, xs, ys, hxs, hys, (pure_ok_iff.mp h).symm⟩

theorem pinned_of_pin {name : String} {attributes : Attributes} (pin : Pin g name attributes)
    {xs ys : List Sexp}
    (hxs : (pin.x.toList.mapM fun v => do
      return assert .equal (← g.x pin.node) (← literal v)) = .ok xs)
    (hys : (pin.y.toList.mapM fun v => do
      return assert .equal (← g.y pin.node) (← literal v)) = .ok ys) :
    pinned g name attributes = .ok (xs ++ ys) := by
  have coordinate : ¬ (pin.x.isNone && pin.y.isNone) = true := by
    have some := pin.some
    cases atX : pin.x <;> cases atY : pin.y <;> simp_all
  have named : namedIn g.host attributes name "node" = .ok pin.named.plain :=
    namedIn_ok_iff.mpr ⟨_, pin.given, pin.notNull, pin.printed, rfl⟩
  simp only [pinned]
  refine bind_ok_iff.mpr ⟨_, named, bind_ok_iff.mpr ⟨pin.node, pin.found, ?_⟩⟩
  rw [if_neg (by simp [pin.isControlPoint])]
  refine bind_ok_iff.mpr ⟨pin.x, pin.atX, bind_ok_iff.mpr ⟨pin.y, pin.atY, ?_⟩⟩
  rw [if_neg coordinate]
  exact bind_ok_iff.mpr ⟨xs, hxs, bind_ok_iff.mpr ⟨ys, hys, rfl⟩⟩

/-! ## Statements -/

theorem placementDeclarations_statements (h : placementDeclarations g = .ok es) :
    ∀ e ∈ es, Statement g.Declared e := by
  obtain ⟨rfl, resolves⟩ := placementDeclarations_ok h
  refine statements_declarations (fun u hu => ?_) resolves
  simp only [placementUnknowns, List.mem_append, List.mem_flatMap, List.mem_map,
    List.mem_cons, List.not_mem_nil, or_false] at hu
  rcases hu with ⟨id, -, rfl | rfl⟩ | ⟨id, -, rfl⟩
  · exact .x id
  · exact .y id
  · exact .length id

theorem chipArea_statements (h : chipArea g = .ok es) : ∀ e ∈ es, Statement g.Declared e := by
  intro e he
  obtain ⟨id, -, made, ok, mem⟩ := step_of_joined h he
  obtain ⟨located, width, height, -, -, rfl⟩ := insideChip_ok ok
  have x := over_term (.x id) located.1
  have y := over_term (.y id) located.2
  simp only [List.mem_cons, List.not_mem_nil, or_false] at mem
  rcases mem with rfl | rfl | rfl | rfl
  · exact .assertion .greater x over_zero
  · exact .assertion .greater y over_zero
  · exact .assertion .less x (over_literal width)
  · exact .assertion .less y (over_literal height)

theorem channelLengths_statements (h : channelLengths g = .ok es) :
    ∀ e ∈ es, Statement g.Declared e := by
  intro e he
  obtain ⟨id, -, made⟩ := step_of_result h he
  simp only [bind_ok_iff, pure_ok_iff, length_ok_iff, literalOf_ok_iff] at made
  obtain ⟨_, ⟨resolves, rfl⟩, _, ⟨least, -, rfl⟩, rfl⟩ := made
  exact .assertion .atLeast (over_term (.length id) resolves) (over_literal least)

theorem nodeDistances_statements (h : nodeDistances g = .ok es) :
    ∀ e ∈ es, Statement g.Declared e := by
  obtain ⟨least, -, h⟩ := bind_ok_iff.mp h
  intro e he
  obtain ⟨⟨a, b⟩, -, made⟩ := step_of_result h he
  simp only [bind_ok_iff, pure_ok_iff, squaredDistance_ok_iff, literalOf_ok_iff] at made
  obtain ⟨_, ⟨⟨ha, hb⟩, rfl⟩, _, ⟨r, -, rfl⟩, rfl⟩ := made
  exact .assertion .atLeast (over_distanceTerm ha hb) (over_literal r)

theorem channelGeometry_statements (h : channelGeometry g = .ok es) :
    ∀ e ∈ es, Statement g.Declared e := by
  intro e he
  obtain ⟨id, -, made⟩ := step_of_result h he
  simp only [bind_ok_iff, pure_ok_iff, length_ok_iff, squaredDistance_ok_iff] at made
  obtain ⟨_, ⟨resolves, rfl⟩, _, ⟨⟨hsource, htarget⟩, rfl⟩, rfl⟩ := made
  have length := over_term (.length id) resolves
  exact .assertion .equal (over_square.mpr length) (over_distanceTerm hsource htarget)

theorem crossingAngles_statements (h : crossingAngles g = .ok es) :
    ∀ e ∈ es, Statement g.Declared e := by
  obtain ⟨angle, -, h⟩ := bind_ok_iff.mp h
  intro e he
  obtain ⟨node, -, made, ok, mem⟩ := step_of_joined h he
  obtain ⟨⟨first, second⟩, -, made⟩ := step_of_result ok mem
  obtain ⟨⟨hnode, ha, hb, hfirst, hsecond⟩, r, -, rfl⟩ := angleRule_ok_iff.mp made
  refine .assertion .atMost (over_dotTerm hnode ha hb) ?_
  simp [over_term (.length first) hfirst, over_term (.length second) hsecond]

theorem pinned_statements {name : String} {attributes : Attributes}
    (h : pinned g name attributes = .ok es) : ∀ e ∈ es, Statement g.Declared e := by
  obtain ⟨pin, xs, ys, hxs, hys, rfl⟩ := pinned_ok h
  intro e he
  rcases List.mem_append.mp he with he | he
  · rcases fixed_ok_iff.mp hxs with ⟨-, rfl⟩ | ⟨r, t, -, read, rfl⟩
    · cases he
    · obtain ⟨resolves, rfl⟩ := x_ok_iff.mp read
      obtain rfl := List.mem_singleton.mp he
      exact .assertion .equal (over_term (.x pin.node) resolves) (over_literal r)
  · rcases fixed_ok_iff.mp hys with ⟨-, rfl⟩ | ⟨r, t, -, read, rfl⟩
    · cases he
    · obtain ⟨resolves, rfl⟩ := y_ok_iff.mp read
      obtain rfl := List.mem_singleton.mp he
      exact .assertion .equal (over_term (.y pin.node) resolves) (over_literal r)

theorem controlPlacements_statements (h : controlPlacements g = .ok es) :
    ∀ e ∈ es, Statement g.Declared e := by
  intro e he
  obtain ⟨⟨name, c⟩, -, made, ok, mem⟩ := step_of_joined h he
  exact pinned_statements ok e mem

theorem placement_statements {r : Rule} (hr : r ∈ placementGroup.rules)
    (h : r.outcome g = .ok es) : ∀ e ∈ es, Statement g.Declared e := by
  simp only [placementGroup, placementRules, List.mem_cons, List.not_mem_nil, or_false] at hr
  rcases hr with rfl | rfl | rfl | rfl | rfl | rfl | rfl
  · exact placementDeclarations_statements h
  · exact chipArea_statements h
  · exact channelLengths_statements h
  · exact nodeDistances_statements h
  · exact channelGeometry_statements h
  · exact crossingAngles_statements h
  · exact controlPlacements_statements h

end Rule

end FluidChip
