import FluidChip.Host
import FluidChip.Proofs.Rule.Droplet
import FluidChip.Proofs.Rule.Hydraulic
import FluidChip.Proofs.Rule.Placement

/-!
# Declarations of a program

Whatever symbol an expression uses, some rule declares: positions and lengths by
the placement rules, pressures and what belongs to channels by the hydraulic
ones, the rest by the rule of the junction that it belongs to.  So a program is
closed: its assertions use declared symbols only.
-/

namespace FluidChip

open Outcome Formula Sexp Setting

namespace Rule

variable {g : Setting} {es : List Sexp}

/-! ## What rules declare -/

theorem junctions_declares (h : (junctions g).outcome = .ok es) {junction : NodeId}
    (hnode : junction ∈ g.nodes) (isJunction : g.table.isJunction (g.nodeType junction) = true) :
    declare (g.schematic.named (.node .dropletLength junction)) ∈ es ∧
      ∀ b port id, branch g junction b = .ok (port, id) →
        declare (g.schematic.named (.connection .flow id)) ∈ es := by
  obtain ⟨parts, rfl, hparts⟩ := junctions_ok h
  obtain ⟨⟨name, _⟩, mem, rfl⟩ := List.mem_map.mp hnode
  obtain ⟨_, hmade, ok⟩ :=
    result_of_step hparts (List.mem_filter.mpr ⟨mem, isJunction⟩)
  obtain ⟨⟨made, note⟩, rules, same⟩ := bind_ok_iff.mp ok
  obtain rfl := pure_ok_iff.mp same
  obtain ⟨at', width, alpha, -, -, -, -, forms⟩ := junctionRules_ok rules
  have among {e : Sexp} (he : e ∈ made) : e ∈ parts.flatten :=
    List.mem_flatten.mpr ⟨made, hmade, he⟩
  refine ⟨among (by simp [forms]), fun b port id ok => ?_⟩
  obtain ⟨rfl, rfl⟩ := Prod.mk.inj (Except.ok.inj ((at'.attached b).symm.trans ok))
  cases b <;> exact among (by simp [forms])

end Rule

/-! ## Closed programs -/

namespace Schematic.Compiled

variable {host : Host} {s : Schematic} {p : Parameters} {program : List Sexp}
  (c : Compiled host s p program)

def setting : Setting := ⟨s, p, c.table, host⟩

def contributions : List Sexp := c.placed ++ c.droplets ++ c.hydraulics

theorem placement_has {r : Rule} (hr : r ∈ Rule.placementGroup.rules) :
    ∃ made, r.outcome c.setting = .ok made ∧ ∀ e ∈ made, e ∈ c.contributions := by
  obtain ⟨made, ok, mem⟩ := contribution_has mem_placementGroup c.placement hr
  exact ⟨made, ok, fun e he => List.mem_append_left _ (List.mem_append_left _ (mem e he))⟩

theorem droplet_has {r : Rule} (hr : r ∈ Rule.dropletGroup.rules) :
    ∃ made, r.outcome c.setting = .ok made ∧ ∀ e ∈ made, e ∈ c.contributions := by
  obtain ⟨made, ok, mem⟩ := contribution_has mem_dropletGroup c.droplet hr
  exact ⟨made, ok, fun e he => List.mem_append_left _ (List.mem_append_right _ (mem e he))⟩

theorem hydraulic_has {r : Rule} (hr : r ∈ Rule.hydraulicGroup.rules) :
    ∃ made, r.outcome c.setting = .ok made ∧ ∀ e ∈ made, e ∈ c.contributions := by
  obtain ⟨made, ok, mem⟩ := contribution_has mem_hydraulicGroup c.hydraulic hr
  exact ⟨made, ok, fun e he => List.mem_append_right _ (mem e he)⟩

theorem declare_placement {u : Unknown} (hu : u ∈ c.setting.placementUnknowns) :
    declare (s.named u) ∈ c.contributions := by
  obtain ⟨positions, placement, has⟩ :=
    c.placement_has (r := .ofExcept "PlacementDeclarationStrategy" Rule.placementDeclarations)
      (by simp [Rule.placementGroup, Rule.placementRules])
  obtain ⟨rfl, -⟩ := Rule.placementDeclarations_ok placement
  exact has _ (List.mem_map_of_mem hu)

theorem declare_hydraulic {u : Unknown} (hu : u ∈ c.setting.hydraulicUnknowns) :
    declare (s.named u) ∈ c.contributions := by
  obtain ⟨pressures, hydraulic, has⟩ :=
    c.hydraulic_has
      (r := .ofExcept "PressureFlowDeclarationStrategy" Rule.hydraulicDeclarations)
      (by simp [Rule.hydraulicGroup, Rule.hydraulicRules])
  obtain ⟨rfl, -⟩ := Rule.hydraulicDeclarations_ok hydraulic
  exact has _ (List.mem_map_of_mem hu)

theorem declare_junction {junction : NodeId} (hnode : junction ∈ c.setting.nodes)
    (isJunction : c.table.isJunction (c.setting.nodeType junction) = true) :
    declare (s.named (.node .dropletLength junction)) ∈ c.contributions ∧
      ∀ b port id, Rule.branch c.setting junction b = .ok (port, id) →
        declare (s.named (.connection .flow id)) ∈ c.contributions := by
  obtain ⟨lengths, droplet, has⟩ :=
    c.droplet_has (r := .ofRun "TJunctionDropletStrategy" Rule.junctions)
      (by simp [Rule.dropletGroup, Rule.dropletRules])
  obtain ⟨length, flows⟩ := Rule.junctions_declares droplet hnode isJunction
  exact ⟨has _ length, fun b port id ok => has _ (flows b port id ok)⟩

theorem declared_mem {symbol : Symbol} (h : c.setting.Declared symbol) :
    declare symbol ∈ piForms ++ c.contributions := by
  obtain ⟨u, declares, resolves, rfl⟩ := h
  have registers := registers_of_symbolOf resolves
  refine List.mem_append.mpr ?_
  cases declares with
  | pi => exact .inl List.mem_cons_self
  | x id =>
      have listed : Unknown.node .x id ∈ c.setting.placementUnknowns :=
        List.mem_append_left _ (List.mem_flatMap.mpr ⟨id, registers, by simp⟩)
      exact .inr (c.declare_placement listed)
  | y id =>
      have listed : Unknown.node .y id ∈ c.setting.placementUnknowns :=
        List.mem_append_left _ (List.mem_flatMap.mpr ⟨id, registers, by simp⟩)
      exact .inr (c.declare_placement listed)
  | length id =>
      have listed : Unknown.connection .length id ∈ c.setting.placementUnknowns :=
        List.mem_append_right _ (List.mem_map_of_mem registers)
      exact .inr (c.declare_placement listed)
  | pressure id =>
      have listed : Unknown.node .pressure id ∈ c.setting.hydraulicUnknowns :=
        List.mem_append_left _ (List.mem_flatMap.mpr ⟨id, registers, by simp⟩)
      exact .inr (c.declare_hydraulic listed)
  | port id =>
      obtain ⟨node, hnode, hport⟩ := registers
      have listed : Unknown.port id ∈ c.setting.hydraulicUnknowns :=
        List.mem_append_left _ (List.mem_flatMap.mpr ⟨node, hnode,
          List.mem_cons_of_mem _ (List.mem_map_of_mem hport)⟩)
      exact .inr (c.declare_hydraulic listed)
  | flow channel => exact .inr (c.declare_hydraulic (flow_mem_hydraulicUnknowns channel))
  | resistance channel =>
      exact .inr (c.declare_hydraulic (resistance_mem_hydraulicUnknowns channel))
  | dropletLength isJunction => exact .inr (c.declare_junction registers isJunction).1
  | branch hnode isJunction ok =>
      exact .inr ((c.declare_junction hnode isJunction).2 _ _ _ ok)

theorem statements : ∀ e ∈ piForms ++ c.contributions, Statement c.setting.Declared e := by
  have pi : c.setting.Declared pi := ⟨.pi, .pi, rfl, rfl⟩
  have placed := forall_contribution mem_placementGroup c.placement
    fun _ hr _ ok => Rule.placement_statements hr ok
  have droplets := forall_contribution mem_dropletGroup c.droplet
    fun _ hr _ ok => Rule.droplet_statements hr ok
  have hydraulics := forall_contribution mem_hydraulicGroup c.hydraulic
    fun _ hr _ ok => Rule.hydraulic_statements hr ok
  intro e he
  simp only [piForms, contributions, List.mem_append, List.mem_cons, List.not_mem_nil,
    or_false] at he
  rcases he with (rfl | rfl) | (he | he) | he
  · exact .declaration pi
  · exact .assertion .equal (over_symbol pi) (over_literal _)
  · exact placed e he
  · exact droplets e he
  · exact hydraulics e he

def assertions : List Sexp := (piForms ++ c.contributions).filter (isForm assertWord)

theorem assertion_over {a : Sexp} (h : a ∈ c.assertions) :
    ∃ r left right, a = assert r left right ∧ a.Over c.setting.Declared := by
  obtain ⟨mem, isAssert⟩ := List.mem_filter.mp h
  cases c.statements a mem with
  | declaration => simp at isAssert
  | assertion r left right => exact ⟨r, _, _, rfl, over_assert.mpr ⟨left, right⟩⟩

theorem declare_mem_iff {symbol : Symbol} :
    declare symbol ∈ piForms ++ c.contributions ↔ c.setting.Declared symbol := by
  refine ⟨fun h => ?_, c.declared_mem⟩
  generalize made : declare symbol = e at h
  cases c.statements e h with
  | declaration known => exact declare_inj.mp made ▸ known
  | assertion => exact absurd made declare_ne_assert

theorem arranged : ∃ declared : List Symbol, declared.Nodup ∧
    (∀ symbol, symbol ∈ declared ↔ c.setting.Declared symbol) ∧
    program = setLogic :: (declared.map declare ++ c.assertions ++ [checkSat, exit]) := by
  obtain ⟨declared, distinct, mem, arranged⟩ := Program.arrange_statements c.statements
  refine ⟨declared, distinct, fun symbol => (mem symbol).trans c.declare_mem_iff, ?_⟩
  rw [assertions, ← arranged]
  exact c.forms

theorem mem_program {e : Sexp} (h : e ∈ c.contributions) : e ∈ program := by
  obtain ⟨declared, -, mem, forms⟩ := c.arranged
  have among : e ∈ piForms ++ c.contributions := List.mem_append_right _ h
  rw [forms]
  cases c.statements e among with
  | declaration known => simp [(mem _).mpr known]
  | assertion r _ _ =>
      have asserted : assert r _ _ ∈ c.assertions := List.mem_filter.mpr ⟨among, rfl⟩
      simp [asserted]

end Schematic.Compiled

/-- A program that declares its symbols, each once, and then asserts relations
over them, beginning with the value of pi. -/
structure Program.Closed (program : List Sexp) (declared : List Symbol)
    (assertions : List Sexp) : Prop where
  forms : program = setLogic :: (declared.map declare ++ assertions ++ [checkSat, exit])
  distinct : declared.Nodup
  relations : ∀ a ∈ assertions, ∃ r left right, a = assert r left right
  first : assertions.head? = some (assert .equal (.symbol Schematic.pi)
    (.literal ⟨Parameters.piValue, by decide⟩))
  closed : ∀ a ∈ assertions, ∀ symbol ∈ a.symbols, symbol.name ∈ words ∨ symbol ∈ declared

namespace Schematic

theorem compile_closed {host : Host} {s : Schematic} {p : Parameters} {program : List Sexp}
    (h : (s.compile host p).outcome = .ok program) :
    ∃ declared assertions, Program.Closed program declared assertions := by
  obtain ⟨c⟩ := compiled_of_compile h
  obtain ⟨declared, distinct, mem, forms⟩ := c.arranged
  refine ⟨declared, c.assertions, forms, distinct, fun a ha => ?_, rfl,
    fun a ha symbol hsymbol => ?_⟩
  · obtain ⟨r, left, right, same, -⟩ := c.assertion_over ha
    exact ⟨r, left, right, same⟩
  · obtain ⟨-, -, -, -, closed⟩ := c.assertion_over ha
    exact (closed symbol hsymbol).imp_right (mem symbol).mpr

/-! ## A chip with a bend -/

def bend : Except Failure Schematic := do
  let s ← (empty "bend").addNode "inlet" "fluidEntry" ["out"]
    (.ofList [("pressure", .int 2000)])
  let s ← s.addNode "crossing" "channelCrossing" ["in", "out"]
  let s ← s.addNode "outlet" "fluidExit" ["in"]
  let s ← s.addConnection "supply" (← s.getPort "inlet" "out") (← s.getPort "crossing" "in")
  let s ← s.addConnection "drain" (← s.getPort "crossing" "out") (← s.getPort "outlet" "in")
    "channel" (.ofList [("width", .float 0.5), ("height", .float 0.25),
      ("viscosity", .float 2.0)])
  s.addConstraint "corner" "controlPointPlacement"
    (.ofList [("node", .text "inlet"), ("x", .int 1)])

def bendNumbers : Parameters.Field → Value
  | .crossingAngle => .float 0.5
  | .chipSizeX => .int 30
  | .chipSizeY => .int 20
  | _ => .int 1

theorem bend_compiles : ∃ s p program, bend = .ok s ∧
    Parameters.ofNumbers .standard bendNumbers = .ok p ∧
    (s.compile .standard p).outcome = .ok program := by
  have built : (bend.toOption.bind fun s =>
      (Parameters.ofNumbers .standard bendNumbers).toOption.bind fun p =>
        (s.compile .standard p).outcome.toOption).isSome = true := by
    decide +kernel
  obtain ⟨program, built⟩ := Option.isSome_iff_exists.mp built
  simp only [Option.bind_eq_some_iff, toOption_eq_some_iff] at built
  obtain ⟨s, hs, p, hp, hprogram⟩ := built
  exact ⟨s, p, program, hs, hp, hprogram⟩

theorem bend_closed : ∃ s p program, bend = .ok s ∧
    (s.compile .standard p).outcome = .ok program ∧
    ∃ declared assertions, Program.Closed program declared assertions := by
  obtain ⟨s, p, program, built, -, h⟩ := bend_compiles
  exact ⟨s, p, program, built, h, compile_closed h⟩

end Schematic

end FluidChip
