import FluidChip.Proofs.Contribution
import FluidChip.Proofs.Rule.Term

/-!
# What the droplet rules make

A junction declares the flows of its three branches itself, whatever types their
connections have; the flows that its expressions speak of are declared either
way.
-/

namespace FluidChip

open Outcome Formula Sexp Setting

/-- The port under a label of a node, and the one connection on it. -/
structure Setting.Attached (g : Setting) (n : NodeId) (label : String) (port : PortId)
    (c : ConnectionId) : Prop where
  labelled : (g.schematic.node n).ports.find? label = some port
  only : ∃ name, g.schematic.connectionsAtPort port = [(name, c)]

/-- The symbols that the rules of junctions speak of: the length of the droplets,
and the flow of the connection on a branch. -/
inductive Setting.JunctionSymbol (g : Setting) : Symbol → Prop
  | length {junction : NodeId} {symbol : Symbol} (node : junction ∈ g.nodes)
      (isJunction : g.table.isJunction (g.nodeType junction) = true)
      (ok : g.schematic.nodeSymbol .dropletLength junction = .ok symbol) :
      JunctionSymbol g symbol
  | flow {junction : NodeId} {symbol : Symbol} (node : junction ∈ g.nodes)
      (isJunction : g.table.isJunction (g.nodeType junction) = true) {b : Rule.Branch}
      {port : PortId} {c : ConnectionId} (attached : g.Attached junction b.label port c)
      (ok : g.schematic.connectionSymbol .flow c = .ok symbol) : JunctionSymbol g symbol

namespace Rule

variable {g : Setting} {es : List Sexp}

/-! ## Inversions -/

theorem branch_ok_iff {junction : NodeId} (registered : junction ∈ g.nodes) {b : Branch}
    {port : PortId} {c : ConnectionId} :
    branch g junction b = .ok (port, c) ↔ g.Attached junction b.label port c := by
  obtain ⟨name, named⟩ := Schematic.exists_nameOf? registered
  have found : g.schematic.nodeName junction = .ok name := Schematic.nodeName_ok_iff.mpr named
  have labelled {p : PortId} : g.schematic.getPort name b.label = .ok p ↔
      (g.schematic.node junction).ports.find? b.label = some p := by
    have mem := Schematic.mem_entries_of_nameOf? named
    rw [Schematic.getPort_ok_iff]
    constructor
    · rintro ⟨other, same, label⟩
      rw [← Catalog.find?_eq_some_iff] at mem same
      cases mem.symm.trans same
      exact label
    · exact fun label => ⟨junction, mem, label⟩
  simp only [branch, bind_ok_iff, found, Except.ok.injEq, exists_eq_left', labelled]
  constructor
  · rintro ⟨p, label, only⟩
    split at only
    · rename_i name channel single
      obtain ⟨rfl, rfl⟩ := Prod.mk.inj (pure_ok_iff.mp only)
      exact ⟨label, name, single⟩
    · cases only
  · rintro ⟨label, name, only⟩
    exact ⟨port, label, by rw [only]; rfl⟩

def Branch.pick {α : Type} (continuous dispersed output : α) : Branch → α
  | .continuous => continuous
  | .dispersed => dispersed
  | .output => output

structure Branches (g : Setting) (junction : NodeId) where
  port : Branch → PortId
  channel : Branch → ConnectionId
  attached : ∀ b, branch g junction b = .ok (port b, channel b)

def Branches.flow {junction : NodeId} (at' : Branches g junction) (b : Branch) : Sexp :=
  g.inflowTerm (at'.port b) (at'.channel b)

theorem junctionRules_ok {name note : String} {junction : NodeId}
    (h : junctionRules g name junction = .ok (es, note)) :
    ∃ (at' : Branches g junction) (width alpha : Literal),
      g.schematic.Resolves (.node .dropletLength junction) ∧
      (∀ b, g.schematic.Resolves (.connection .flow (at'.channel b))) ∧
      Reads g.host (g.schematic.connection (at'.channel .output)).attributes "width" .length
        (some width.value) ∧
      (∃ given, Reads g.host (g.schematic.node junction).attributes "alpha" .ratio given ∧
        alpha.value = given.getD defaultAlpha) ∧
      es = [declare (g.schematic.named (.node .dropletLength junction)),
        declare (g.schematic.named (.connection .flow (at'.channel .continuous))),
        declare (g.schematic.named (.connection .flow (at'.channel .dispersed))),
        declare (g.schematic.named (.connection .flow (at'.channel .output))),
        assert .greater (at'.flow .continuous) zero,
        assert .greater (at'.flow .dispersed) zero,
        assert .less (at'.flow .output) zero,
        assert .equal
          (product [g.term (.node .dropletLength junction), at'.flow .continuous])
          (product [.literal width, sum [at'.flow .continuous,
            product [.literal alpha, at'.flow .dispersed]]])] := by
  simp only [junctionRules, bind_ok_iff, pure_ok_iff, inflow_ok_iff, literal_ok_iff,
    Schematic.nodeSymbol_ok_iff, Schematic.connectionSymbol_ok_iff, List.mapM_cons,
    List.mapM_nil] at h
  obtain ⟨⟨continuousPort, continuous⟩, hcontinuous, ⟨dispersedPort, dispersed⟩, hdispersed,
    ⟨outputPort, output⟩, houtput, _, ⟨resolves₁, rfl⟩, _, ⟨resolves₂, rfl⟩, _,
    ⟨resolves₃, rfl⟩, given, readAlpha, _, -, width, readWidth, _, ⟨resolves, rfl⟩, _, flows,
    _, ⟨widthTerm, rfl, rfl⟩, _, ⟨alphaTerm, sameAlpha, rfl⟩, same⟩ := h
  obtain ⟨_, ⟨_, ⟨-, rfl⟩, rfl⟩, _, ⟨_, ⟨_, ⟨-, rfl⟩, rfl⟩, _, ⟨_, ⟨_, ⟨-, rfl⟩, rfl⟩, _, rfl,
    rfl⟩, rfl⟩, rfl⟩ := flows
  obtain ⟨rfl, -⟩ := Prod.mk.inj same
  let at' : Branches g junction := {
    port := Branch.pick continuousPort dispersedPort outputPort
    channel := Branch.pick continuous dispersed output
    attached := fun b => by cases b <;> assumption }
  refine ⟨at', widthTerm, alphaTerm, resolves, fun b => ?_, reads_of_positive readWidth,
    ⟨given, reads_of_quantity? readAlpha, sameAlpha⟩, rfl⟩
  cases b
  · exact resolves₁
  · exact resolves₂
  · exact resolves₃

/-- What the rule of a droplet volume makes, and of what it reads. -/
inductive VolumeRule (g : Setting) (attributes : Attributes) : List Sexp → Prop where
  | intro {target : Value} {junction : NodeId} {port : PortId} {output : ConnectionId}
      {width height volume : Literal}
      (named : attributes.find? "junction" = some target) (notNull : target ≠ .null)
      (printed : g.host.limit? target = none)
      (found : g.schematic.getNode target.plain = .ok junction)
      (isJunction : g.table.isJunction (g.nodeType junction) = true)
      (attached : branch g junction .output = .ok (port, output))
      (readVolume : Reads g.host attributes "volume" .volume (some volume.value))
      (readWidth : Reads g.host (g.schematic.connection output).attributes "width" .length
        (some width.value))
      (readHeight : Reads g.host (g.schematic.connection output).attributes "height" .length
        (some height.value))
      (resolves : g.schematic.Resolves (.node .dropletLength junction)) :
      VolumeRule g attributes [declare (g.schematic.named (.node .dropletLength junction)),
        assert .equal (product [g.term (.node .dropletLength junction), .literal width,
          .literal height]) (.literal volume)]

theorem dropletVolume_ok {name : String} {attributes : Attributes}
    (h : dropletVolume g name attributes = .ok es) : VolumeRule g attributes es := by
  simp only [dropletVolume] at h
  obtain ⟨label, name, h⟩ := bind_ok_iff.mp h
  obtain ⟨target, named, notNull, printed, rfl⟩ := namedIn_ok_iff.mp name
  obtain ⟨junction, found, h⟩ := bind_ok_iff.mp h
  split at h
  · simp [bind_ok_iff, throw_ok_iff] at h
  rename_i isJunction
  simp only [bind_ok_iff, pure_ok_iff, literal_ok_iff, Schematic.nodeSymbol_ok_iff] at h
  obtain ⟨_, readVolume, ⟨port, output⟩, attached, _, -, _, readWidth, _, readHeight, _,
    ⟨resolves, rfl⟩, _, ⟨width, rfl, rfl⟩, _, ⟨height, rfl, rfl⟩, _, ⟨volume, rfl, rfl⟩,
    rfl⟩ := h
  exact .intro named notNull printed found (by simpa using isJunction) attached
    (reads_of_positive readVolume) (reads_of_positive readWidth) (reads_of_positive readHeight)
    resolves

/-! ## Statements -/

variable (g) in
theorem outcome_junctions : (junctions g).outcome = do
    let parts ← (g.schematic.nodes.entries.filter fun (_, id) =>
      g.table.isJunction (g.nodeType id)).mapM fun (name, id) => do
        let (made, _) ← junctionRules g name id
        return made
    return parts.flatten := by
  simp only [junctions, Run.outcome_bind, Run.outcome_mapM, Run.outcome_pure]
  rfl

theorem junctions_ok (h : (junctions g).outcome = .ok es) :
    ∃ parts, parts.flatten = es ∧ (g.schematic.nodes.entries.filter fun (_, id) =>
      g.table.isJunction (g.nodeType id)).mapM (fun (name, id) => do
        let (made, _) ← junctionRules g name id
        return made) = .ok parts := by
  rw [outcome_junctions] at h
  obtain ⟨parts, hparts, same⟩ := bind_ok_iff.mp h
  exact ⟨parts, pure_ok_iff.mp same, hparts⟩

theorem junctions_statements (h : (junctions g).outcome = .ok es) :
    ∀ e ∈ es, Statement g.JunctionSymbol e := by
  obtain ⟨parts, rfl, hparts⟩ := junctions_ok h
  intro e he
  obtain ⟨⟨name, junction⟩, kept, made, ok, mem⟩ := step_of_flatten hparts he
  obtain ⟨hnode, isJunction⟩ := List.mem_filter.mp kept
  have registered : junction ∈ g.nodes := List.mem_map_of_mem hnode
  obtain ⟨⟨_, note⟩, rules, same⟩ := bind_ok_iff.mp ok
  obtain rfl := pure_ok_iff.mp same
  obtain ⟨at', width, alpha, resolves, flows, -, -, rfl⟩ := junctionRules_ok rules
  have length : g.JunctionSymbol (g.schematic.named (.node .dropletLength junction)) :=
    .length registered isJunction (Schematic.nodeSymbol_ok_iff.mpr ⟨resolves, rfl⟩)
  have flow (b : Branch) :
      g.JunctionSymbol (g.schematic.named (.connection .flow (at'.channel b))) :=
    .flow registered isJunction ((branch_ok_iff registered).mp (at'.attached b))
      (Schematic.connectionSymbol_ok_iff.mpr ⟨flows b, rfl⟩)
  have inflow (b : Branch) : (at'.flow b).Over g.JunctionSymbol := over_inflowTerm (flow b)
  have term : (g.term (.node .dropletLength junction)).Over g.JunctionSymbol := over_symbol length
  simp only [List.mem_cons, List.not_mem_nil, or_false] at mem
  rcases mem with rfl | rfl | rfl | rfl | rfl | rfl | rfl | rfl
  · exact .declaration length
  · exact .declaration (flow .continuous)
  · exact .declaration (flow .dispersed)
  · exact .declaration (flow .output)
  · exact .assertion .greater (inflow .continuous) over_zero
  · exact .assertion .greater (inflow .dispersed) over_zero
  · exact .assertion .less (inflow .output) over_zero
  · exact .assertion .equal (by simp [term, inflow]) (by simp [inflow])

theorem declared_of_junctionSymbol {symbol : Symbol} (h : g.JunctionSymbol symbol) :
    g.Declared symbol := by
  cases h with
  | length node isJunction ok =>
      obtain ⟨resolves, rfl⟩ := Schematic.nodeSymbol_ok_iff.mp ok
      exact declared_named (.dropletLength isJunction) resolves
  | flow node isJunction attached ok =>
      obtain ⟨resolves, rfl⟩ := Schematic.connectionSymbol_ok_iff.mp ok
      exact declared_named (.branch node isJunction ((branch_ok_iff node).mpr attached)) resolves

theorem dropletVolumes_statements (h : dropletVolumes g = .ok es) :
    ∀ e ∈ es, Statement g.Declared e := by
  intro e he
  obtain ⟨⟨name, c⟩, -, made, ok, mem⟩ := step_of_joined h he
  obtain @⟨_, junction, _, _, width, height, volume, -, -, -, -, isJunction, -, -, -, -,
    resolves⟩ := dropletVolume_ok ok
  have length := over_term (.dropletLength isJunction) resolves
  simp only [List.mem_cons, List.not_mem_nil, or_false] at mem
  rcases mem with rfl | rfl
  · exact statement_declaration (.dropletLength isJunction) resolves
  · exact .assertion .equal (by simp [length]) (over_literal volume)

theorem droplet_statements {r : Rule} (hr : r ∈ dropletGroup.rules)
    (h : r.outcome g = .ok es) : ∀ e ∈ es, Statement g.Declared e := by
  simp only [dropletGroup, dropletRules, List.mem_cons, List.not_mem_nil, or_false] at hr
  rcases hr with rfl | rfl
  · exact fun e he => (junctions_statements h e he).mono fun _ => declared_of_junctionSymbol
  · exact dropletVolumes_statements h

end Rule

end FluidChip
