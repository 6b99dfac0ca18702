import FluidChip.Proofs.Schematic.Symbols
import Mathlib.Data.List.Flatten

/-!
# Which names collide

A symbol is made of names and a suffix.  No suffix ends in another, so symbols that
agree have the same suffix, and what stands before it agrees too.  That leaves two
ways to collide: a node and a connection of one name, whose position and length are
called alike, and two pressures, of nodes or of ports, whose names are joined to one.
-/

namespace FluidChip

open Outcome Text

theorem Catalog.entry_unique {α : Type} {c : Catalog α} {name : String} {x y : α}
    (hx : (name, x) ∈ c.entries) (hy : (name, y) ∈ c.entries) : x = y := by
  rw [← find?_eq_some_iff] at hx hy
  exact Option.some.inj (hx.symm.trans hy)

/-! ## Suffixes -/

def Unknown.suffix : Unknown → String
  | .pi => "constant_pi"
  | .node quantity _ => quantity.suffix
  | .port _ => "_pressure"
  | .connection quantity _ => quantity.suffix

def Unknown.suffixes : List String :=
  ["constant_pi", "_pos_x", "_pos_y", "_pressure", "_droplet_length", "_flowrate", "_resistance"]

theorem Unknown.suffix_mem (u : Unknown) : u.suffix ∈ suffixes := by
  cases u with
  | pi => decide
  | node quantity id => cases quantity <;> simp [suffix, suffixes, Schematic.NodeQuantity.suffix]
  | port id => simp [suffix, suffixes]
  | connection quantity id =>
      cases quantity <;> simp [suffix, suffixes, Schematic.ConnectionQuantity.suffix]

theorem Unknown.eq_of_suffix : ∀ s ∈ suffixes, ∀ t ∈ suffixes, s.toList <:+ t.toList → s = t := by
  decide

/-- Texts that end in suffixes of unknowns agree only where both parts do. -/
theorem Unknown.append_suffix_inj {u u' : Unknown} {a b : String}
    (h : a ++ u.suffix = b ++ u'.suffix) : a = b ∧ u.suffix = u'.suffix := by
  have texts : a.toList ++ u.suffix.toList = b.toList ++ u'.suffix.toList := by
    simpa using congrArg String.toList h
  have first : u.suffix.toList <:+ a.toList ++ u.suffix.toList := List.suffix_append _ _
  have second : u'.suffix.toList <:+ a.toList ++ u.suffix.toList := texts ▸ List.suffix_append _ _
  have same : u.suffix = u'.suffix := by
    rcases List.suffix_or_suffix_of_suffix first second with shorter | longer
    · exact eq_of_suffix _ u.suffix_mem _ u'.suffix_mem shorter
    · exact (eq_of_suffix _ u'.suffix_mem _ u.suffix_mem longer).symm
  rw [same] at texts
  exact ⟨String.toList_inj.mp (List.append_cancel_right texts), same⟩

namespace Schematic

variable {s : Schematic} {a b : Unknown} {names names' : List String} {text text' : String}

/-! ## Collisions -/

/-- The name under which the pressure of a node or of a port goes. -/
inductive Joins (s : Schematic) : Unknown → String → Prop
  | node {name : String} {id : NodeId} : (name, id) ∈ s.nodes.entries →
      Joins s (.node .pressure id) name
  | port {name label : String} {id : NodeId} {port : PortId} : (name, id) ∈ s.nodes.entries →
      (label, port) ∈ (s.node id).ports.entries → Joins s (.port port) (name ++ "_" ++ label)

/-- Two unknowns that get one symbol between them. -/
inductive Collides (s : Schematic) : Unknown → Unknown → Prop
  | position {name : String} {id : NodeId} {c : ConnectionId} : (name, id) ∈ s.nodes.entries →
      (name, c) ∈ s.connections.entries → Collides s (.node .x id) (.connection .length c)
  | length {name : String} {id : NodeId} {c : ConnectionId} : (name, id) ∈ s.nodes.entries →
      (name, c) ∈ s.connections.entries → Collides s (.connection .length c) (.node .x id)
  | pressure {a b : Unknown} {joined : String} : a ≠ b → Joins s a joined → Joins s b joined →
      Collides s a b

def joinedNames (s : Schematic) : List String :=
  s.nodes.entries.flatMap fun (name, id) =>
    name :: (s.node id).ports.names.map fun label => name ++ "_" ++ label

/-- No name is one of a node and one of a connection, and the names of nodes with those of
their ports joined to them are all different. -/
def Unambiguous (s : Schematic) : Prop :=
  (∀ name ∈ s.nodes.names, name ∉ s.connections.names) ∧ s.joinedNames.Nodup

instance (s : Schematic) : Decidable s.Unambiguous :=
  inferInstanceAs (Decidable (_ ∧ _))

theorem Joins.builds {joined : String} (h : s.Joins a joined) :
    ∃ names, s.Builds a names (joined ++ "_pressure") := by
  cases h with
  | node listed => exact ⟨_, .node .pressure listed⟩
  | port listed labelled => exact ⟨_, .port listed labelled⟩

/-- What collides is built to the same text. -/
theorem Collides.builds (h : s.Collides a b) :
    a ≠ b ∧ ∃ text names names', s.Builds a names text ∧ s.Builds b names' text := by
  cases h with
  | position node connection =>
      exact ⟨Unknown.noConfusion, _, _, _, .node .x node, .connection .length connection⟩
  | length node connection =>
      exact ⟨Unknown.noConfusion, _, _, _, .connection .length connection, .node .x node⟩
  | pressure ne first second =>
      obtain ⟨names, first⟩ := first.builds
      obtain ⟨names', second⟩ := second.builds
      exact ⟨ne, _, names, names', first, second⟩

/-! ## What is built to one text -/

theorem NodeQuantity.suffix_inj {q q' : NodeQuantity} (h : q.suffix = q'.suffix) : q = q' := by
  revert h
  cases q <;> cases q' <;> decide

theorem ConnectionQuantity.suffix_inj {q q' : ConnectionQuantity} (h : q.suffix = q'.suffix) :
    q = q' := by
  revert h
  cases q <;> cases q' <;> decide

theorem suffix_eq_iff {q : NodeQuantity} {q' : ConnectionQuantity} :
    q.suffix = q'.suffix ↔ q = .x ∧ q' = .length := by
  cases q <;> cases q' <;> decide

theorem NodeQuantity.suffix_ne (q : NodeQuantity) : q.suffix ≠ "constant_pi" := by
  cases q <;> decide

theorem ConnectionQuantity.suffix_ne (q : ConnectionQuantity) :
    q.suffix ≠ "constant_pi" ∧ q.suffix ≠ "_pressure" := by
  cases q <;> decide

/-- What stands in the text of an unknown before its suffix. -/
inductive Stem (s : Schematic) : Unknown → String → Prop
  | pi : Stem s .pi ""
  | node {name : String} {id : NodeId} (quantity : NodeQuantity) : (name, id) ∈ s.nodes.entries →
      Stem s (.node quantity id) name
  | port {name label : String} {id : NodeId} {port : PortId} : (name, id) ∈ s.nodes.entries →
      (label, port) ∈ (s.node id).ports.entries → Stem s (.port port) (name ++ "_" ++ label)
  | connection {name : String} {id : ConnectionId} (quantity : ConnectionQuantity) :
      (name, id) ∈ s.connections.entries → Stem s (.connection quantity id) name

theorem Builds.stem (h : s.Builds a names text) :
    ∃ stem, s.Stem a stem ∧ text = stem ++ a.suffix := by
  cases h with
  | pi => exact ⟨_, .pi, rfl⟩
  | node quantity listed => exact ⟨_, .node quantity listed, rfl⟩
  | port listed labelled => exact ⟨_, .port listed labelled, rfl⟩
  | connection quantity listed => exact ⟨_, .connection quantity listed, rfl⟩

theorem Stem.joins {stem : String} (h : s.Stem a stem) (pressure : a.suffix = "_pressure") :
    s.Joins a stem := by
  cases h with
  | pi => exact absurd pressure (by decide)
  | node quantity listed =>
      obtain rfl : quantity = .pressure := NodeQuantity.suffix_inj pressure
      exact .node listed
  | port listed labelled => exact .port listed labelled
  | connection quantity => exact absurd pressure quantity.suffix_ne.2

/-- Where two unknowns have a stem and a suffix in common, they collide: in their pressures,
as a position and a length, or in no other way. -/
theorem Stem.collides {stem stem' : String} (first : s.Stem a stem) (second : s.Stem b stem')
    (same : stem = stem') (suffix : a.suffix = b.suffix) (ne : a ≠ b) : s.Collides a b := by
  by_cases pressure : a.suffix = "_pressure"
  · subst same
    exact .pressure ne (first.joins pressure) (second.joins (suffix ▸ pressure))
  · cases first with
    | pi =>
        cases second with
        | pi => exact absurd rfl ne
        | node quantity => exact absurd suffix.symm quantity.suffix_ne
        | port =>
            have words : "constant_pi" = "_pressure" := suffix
            exact absurd words (by decide)
        | connection quantity => exact absurd suffix.symm quantity.suffix_ne.1
    | node quantity listed =>
        subst same
        cases second with
        | pi => exact absurd suffix quantity.suffix_ne
        | node quantity' listed' =>
            obtain rfl := NodeQuantity.suffix_inj suffix
            exact absurd (congrArg _ (Catalog.entry_unique listed listed')) ne
        | port => exact absurd suffix pressure
        | connection quantity' listed' =>
            obtain ⟨rfl, rfl⟩ := suffix_eq_iff.mp suffix
            exact .position listed listed'
    | port => exact absurd rfl pressure
    | connection quantity listed =>
        subst same
        cases second with
        | pi => exact absurd suffix quantity.suffix_ne.1
        | node quantity' listed' =>
            obtain ⟨rfl, rfl⟩ := suffix_eq_iff.mp suffix.symm
            exact .length listed' listed
        | port => exact absurd suffix pressure
        | connection quantity' listed' =>
            obtain rfl := ConnectionQuantity.suffix_inj suffix
            exact absurd (congrArg _ (Catalog.entry_unique listed listed')) ne

/-- Only what collides is built to the same text. -/
theorem Builds.collides (ha : s.Builds a names text) (hb : s.Builds b names' text) (ne : a ≠ b) :
    s.Collides a b := by
  obtain ⟨stem, first, rfl⟩ := ha.stem
  obtain ⟨stem', second, same⟩ := hb.stem
  obtain ⟨stems, suffix⟩ := Unknown.append_suffix_inj same
  exact first.collides second stems suffix ne

/-! ## Orderly schematics -/

/-- The node or the connection that an unknown is a quantity of. -/
def holder (s : Schematic) : Unknown → Option (NodeId ⊕ ConnectionId)
  | .pi => none
  | .node _ id => some (.inl id)
  | .port port => some (.inl (s.owner port))
  | .connection _ id => some (.inr id)

theorem Orderly.holder_node (o : s.Orderly) {id : NodeId} (hid : id ∈ s.nodes.values)
    (h : a ∈ s.nodeUnknowns id) : s.holder a = some (.inl id) := by
  rcases List.mem_append.mp h with quantity | registered
  · simp only [List.mem_cons, List.not_mem_nil, or_false] at quantity
    rcases quantity with rfl | rfl | rfl | rfl <;> rfl
  · obtain ⟨port, mem, rfl⟩ := List.mem_map.mp registered
    rw [holder, o.portsOwned id hid _ mem]

theorem holder_connection {id : ConnectionId} (h : a ∈ connectionUnknowns id) :
    s.holder a = some (.inr id) := by
  simp only [connectionUnknowns, List.mem_cons, List.not_mem_nil, or_false] at h
  rcases h with rfl | rfl | rfl <;> rfl

theorem Orderly.nodup_unknowns (o : s.Orderly) : s.unknowns.Nodup := by
  have nodes : (s.nodes.values.flatMap s.nodeUnknowns).Nodup := by
    refine List.nodup_flatMap.mpr ⟨fun id hid => ?_, ?_⟩
    · have ports : ((s.node id).ports.values.map Unknown.port).Nodup :=
        (o.portsOnce id hid).map fun _ _ same => Unknown.port.inj same
      simp [nodeUnknowns, ports]
    · refine o.nodesOnce.pairwise_of_forall_ne fun id hid id' hid' ne u hu hu' => ne ?_
      have same := (o.holder_node hid hu).symm.trans (o.holder_node hid' hu')
      exact Sum.inl.inj (Option.some.inj same)
  have connections : (s.connections.values.flatMap connectionUnknowns).Nodup := by
    refine List.nodup_flatMap.mpr ⟨fun c _ => by simp [connectionUnknowns], ?_⟩
    refine o.connectionsOnce.imp fun {c c'} ne u hu hu' => ne ?_
    have same := (holder_connection (s := s) hu).symm.trans (holder_connection hu')
    exact Sum.inr.inj (Option.some.inj same)
  rw [unknowns, List.nodup_cons, List.nodup_append]
  refine ⟨by simp [nodeUnknowns, connectionUnknowns], nodes, connections, ?_⟩
  rintro u hu _ hu' rfl
  obtain ⟨id, hid, hu⟩ := List.mem_flatMap.mp hu
  obtain ⟨c, -, hu'⟩ := List.mem_flatMap.mp hu'
  cases (o.holder_node hid hu).symm.trans (holder_connection hu')

/-- The pressures of nodes and ports, with the names under which they go. -/
def pressures (s : Schematic) : List (Unknown × String) :=
  s.nodes.entries.flatMap fun (name, id) =>
    (.node .pressure id, name) ::
      (s.node id).ports.entries.map fun (label, port) => (.port port, name ++ "_" ++ label)

theorem mem_pressures {joined : String} : (a, joined) ∈ s.pressures ↔ s.Joins a joined := by
  simp only [pressures, List.mem_flatMap, List.mem_cons, List.mem_map, Prod.exists]
  constructor
  · rintro ⟨name, id, listed, here | ⟨label, port, labelled, there⟩⟩
    · obtain ⟨rfl, rfl⟩ := Prod.mk.inj here
      exact .node listed
    · obtain ⟨rfl, rfl⟩ := Prod.mk.inj there
      exact .port listed labelled
  · rintro (listed | ⟨listed, labelled⟩)
    · exact ⟨_, _, listed, .inl rfl⟩
    · exact ⟨_, _, listed, .inr ⟨_, _, labelled, rfl⟩⟩

theorem map_snd_pressures : s.pressures.map Prod.snd = s.joinedNames := by
  simp [pressures, joinedNames, List.map_flatMap, Catalog.names, Function.comp_def]

theorem Orderly.nodup_pressures (o : s.Orderly) : (s.pressures.map Prod.fst).Nodup := by
  have pressures : s.pressures.map Prod.fst = s.nodes.values.flatMap fun id =>
      .node .pressure id :: (s.node id).ports.values.map .port := by
    simp [pressures, Catalog.values, List.map_flatMap, List.flatMap_map, Function.comp_def]
  have among : (s.nodes.values.flatMap fun id =>
      Unknown.node .pressure id :: (s.node id).ports.values.map .port).Sublist s.unknowns := by
    refine .cons _ ((List.Sublist.flatMap_right _ fun id _ => ?_).trans
      (List.sublist_append_left _ _))
    exact .cons _ (.cons _ (.cons_cons _ (.cons _ (.refl _))))
  rw [pressures]
  exact o.nodup_unknowns.sublist among

theorem Orderly.unambiguous_iff (o : s.Orderly) : s.Unambiguous ↔ ∀ a b, ¬ s.Collides a b := by
  have joined : s.joinedNames.Nodup ↔ ∀ x ∈ s.pressures, ∀ y ∈ s.pressures, x.2 = y.2 → x = y := by
    rw [← map_snd_pressures, List.nodup_map_iff_inj_on o.nodup_pressures.of_map]
  rw [Unambiguous, joined]
  constructor
  · rintro ⟨apart, once⟩ a b collides
    cases collides with
    | position node connection =>
        exact apart _ (List.mem_map_of_mem node) (List.mem_map_of_mem connection)
    | length node connection =>
        exact apart _ (List.mem_map_of_mem node) (List.mem_map_of_mem connection)
    | pressure ne first second =>
        have same := once _ (mem_pressures.mpr first) _ (mem_pressures.mpr second) rfl
        exact ne (congrArg Prod.fst same)
  · intro none
    constructor
    · intro name node connection
      obtain ⟨⟨_, id⟩, listed, rfl⟩ := List.mem_map.mp node
      obtain ⟨⟨_, c⟩, listed', rfl⟩ := List.mem_map.mp connection
      exact none _ _ (.position listed listed')
    · rintro ⟨a, joined⟩ first ⟨b, _⟩ second ⟨⟩
      by_contra ne
      have apart : a ≠ b := fun same => ne (congrArg (·, joined) same)
      exact none a b (.pressure apart (mem_pressures.mp first) (mem_pressures.mp second))

/-! ## Plain names -/

section Plain

variable (o : s.Orderly) (plain : s.Labelled IsPlain)

include o plain in
theorem Builds.symbol (h : s.Builds a names text) :
    ∃ symbol, s.symbolOf a = .ok symbol ∧ symbol.name = text := by
  have word : Text.isWord text.toList = true := h.isWord (h.labelled plain)
  rw [h.symbolOf o]
  exact symbolNamed_of_simple (isSimpleSymbol_of_isWord word h.isVariable) h.isVariable

include o in
theorem Collides.symbolOf (h : s.Collides a b) : s.symbolOf a = s.symbolOf b := by
  obtain ⟨-, text, _, _, first, second⟩ := h.builds
  rw [first.symbolOf o, second.symbolOf o]

include o plain

theorem collides_of_symbolOf (ha : s.Registers a) (hb : s.Registers b) (ne : a ≠ b)
    (same : s.symbolOf a = s.symbolOf b) : s.Collides a b := by
  obtain ⟨_, text, built⟩ := builds_of_registers ha
  obtain ⟨_, text', built'⟩ := builds_of_registers hb
  obtain ⟨symbol, made, rfl⟩ := built.symbol o plain
  obtain ⟨symbol', made', rfl⟩ := built'.symbol o plain
  obtain rfl : symbol = symbol' := Except.ok.inj (made.symm.trans (same.trans made'))
  exact built.collides built' ne

theorem exists_namespace_iff : (∃ owners, s.namespace? = .ok owners) ↔ ∀ a b, ¬ s.Collides a b := by
  constructor
  · rintro ⟨owners, h⟩ a b collides
    obtain ⟨ne, text, _, _, first, second⟩ := collides.builds
    refine ne (named_injOn h first.registers second.registers ?_)
    rw [named, named, collides.symbolOf o]
  · intro none
    have resolves : ∀ u ∈ s.unknowns, s.Resolves u := by
      intro u hu
      obtain ⟨_, text, built⟩ := builds_of_registers (mem_unknowns.mp hu)
      obtain ⟨symbol, made, -⟩ := built.symbol o plain
      exact (symbolOf_ok_iff.mp made).1
    refine exists_namespace resolves ?_
    rw [List.nodup_map_iff_inj_on o.nodup_unknowns]
    intro a ha b hb same
    by_contra ne
    have first : s.symbolOf a = .ok (s.named a) := resolves a ha
    have second : s.symbolOf b = .ok (s.named b) := resolves b hb
    have symbols : s.named a = s.named b := by
      cases h : s.named a
      cases h' : s.named b
      simp_all
    rw [← symbols, ← first] at second
    exact none a b
      (collides_of_symbolOf o plain (mem_unknowns.mp ha) (mem_unknowns.mp hb) ne second.symm)

/-- A schematic of plain names has a namespace just when they are unambiguous; else two of
its symbols collide.  Which symbols do is told by what collides. -/
theorem namespace_unambiguous :
    ((∃ owners, s.namespace? = .ok owners) ↔ s.Unambiguous) ∧
    (¬ s.Unambiguous → ∃ symbol first second,
      s.namespace? = .error (.naming (.collision s.name symbol first second))) ∧
    (∀ a b, s.Registers a → s.Registers b → a ≠ b →
      (s.symbolOf a = s.symbolOf b ↔ s.Collides a b)) := by
  have exact : (∃ owners, s.namespace? = .ok owners) ↔ s.Unambiguous :=
    (exists_namespace_iff o plain).trans o.unambiguous_iff.symm
  refine ⟨exact, fun ambiguous => ?_, fun a b ha hb ne => ?_⟩
  · cases answer : s.namespace? with
    | ok owners => exact absurd (exact.mp ⟨owners, answer⟩) ambiguous
    | error failure =>
        rcases namespace_error answer with ⟨u, registered, none⟩ | collision
        · obtain ⟨_, text, built⟩ := builds_of_registers registered
          obtain ⟨symbol, made, -⟩ := built.symbol o plain
          cases made.symm.trans none
        · obtain ⟨symbol, first, second, rfl⟩ := collision
          exact ⟨symbol, first, second, rfl⟩
  · exact ⟨collides_of_symbolOf o plain ha hb ne, Collides.symbolOf o⟩

end Plain

/-- Two nodes with a port each. -/
def joints (second : String) : Except Failure Schematic := do
  let s ← (empty "joints").addNode "a" "channelCrossing" ["b"]
  s.addNode second "channelCrossing" ["pressure"]

theorem joints_plain {second : String} (word : Text.isWord second.toList = true)
    (h : joints second = .ok s) : s.Orderly ∧ s.Labelled IsPlain := by
  obtain ⟨first, h₁, h₂⟩ := bind_ok_iff.mp h
  have a : IsPlain "a" := isPlain_of_isWord (by decide)
  have b : IsPlain "b" := isPlain_of_isWord (by decide)
  have pressure : IsPlain "pressure" := isPlain_of_isWord (by decide)
  have formed : s.WellFormed := ((wellFormed_empty _).addNode h₁).addNode h₂
  have spelled : s.Spelled IsPlain :=
    ((spelled_empty _).addNode a (by simpa using b) h₁).addNode (isPlain_of_isWord word)
      (by simpa using pressure) h₂
  exact ⟨formed.orderly, spelled.labelled⟩

/-- The name of one node may be that of the other with its port, which collides, or end in
a suffix, which does not. -/
theorem joints_collide :
    (∃ s, joints "a_b" = .ok s ∧ s.Orderly ∧ s.Labelled IsPlain ∧ ∃ symbol first second,
      s.namespace? = .error (.naming (.collision s.name symbol first second))) ∧
    ∃ s, joints "a_pos_x" = .ok s ∧ s.Orderly ∧ s.Labelled IsPlain ∧
      ∃ owners, s.namespace? = .ok owners := by
  constructor
  · have checked : ((joints "a_b").toOption.filter fun s => !decide s.Unambiguous).isSome =
        true := by
      decide
    obtain ⟨s, checked⟩ := Option.isSome_iff_exists.mp checked
    obtain ⟨built, ambiguous⟩ := Option.filter_eq_some_iff.mp checked
    rw [toOption_eq_some_iff] at built
    obtain ⟨orderly, plain⟩ := joints_plain (by decide) built
    exact ⟨s, built, orderly, plain,
      (namespace_unambiguous orderly plain).2.1 (by simpa using ambiguous)⟩
  · have checked : ((joints "a_pos_x").toOption.filter fun s => decide s.Unambiguous).isSome =
        true := by
      decide
    obtain ⟨s, checked⟩ := Option.isSome_iff_exists.mp checked
    obtain ⟨built, unambiguous⟩ := Option.filter_eq_some_iff.mp checked
    rw [toOption_eq_some_iff] at built
    obtain ⟨orderly, plain⟩ := joints_plain (by decide) built
    exact ⟨s, built, orderly, plain,
      (namespace_unambiguous orderly plain).1.mpr (by simpa using unambiguous)⟩

end Schematic

end FluidChip
