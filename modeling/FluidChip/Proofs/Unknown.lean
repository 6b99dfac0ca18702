import FluidChip.Namespace
import FluidChip.Proofs.Outcome
import Mathlib.Data.List.Nodup
import Mathlib.Data.List.Pairwise

/-!
# The unknowns of a program

An unknown is a quantity of an entity, or pi.  A schematic registers the unknowns
of the entities that it holds, and its namespace, where there is one, gives each
of them a symbol of its own.
-/

namespace FluidChip

open Outcome

inductive Unknown where
  | pi
  | node (quantity : Schematic.NodeQuantity) (id : NodeId)
  | port (id : PortId)
  | connection (quantity : Schematic.ConnectionQuantity) (id : ConnectionId)
  deriving DecidableEq, Repr

namespace Schematic

variable (s : Schematic)

def symbolOf : Unknown → Except Failure Symbol
  | .pi => .ok pi
  | .node quantity id => s.nodeSymbol quantity id
  | .port id => s.portSymbol id
  | .connection quantity id => s.connectionSymbol quantity id

/-- Whether an unknown belongs to an entity that the schematic holds. -/
def Registers : Unknown → Prop
  | .pi => True
  | .node _ id => id ∈ s.nodes.values
  | .port id => ∃ node ∈ s.nodes.values, id ∈ (s.node node).ports.values
  | .connection _ id => id ∈ s.connections.values

/-- The symbol of an unknown, that of pi where there is none. -/
def named (u : Unknown) : Symbol := (s.symbolOf u).toOption.getD pi

def Resolves (u : Unknown) : Prop := s.symbolOf u = .ok (s.named u)

variable {s}

theorem symbolOf_ok_iff {u : Unknown} {symbol : Symbol} :
    s.symbolOf u = .ok symbol ↔ s.Resolves u ∧ s.named u = symbol := by
  constructor
  · intro h
    have same : s.named u = symbol := by simp [named, h, Except.toOption]
    exact ⟨by rw [Resolves, same, h], same⟩
  · rintro ⟨resolves, rfl⟩
    exact resolves

theorem nodeSymbol_ok_iff {quantity : NodeQuantity} {id : NodeId} {symbol : Symbol} :
    s.nodeSymbol quantity id = .ok symbol ↔
      s.Resolves (.node quantity id) ∧ s.named (.node quantity id) = symbol :=
  symbolOf_ok_iff (u := .node quantity id)

theorem portSymbol_ok_iff {id : PortId} {symbol : Symbol} :
    s.portSymbol id = .ok symbol ↔
      s.Resolves (.port id) ∧ s.named (.port id) = symbol :=
  symbolOf_ok_iff (u := .port id)

theorem connectionSymbol_ok_iff {quantity : ConnectionQuantity} {id : ConnectionId}
    {symbol : Symbol} :
    s.connectionSymbol quantity id = .ok symbol ↔
      s.Resolves (.connection quantity id) ∧ s.named (.connection quantity id) = symbol :=
  symbolOf_ok_iff (u := .connection quantity id)

/-! ## Only registered unknowns resolve -/

theorem mem_entries_of_nameOf? {α : Type} [DecidableEq α] {c : Catalog α} {id : α}
    {name : String} (h : nameOf? c id = some name) : (name, id) ∈ c.entries := by
  obtain ⟨⟨other, same⟩, found, rfl⟩ := Option.map_eq_some_iff.mp h
  obtain rfl : same = id := by simpa using List.find?_some found
  exact List.mem_of_find?_eq_some found

theorem mem_values_of_nameOf? {α : Type} [DecidableEq α] {c : Catalog α} {id : α}
    {name : String} (h : nameOf? c id = some name) : id ∈ c.values :=
  List.mem_map_of_mem (mem_entries_of_nameOf? h)

theorem exists_nameOf? {α : Type} [DecidableEq α] {c : Catalog α} {id : α}
    (h : id ∈ c.values) : ∃ name, nameOf? c id = some name := by
  obtain ⟨entry, mem, rfl⟩ := List.mem_map.mp h
  cases found : nameOf? c entry.2 with
  | some name => exact ⟨name, rfl⟩
  | none =>
      rw [nameOf?, Option.map_eq_none_iff, List.find?_eq_none] at found
      exact absurd (decide_eq_true rfl) (found entry mem)

theorem nameOf?_eq_some_iff {α : Type} [DecidableEq α] {c : Catalog α}
    (distinct : c.values.Nodup) {id : α} {name : String} :
    nameOf? c id = some name ↔ (name, id) ∈ c.entries := by
  refine ⟨mem_entries_of_nameOf?, fun mem => ?_⟩
  obtain ⟨other, found⟩ := exists_nameOf? (List.mem_map_of_mem mem : id ∈ c.values)
  have same := List.inj_on_of_nodup_map distinct (mem_entries_of_nameOf? found) mem rfl
  rw [found, (Prod.mk.inj same).1]

theorem nodeName_ok_iff {id : NodeId} {name : String} :
    s.nodeName id = .ok name ↔ nameOf? s.nodes id = some name := by
  unfold nodeName
  split <;> simp_all

theorem getNode_ok_iff {id : NodeId} {name : String} :
    s.getNode name = .ok id ↔ (name, id) ∈ s.nodes.entries := by
  rw [← Catalog.find?_eq_some_iff, getNode]
  split <;> simp_all

theorem getPort_ok_iff {node label : String} {port : PortId} :
    s.getPort node label = .ok port ↔
      ∃ id, (node, id) ∈ s.nodes.entries ∧ (s.node id).ports.find? label = some port := by
  simp only [getPort, bind_ok_iff, getNode_ok_iff]
  refine exists_congr fun id => and_congr_right fun _ => ?_
  split <;> simp_all

theorem mem_nodes_of_nodeName {id : NodeId} {name : String}
    (h : s.nodeName id = .ok name) : id ∈ s.nodes.values :=
  mem_values_of_nameOf? (nodeName_ok_iff.mp h)

theorem connectionName_ok_iff {id : ConnectionId} {name : String} :
    s.connectionName id = .ok name ↔ nameOf? s.connections id = some name := by
  unfold connectionName
  split <;> simp_all

theorem mem_connections_of_connectionName {id : ConnectionId} {name : String}
    (h : s.connectionName id = .ok name) : id ∈ s.connections.values :=
  mem_values_of_nameOf? (connectionName_ok_iff.mp h)

theorem portName_ok_iff {id : PortId} {name : String} :
    s.portName id = .ok name ↔ nameOf? (s.node (s.owner id)).ports id = some name := by
  unfold portName
  split
  · simp_all
  · simp_all [bind_ok_iff]

theorem mem_ports_of_portName {id : PortId} {name : String}
    (h : s.portName id = .ok name) : id ∈ (s.node (s.owner id)).ports.values :=
  mem_values_of_nameOf? (portName_ok_iff.mp h)

theorem owner_of_portSymbol {id : PortId} {symbol : Symbol}
    (h : s.portSymbol id = .ok symbol) :
    s.owner id ∈ s.nodes.values ∧ id ∈ (s.node (s.owner id)).ports.values := by
  simp only [portSymbol, bind_ok_iff] at h
  obtain ⟨node, hnode, port, hport, -⟩ := h
  exact ⟨mem_nodes_of_nodeName hnode, mem_ports_of_portName hport⟩

theorem registers_of_symbolOf {u : Unknown} {symbol : Symbol}
    (h : s.symbolOf u = .ok symbol) : s.Registers u := by
  cases u with
  | pi => trivial
  | node quantity id =>
      simp only [symbolOf, nodeSymbol, bind_ok_iff] at h
      obtain ⟨name, hname, -⟩ := h
      exact mem_nodes_of_nodeName hname
  | port id => exact ⟨s.owner id, owner_of_portSymbol h⟩
  | connection quantity id =>
      simp only [symbolOf, connectionSymbol, bind_ok_iff] at h
      obtain ⟨name, hname, -⟩ := h
      exact mem_connections_of_connectionName hname

/-! ## Symbols of unknowns are variables -/

theorem name_of_symbolNamed {name : String} {symbol : Symbol}
    (h : symbolNamed name = .ok symbol) : symbol.name = name := by
  unfold symbolNamed Symbol.ofName? at h
  split at h
  · rename_i found
    obtain ⟨legal, same⟩ := Option.dite_none_right_eq_some.mp found
    cases same
    cases h
    rfl
  · cases h

/-- A name with an underscore in it and a small letter at its end, which no word
of a program is. -/
def IsVariable (name : String) : Prop :=
  '_' ∈ name.toList ∧ name.toList.getLast?.any Char.isLower = true

instance (name : String) : Decidable (IsVariable name) :=
  inferInstanceAs (Decidable (_ ∧ _))

theorem isVariable_append {base suffix : String} (h : IsVariable suffix) :
    IsVariable (base ++ suffix) := by
  obtain ⟨underscore, last⟩ := h
  rw [IsVariable, String.toList_append, List.getLast?_append]
  refine ⟨List.mem_append_right _ underscore, ?_⟩
  cases found : suffix.toList.getLast? with
  | none => simp [found] at last
  | some c => simpa [found] using last

theorem isVariable_of_symbolOf {u : Unknown} {symbol : Symbol}
    (h : s.symbolOf u = .ok symbol) : IsVariable symbol.name := by
  cases u with
  | pi =>
      cases h
      decide
  | node quantity id =>
      simp only [symbolOf, nodeSymbol, bind_ok_iff] at h
      obtain ⟨name, -, made⟩ := h
      rw [name_of_symbolNamed made]
      apply isVariable_append
      cases quantity <;> decide
  | port id =>
      simp only [symbolOf, portSymbol, bind_ok_iff] at h
      obtain ⟨node, -, port, -, made⟩ := h
      rw [name_of_symbolNamed made]
      exact isVariable_append (by decide)
  | connection quantity id =>
      simp only [symbolOf, connectionSymbol, bind_ok_iff] at h
      obtain ⟨name, -, made⟩ := h
      rw [name_of_symbolNamed made]
      apply isVariable_append
      cases quantity <;> decide

/-! ## The unknowns in the order of the claims -/

variable (s) in
def nodeUnknowns (id : NodeId) : List Unknown :=
  [.node .x id, .node .y id, .node .pressure id, .node .dropletLength id] ++
    (s.node id).ports.values.map .port

def connectionUnknowns (id : ConnectionId) : List Unknown :=
  [.connection .length id, .connection .flow id, .connection .resistance id]

variable (s) in
def unknowns : List Unknown :=
  .pi :: (s.nodes.values.flatMap s.nodeUnknowns ++
    s.connections.values.flatMap connectionUnknowns)

theorem mem_unknowns {u : Unknown} : u ∈ s.unknowns ↔ s.Registers u := by
  cases u with
  | pi => simp [unknowns, Registers]
  | node quantity id =>
      cases quantity <;>
        simp [unknowns, Registers, nodeUnknowns, connectionUnknowns]
  | port id => simp [unknowns, Registers, nodeUnknowns, connectionUnknowns]
  | connection quantity id =>
      cases quantity <;>
        simp [unknowns, Registers, nodeUnknowns, connectionUnknowns]

theorem map_symbol_claims :
    s.claims.map Claim.symbol = s.unknowns.map s.symbolOf := by
  simp only [claims, unknowns, nodeClaims, connectionClaims, nodeUnknowns,
    connectionUnknowns, Catalog.values, List.map_cons, List.map_append,
    List.map_flatMap, List.flatMap_map, List.map_map, List.cons_append, List.map_nil]
  rfl

/-! ## Granting -/

theorem grant_ok {schematic : String} {claims : List Claim}
    {granted final : Catalog String} (h : grant schematic claims granted = .ok final) :
    ∃ symbols : List Symbol, claims.map Claim.symbol = symbols.map .ok ∧
      final.names = granted.names ++ symbols.map Symbol.name := by
  induction claims generalizing granted with
  | nil =>
      cases h
      exact ⟨[], by simp⟩
  | cons claim rest ih =>
      rw [grant] at h
      split at h
      · cases h
      · rename_i symbol made
        split at h
        · cases h
        · rename_i free
          obtain ⟨symbols, same, names⟩ := ih h
          refine ⟨symbol :: symbols, by simp [made, same], ?_⟩
          rw [names, Catalog.names_set_of_notMem (Catalog.find?_eq_none_iff.mp free)]
          simp

theorem grant_of_nodup {schematic : String} {claims : List Claim} {granted : Catalog String}
    {symbols : List Symbol} (same : claims.map Claim.symbol = symbols.map .ok)
    (fresh : (granted.names ++ symbols.map Symbol.name).Nodup) :
    ∃ final, grant schematic claims granted = .ok final := by
  induction claims generalizing granted symbols with
  | nil => exact ⟨granted, rfl⟩
  | cons claim rest ih =>
      obtain ⟨symbol, others, rfl⟩ : ∃ symbol others, symbols = symbol :: others := by
        cases symbols with
        | nil => cases same
        | cons symbol others => exact ⟨symbol, others, rfl⟩
      obtain ⟨made, same⟩ := List.cons.inj same
      rw [List.map_cons, List.append_cons] at fresh
      have new : symbol.name ∉ granted.names := fun old =>
        List.disjoint_of_nodup_append fresh.of_append_left old List.mem_cons_self
      rw [← Catalog.names_set_of_notMem new] at fresh
      obtain ⟨final, granted'⟩ := ih same fresh
      refine ⟨final, ?_⟩
      rw [grant, made]
      simp only [Catalog.find?_eq_none_iff.mpr new]
      exact granted'

variable {names : Catalog String}

theorem resolves_and_names (h : s.namespace? = .ok names) :
    (∀ u ∈ s.unknowns, s.Resolves u) ∧
      names.names = s.unknowns.map fun u => (s.named u).name := by
  obtain ⟨symbols, same, keys⟩ := grant_ok h
  rw [map_symbol_claims] at same
  have resolves : ∀ u ∈ s.unknowns, s.Resolves u := by
    intro u hu
    have made := List.mem_map_of_mem (f := s.symbolOf) hu
    rw [same] at made
    obtain ⟨symbol, -, made⟩ := List.mem_map.mp made
    exact (symbolOf_ok_iff.mp made.symm).1
  have named : s.unknowns.map s.named = symbols := by
    have lifted : (s.unknowns.map s.named).map (.ok : Symbol → Except Failure Symbol) =
        symbols.map .ok := by
      rw [← same, List.map_map]
      exact List.map_congr_left fun u hu => (resolves u hu).symm
    exact List.map_injective_iff.mpr (fun _ _ e => Except.ok.inj e) lifted
  refine ⟨resolves, ?_⟩
  rw [keys, ← named, List.map_map]
  rfl

theorem exists_namespace (resolves : ∀ u ∈ s.unknowns, s.Resolves u)
    (distinct : (s.unknowns.map fun u => (s.named u).name).Nodup) :
    ∃ names, s.namespace? = .ok names := by
  have same : s.claims.map Claim.symbol = (s.unknowns.map s.named).map .ok := by
    rw [map_symbol_claims, List.map_map]
    exact List.map_congr_left resolves
  refine grant_of_nodup same ?_
  rw [List.map_map]
  exact distinct

theorem resolves_of_registers (h : s.namespace? = .ok names) {u : Unknown}
    (registered : s.Registers u) : s.Resolves u :=
  (resolves_and_names h).1 u (mem_unknowns.mpr registered)

theorem nodup_names_unknowns (h : s.namespace? = .ok names) :
    (s.unknowns.map fun u => (s.named u).name).Nodup := by
  rw [← (resolves_and_names h).2]
  exact names.nodup

theorem nodup_unknowns (h : s.namespace? = .ok names) : s.unknowns.Nodup :=
  (nodup_names_unknowns h).of_map

theorem named_injOn (h : s.namespace? = .ok names) {a b : Unknown}
    (ha : s.Registers a) (hb : s.Registers b)
    (same : (s.named a).name = (s.named b).name) : a = b :=
  List.inj_on_of_nodup_map (nodup_names_unknowns h) (mem_unknowns.mpr ha)
    (mem_unknowns.mpr hb) same

theorem contains_of_symbolOf (h : s.namespace? = .ok names) {u : Unknown}
    {symbol : Symbol} (made : s.symbolOf u = .ok symbol) :
    names.contains symbol.name = true := by
  have registered := registers_of_symbolOf made
  obtain ⟨-, rfl⟩ := symbolOf_ok_iff.mp made
  simp only [Catalog.contains, List.contains_iff_mem, (resolves_and_names h).2]
  exact List.mem_map.mpr ⟨u, mem_unknowns.mpr registered, rfl⟩

/-! ## Every entity has one place -/

theorem nodup_flatMaps (h : s.namespace? = .ok names) :
    (s.nodes.values.flatMap s.nodeUnknowns).Nodup ∧
      (s.connections.values.flatMap connectionUnknowns).Nodup := by
  have all := nodup_unknowns h
  rw [unknowns, List.nodup_cons] at all
  have parts := all.2
  rw [List.nodup_append] at parts
  exact ⟨parts.1, parts.2.1⟩

theorem nodup_nodes (h : s.namespace? = .ok names) : s.nodes.values.Nodup := by
  have apart := (List.nodup_flatMap.mp (nodup_flatMaps h).1).2
  refine apart.imp fun {a b} disjoint same => ?_
  subst same
  have first : Unknown.node .x a ∈ s.nodeUnknowns a := by simp [nodeUnknowns]
  exact disjoint first first

theorem nodup_connections (h : s.namespace? = .ok names) :
    s.connections.values.Nodup := by
  have apart := (List.nodup_flatMap.mp (nodup_flatMaps h).2).2
  refine apart.imp fun {a b} disjoint same => ?_
  subst same
  have first : Unknown.connection .length a ∈ connectionUnknowns a := by
    simp [connectionUnknowns]
  exact disjoint first first

theorem nodup_ports (h : s.namespace? = .ok names) {node : NodeId}
    (hnode : node ∈ s.nodes.values) : (s.node node).ports.values.Nodup := by
  have inner := (List.nodup_flatMap.mp (nodup_flatMaps h).1).1 node hnode
  rw [nodeUnknowns, List.nodup_append] at inner
  exact inner.2.1.of_map

theorem node_eq_of_mem_ports (h : s.namespace? = .ok names) {a b : NodeId}
    (ha : a ∈ s.nodes.values) (hb : b ∈ s.nodes.values) {port : PortId}
    (onA : port ∈ (s.node a).ports.values) (onB : port ∈ (s.node b).ports.values) :
    a = b := by
  by_contra ne
  have apart := (List.nodup_flatMap.mp (nodup_flatMaps h).1).2
  have symm : Std.Symm (Function.onFun List.Disjoint s.nodeUnknowns) :=
    ⟨fun _ _ disjoint _ right left => disjoint left right⟩
  have disjoint := apart.forall ha hb ne
  have mem {node : NodeId} (on : port ∈ (s.node node).ports.values) :
      Unknown.port port ∈ s.nodeUnknowns node := by
    simp [nodeUnknowns, on]
  exact disjoint (mem onA) (mem onB)

theorem owner_of_mem_ports (h : s.namespace? = .ok names) {node : NodeId}
    (hnode : node ∈ s.nodes.values) {port : PortId}
    (on : port ∈ (s.node node).ports.values) : s.owner port = node := by
  have resolves : s.Resolves (.port port) :=
    resolves_of_registers h ⟨node, hnode, on⟩
  obtain ⟨howner, onOwner⟩ := owner_of_portSymbol resolves
  exact node_eq_of_mem_ports h howner hnode onOwner on

end Schematic

end FluidChip
