import FluidChip.Proofs.Declaration

/-!
# Sound namespaces

A schematic that has a namespace tells its unknowns apart by their symbols, and
every port of it is registered once, on the node that it belongs to.  The program
of such a schematic uses no variable outside of the namespace.
-/

namespace FluidChip

open Outcome Formula Sexp

def Program.words : List String :=
  ["set-logic", "QF_NRA", "declare-fun", "Real", "check-sat", "exit"] ++ Formula.words

namespace Schematic

variable {s : Schematic} {names : Catalog String}

/-- The ports of all nodes, as often as they are registered. -/
def registeredPorts (s : Schematic) : List PortId :=
  s.nodes.values.flatMap fun id => (s.node id).ports.values

theorem nodup_registeredPorts (h : s.namespace? = .ok names) : s.registeredPorts.Nodup := by
  refine List.nodup_flatMap.mpr ⟨fun node hnode => nodup_ports h hnode, ?_⟩
  refine (nodup_nodes h).pairwise_of_forall_ne fun a ha b hb ne port onA onB => ?_
  exact ne (node_eq_of_mem_ports h ha hb onA onB)

theorem contains_word (h : s.namespace? = .ok names) {word : String}
    (hword : word ∈ Program.words) : names.contains word = false := by
  rw [Bool.eq_false_iff]
  intro taken
  simp only [Catalog.contains, List.contains_iff_mem, (resolves_and_names h).2] at taken
  obtain ⟨u, hu, rfl⟩ := List.mem_map.mp taken
  have plain : ∀ w ∈ Program.words, ¬ IsVariable w := by decide
  exact plain _ hword (isVariable_of_symbolOf ((resolves_and_names h).1 u hu))

namespace Compiled

variable {host : Host} {p : Parameters} {program : List Sexp}
  (c : Compiled host s p program)

theorem contains_of_declared {symbol : Symbol} (h : c.setting.Declared symbol) :
    c.names.contains symbol.name = true := by
  obtain ⟨u, -, resolves, rfl⟩ := h
  exact contains_of_symbolOf c.distinct resolves

theorem symbols_of_mem {e : Sexp} (he : e ∈ program) {symbol : Symbol}
    (hsymbol : symbol ∈ e.symbols) :
    symbol.name ∈ Program.words ∨ c.setting.Declared symbol := by
  obtain ⟨declared, -, mem, forms⟩ := c.arranged
  rw [forms] at he
  simp only [List.mem_cons, List.mem_append, List.mem_map, List.not_mem_nil, or_false] at he
  rcases he with rfl | (⟨x, hx, rfl⟩ | he) | rfl | rfl
  · simp only [setLogic, keyword, symbols, symbolsOfAll, List.mem_append, List.mem_cons,
      List.not_mem_nil, or_false] at hsymbol
    rcases hsymbol with rfl | rfl <;> exact .inl (by simp [Program.words])
  · simp only [declare, keyword, symbols, symbolsOfAll, List.mem_append, List.mem_cons,
      List.not_mem_nil, or_false, false_or] at hsymbol
    rcases hsymbol with rfl | rfl | rfl
    · exact .inl (by simp [Program.words])
    · exact .inr ((mem symbol).mp hx)
    · exact .inl (by simp [Program.words])
  · obtain ⟨-, -, -, -, closed⟩ := c.assertion_over he
    exact (closed symbol hsymbol).imp_left fun word => List.mem_append_right _ word
  · simp only [checkSat, keyword, symbols, symbolsOfAll, List.append_nil,
      List.mem_singleton] at hsymbol
    exact .inl (by simp [hsymbol, Program.words])
  · simp only [exit, keyword, symbols, symbolsOfAll, List.append_nil,
      List.mem_singleton] at hsymbol
    exact .inl (by simp [hsymbol, Program.words])

theorem declared_of_mem {symbol : Symbol} (h : declare symbol ∈ program) :
    c.setting.Declared symbol := by
  have other {e : Sexp} (h : e.isForm declareWord = false) : declare symbol ≠ e := by
    rintro rfl
    simp at h
  obtain ⟨declared, -, mem, forms⟩ := c.arranged
  rw [forms] at h
  simp only [List.mem_cons, List.mem_append, List.mem_map, List.not_mem_nil, or_false,
    declare_inj, exists_eq_right] at h
  rcases h with h | (h | h) | h | h
  · exact absurd h (other rfl)
  · exact (mem symbol).mp h
  · obtain ⟨r, left, right, same, -⟩ := c.assertion_over h
    exact absurd same declare_ne_assert
  · exact absurd h (other rfl)
  · exact absurd h (other rfl)

theorem declare_mem_program_iff {symbol : Symbol} :
    declare symbol ∈ program ↔ declare symbol ∈ piForms ++ c.contributions := by
  refine ⟨fun h => c.declared_mem (c.declared_of_mem h), fun h => ?_⟩
  obtain ⟨declared, -, mem, forms⟩ := c.arranged
  rw [forms]
  simp [(mem symbol).mpr (c.declare_mem_iff.mp h)]

end Compiled

/-- What a namespace promises: unknowns have symbols of their own, which are no
words of programs, ports have one place each, and programs keep to the symbols of
the namespace. -/
structure SoundNamespace (s : Schematic) (names : Catalog String) : Prop where
  apart : ∀ a b, s.Registers a → s.Registers b → a ≠ b →
    ∃ x y, s.symbolOf a = .ok x ∧ s.symbolOf b = .ok y ∧ x.name ≠ y.name
  words : ∀ word ∈ Program.words, names.contains word = false
  once : ∀ node ∈ s.nodes.values, ∀ port ∈ (s.node node).ports.values,
    s.registeredPorts.count port = 1 ∧ s.owner port = node
  declared : ∀ host p program, (s.compile host p).outcome = .ok program → ∀ symbol,
    declare symbol ∈ program → names.contains symbol.name = true
  used : ∀ host p program, (s.compile host p).outcome = .ok program → ∀ e ∈ program,
    ∀ symbol ∈ e.symbols, symbol.name ∈ Program.words ∨ names.contains symbol.name = true

theorem namespace_sound (h : s.namespace? = .ok names) : s.SoundNamespace names where
  apart := by
    intro a b ha hb ne
    refine ⟨_, _, resolves_of_registers h ha, resolves_of_registers h hb, fun same => ?_⟩
    exact ne (named_injOn h ha hb same)
  words := fun _ hword => contains_word h hword
  once := by
    intro node hnode port hport
    have registered : port ∈ s.registeredPorts := List.mem_flatMap.mpr ⟨node, hnode, hport⟩
    exact ⟨List.count_eq_one_of_mem (nodup_registeredPorts h) registered,
      owner_of_mem_ports h hnode hport⟩
  declared := by
    intro host p program compiled symbol mem
    obtain ⟨c⟩ := compiled_of_compile compiled
    obtain rfl : c.names = names := Except.ok.inj (c.distinct.symm.trans h)
    exact c.contains_of_declared (c.declared_of_mem mem)
  used := by
    intro host p program compiled e he symbol hsymbol
    obtain ⟨c⟩ := compiled_of_compile compiled
    obtain rfl : c.names = names := Except.ok.inj (c.distinct.symm.trans h)
    exact (c.symbols_of_mem he hsymbol).imp_right c.contains_of_declared

theorem bend_namespace : ∃ s names, bend = .ok s ∧ s.namespace? = .ok names ∧
    s.SoundNamespace names := by
  obtain ⟨s, p, program, built, -, h⟩ := bend_compiles
  obtain ⟨c⟩ := compiled_of_compile h
  exact ⟨s, c.names, built, c.distinct, namespace_sound c.distinct⟩

end Schematic

end FluidChip
