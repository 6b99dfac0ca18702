import FluidChip.Hierarchy
import FluidChip.Proofs.Outcome
import Mathlib.Data.List.Chain
import Mathlib.Data.List.Perm.Subperm
import Mathlib.Logic.Relation

/-!
# Hierarchies and their subtype graphs

A hierarchy has a subtype graph just when every supertype is declared and no
chain of links returns to its start.  On the graph, the subtype test is the
reflexive and transitive closure of the links: a partial order in which the
supertypes of one type form a chain.
-/

namespace FluidChip

open Relation

/-! ## Chains of supertypes -/

namespace SubtypeGraph

variable {g : SubtypeGraph} {a b x : String}

def Link (g : SubtypeGraph) (a b : String) : Prop := g.supertype? a = some b

theorem link_rightUnique : Relator.RightUnique g.Link := by
  intro a b c hb hc
  exact Option.some.inj (hb.symm.trans hc)

@[simp] theorem chain_zero (a : String) : g.chain 0 a = [] := rfl

@[simp] theorem head?_chain_succ (fuel : Nat) (a : String) :
    (g.chain (fuel + 1) a).head? = some a := rfl

theorem chain_of_link (h : g.Link a b) (fuel : Nat) :
    g.chain (fuel + 1) a = a :: g.chain fuel b := by
  rw [chain, show g.supertype? a = some b from h]

theorem chain_of_top (h : g.supertype? a = none) (fuel : Nat) :
    g.chain (fuel + 1) a = [a] := by
  rw [chain, h]

theorem head?_chain {fuel : Nat} (h : x ∈ (g.chain fuel a).head?) : x = a := by
  cases fuel with
  | zero => simp at h
  | succ fuel => simpa [eq_comm] using h

theorem isChain_chain (fuel : Nat) (a : String) : (g.chain fuel a).IsChain g.Link := by
  induction fuel generalizing a with
  | zero => simp
  | succ fuel ih =>
      cases top : g.supertype? a with
      | none => simp [chain_of_top top]
      | some b =>
          rw [chain_of_link top, List.isChain_cons]
          exact ⟨fun x hx => head?_chain hx ▸ top, ih b⟩

theorem reaches_of_mem_chain {fuel : Nat} (h : x ∈ g.chain fuel a) :
    ReflTransGen g.Link a x := by
  induction fuel generalizing a with
  | zero => simp at h
  | succ fuel ih =>
      cases top : g.supertype? a with
      | none =>
          obtain rfl : x = a := by simpa [chain_of_top top] using h
          exact .refl
      | some b =>
          rw [chain_of_link top] at h
          rcases List.mem_cons.mp h with rfl | h
          · exact .refl
          · exact .head top (ih h)

theorem mem_chain_of_reaches (h : ReflTransGen g.Link a x) : ∃ fuel, x ∈ g.chain fuel a := by
  induction h using ReflTransGen.head_induction_on with
  | refl => exact ⟨1, List.mem_of_mem_head? (head?_chain_succ 0 x)⟩
  | head link _ ih =>
      obtain ⟨fuel, mem⟩ := ih
      exact ⟨fuel + 1, by rw [chain_of_link link]; exact List.mem_cons_of_mem _ mem⟩

/-- More fuel only makes a chain longer. -/
theorem take_chain (fuel more : Nat) (a : String) :
    (g.chain (fuel + more) a).take fuel = g.chain fuel a := by
  induction fuel generalizing a with
  | zero => simp
  | succ fuel ih =>
      rw [Nat.add_right_comm]
      cases top : g.supertype? a with
      | none => simp [chain_of_top top]
      | some b => rw [chain_of_link top, chain_of_link top, List.take_succ_cons, ih]

theorem length_chain_of_loop (loop : TransGen g.Link a a) (fuel : Nat) :
    (g.chain fuel a).length = fuel := by
  induction fuel generalizing a with
  | zero => simp
  | succ fuel ih =>
      obtain ⟨b, link, back⟩ := TransGen.head'_iff.mp loop
      rw [chain_of_link link, List.length_cons, ih (.tail' back link)]

/-! ## Loops -/

theorem firstLoop?_eq_none_iff {names : List String} : firstLoop? names = none ↔ names.Nodup := by
  induction names with
  | nil => simp [firstLoop?]
  | cons name rest ih =>
      by_cases again : name ∈ rest <;> simp [firstLoop?, again, ih]

theorem firstLoop?_within {names loop : List String} (h : firstLoop? names = some loop) :
    loop ≠ [] ∧ loop ++ loop.take 1 <:+: names := by
  induction names with
  | nil => simp [firstLoop?] at h
  | cons name rest ih =>
      by_cases again : name ∈ rest
      · obtain ⟨before, after, rfl, new⟩ := List.eq_append_cons_of_mem again
        have kept : ∀ x ∈ before, decide (x ≠ name) = true := by
          intro x hx
          simpa using fun same : x = name => new (same ▸ hx)
        have cut : (before ++ name :: after).takeWhile (· ≠ name) = before := by
          rw [List.takeWhile_append_of_pos kept]
          simp
        rw [firstLoop?, if_pos (by simp), cut] at h
        obtain rfl := Option.some.inj h
        exact ⟨by simp, [], after, by simp⟩
      · rw [firstLoop?, if_neg (by simpa using again)] at h
        exact (ih h).imp_right fun inner => inner.trans (List.suffix_cons _ _).isInfix

/-! ## Graphs without loops -/

theorem nodup_chain (acyclic : ∀ a, ¬ TransGen g.Link a a) (fuel : Nat) (a : String) :
    (g.chain fuel a).Nodup := by
  have linked : (g.chain fuel a).IsChain (TransGen g.Link) :=
    (isChain_chain fuel a).imp fun _ _ => .single
  refine linked.pairwise.imp fun {x y} later same => ?_
  subst same
  exact acyclic x later

theorem chain_subset (closed : ∀ a b, g.Link a b → b ∈ g.nodes) (h : a ∈ g.nodes) (fuel : Nat) :
    g.chain fuel a ⊆ g.nodes := by
  intro x hx
  rcases ReflTransGen.cases_tail (reaches_of_mem_chain hx) with rfl | ⟨y, -, link⟩
  · exact h
  · exact closed y x link

/-- Every chain ends within the number of nodes, so the test misses no
supertype. -/
theorem isSubtype_iff (acyclic : ∀ a, ¬ TransGen g.Link a a)
    (closed : ∀ a b, g.Link a b → b ∈ g.nodes) :
    g.isSubtype a b = true ↔ a ∈ g.nodes ∧ b ∈ g.nodes ∧ ReflTransGen g.Link a b := by
  simp only [isSubtype, Bool.and_eq_true, List.contains_iff_mem, and_assoc]
  refine and_congr_right fun ha => and_congr_right fun hb =>
    ⟨reaches_of_mem_chain, fun reaches => ?_⟩
  obtain ⟨fuel, mem⟩ := mem_chain_of_reaches reaches
  have bound (fuel : Nat) : (g.chain fuel a).length ≤ g.nodes.length :=
    (List.subperm_of_subset (nodup_chain acyclic fuel a) (chain_subset closed ha fuel)).length_le
  have whole := take_chain (g := g) g.nodes.length fuel a
  rw [List.take_of_length_le (bound _)] at whole
  rw [← whole]
  have longer := take_chain (g := g) fuel g.nodes.length a
  rw [Nat.add_comm] at longer
  rw [← longer] at mem
  exact List.mem_of_mem_take mem

/-- Going back along the links finds the nodes whose chains come to the base. -/
theorem mem_reaching_iff (closed : ∀ a b, g.Link a b → b ∈ g.nodes) {fuel : Nat} :
    a ∈ g.reaching b fuel ↔ a ∈ g.nodes ∧ b ∈ g.chain (fuel + 1) a := by
  induction fuel generalizing a with
  | zero =>
      have alone : g.chain 1 a = [a] := by
        cases top : g.supertype? a with
        | none => exact chain_of_top top 0
        | some c => exact chain_of_link top 0
      rw [reaching, List.mem_filter, beq_iff_eq, alone, List.mem_singleton, eq_comm (a := a)]
  | succ fuel ih =>
      rw [reaching, List.mem_filter]
      refine and_congr_right fun listed => ?_
      have stays : a ∈ g.reaching b fuel ↔ b ∈ g.chain (fuel + 1) a := by simp [ih, listed]
      cases top : g.supertype? a with
      | none => simp [stays, chain_of_top top]
      | some c =>
          have further : c ∈ g.reaching b fuel ↔ b ∈ g.chain (fuel + 1) c := by
            simp [ih, closed a c top]
          have shorter : g.chain fuel c ⊆ g.chain (fuel + 1) c := fun x hx =>
            List.mem_of_mem_take (take_chain (g := g) fuel 1 c ▸ hx)
          rw [chain_of_link top] at stays ⊢
          simp only [Bool.or_eq_true, List.contains_iff_mem, Option.any_some, stays, further,
            List.mem_cons, or_assoc]
          exact or_congr_right ⟨fun h => h.elim (@shorter b) id, .inr⟩

/-- The nodes found against the links are those whose test along them succeeds. -/
theorem mem_derived_iff (closed : ∀ a b, g.Link a b → b ∈ g.nodes) :
    a ∈ g.derived b ↔ a ≠ b ∧ g.isSubtype a b = true := by
  rw [derived, List.mem_filter, mem_reaching_iff closed, isSubtype, Bool.and_eq_true,
    Bool.and_eq_true, List.contains_iff_mem, List.contains_iff_mem, List.contains_iff_mem,
    decide_eq_true_eq, and_comm, and_assoc]
  refine and_congr_right fun _ => and_congr_right fun listed => ?_
  rw [Nat.sub_add_cancel (List.length_pos_of_mem listed)]
  exact (and_iff_right_of_imp fun met => chain_subset closed listed _ met).symm

theorem cycle?_eq_none_iff (closed : ∀ a b, g.Link a b → b ∈ g.nodes)
    (started : ∀ a b, g.Link a b → a ∈ g.nodes) :
    g.cycle? = none ↔ ∀ a, ¬ TransGen g.Link a a := by
  simp only [cycle?, List.findSome?_eq_none_iff, firstLoop?_eq_none_iff]
  constructor
  · intro nodup a loop
    obtain ⟨b, link, -⟩ := TransGen.head'_iff.mp loop
    have ha := started a b link
    have fits := (List.subperm_of_subset (nodup a ha) (chain_subset closed ha _)).length_le
    rw [length_chain_of_loop loop] at fits
    omega
  · intro acyclic a _
    exact nodup_chain acyclic _ a

end SubtypeGraph

/-! ## The graph of a hierarchy -/

namespace Hierarchy

variable {h : Hierarchy} {kind : String} {g : SubtypeGraph}

/-- A declared type and its direct supertype. -/
def Link (h : Hierarchy) (a b : String) : Prop := (a, some b) ∈ h.entries

/-- A walk along links that ends where it begins. -/
structure ClosedWalk (h : Hierarchy) (walk : List String) : Prop where
  linked : walk.IsChain h.Link
  closed : walk.head? = walk.getLast?
  long : 2 ≤ walk.length

/-- Why a hierarchy has no subtype graph. -/
inductive Refused (h : Hierarchy) (kind : String) : Fault → Prop
  | undeclared {a b : String} (link : h.Link a b) (missing : b ∉ h.names) :
      Refused h kind (.unknownSupertype kind a b)
  | cyclic {names walk : List String} (closed : h.ClosedWalk walk)
      (printed : (Fault.cycle kind names).details =
        kind ++ " type hierarchy contains a cycle: " ++ " -> ".intercalate walk ++ ".") :
      Refused h kind (.cycle kind names)

theorem mem_names_of_link {a b : String} (link : h.Link a b) : a ∈ h.names :=
  List.mem_map_of_mem (f := Prod.fst) link

theorem mem_addNode {name x : String} : x ∈ (g.addNode name).nodes ↔ x ∈ g.nodes ∨ x = name := by
  unfold SubtypeGraph.addNode
  split
  · rename_i old
    simp only [List.contains_iff_mem] at old
    exact ⟨.inl, by rintro (h | rfl) <;> assumption⟩
  · simp

@[simp] theorem links_addNode {name : String} : (g.addNode name).links = g.links := by
  unfold SubtypeGraph.addNode
  split <;> rfl

theorem mem_addLink {name supertype x : String} :
    x ∈ (g.addLink name supertype).nodes ↔ x ∈ g.nodes ∨ x = name ∨ x = supertype := by
  rw [SubtypeGraph.addLink, mem_addNode, mem_addNode, or_assoc]

theorem link_error {known : String → Bool} {entries : List (String × Option String)}
    {fault : Fault} (e : link kind known entries g = .error fault) :
    ∃ a b, (a, some b) ∈ entries ∧ known b = false ∧ fault = .unknownSupertype kind a b := by
  fun_induction link kind known entries g with
  | case1 => cases e
  | case2 name rest g ih =>
      obtain ⟨a, b, mem, rest⟩ := ih e
      exact ⟨a, b, List.mem_cons_of_mem _ mem, rest⟩
  | case3 name supertype rest g _ ih =>
      obtain ⟨a, b, mem, rest⟩ := ih e
      exact ⟨a, b, List.mem_cons_of_mem _ mem, rest⟩
  | case4 name supertype rest g unknown =>
      cases e
      exact ⟨name, supertype, List.mem_cons_self, by simpa using unknown, rfl⟩

theorem link_ok {known : String → Bool} {entries : List (String × Option String)}
    {made : SubtypeGraph} (ok : link kind known entries g = .ok made) :
    (∀ a b, (a, some b) ∈ entries → known b = true) ∧
      (∀ x, x ∈ made.nodes ↔
        x ∈ g.nodes ∨ x ∈ entries.map Prod.fst ∨ ∃ a, (a, some x) ∈ entries) ∧
      made.links = g.links ++ entries.filterMap fun e => e.2.map (e.1, ·) := by
  fun_induction link kind known entries g with
  | case1 g =>
      cases ok
      simp
  | case2 name rest g ih =>
      obtain ⟨declared, nodes, links⟩ := ih ok
      refine ⟨by simpa using declared, fun x => ?_, by simpa using links⟩
      simp [nodes, mem_addNode, or_assoc]
  | case3 name supertype rest g known' ih =>
      obtain ⟨declared, nodes, links⟩ := ih ok
      refine ⟨fun a b mem => ?_, fun x => ?_, ?_⟩
      · rcases List.mem_cons.mp mem with same | mem
        · cases same
          exact known'
        · exact declared a b mem
      · simp only [nodes, mem_addLink, List.map_cons, List.mem_cons, Prod.mk.injEq,
          Option.some.injEq]
        grind
      · simpa [SubtypeGraph.addLink] using links
  | case4 => cases ok

theorem names_links_sublist (entries : List (String × Option String)) :
    ((entries.filterMap fun e => e.2.map (e.1, ·)).map Prod.fst).Sublist
      (entries.map Prod.fst) := by
  induction entries with
  | nil => simp
  | cons entry rest ih =>
      obtain ⟨name, supertype | supertype⟩ := entry
      · exact ih.cons _
      · exact ih.cons_cons _

/-- A graph that has the declared types for its nodes and their links for its
links. -/
structure Graphs (h : Hierarchy) (g : SubtypeGraph) : Prop where
  declared : ∀ a b, h.Link a b → b ∈ h.names
  nodes : ∀ a, a ∈ g.nodes ↔ a ∈ h.names
  links : g.Link = h.Link

theorem graphs_of_link (ok : link kind h.contains h.entries .empty = .ok g) : h.Graphs g := by
  obtain ⟨declared, nodes, links⟩ := link_ok ok
  have known (a b : String) (mem : h.Link a b) : b ∈ h.names := by
    simpa [Catalog.contains] using declared a b mem
  have keys : (g.links.map Prod.fst).Nodup := by
    rw [links]
    exact h.nodup.sublist (names_links_sublist _)
  refine ⟨known, fun a => ?_, ?_⟩
  · rw [nodes]
    constructor
    · rintro (none | mem | ⟨b, mem⟩)
      · cases none
      · exact mem
      · exact known b a mem
    · exact fun mem => .inr (.inl mem)
  · funext a b
    rw [SubtypeGraph.Link, SubtypeGraph.supertype?, Catalog.lookup_eq_some_iff keys, links]
    simp [Link, SubtypeGraph.empty]

namespace Graphs

variable (graphs : h.Graphs g)

include graphs

theorem closed (a b : String) (link : g.Link a b) : b ∈ g.nodes := by
  rw [graphs.links] at link
  exact (graphs.nodes b).mpr (graphs.declared a b link)

theorem cycle?_eq_none_iff : g.cycle? = none ↔ ∀ a, ¬ TransGen h.Link a a := by
  rw [← graphs.links]
  refine SubtypeGraph.cycle?_eq_none_iff graphs.closed fun a b link => ?_
  rw [graphs.links] at link
  exact (graphs.nodes a).mpr (mem_names_of_link link)

theorem closedWalk {names : List String} (found : g.cycle? = some names) :
    h.ClosedWalk (names ++ names.take 1) := by
  obtain ⟨a, -, loop⟩ := List.exists_of_findSome?_eq_some found
  obtain ⟨nonempty, before, after, whole⟩ := SubtypeGraph.firstLoop?_within loop
  obtain ⟨first, others, rfl⟩ := List.exists_cons_of_ne_nil nonempty
  refine ⟨?_, by rw [List.getLast?_append]; simp, by simp⟩
  have chain : List.IsChain g.Link (g.chain (g.nodes.length + 1) a) :=
    SubtypeGraph.isChain_chain _ a
  rw [← whole, graphs.links] at chain
  exact chain.left_of_append.right_of_append

theorem isSubtype_iff (acyclic : ∀ a, ¬ TransGen h.Link a a) {a b : String} :
    g.isSubtype a b = true ↔ a ∈ h.names ∧ b ∈ h.names ∧ ReflTransGen h.Link a b := by
  rw [← graphs.links] at acyclic ⊢
  rw [SubtypeGraph.isSubtype_iff acyclic graphs.closed, graphs.nodes, graphs.nodes]

end Graphs

theorem ClosedWalk.loop {walk : List String} (w : h.ClosedWalk walk) :
    ∃ a, TransGen h.Link a a := by
  obtain ⟨linked, closed, long⟩ := w
  match walk with
  | [] => simp at long
  | [a] => simp at long
  | a :: b :: rest =>
      have later := (linked.imp fun _ _ => TransGen.single).pairwise
      refine ⟨a, (List.pairwise_cons.mp later).1 a ?_⟩
      rw [List.head?_cons, List.getLast?_cons_cons] at closed
      exact List.mem_of_getLast? closed.symm

theorem graph_error {fault : Fault} (e : h.graph kind = .error fault) : h.Refused kind fault := by
  unfold graph at e
  split at e
  · rename_i linked
    cases e
    obtain ⟨a, b, mem, unknown, rfl⟩ := link_error linked
    exact .undeclared mem (by simpa [Catalog.contains] using unknown)
  · rename_i g linked
    split at e
    · rename_i names found
      cases e
      exact .cyclic ((graphs_of_link linked).closedWalk found) rfl
    · cases e

theorem graph_ok (ok : h.graph kind = .ok g) : h.Graphs g ∧ ∀ a, ¬ TransGen h.Link a a := by
  unfold graph at ok
  split at ok
  · cases ok
  · rename_i linked
    split at ok
    · cases ok
    · rename_i none
      cases ok
      have graphs := graphs_of_link linked
      exact ⟨graphs, graphs.cycle?_eq_none_iff.mp none⟩

/-- A hierarchy has no graph just when a supertype is not declared or a chain of
links returns to its start. -/
theorem graph_error_iff : (∃ fault, h.graph kind = .error fault) ↔
    (∃ a b, h.Link a b ∧ b ∉ h.names) ∨ ∃ a, TransGen h.Link a a := by
  constructor
  · rintro ⟨fault, e⟩
    cases graph_error e with
    | undeclared link missing => exact .inl ⟨_, _, link, missing⟩
    | cyclic closed => exact .inr closed.loop
  · intro defect
    cases made : h.graph kind with
    | error fault => exact ⟨fault, rfl⟩
    | ok g =>
        obtain ⟨graphs, acyclic⟩ := graph_ok made
        rcases defect with ⟨a, b, link, missing⟩ | ⟨a, loop⟩
        · exact absurd (graphs.declared a b link) missing
        · exact absurd loop (acyclic a)

/-- The order that the subtype test of a graph makes of the declared types. -/
structure Orders (h : Hierarchy) (g : SubtypeGraph) : Prop where
  closure : ∀ a b, g.isSubtype a b = true ↔
    a ∈ h.names ∧ b ∈ h.names ∧ ReflTransGen h.Link a b
  undeclared : ∀ a b, a ∉ h.names ∨ b ∉ h.names → g.isSubtype a b = false
  trans : ∀ a b c, g.isSubtype a b = true → g.isSubtype b c = true → g.isSubtype a c = true
  antisymm : ∀ a b, g.isSubtype a b = true → g.isSubtype b a = true → a = b
  comparable : ∀ a b c, g.isSubtype a b = true → g.isSubtype a c = true →
    g.isSubtype b c = true ∨ g.isSubtype c b = true
  derived : ∀ a b, a ∈ g.derived b ↔ a ≠ b ∧ g.isSubtype a b = true
  noneDerived : ∀ b, b ∉ h.names → g.derived b = []

theorem Graphs.orders (graphs : h.Graphs g) (acyclic : ∀ a, ¬ TransGen h.Link a a) :
    h.Orders g := by
  have closure (a b : String) := graphs.isSubtype_iff acyclic (a := a) (b := b)
  have undeclared (a b : String) (missing : a ∉ h.names ∨ b ∉ h.names) :
      g.isSubtype a b = false := by
    rw [Bool.eq_false_iff, ne_eq, closure]
    tauto
  refine ⟨closure, undeclared, fun a b c hab hbc => ?_, fun a b hab hba => ?_,
    fun a b c hab hac => ?_, fun a b => ?_, fun b missing => ?_⟩
  · obtain ⟨ha, -, ab⟩ := (closure a b).mp hab
    obtain ⟨-, hc, bc⟩ := (closure b c).mp hbc
    exact (closure a c).mpr ⟨ha, hc, ab.trans bc⟩
  · obtain ⟨-, -, ab⟩ := (closure a b).mp hab
    obtain ⟨-, -, ba⟩ := (closure b a).mp hba
    rcases reflTransGen_iff_eq_or_transGen.mp ab with same | up
    · exact same.symm
    · exact absurd (up.trans_left ba) (acyclic a)
  · obtain ⟨-, hb, ab⟩ := (closure a b).mp hab
    obtain ⟨-, hc, ac⟩ := (closure a c).mp hac
    have unique : Relator.RightUnique h.Link := graphs.links ▸ SubtypeGraph.link_rightUnique
    exact (ReflTransGen.total_of_right_unique unique ab ac).imp
      (fun bc => (closure b c).mpr ⟨hb, hc, bc⟩) fun cb => (closure c b).mpr ⟨hc, hb, cb⟩
  · exact SubtypeGraph.mem_derived_iff graphs.closed
  · refine List.eq_nil_iff_forall_not_mem.mpr fun a listed => ?_
    have sub := (SubtypeGraph.mem_derived_iff graphs.closed).mp listed
    rw [undeclared a b (.inr missing)] at sub
    exact Bool.false_ne_true sub.2

theorem graph_meaning (h : Hierarchy) (kind : String) :
    ((∃ fault, h.graph kind = .error fault) ↔
      (∃ a b, h.Link a b ∧ b ∉ h.names) ∨ ∃ a, TransGen h.Link a a) ∧
    (∀ fault, h.graph kind = .error fault → h.Refused kind fault) ∧
    ∀ g, h.graph kind = .ok g → h.Orders g := by
  refine ⟨graph_error_iff, fun fault => graph_error, fun g ok => ?_⟩
  obtain ⟨graphs, acyclic⟩ := graph_ok ok
  exact graphs.orders acyclic

/-- The first type runs into a cycle that it is not on. -/
def spiral : Hierarchy :=
  .ofList [("probe", some "pump"), ("pump", some "valve"), ("valve", some "pump")]

theorem standard_orders_spiral_refused :
    (∃ g, standardNodes.graph "node" = .ok g ∧ standardNodes.Orders g) ∧
    ∃ fault, spiral.graph "node" = .error fault ∧ spiral.Refused "node" fault := by
  constructor
  · obtain ⟨g, found⟩ := Option.isSome_iff_exists.mp
      (show (standardNodes.graph "node").toOption.isSome = true by decide)
    have ok : standardNodes.graph "node" = .ok g := Outcome.toOption_eq_some_iff.mp found
    exact ⟨g, ok, (graph_meaning standardNodes "node").2.2 g ok⟩
  · have refused : spiral.graph "node" = .error (.cycle "node" ["pump", "valve"]) := rfl
    exact ⟨_, refused, (graph_meaning spiral "node").2.1 _ refused⟩

end Hierarchy

end FluidChip
