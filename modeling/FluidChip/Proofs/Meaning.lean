import FluidChip.Proofs.Contribution
import FluidChip.Proofs.Parameters
import FluidChip.Proofs.Rule.Term
import Mathlib.Algebra.BigOperators.Group.List.Basic

/-!
# The meaning of expressions

An assignment gives every symbol a number of an ordered field.  Under it a term
has a value, a literal the number that its digits write, and an assertion holds or
does not.  A form that is no term has no value, nor has a quotient by zero.
-/

namespace FluidChip

open Number Formula Outcome

variable {K : Type*} [Field K] [LinearOrder K]

/-! ## Values of terms -/

def Formula.operate (op : String) (xs : List K) : Option K :=
  if op = "+" then some xs.sum
  else if op = "*" then some xs.prod
  else match xs with
    | [a, b] =>
        if op = "-" then some (a - b)
        else if op = "/" ∧ b ≠ 0 then some (a / b)
        else none
    | _ => none

namespace Sexp

mutual

def value (v : Symbol → K) : Sexp → Option K
  | .symbol s => some (v s)
  | .literal r => some (written r.value : ℚ)
  | .noArguments => none
  | .form (.symbol op) operands => (values v operands).bind (operate op.name)
  | .form _ _ => none

def values (v : Symbol → K) : List Sexp → Option (List K)
  | [] => some []
  | e :: rest => (value v e).bind fun x => (values v rest).map (x :: ·)

end

variable {v : Symbol → K}

@[simp] theorem value_symbol (s : Symbol) : value v (.symbol s) = some (v s) := rfl

@[simp] theorem value_literal (r : Literal) :
    value v (.literal r) = some ((written r.value : ℚ) : K) := rfl

theorem value_form {op : Symbol} {operands : List Sexp} {xs : List K}
    (h : values v operands = some xs) :
    value v (.form (.symbol op) operands) = operate op.name xs := by
  show (values v operands).bind (operate op.name) = _
  rw [h]
  rfl

@[simp] theorem values_nil : values v [] = some [] := rfl

theorem values_cons_eq_some_iff {e : Sexp} {rest : List Sexp} {ys : List K} :
    values v (e :: rest) = some ys ↔
      ∃ x, value v e = some x ∧ ∃ xs, values v rest = some xs ∧ x :: xs = ys := by
  show ((value v e).bind fun x => (values v rest).map (x :: ·)) = _ ↔ _
  simp only [Option.bind_eq_some_iff, Option.map_eq_some_iff]

theorem values_cons {e : Sexp} {rest : List Sexp} {x : K} {xs : List K}
    (first : value v e = some x) (others : values v rest = some xs) :
    values v (e :: rest) = some (x :: xs) :=
  values_cons_eq_some_iff.mpr ⟨x, first, xs, others, rfl⟩

theorem values_map {α : Type} {f : α → Sexp} {F : α → K} {items : List α}
    (each : ∀ a ∈ items, value v (f a) = some (F a)) :
    values v (items.map f) = some (items.map F) := by
  induction items with
  | nil => rfl
  | cons a rest ih =>
      have others := ih fun b hb => each b (List.mem_cons_of_mem _ hb)
      exact values_cons (each a List.mem_cons_self) others

theorem values_append {es fs : List Sexp} {xs ys : List K} (first : values v es = some xs)
    (second : values v fs = some ys) : values v (es ++ fs) = some (xs ++ ys) := by
  induction es generalizing xs with
  | nil =>
      obtain rfl : [] = xs := Option.some.inj first
      exact second
  | cons e rest ih =>
      obtain ⟨x, hx, others, hothers, rfl⟩ := values_cons_eq_some_iff.mp first
      exact values_cons hx (ih hothers)

theorem values_flatMap {α : Type} {f : α → List Sexp} {F : α → List K} {items : List α}
    (each : ∀ a ∈ items, values v (f a) = some (F a)) :
    values v (items.flatMap f) = some (items.flatMap F) := by
  induction items with
  | nil => rfl
  | cons a rest ih =>
      rw [List.flatMap_cons, List.flatMap_cons]
      exact values_append (each a List.mem_cons_self)
        (ih fun b hb => each b (List.mem_cons_of_mem _ hb))

theorem values_pair {a b : Sexp} {x y : K} (ha : value v a = some x)
    (hb : value v b = some y) : values v [a, b] = some [x, y] :=
  values_cons ha (values_cons hb values_nil)

theorem value_sum {terms : List Sexp} {xs : List K} (h : values v terms = some xs) :
    value v (sum terms) = some xs.sum := value_form h

theorem value_product {factors : List Sexp} {xs : List K} (h : values v factors = some xs) :
    value v (product factors) = some xs.prod := value_form h

theorem value_sum_pair {a b : Sexp} {x y : K} (ha : value v a = some x)
    (hb : value v b = some y) : value v (sum [a, b]) = some (x + y) := by
  simpa using value_sum (values_pair ha hb)

theorem value_product_pair {a b : Sexp} {x y : K} (ha : value v a = some x)
    (hb : value v b = some y) : value v (product [a, b]) = some (x * y) := by
  simpa using value_product (values_pair ha hb)

theorem value_product_triple {a b c : Sexp} {x y z : K} (ha : value v a = some x)
    (hb : value v b = some y) (hc : value v c = some z) :
    value v (product [a, b, c]) = some (x * y * z) := by
  simpa [mul_assoc] using value_product (values_cons ha (values_pair hb hc))

theorem value_difference {a b : Sexp} {x y : K} (ha : value v a = some x)
    (hb : value v b = some y) : value v (difference a b) = some (x - y) :=
  value_form (values_pair ha hb)

theorem value_square {a : Sexp} {x : K} (ha : value v a = some x) :
    value v (square a) = some (x ^ 2) := by
  rw [pow_two]
  exact value_product_pair ha ha

@[simp] theorem value_zero : value v zero = some 0 := by
  simp [zero, written_zero]

@[simp] theorem value_minusOne : value v minusOne = some (-1) := by
  simp [minusOne, written_minusOne]

theorem value_sumOf {terms : List Sexp} {xs : List K} (h : values v terms = some xs) :
    value v (sumOf terms) = some xs.sum := by
  match terms with
  | [] =>
      obtain rfl : [] = xs := Option.some.inj h
      exact value_zero
  | [e] =>
      obtain ⟨x, hx, rest, none, rfl⟩ := values_cons_eq_some_iff.mp h
      obtain rfl : [] = rest := Option.some.inj none
      rw [List.sum_singleton]
      exact hx
  | a :: b :: rest => exact value_sum h

end Sexp

/-! ## Assertions -/

def Formula.related (sign : String) (x y : K) : Prop :=
  (sign = "=" ∧ x = y) ∨ (sign = ">" ∧ y < x) ∨ (sign = ">=" ∧ y ≤ x) ∨
    (sign = "<" ∧ x < y) ∨ (sign = "<=" ∧ x ≤ y)

def Formula.Relation.Between : Relation → K → K → Prop
  | .equal, x, y => x = y
  | .greater, x, y => y < x
  | .atLeast, x, y => y ≤ x
  | .less, x, y => x < y
  | .atMost, x, y => x ≤ y

namespace Sexp

variable {v : Symbol → K}

/-- Whether an expression is an assertion that is true of an assignment. -/
def Holds (v : Symbol → K) : Sexp → Prop
  | .form (.symbol word) [.form (.symbol sign) [a, b]] =>
      word.name = assertWord ∧
        ∃ x y, value v a = some x ∧ value v b = some y ∧ related sign.name x y
  | _ => False

theorem holds_assert {r : Relation} {a b : Sexp} {x y : K} (ha : value v a = some x)
    (hb : value v b = some y) : Holds v (assert r a b) ↔ r.Between x y := by
  cases r <;>
    simp [assert, Relation.sign, keyword, Holds, ha, hb, related, Relation.Between,
      assertWord]

/-- Whether all assertions among some expressions hold. -/
def Satisfies (v : Symbol → K) (es : List Sexp) : Prop :=
  ∀ e ∈ es, e.isForm assertWord = true → Holds v e

@[simp] theorem satisfies_nil : Satisfies v [] := by
  simp [Satisfies]

@[simp] theorem satisfies_append {es fs : List Sexp} :
    Satisfies v (es ++ fs) ↔ Satisfies v es ∧ Satisfies v fs := by
  simp [Satisfies, or_imp, forall_and]

@[simp] theorem satisfies_cons {e : Sexp} {rest : List Sexp} :
    Satisfies v (e :: rest) ↔
      (e.isForm assertWord = true → Holds v e) ∧ Satisfies v rest := by
  simp [Satisfies]

theorem satisfied_assert {r : Relation} {a b : Sexp} {x y : K} (ha : value v a = some x)
    (hb : value v b = some y) :
    ((assert r a b).isForm assertWord = true → Holds v (assert r a b)) ↔ r.Between x y := by
  rw [isForm_assert, holds_assert ha hb]
  exact forall_prop_of_true rfl

theorem satisfies_assert {r : Relation} {a b : Sexp} {x y : K} (ha : value v a = some x)
    (hb : value v b = some y) : Satisfies v [assert r a b] ↔ r.Between x y := by
  rw [satisfies_cons, satisfied_assert ha hb]
  exact and_iff_left satisfies_nil

theorem satisfies_flatten {parts : List (List Sexp)} :
    Satisfies v parts.flatten ↔ ∀ es ∈ parts, Satisfies v es := by
  simp only [Satisfies, List.mem_flatten]
  constructor
  · intro all es hes e he
    exact all e ⟨es, hes, he⟩
  · rintro all e ⟨es, hes, he⟩
    exact all es hes e he

theorem satisfies_parts {α ε : Type} {f : α → Except ε (List Sexp)} {xs : List α}
    {parts : List (List Sexp)} {Q : α → Prop} (h : xs.mapM f = .ok parts)
    (each : ∀ x ∈ xs, ∀ es, f x = .ok es → (Satisfies v es ↔ Q x)) :
    Satisfies v parts.flatten ↔ ∀ x ∈ xs, Q x := by
  rw [satisfies_flatten]
  exact forall_result_iff h each

theorem satisfies_joined {α ε : Type} {f : α → Except ε (List Sexp)} {xs : List α}
    {es : List Sexp} {Q : α → Prop} (h : (do return (← xs.mapM f).flatten) = .ok es)
    (each : ∀ x ∈ xs, ∀ es, f x = .ok es → (Satisfies v es ↔ Q x)) :
    Satisfies v es ↔ ∀ x ∈ xs, Q x := by
  obtain ⟨parts, made, joined⟩ := bind_ok_iff.mp h
  obtain rfl := pure_ok_iff.mp joined
  exact satisfies_parts made each

/-- What a rule makes is satisfied just when a law holds. -/
def Means (g : Setting) (v : Symbol → K) (r : Rule) (law : Prop) : Prop :=
  ∀ es, r.outcome g = .ok es → (Satisfies v es ↔ law)

theorem satisfies_contribution {g : Setting} {group : Rule.Group} {es : List Sexp}
    {laws : List Prop} (hgroup : group ∈ Rule.programGroups)
    (h : (Schematic.contribution g group).outcome = .ok es)
    (means : List.Forall₂ (Means g v) group.rules laws) :
    Satisfies v es ↔ ∀ law ∈ laws, law := by
  obtain ⟨parts, made, rfl⟩ := (Schematic.contribution_ok_iff hgroup).mp h
  rw [satisfies_flatten]
  exact forall_results_iff made means

/-! ## Deciding -/

instance (sign : String) (x y : K) : Decidable (related sign x y) :=
  inferInstanceAs (Decidable (_ ∨ _))

instance (a b : Option K) (P : K → K → Prop) [∀ x y, Decidable (P x y)] :
    Decidable (∃ x y, a = some x ∧ b = some y ∧ P x y) :=
  match a, b with
  | some x, some y => decidable_of_iff (P x y) (by simp)
  | some _, none => isFalse (by simp)
  | none, _ => isFalse (by simp)

instance (e : Sexp) : Decidable (Holds v e) := by
  unfold Holds
  split <;> infer_instance

instance (es : List Sexp) : Decidable (Satisfies v es) :=
  inferInstanceAs (Decidable (∀ e ∈ es, e.isForm assertWord = true → Holds v e))

end Sexp

/-! ## Values of terms of rules -/

namespace Setting

variable (g : Setting) (v : Symbol → K)

/-- The number that an assignment gives an unknown. -/
def amount (u : Unknown) : K := v (g.schematic.named u)

def lengthOf (c : ConnectionId) : K := g.amount v (.connection .length c)

variable {g v}

@[simp] theorem value_term (u : Unknown) : (g.term u).value v = some (g.amount v u) :=
  Sexp.value_symbol _

theorem satisfies_declarations {us : List Unknown} :
    Sexp.Satisfies v (us.map g.declaration) := by
  intro e he isAssert
  obtain ⟨u, -, rfl⟩ := List.mem_map.mp he
  simp [declaration] at isAssert

variable (g v) in
def signedFlow (port : PortId) (c : ConnectionId) : K :=
  if (g.schematic.connection c).target = port then g.amount v (.connection .flow c)
  else -g.amount v (.connection .flow c)

theorem value_inflowTerm (port : PortId) (c : ConnectionId) :
    (g.inflowTerm port c).value v = some (g.signedFlow v port c) := by
  unfold inflowTerm signedFlow
  split
  · exact value_term _
  · rw [Sexp.value_product_pair Sexp.value_minusOne (value_term _), neg_one_mul]

end Setting

/-! ## Numbers that are given -/

theorem satisfies_fixed {v : Symbol → K} {given : Option Float} {read : Except Failure Sexp}
    {es : List Sexp} {amount : K} (hread : ∀ t, read = .ok t → t.value v = some amount)
    (h : (given.toList.mapM fun x => do
      return assert .equal (← read) (← Rule.literal x)) = .ok es) :
    Sexp.Satisfies v es ↔ ∀ x, given = some x → amount = ((Number.written x : ℚ) : K) := by
  rcases Setting.fixed_ok_iff.mp h with ⟨rfl, rfl⟩ | ⟨r, t, rfl, ok, rfl⟩
  · simp
  · rw [Sexp.satisfies_assert (hread t ok) (Sexp.value_literal r)]
    simp [Relation.Between]

end FluidChip
