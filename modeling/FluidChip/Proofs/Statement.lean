import FluidChip.Proofs.Program
import Mathlib.Data.Set.List

/-!
# Statements

A statement declares a symbol or asserts a relation.  Arranged, statements make
two runs: every declared symbol once, then the assertions as they came.
-/

namespace FluidChip

open Formula

/-! ## Expressions over known symbols -/

/-- The words of an assertion that stand for no unknown. -/
def Formula.words : List String := ["assert", "=", ">", "<", ">=", "<=", "+", "-", "*", "/"]

namespace Sexp

def Over (known : Symbol → Prop) (e : Sexp) : Prop :=
  ∀ symbol ∈ e.symbols, symbol.name ∈ words ∨ known symbol

variable {known known' : Symbol → Prop}

theorem Over.mono (more : ∀ symbol, known symbol → known' symbol) {e : Sexp}
    (h : e.Over known) : e.Over known' :=
  fun symbol hsymbol => (h symbol hsymbol).imp_right (more symbol)

theorem symbolsOfAll_eq (es : List Sexp) : symbolsOfAll es = es.flatMap symbols := by
  induction es with
  | nil => rfl
  | cons e rest ih =>
      show e.symbols ++ symbolsOfAll rest = _
      rw [ih, List.flatMap_cons]

theorem mem_symbols_form {head : Sexp} {rest : List Sexp} {x : Symbol} :
    x ∈ (form head rest).symbols ↔ x ∈ head.symbols ∨ ∃ e ∈ rest, x ∈ e.symbols := by
  show x ∈ head.symbols ++ symbolsOfAll rest ↔ _
  rw [symbolsOfAll_eq, List.mem_append, List.mem_flatMap]

theorem over_form {head : Sexp} {rest : List Sexp} :
    (form head rest).Over known ↔ head.Over known ∧ ∀ e ∈ rest, e.Over known := by
  constructor
  · intro all
    exact ⟨fun x hx => all x (mem_symbols_form.mpr (.inl hx)),
      fun e he x hx => all x (mem_symbols_form.mpr (.inr ⟨e, he, hx⟩))⟩
  · rintro ⟨first, others⟩ x hx
    rcases mem_symbols_form.mp hx with hx | ⟨e, he, hx⟩
    · exact first x hx
    · exact others e he x hx

theorem over_symbol {symbol : Symbol} (h : known symbol) : (Sexp.symbol symbol).Over known := by
  intro x hx
  obtain rfl : x = symbol := List.mem_singleton.mp hx
  exact .inr h

@[simp] theorem over_literal (r : Literal) : (literal r).Over known :=
  fun _ hx => absurd hx List.not_mem_nil

theorem over_keyword {name : String} {legal : isSymbolName name.toList = true}
    (h : name ∈ words) : (keyword name legal).Over known := by
  intro x hx
  obtain rfl : x = ⟨name, legal⟩ := List.mem_singleton.mp hx
  exact .inl h

@[simp] theorem over_sum {terms : List Sexp} :
    (sum terms).Over known ↔ ∀ e ∈ terms, e.Over known := by
  rw [sum, over_form]
  exact and_iff_right (over_keyword (by decide))

@[simp] theorem over_product {factors : List Sexp} :
    (product factors).Over known ↔ ∀ e ∈ factors, e.Over known := by
  rw [product, over_form]
  exact and_iff_right (over_keyword (by decide))

@[simp] theorem over_difference {a b : Sexp} :
    (difference a b).Over known ↔ a.Over known ∧ b.Over known := by
  rw [difference, over_form, and_iff_right (over_keyword (by decide))]
  simp

@[simp] theorem over_square {a : Sexp} : (square a).Over known ↔ a.Over known := by
  simp [square]

@[simp] theorem over_zero : zero.Over known := over_literal _

@[simp] theorem over_minusOne : minusOne.Over known := over_literal _

theorem over_sumOf {terms : List Sexp} (h : ∀ e ∈ terms, e.Over known) :
    (sumOf terms).Over known := by
  match terms with
  | [] => exact over_zero
  | [e] => exact h e List.mem_cons_self
  | a :: b :: rest => exact over_sum.mpr h

theorem over_assert {r : Relation} {a b : Sexp} :
    (assert r a b).Over known ↔ a.Over known ∧ b.Over known := by
  have sign : r.sign.Over known := by
    cases r <;> exact over_keyword (by decide)
  rw [assert, over_form, and_iff_right (over_keyword (by decide))]
  simp [over_form, sign]

/-! ## Statements -/

inductive Statement (known : Symbol → Prop) : Sexp → Prop
  | declaration {symbol : Symbol} (h : known symbol) : Statement known (declare symbol)
  | assertion (r : Relation) {a b : Sexp} (left : a.Over known) (right : b.Over known) :
      Statement known (assert r a b)

theorem Statement.mono (more : ∀ symbol, known symbol → known' symbol) {e : Sexp}
    (h : Statement known e) : Statement known' e := by
  cases h with
  | declaration symbol => exact .declaration (more _ symbol)
  | assertion r left right => exact .assertion r (left.mono more) (right.mono more)

@[simp] theorem isForm_declare (symbol : Symbol) : (declare symbol).isForm declareWord = true := rfl

@[simp] theorem isForm_assert_declare (symbol : Symbol) :
    (declare symbol).isForm assertWord = false := rfl

@[simp] theorem isForm_assert (r : Relation) (a b : Sexp) :
    (assert r a b).isForm assertWord = true := rfl

@[simp] theorem declare_inj {x y : Symbol} : declare x = declare y ↔ x = y := by
  simp [declare]

@[simp] theorem declare_ne_assert {x : Symbol} {r : Relation} {a b : Sexp} :
    declare x ≠ assert r a b := by
  intro same
  have forms := congrArg (isForm assertWord) same
  cases forms

theorem same_declare_iff {x y : Symbol} : (declare x).same (declare y) = true ↔ x = y := by
  obtain ⟨x, _⟩ := x
  obtain ⟨y, _⟩ := y
  simp [declare, keyword, same, sameAll]

end Sexp

/-! ## Arranging -/

namespace Program

open Sexp

variable {known : Symbol → Prop}

theorem part_statement {e : Sexp} (h : Statement known e) :
    part e = .declaration ∧ e ∈ Set.range declare ∨ part e = .assertion := by
  cases h with
  | @declaration x _ => exact .inl ⟨rfl, x, rfl⟩
  | assertion => exact .inr rfl

theorem arrange_statements {es : List Sexp} (statements : ∀ e ∈ es, Statement known e) :
    ∃ all : List Symbol, all.Nodup ∧ (∀ x, x ∈ all ↔ declare x ∈ es) ∧
      arrange es = all.map declare ++ es.filter (isForm assertWord) := by
  have mem_firsts {e : Sexp} (he : e ∈ firsts (ofPart .declaration es)) :
      e ∈ es ∧ part e = .declaration := mem_ofPart.mp ((firsts_sublist _).subset he)
  have declares : firsts (ofPart .declaration es) ∈ Set.range (List.map declare) := by
    rw [Set.range_list_map]
    intro e he
    obtain ⟨mem, kind⟩ := mem_firsts he
    rcases part_statement (statements e mem) with ⟨-, declared⟩ | other
    · exact declared
    · exact absurd (kind.symm.trans other) (by decide)
  obtain ⟨all, hall⟩ := declares
  refine ⟨all, ?_, fun x => ⟨fun hx => ?_, fun hx => ?_⟩, ?_⟩
  · have apart := pairwise_firsts (ofPart .declaration es)
    rw [← hall, List.pairwise_map] at apart
    refine apart.imp fun {x y} different same => ?_
    rw [same_declare_iff.mpr same.symm] at different
    cases different
  · exact (mem_firsts (hall ▸ List.mem_map_of_mem hx)).1
  · have filed : declare x ∈ ofPart .declaration es := mem_ofPart.mpr ⟨hx, rfl⟩
    obtain ⟨kept, mem, same⟩ := exists_same_mem_firsts filed
    rw [← hall] at mem
    obtain ⟨y, hy, rfl⟩ := List.mem_map.mp mem
    obtain rfl := same_declare_iff.mp same
    exact hy
  · have others : ofPart .other es = [] := by
      refine List.eq_nil_iff_forall_not_mem.mpr fun e he => ?_
      obtain ⟨mem, kind⟩ := mem_ofPart.mp he
      rcases part_statement (statements e mem) with ⟨declaration, -⟩ | assertion
      · exact absurd (kind.symm.trans declaration) (by decide)
      · exact absurd (kind.symm.trans assertion) (by decide)
    rw [arrange_eq, ← hall, ofPart_assertion, others, List.append_nil]

end Program

end FluidChip
