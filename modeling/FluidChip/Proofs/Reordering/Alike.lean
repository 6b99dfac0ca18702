import FluidChip.Proofs.Meaning
import FluidChip.Proofs.Rule.Pairs

/-!
# Expressions that say the same

Two lists of expressions are alike when they declare the same symbols and have the
same satisfying assignments.  A traversal in another order makes expressions that
are alike, and so does one of all pairs, where the two members of a pair may
change places.
-/

namespace FluidChip

open Outcome Formula

namespace Sexp

/-! ## Tests -/

/-- What is asked of every expression of a program: that it does not declare a
symbol, or that it is true of an assignment if it is an assertion. -/
inductive Test : (Sexp → Prop) → Prop
  | undeclared (symbol : Symbol) : Test fun e => e ≠ declare symbol
  | holds {K : Type} [Field K] [LinearOrder K] (v : Symbol → K) :
      Test fun e => e.isForm assertWord = true → Holds v e

theorem Test.assert_iff {T : Sexp → Prop} (test : Test T) {r : Relation} {a b a' b' : Sexp}
    (left : ∀ (K : Type) [Field K] [LinearOrder K] (v : Symbol → K), a.value v = a'.value v)
    (right : ∀ (K : Type) [Field K] [LinearOrder K] (v : Symbol → K), b.value v = b'.value v) :
    T (assert r a b) ↔ T (assert r a' b') := by
  cases test with
  | undeclared symbol => exact iff_of_true declare_ne_assert.symm declare_ne_assert.symm
  | holds v =>
      beta_reduce
      rw [isForm_assert, isForm_assert, forall_prop_of_true rfl, forall_prop_of_true rfl]
      cases r <;> simp only [assert, Relation.sign, keyword, Holds, left _ v, right _ v]

def Alike (es es' : List Sexp) : Prop :=
  ∀ T, Test T → ((∀ e ∈ es, T e) ↔ ∀ e ∈ es', T e)

variable {es es' fs fs' : List Sexp}

theorem Alike.refl (es : List Sexp) : Alike es es := fun _ _ => Iff.rfl

theorem Alike.append (h : Alike es es') (h' : Alike fs fs') : Alike (es ++ fs) (es' ++ fs') := by
  intro T test
  simp only [List.forall_mem_append]
  exact and_congr (h T test) (h' T test)

theorem Alike.declares (h : Alike es es') (symbol : Symbol) :
    declare symbol ∈ es ↔ declare symbol ∈ es' := by
  have none := h _ (.undeclared symbol)
  rwa [List.forall_mem_ne', List.forall_mem_ne', not_iff_not] at none

theorem Alike.satisfies (h : Alike es es') {K : Type} [Field K] [LinearOrder K]
    (v : Symbol → K) : Satisfies v es ↔ Satisfies v es' :=
  h _ (.holds v)

end Sexp

namespace Rule

open Sexp

/-- Where one computation succeeds, so does the other, with expressions that are
alike. -/
def Follows : Except Failure (List Sexp) → Except Failure (List Sexp) → Prop := Relates Alike

theorem Follows.of_keeps {r r' : Except Failure (List Sexp)} (h : Keeps r r') : Follows r r' :=
  fun es made => ⟨es, h es made, .refl es⟩

/-! ## Traversals -/

/-- Any two members have a result, under the pair that stands in the list. -/
theorem result_of_pair {α γ : Type} {xs : List α} (nodup : xs.Nodup)
    {f : α × α → Except Failure γ} {rs : List γ} (h : (pairs xs).mapM f = .ok rs) {a b : α}
    (ha : a ∈ xs) (hb : b ∈ xs) (ne : a ≠ b) :
    (∃ r ∈ rs, f (a, b) = .ok r) ∨ ∃ r ∈ rs, f (b, a) = .ok r := by
  have either := (pairedOnce nodup).either a ha b hb ne
  by_cases order : (a, b) ∈ pairs xs
  · exact .inl (result_of_step h order)
  · exact .inr (result_of_step h (not_imp_comm.mp either.mpr order))

section Traversals

variable {α β γ : Type} {xs : List α} {ys : List β} {φ : α → β}
  (mem : ∀ y, y ∈ ys ↔ ∃ x ∈ xs, φ x = y)

include mem

theorem forall_result_iff_of_mem {f : α → Except Failure γ} {f' : β → Except Failure γ}
    {rs rs' : List γ} (h : xs.mapM f = .ok rs) (h' : ys.mapM f' = .ok rs') {P : γ → Prop}
    (each : ∀ x ∈ xs, ∀ r r', f x = .ok r → f' (φ x) = .ok r' → (P r ↔ P r')) :
    (∀ r ∈ rs, P r) ↔ ∀ r ∈ rs', P r := by
  constructor
  · intro all r' hr'
    obtain ⟨y, hy, made'⟩ := step_of_result h' hr'
    obtain ⟨x, hx, rfl⟩ := (mem y).mp hy
    obtain ⟨r, hr, made⟩ := result_of_step h hx
    exact (each x hx r r' made made').mp (all r hr)
  · intro all r hr
    obtain ⟨x, hx, made⟩ := step_of_result h hr
    obtain ⟨r', hr', made'⟩ := result_of_step h' ((mem _).mpr ⟨x, hx, rfl⟩)
    exact (each x hx r r' made made').mpr (all r' hr')

theorem follows_mapM {f : α → Except Failure Sexp} {f' : β → Except Failure Sexp}
    (keeps : ∀ x ∈ xs, Keeps (f x) (f' (φ x))) : Follows (xs.mapM f) (ys.mapM f') := by
  intro es h
  obtain ⟨es', h'⟩ : ∃ es', ys.mapM f' = .ok es' := by
    refine exists_mapM_ok_iff.mpr fun y hy => ?_
    obtain ⟨x, hx, rfl⟩ := (mem y).mp hy
    obtain ⟨e, -, made⟩ := result_of_step h hx
    exact ⟨e, keeps x hx e made⟩
  refine ⟨es', h', fun T _ => forall_result_iff_of_mem mem h h' fun x hx e e' made made' => ?_⟩
  obtain rfl : e = e' := (keeps x hx).eq made made'
  rfl

theorem relates_parts {f : α → Except Failure (List Sexp)} {f' : β → Except Failure (List Sexp)}
    (each : ∀ x ∈ xs, Follows (f x) (f' (φ x))) :
    Relates (fun parts parts' => Alike parts.flatten parts'.flatten) (xs.mapM f) (ys.mapM f') := by
  intro parts h
  obtain ⟨parts', h'⟩ : ∃ parts', ys.mapM f' = .ok parts' := by
    refine exists_mapM_ok_iff.mpr fun y hy => ?_
    obtain ⟨x, hx, rfl⟩ := (mem y).mp hy
    obtain ⟨es, -, made⟩ := result_of_step h hx
    obtain ⟨es', made', -⟩ := each x hx es made
    exact ⟨es', made'⟩
  refine ⟨parts', h', fun T test => ?_⟩
  rw [List.forall_mem_flatten, List.forall_mem_flatten]
  refine forall_result_iff_of_mem mem h h' fun x hx es es' made made' => ?_
  obtain ⟨other, made'', alike⟩ := each x hx es made
  obtain rfl : other = es' := Except.ok.inj (made''.symm.trans made')
  exact alike T test

theorem follows_joined {f : α → Except Failure (List Sexp)} {f' : β → Except Failure (List Sexp)}
    (each : ∀ x ∈ xs, Follows (f x) (f' (φ x))) :
    Follows (do return (← xs.mapM f).flatten) (do return (← ys.mapM f').flatten) :=
  (relates_parts mem each).bind fun _ _ alike => .pure alike

theorem exists_of_mem_pairs (nodup : ys.Nodup) {q : β × β} (h : q ∈ pairs ys) :
    ∃ a ∈ xs, ∃ b ∈ xs, a ≠ b ∧ q = (φ a, φ b) := by
  obtain ⟨left, right⟩ := mem_of_mem_pairs h
  obtain ⟨a, ha, hleft⟩ := (mem q.1).mp left
  obtain ⟨b, hb, hright⟩ := (mem q.2).mp right
  have same : q = (φ a, φ b) := Prod.ext hleft.symm hright.symm
  refine ⟨a, ha, b, hb, ?_, same⟩
  rintro rfl
  exact (pairedOnce nodup).irreflexive _ (same ▸ h)

theorem follows_pairs (injective : Function.Injective φ) (nodup : xs.Nodup) (nodup' : ys.Nodup)
    {f : α × α → Except Failure Sexp} {f' : β × β → Except Failure Sexp}
    (keeps : ∀ a ∈ xs, ∀ b ∈ xs, Keeps (f (a, b)) (f' (φ a, φ b)))
    (swap : ∀ a b e, f (a, b) = .ok e → ∃ e', f (b, a) = .ok e' ∧ ∀ T, Test T → (T e ↔ T e')) :
    Follows ((pairs xs).mapM f) ((pairs ys).mapM f') := by
  intro es h
  have result {a b : α} (ha : a ∈ xs) (hb : b ∈ xs) (ne : a ≠ b) :
      ∃ e, f (a, b) = .ok e ∧ ∀ T, Test T → (∀ e ∈ es, T e) → T e := by
    rcases result_of_pair nodup h ha hb ne with ⟨e, he, made⟩ | ⟨e, he, made⟩
    · exact ⟨e, made, fun T _ all => all e he⟩
    · obtain ⟨e', made', same⟩ := swap b a e made
      exact ⟨e', made', fun T test all => (same T test).mp (all e he)⟩
  obtain ⟨es', h'⟩ : ∃ es', (pairs ys).mapM f' = .ok es' := by
    refine exists_mapM_ok_iff.mpr fun q hq => ?_
    obtain ⟨a, ha, b, hb, ne, rfl⟩ := exists_of_mem_pairs mem nodup' hq
    obtain ⟨e, made, -⟩ := result ha hb ne
    exact ⟨e, keeps a ha b hb e made⟩
  refine ⟨es', h', fun T test => ⟨fun all e' he' => ?_, fun all e he => ?_⟩⟩
  · obtain ⟨q, hq, made'⟩ := step_of_result h' he'
    obtain ⟨a, ha, b, hb, ne, rfl⟩ := exists_of_mem_pairs mem nodup' hq
    obtain ⟨e, made, passes⟩ := result ha hb ne
    obtain rfl : e = e' := (keeps a ha b hb).eq made made'
    exact passes T test all
  · obtain ⟨⟨a, b⟩, hq, made⟩ := step_of_result h he
    obtain ⟨ha, hb⟩ := mem_of_mem_pairs hq
    have ne : φ a ≠ φ b := fun same =>
      (pairedOnce nodup).irreflexive a (by rwa [← injective same] at hq)
    have mapped {x : α} (hx : x ∈ xs) : φ x ∈ ys := (mem _).mpr ⟨x, hx, rfl⟩
    rcases result_of_pair nodup' h' (mapped ha) (mapped hb) ne with
      ⟨e', he', made'⟩ | ⟨e', he', made'⟩
    · obtain rfl : e = e' := (keeps a ha b hb).eq made made'
      exact all e he'
    · obtain ⟨e₂, made₂, same⟩ := swap a b e made
      obtain rfl : e₂ = e' := (keeps b hb a ha).eq made₂ made'
      exact (same T test).mpr (all e₂ he')

end Traversals

end Rule

end FluidChip
