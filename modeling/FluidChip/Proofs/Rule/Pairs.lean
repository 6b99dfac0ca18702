import FluidChip.Rule
import Mathlib.Data.List.Nodup
import Mathlib.Data.List.Pairwise

/-!
# Pairs

The pairs of a list without repetitions take every two of its members once, in
one order only.  A symmetric relation holds of all pairs just when it holds of
any two members.
-/

namespace FluidChip.Rule

variable {α : Type} {l : List α}

theorem mem_pairs_cons {a : α} {q : α × α} :
    q ∈ pairs (a :: l) ↔ (q.1 = a ∧ q.2 ∈ l) ∨ q ∈ pairs l := by
  simp only [pairs, List.mem_append, List.mem_map]
  constructor
  · rintro (⟨b, hb, rfl⟩ | h)
    · exact .inl ⟨rfl, hb⟩
    · exact .inr h
  · rintro (⟨rfl, hb⟩ | h)
    · exact .inl ⟨q.2, hb, rfl⟩
    · exact .inr h

theorem mem_of_mem_pairs {q : α × α} (h : q ∈ pairs l) : q.1 ∈ l ∧ q.2 ∈ l := by
  induction l with
  | nil => cases h
  | cons a rest ih =>
      rcases mem_pairs_cons.mp h with ⟨rfl, hb⟩ | h
      · exact ⟨List.mem_cons_self, List.mem_cons_of_mem _ hb⟩
      · exact ⟨List.mem_cons_of_mem _ (ih h).1, List.mem_cons_of_mem _ (ih h).2⟩

theorem forall_pairs_iff_pairwise {P : α → α → Prop} :
    (∀ q ∈ pairs l, P q.1 q.2) ↔ l.Pairwise P := by
  induction l with
  | nil => simp [pairs]
  | cons a rest ih =>
      simp only [mem_pairs_cons, List.pairwise_cons, ← ih]
      constructor
      · intro all
        exact ⟨fun b hb => all (a, b) (.inl ⟨rfl, hb⟩), fun q hq => all q (.inr hq)⟩
      · rintro ⟨first, others⟩ q (⟨same, hb⟩ | hq)
        · exact same ▸ first q.2 hb
        · exact others q hq

theorem forall_pairs_iff (nodup : l.Nodup) {P : α → α → Prop}
    (symm : ∀ a b, P a b → P b a) :
    (∀ q ∈ pairs l, P q.1 q.2) ↔ ∀ a ∈ l, ∀ b ∈ l, a ≠ b → P a b := by
  rw [forall_pairs_iff_pairwise]
  constructor
  · intro all a ha b hb ne
    have : Std.Symm P := ⟨symm⟩
    exact all.forall ha hb ne
  · exact nodup.pairwise_of_forall_ne

/-- Every two members of a list stand in one pair, in one order or the other. -/
structure PairedOnce (l : List α) : Prop where
  nodup : (pairs l).Nodup
  irreflexive : ∀ a, (a, a) ∉ pairs l
  either : ∀ a ∈ l, ∀ b ∈ l, a ≠ b → ((a, b) ∈ pairs l ↔ (b, a) ∉ pairs l)

theorem pairedOnce (h : l.Nodup) : PairedOnce l := by
  induction l with
  | nil => exact ⟨List.nodup_nil, by simp [pairs], by simp⟩
  | cons a rest ih =>
      obtain ⟨new, others⟩ := List.nodup_cons.mp h
      have old {q : α × α} (hq : q ∈ pairs rest) : q.1 ≠ a ∧ q.2 ≠ a :=
        ⟨fun e => new (e ▸ (mem_of_mem_pairs hq).1), fun e => new (e ▸ (mem_of_mem_pairs hq).2)⟩
      constructor
      · refine List.nodup_append.mpr ⟨others.map fun _ _ same => (Prod.mk.inj same).2,
          (ih others).nodup, ?_⟩
        rintro x hx y hy rfl
        obtain ⟨b, -, rfl⟩ := List.mem_map.mp hx
        exact (old hy).1 rfl
      · intro b hb
        rcases mem_pairs_cons.mp hb with ⟨rfl, again⟩ | hb
        · exact new again
        · exact (ih others).irreflexive b hb
      · intro b hb c hc ne
        have inner := (ih others).either b
        rw [mem_pairs_cons, mem_pairs_cons]
        rcases List.mem_cons.mp hb with rfl | inB <;>
          rcases List.mem_cons.mp hc with rfl | inC
        · exact absurd rfl ne
        · have unpaired : (c, b) ∉ pairs rest := fun e => (old e).2 rfl
          simp [inC, unpaired, ne.symm]
        · have unpaired : (b, c) ∉ pairs rest := fun e => (old e).2 rfl
          simp [inB, unpaired, ne]
        · have hb' : b ≠ a := fun e => new (e ▸ inB)
          have hc' : c ≠ a := fun e => new (e ▸ inC)
          simpa [hb', hc'] using inner inB c inC ne

end FluidChip.Rule
