import FluidChip.Quantity.Unit
import Mathlib.Algebra.BigOperators.Group.List.Basic
import Mathlib.Algebra.Field.Rat
import Mathlib.Algebra.Module.Basic
import Mathlib.Data.List.Nodup
import Mathlib.Data.List.Perm.Subperm

/-!
# Products of powers

What a product of powers is worth is written additively, in a vector space over the
rationals: products become sums, and powers become multiples.  The positive reals under
multiplication are such a space, by their logarithms.

Whatever its names are worth, a product of powers has a value, and the operations on
products add, negate and scale it.  Products in which no name stands twice, and none with
the exponent zero, are the same up to order just when they have the same value whatever
their names are worth.
-/

namespace FluidChip.Quantity.Powers

variable {V : Type} [AddCommGroup V] [Module ℚ V] {worth : String → V} {a b p : Powers}
  {q : String × ℚ} {name : String} {exponent n : ℚ}

/-! ## Values -/

/-- The value of a product, its names taken at what they are worth. -/
def value (worth : String → V) (p : Powers) : V := (p.map fun q => q.2 • worth q.1).sum

@[simp] theorem value_nil : value worth [] = 0 := rfl

@[simp] theorem value_cons : value worth (q :: p) = q.2 • worth q.1 + value worth p := by
  simp [value]

theorem value_times : (p.times name exponent).value worth =
    p.value worth + exponent • worth name := by
  induction p with
  | nil =>
      rw [times]
      split
      · simp [*]
      · simp
  | cons q rest ih =>
      obtain ⟨other, e⟩ := q
      rw [times]
      split
      · rename_i same
        subst same
        split
        · rename_i gone
          rw [value_cons, add_right_comm, ← add_smul, gone, zero_smul, zero_add]
        · rw [value_cons, value_cons, add_smul, add_right_comm]
      · rw [value_cons, value_cons, ih, add_assoc]

theorem value_mul : (a.mul b).value worth = a.value worth + b.value worth := by
  unfold mul
  induction b generalizing a with
  | nil => simp
  | cons q rest ih => rw [List.foldl_cons, ih, value_times, value_cons, add_assoc]

theorem value_raise : (a.raise n).value worth = n • a.value worth := by
  unfold raise
  split
  · simp [*]
  · induction a with
    | nil => simp
    | cons q rest ih =>
        rw [List.map_cons, value_cons, ih, value_cons, smul_add, smul_smul, mul_comm]

theorem value_inverse : a.inverse.value worth = -a.value worth := by
  rw [inverse, value_raise, neg_one_smul]

/-! ## Canonical products -/

/-- Each name stands once, with an exponent that is not zero. -/
structure Canonical (p : Powers) : Prop where
  nodup : (p.map Prod.fst).Nodup
  nonzero : ∀ q ∈ p, q.2 ≠ 0

theorem canonical_nil : Canonical [] := ⟨List.nodup_nil, by simp⟩

theorem canonical_cons :
    Canonical (q :: p) ↔ q.1 ∉ p.map Prod.fst ∧ q.2 ≠ 0 ∧ Canonical p := by
  constructor
  · rintro ⟨nodup, nonzero⟩
    rw [List.map_cons, List.nodup_cons] at nodup
    rw [List.forall_mem_cons] at nonzero
    exact ⟨nodup.1, nonzero.1, nodup.2, nonzero.2⟩
  · rintro ⟨new, some_power, nodup, nonzero⟩
    exact ⟨List.nodup_cons.mpr ⟨new, nodup⟩, List.forall_mem_cons.mpr ⟨some_power, nonzero⟩⟩

theorem mem_names_times {other : String} (h : other ∈ (p.times name exponent).map Prod.fst) :
    other = name ∨ other ∈ p.map Prod.fst := by
  induction p with
  | nil =>
      rw [times] at h
      split at h <;> simp_all
  | cons q rest ih =>
      obtain ⟨first, e⟩ := q
      rw [times] at h
      split at h
      · split at h <;> simp_all
      · rw [List.map_cons, List.mem_cons] at h ⊢
        rcases h with same | later
        · exact .inr (.inl same)
        · exact (ih later).imp_right .inr

theorem Canonical.times (h : Canonical p) : Canonical (p.times name exponent) := by
  induction p with
  | nil =>
      rw [Powers.times]
      split
      · exact canonical_nil
      · rename_i some_power
        exact canonical_cons.mpr ⟨by simp, some_power, canonical_nil⟩
  | cons q rest ih =>
      obtain ⟨other, e⟩ := q
      obtain ⟨new, some_power, others⟩ := canonical_cons.mp h
      rw [Powers.times]
      split
      · split
        · exact others
        · rename_i left
          exact canonical_cons.mpr ⟨new, left, others⟩
      · rename_i differ
        refine canonical_cons.mpr ⟨fun again => ?_, some_power, ih others⟩
        exact (mem_names_times again).elim differ new

theorem Canonical.mul (h : Canonical a) : Canonical (a.mul b) := by
  unfold Powers.mul
  induction b generalizing a with
  | nil => exact h
  | cons q rest ih => exact ih h.times

theorem Canonical.raise (h : Canonical a) : Canonical (a.raise n) := by
  unfold Powers.raise
  split
  · exact canonical_nil
  · rename_i some_power
    obtain ⟨nodup, nonzero⟩ := h
    constructor
    · simpa [Function.comp_def] using nodup
    · intro q listed
      obtain ⟨r, there, rfl⟩ := List.mem_map.mp listed
      exact mul_ne_zero (nonzero r there) some_power

theorem mem_names_mul (h : name ∈ (a.mul b).map Prod.fst) :
    name ∈ a.map Prod.fst ∨ name ∈ b.map Prod.fst := by
  unfold mul at h
  induction b generalizing a with
  | nil => exact .inl h
  | cons q rest ih =>
      rw [List.map_cons, List.mem_cons]
      rcases ih h with front | later
      · exact (mem_names_times front).elim (fun here => .inr (.inl here)) .inl
      · exact .inr (.inr later)

theorem mem_names_raise (h : name ∈ (a.raise n).map Prod.fst) : name ∈ a.map Prod.fst := by
  unfold raise at h
  split at h
  · cases h
  · simpa [Function.comp_def] using h

/-! ## The same product -/

theorem perm_of_same (h : Canonical a) (same : a.same b = true) : a.Perm b := by
  rw [Powers.same, Bool.and_eq_true, beq_iff_eq, List.all_eq_true] at same
  obtain ⟨length, listed⟩ := same
  have subset : a ⊆ b := fun q hq => List.contains_iff_mem.mp (listed q hq)
  exact ((List.Nodup.of_map _ h.nodup).subperm subset).perm_of_length_le (Nat.le_of_eq length.symm)

theorem value_of_same (h : Canonical a) (same : a.same b = true) :
    a.value worth = b.value worth :=
  ((perm_of_same h same).map _).sum_eq

/-- One name alone is worth anything. -/
def only (name : String) (other : String) : ℚ := if other = name then 1 else 0

theorem value_only_of_notMem (new : name ∉ p.map Prod.fst) : p.value (only name) = 0 := by
  induction p with
  | nil => rfl
  | cons q rest ih =>
      rw [List.map_cons, List.mem_cons, not_or] at new
      rw [value_cons, ih new.2, only, if_neg (Ne.symm new.1)]
      simp

theorem value_only (h : Canonical p) (listed : q ∈ p) : p.value (only q.1) = q.2 := by
  induction p with
  | nil => cases listed
  | cons first rest ih =>
      obtain ⟨new, -, others⟩ := canonical_cons.mp h
      rw [value_cons]
      rcases List.mem_cons.mp listed with rfl | later
      · rw [value_only_of_notMem new, only, if_pos rfl]
        simp
      · have differ : first.1 ≠ q.1 := by
          intro same
          exact new (same ▸ List.mem_map_of_mem later)
        rw [ih others later, only, if_neg differ]
        simp

theorem subset_of_value (ha : Canonical a) (hb : Canonical b)
    (h : ∀ name, a.value (only name) = b.value (only name)) : a ⊆ b := by
  intro q listed
  have power := (value_only ha listed).symm.trans (h q.1)
  by_cases known : q.1 ∈ b.map Prod.fst
  · obtain ⟨r, there, same⟩ := List.mem_map.mp known
    rw [← same, value_only hb there] at power
    rwa [show q = r from Prod.ext same.symm power]
  · rw [value_only_of_notMem known] at power
    exact absurd power (ha.nonzero q listed)

/-- Canonical products that always have the same value are the same product. -/
theorem same_of_value (ha : Canonical a) (hb : Canonical b)
    (h : ∀ name, a.value (only name) = b.value (only name)) : a.same b = true := by
  have forth := subset_of_value ha hb h
  have back := subset_of_value hb ha fun name => (h name).symm
  have short := ((List.Nodup.of_map _ ha.nodup).subperm forth).length_le
  have long := ((List.Nodup.of_map _ hb.nodup).subperm back).length_le
  rw [same, Bool.and_eq_true, beq_iff_eq, List.all_eq_true]
  exact ⟨Nat.le_antisymm short long, fun q hq => List.contains_iff_mem.mpr (forth hq)⟩

end FluidChip.Quantity.Powers
