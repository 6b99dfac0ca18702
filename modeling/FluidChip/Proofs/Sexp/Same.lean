import FluidChip.Sexp
import FluidChip.Proofs.Number.Double

/-!
# Structural equality

Expressions are the same when their structure is and their literals are equal as
numbers.  This is an equivalence, which for literals rests on all of them being
finite.
-/

namespace FluidChip

open Number

/-! ## Literals -/

namespace Literal

theorem same_refl (r : Literal) : (r.value == r.value) = true := by
  obtain ⟨_, _, _, reading⟩ := finite_of_isFinite r.finite
  exact (reading.beq_iff reading).mpr (.inr ⟨rfl, rfl, rfl⟩)

theorem same_symm {a b : Literal} (h : (a.value == b.value) = true) :
    (b.value == a.value) = true := by
  obtain ⟨_, _, _, first⟩ := finite_of_isFinite a.finite
  obtain ⟨_, _, _, second⟩ := finite_of_isFinite b.finite
  rw [first.beq_iff second] at h
  rw [second.beq_iff first]
  rcases h with ⟨none, none'⟩ | ⟨rfl, rfl, rfl⟩
  · exact .inl ⟨none', none⟩
  · exact .inr ⟨rfl, rfl, rfl⟩

theorem same_trans {a b c : Literal} (hab : (a.value == b.value) = true)
    (hbc : (b.value == c.value) = true) : (a.value == c.value) = true := by
  obtain ⟨_, _, _, first⟩ := finite_of_isFinite a.finite
  obtain ⟨_, _, _, second⟩ := finite_of_isFinite b.finite
  obtain ⟨_, _, _, third⟩ := finite_of_isFinite c.finite
  rw [first.beq_iff second] at hab
  rw [second.beq_iff third] at hbc
  rw [first.beq_iff third]
  rcases hab with ⟨none, none'⟩ | ⟨rfl, rfl, rfl⟩
  · rcases hbc with ⟨-, none''⟩ | ⟨-, rfl, -⟩
    · exact .inl ⟨none, none''⟩
    · exact .inl ⟨none, none'⟩
  · exact hbc

end Literal

/-! ## Expressions -/

namespace Sexp

mutual

theorem same_refl : (a : Sexp) → a.same a = true
  | .symbol s => by simp [same]
  | .literal r => by rw [same]; exact r.same_refl
  | .noArguments => by rw [same]
  | .form a as => by rw [same, same_refl a, sameAll_refl as]; rfl

theorem sameAll_refl : (as : List Sexp) → sameAll as as = true
  | [] => by rw [sameAll]
  | a :: as => by rw [sameAll, same_refl a, sameAll_refl as]; rfl

end

mutual

theorem same_symm : {a b : Sexp} → a.same b = true → b.same a = true
  | .symbol s, .symbol t, h => by simp_all [same]
  | .literal r, .literal s, h => by
    rw [same] at *
    exact Literal.same_symm h
  | .noArguments, .noArguments, h => h
  | .form a as, .form b bs, h => by
    rw [same, Bool.and_eq_true] at *
    exact ⟨same_symm h.1, sameAll_symm h.2⟩

theorem sameAll_symm : {as bs : List Sexp} → sameAll as bs = true → sameAll bs as = true
  | [], [], h => h
  | a :: as, b :: bs, h => by
    rw [sameAll, Bool.and_eq_true] at *
    exact ⟨same_symm h.1, sameAll_symm h.2⟩

end

mutual

theorem same_trans : {a b c : Sexp} → a.same b = true → b.same c = true → a.same c = true
  | .symbol s, .symbol t, .symbol u, hab, hbc => by simp_all [same]
  | .literal r, .literal s, .literal t, hab, hbc => by
    rw [same] at *
    exact Literal.same_trans hab hbc
  | .noArguments, .noArguments, .noArguments, hab, hbc => hbc
  | .form a as, .form b bs, .form c cs, hab, hbc => by
    rw [same, Bool.and_eq_true] at *
    exact ⟨same_trans hab.1 hbc.1, sameAll_trans hab.2 hbc.2⟩

theorem sameAll_trans : {as bs cs : List Sexp} → sameAll as bs = true →
    sameAll bs cs = true → sameAll as cs = true
  | [], [], [], hab, hbc => hbc
  | a :: as, b :: bs, c :: cs, hab, hbc => by
    rw [sameAll, Bool.and_eq_true] at *
    exact ⟨same_trans hab.1 hbc.1, sameAll_trans hab.2 hbc.2⟩

end

end Sexp

end FluidChip
