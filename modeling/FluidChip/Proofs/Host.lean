import FluidChip.Host
import FluidChip.Proofs.Number.Arithmetic

/-!
# Powers on a host

What the rules need of the powers that a host gives them: a power that fits into the
doubles is off by less than a factor of two, unless it is near the least of them, and
one that does not fit is refused.  Libraries for doubles are more exact than that, and
the powers of the standard host are rounded to the nearest double.
-/

namespace FluidChip

open Number

namespace Number

/-- A double that stands for a rational below the end of the doubles. -/
structure Approximates (q : ℚ) (y : Float) : Prop where
  nonNegative : NonNegative y
  pos_iff : 0 < rationalOf y ↔ leastHalf < q
  within : 4 * leastHalf ≤ q → q / 2 ≤ rationalOf y ∧ rationalOf y ≤ 2 * q

variable {q : ℚ} {y : Float}

theorem Rounds.approximates (h : Rounds q y) (below : q < limit) : Approximates q y :=
  ⟨h.nonNegative below, h.rationalOf_pos_iff below, fun low => h.within low below⟩

/-- What is at most half the least double is lost. -/
theorem Approximates.lost (h : Approximates q y) (small : q ≤ leastHalf) : rationalOf y = 0 := by
  have none : ¬ 0 < rationalOf y := fun pos => small.not_gt (h.pos_iff.mp pos)
  exact le_antisymm (not_lt.mp none) h.nonNegative.rationalOf_nonneg

end Number

/-- The powers of a host are good enough for the rules, which square lengths, and take
the third and the fourth power of the measures of channels. -/
structure Host.Powers (host : Host) : Prop where
  fits : ∀ {x : Float} {n : Nat}, NonNegative x → n ≤ 4 → rationalOf x ^ n < limit →
    ∃ y, host.power? x n = some y ∧ Approximates (rationalOf x ^ n) y
  refused : ∀ {x : Float} {n : Nat}, NonNegative x → n ≤ 4 → limit ≤ rationalOf x ^ n →
    host.power? x n = none

theorem Host.powers_standard : Host.standard.Powers where
  fits nonNegative _ below := by
    obtain ⟨y, powered, rounds⟩ := power?_below nonNegative below
    exact ⟨y, powered, rounds.approximates below⟩
  refused nonNegative _ large := power?_above nonNegative large

end FluidChip
