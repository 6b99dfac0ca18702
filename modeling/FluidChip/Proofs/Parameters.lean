import FluidChip.Parameters
import FluidChip.Proofs.Number.Written
import FluidChip.Proofs.Outcome

/-!
# Parameters in range

Parameters that are built from numbers have passed the check of every field, so
the numbers that their lengths write are positive.
-/

namespace FluidChip

open Outcome

def Quantity.Magnitude.written (m : Quantity.Magnitude) : ℚ :=
  match m.toFloat with
  | .ok x => Number.written x
  | .error _ => 0

theorem Quantity.Magnitude.written_of_toFloat {m : Quantity.Magnitude} {x : Float}
    (h : m.toFloat = .ok x) : m.written = Number.written x := by
  rw [Quantity.Magnitude.written, h]

namespace Parameters

variable {host : Host} {value : Field → Value} {p : Parameters}

theorem numberProblem?_ok_none {f : Field} {v : Value}
    (h : numberProblem? host f v = .ok none) :
    ∃ m x, magnitude? v = some m ∧ m.toFloat = .ok x ∧ rangeProblem? f x = none := by
  unfold numberProblem? at h
  split at h
  · obtain ⟨problem, -, same⟩ := bind_ok_iff.mp h
    cases same
  · rename_i m read
    split at h
    · cases h
    · rename_i x ok
      exact ⟨m, x, read, ok, Except.ok.inj h⟩

theorem inRange_of_ofNumbers (h : ofNumbers host value = .ok p) (f : Field) :
    ∃ x, (p.get f).toFloat = .ok x ∧ rangeProblem? f x = none := by
  obtain ⟨problems, checked, h⟩ := bind_ok_iff.mp h
  have hf : f ∈ Field.all := by
    cases f <;> simp [Field.all]
  obtain ⟨problem, mem, ok⟩ := result_of_step checked hf
  split at h
  · rename_i empty
    have none : problem = none := List.filterMap_eq_nil_iff.mp empty problem mem
    subst none
    obtain ⟨m, x, read, toFloat, inRange⟩ := numberProblem?_ok_none ok
    obtain rfl := Except.ok.inj h
    have get : (ofFields fun f => (magnitude? (value f)).getD (.float 0.0)).get f = m := by
      cases f <;> simp [ofFields, get, read]
    exact ⟨x, get ▸ toFloat, inRange⟩
  · cases h

theorem positive_of_rangeProblem? {f : Field} (isLength : f ≠ .crossingAngle) {x : Float}
    (h : rangeProblem? f x = none) : Number.isFinite x = true ∧ ¬ x ≤ 0.0 := by
  unfold rangeProblem? at h
  split at h
  · cases h
  · rename_i finite
    refine ⟨by simpa using finite, fun le => ?_⟩
    cases f <;> simp [le] at h isLength

theorem written_pos_of_ofNumbers (h : ofNumbers host value = .ok p) {f : Field}
    (isLength : f ≠ .crossingAngle) : 0 < (p.get f).written := by
  obtain ⟨x, toFloat, inRange⟩ := inRange_of_ofNumbers h f
  obtain ⟨finite, positive⟩ := positive_of_rangeProblem? isLength inRange
  rw [Quantity.Magnitude.written_of_toFloat toFloat]
  exact Number.written_pos finite positive

end Parameters

end FluidChip
