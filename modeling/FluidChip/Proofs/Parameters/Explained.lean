import FluidChip.Attributes
import FluidChip.Proofs.Parameters.Reading

/-!
# Explained readings

Attributes and parameters read their values in the same way.  Whatever cannot be read is
explained by the reader, with two exceptions.  A fault of a class that no reader handles
passes both readers as it is; and an explanation repeats the value and the fault, so it
fails where one of them has no text.
-/

namespace FluidChip

open Quantity Number

variable {host : Host} {m : Measure} {v : Value}

/-! ## Values that escape -/

/-- What a value ends in that is neither read nor explained. -/
inductive Escape where
  | passed (fault : Quantity.Fault)
  | unspoken (limit : Limit)

/-- A value passes its readers with a fault that they do not handle, or with one that they
cannot tell. -/
inductive Escapes (host : Host) (m : Measure) (v : Value) : Escape → Prop
  | passed {fault : Quantity.Fault} (failed : host.units.toMagnitude v m = .error fault)
      (passes : fault.escapes = true) : Escapes host m v (.passed fault)
  | unspoken {fault : Quantity.Fault} {limit : Limit}
      (failed : host.units.toMagnitude v m = .error fault) (handled : fault.escapes = false)
      (silence : Parameters.silence? host v fault = some limit) :
      Escapes host m v (.unspoken limit)

/-- A value that does not escape, where reading it fails. -/
theorem told_of_contained {fault : Quantity.Fault}
    (failed : host.units.toMagnitude v m = .error fault) (contained : ∀ e, ¬ Escapes host m v e) :
    fault.escapes = false ∧ Parameters.silence? host v fault = none := by
  have handled : fault.escapes = false :=
    Bool.eq_false_iff.mpr fun passes => contained _ (.passed failed passes)
  refine ⟨handled, Option.eq_none_iff_forall_ne_some.mpr fun limit silence => ?_⟩
  exact contained _ (.unspoken failed handled silence)

theorem not_escapes_float (x : Float) (e : Escape) : ¬ Escapes host m (.float x) e := by
  have read := host.units.toMagnitude_float x m
  rintro (⟨failed, -⟩ | ⟨failed, -, -⟩) <;> cases read.symm.trans failed

theorem not_escapes_bool (b : Bool) (e : Escape) : ¬ Escapes host m (.bool b) e := by
  rintro (⟨failed, passes⟩ | ⟨failed, -, silence⟩)
  · cases failed
    cases passes
  · cases failed
    cases silence

theorem escapes_int_iff {k : Int} {e : Escape} : Escapes host m (.int k) e ↔
    isFinite (ofInt k) = false ∧ e = .passed (.arithmetic .tooLarge) := by
  constructor
  · rintro (⟨failed, passes⟩ | ⟨failed, handled, -⟩)
    · obtain ⟨wide, rfl⟩ := UnitLibrary.toMagnitude_int_error_iff.mp failed
      exact ⟨wide, rfl⟩
    · obtain ⟨-, rfl⟩ := UnitLibrary.toMagnitude_int_error_iff.mp failed
      cases handled
  · rintro ⟨wide, rfl⟩
    exact .passed (UnitLibrary.toMagnitude_int_error_iff.mpr ⟨wide, rfl⟩) rfl

/-! ## Attributes -/

namespace Attributes

variable {attributes : Attributes} {key owner : String}

/-- An attribute escapes as any value does, and where it is too large a number to be told
of and has no text. -/
inductive Escapes (host : Host) (m : Measure) (v : Value) : Escape → Prop
  | reading {e : Escape} (escapes : FluidChip.Escapes host m v e) : Escapes host m v e
  | infinite {x : Float} {limit : Limit} (read : host.units.toMagnitude v m = .ok x)
      (infinite : isFinite x = false) (silence : host.limit? v = some limit) :
      Escapes host m v (.unspoken limit)

/-- How reading an attribute fails with what it escapes with. -/
def FailsWith (r : Except Failure (Option Float)) : Escape → Prop
  | .passed fault => r = .error (.quantity fault)
  | .unspoken limit => ∃ fault, r = .error (.untold limit (.topology fault))

theorem quantity?_eq_none_iff : attributes.quantity? host key m owner = .ok none ↔
    ∀ v, attributes.find? key = some v → v = .null := by
  unfold quantity?
  split
  · rename_i absent
    simp [absent]
  · rename_i null
    simp [null]
  · rename_i v something given
    have something : v ≠ .null := something
    refine iff_of_false ?_ fun all => something (all v given)
    split
    · split <;> nofun
    · split <;> nofun

theorem quantity?_of_given (given : attributes.find? key = some v) (something : v ≠ .null) :
    attributes.quantity? host key m owner = match host.units.toMagnitude v m with
      | .error fault =>
        if fault.escapes then .error (.quantity fault)
        else .error (.told (Parameters.silence? host v fault)
          (.topology (.unreadable key owner v.shown m.name fault)))
      | .ok x =>
        if isFinite x then .ok (some x)
        else .error (.told (host.limit? v) (.topology (.notFinite key owner v.shown))) := by
  unfold quantity?
  rw [given]
  split
  · rename_i absent
    cases absent
  · rename_i null
    exact absurd (Option.some.inj null) something
  · rename_i there
    obtain rfl := Option.some.inj there
    rfl

theorem quantity?_escapes (given : attributes.find? key = some v) (something : v ≠ .null)
    {e : Escape} (escapes : Escapes host m v e) :
    FailsWith (attributes.quantity? host key m owner) e := by
  rw [quantity?_of_given given something]
  cases escapes with
  | reading escapes =>
      cases escapes with
      | passed failed passes =>
          rw [failed]
          exact if_pos passes
      | unspoken failed handled silence =>
          rw [failed]
          simp only [handled, silence]
          exact ⟨_, rfl⟩
  | infinite read infinite silence =>
      rw [read]
      simp only [infinite, silence]
      exact ⟨_, rfl⟩

theorem quantity?_explained (given : attributes.find? key = some v) (something : v ≠ .null)
    (contained : ∀ e, ¬ Escapes host m v e) :
    (∃ x, attributes.quantity? host key m owner = .ok (some x) ∧ isFinite x = true) ∨
      ∃ fault, attributes.quantity? host key m owner = .error (.topology fault) := by
  rw [quantity?_of_given given something]
  split
  · rename_i fault failed
    obtain ⟨handled, told⟩ := told_of_contained failed fun e escapes =>
      contained e (.reading escapes)
    simp only [handled, told]
    exact .inr ⟨_, rfl⟩
  · rename_i x read
    split
    · rename_i finite
      exact .inl ⟨x, rfl, finite⟩
    · rename_i infinite
      cases silence : host.limit? v with
      | none => exact .inr ⟨_, rfl⟩
      | some limit =>
          exact absurd (.infinite read (Bool.eq_false_iff.mpr infinite) silence) (contained _)

end Attributes

/-! ## Parameters -/

namespace Parameters

open Outcome

variable {raw : Catalog Value} {source : Source}

/-- How reading parameters fails with what a value escapes with. -/
def failureOf : Escape → Failure
  | .passed fault => .escaped fault
  | .unspoken limit => .untellable (.noText limit)

/-- A value given for a field escapes. -/
structure LetsEscape (host : Host) (raw : Catalog Value) (f : Field) (v : Value)
    (e : Escape) : Prop where
  given : raw.find? f.name = some v
  something : v ≠ .null
  escapes : Escapes host f.measure v e

theorem read_explained (contained : ∀ f v e, ¬ LetsEscape host raw f v e) (source : Source) :
    (∃ p, Parameters.read host raw source = .ok p) ∨
      ∃ ps, Parameters.read host raw source = .error (rejection host raw source ps) := by
  have told {f : Field} {v : Value} {fault : Quantity.Fault}
      (refused : Refused host raw f v fault) :=
    told_of_contained refused.refused fun e escapes =>
      contained f v e ⟨refused.given, refused.something, escapes⟩
  by_cases reads : ∀ f, ∃ x, Reads host raw f x
  · choose value reads using reads
    exact .inl ⟨_, read_of_reads reads source⟩
  · obtain ⟨reading, read⟩ := exists_readings (fun _ _ _ refused => (told refused).1)
      fun _ _ _ refused => (told refused).2
    obtain ⟨ps, failed, -⟩ := read_rejected read reads source
    exact .inr ⟨ps, failed⟩

/-- Some value that escapes is what the reading fails with. -/
theorem read_escapes (escapes : ∃ f v e, LetsEscape host raw f v e) (source : Source) :
    ∃ f v e, LetsEscape host raw f v e ∧
      Parameters.read host raw source = .error (failureOf e) := by
  have unread : ¬ ∃ reading, Readings host raw reading := by
    rintro ⟨reading, read⟩
    obtain ⟨f, v, e, given, something, escapes⟩ := escapes
    cases escapes with
    | passed failed passes =>
        have told := told_of_readField ⟨given, something, failed⟩ (read f)
        cases told.1.symm.trans passes
    | unspoken failed handled silence =>
        have told := told_of_readField ⟨given, something, failed⟩ (read f)
        cases told.2.symm.trans silence
  obtain ⟨f, failure, failed, same⟩ := read_failed unread source
  have ends := failed ▸ ends_readField host raw f
  rw [same]
  cases ends with
  | escaped refused passes =>
      exact ⟨f, _, _, ⟨refused.given, refused.something, .passed refused.refused passes⟩, rfl⟩
  | silent refused handled silence =>
      exact ⟨f, _, _,
        ⟨refused.given, refused.something, .unspoken refused.refused handled silence⟩, rfl⟩

theorem rejection_cases (host : Host) (raw : Catalog Value) (source : Source)
    (ps : List Problem) :
    (∀ q ∈ raw.entries, host.limit? q.2 = none) ∧
        rejection host raw source ps = .rejected ⟨.problems ps, source, userInput raw⟩ ∨
      ∃ q ∈ raw.entries, ∃ limit, host.limit? q.2 = some limit ∧
        rejection host raw source ps = .untold ⟨.problems ps, source, none⟩ limit := by
  unfold rejection
  split
  · rename_i spoken
    exact .inl ⟨given_spoken_iff.mp spoken, rfl⟩
  · rename_i limit silent
    obtain ⟨q, listed, hit⟩ := List.exists_of_findSome?_eq_some silent
    exact .inr ⟨q, (mem_given.mp listed).1, limit, hit, rfl⟩

end Parameters

/-! ## Both readers -/

theorem one_over_zero (m : Measure) : Host.standard.units.toMagnitude (.text "1/0") m =
    .error (.arithmetic .integerDivisionByZero) := by
  rfl

end FluidChip
