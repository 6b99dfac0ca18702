import FluidChip.FileTree
import FluidChip.Proofs.Outcome

/-!
# Replacing a file

A file is replaced by way of a partial one.  Where nothing stands under the
partial name, the tree ends up with the new file and otherwise as it was, or as
it was altogether.
-/

namespace FluidChip.FileTree

open Outcome

variable {t : FileTree} {place other : List String} {content : List UInt8}

/-! ## Putting and removing -/

theorem ne_nil_of_find? (h : t.find? place ≠ some .directory) : place ≠ [] := by
  rintro rfl
  exact h rfl

theorem find?_of_ne_nil (h : place ≠ []) : t.find? place = t.entries.find? (key place) :=
  if_neg h

theorem find?_put_self (h : place ≠ []) (entry : Entry) :
    (t.put place entry).find? place = some entry := by
  rw [find?_of_ne_nil h, put]
  exact Catalog.find?_set_self

theorem find?_put_of_ne (h : key other ≠ key place) (entry : Entry) :
    (t.put place entry).find? other = t.find? other := by
  unfold find?
  split
  · rfl
  · exact Catalog.find?_set_of_ne h

theorem remove_put (h : t.find? place = none) (entry : Entry) :
    (t.put place entry).remove place = t := by
  have inner : place ≠ [] := ne_nil_of_find? (t := t) (by simp [h])
  rw [find?_of_ne_nil inner, Catalog.find?_eq_none_iff] at h
  simp only [remove, put, Catalog.erase_set_of_notMem h]

/-! ## Ways past a new file -/

section NewFile

variable (blocked : t.find? place ≠ some .directory)

include blocked

theorem find?_put_directory_iff :
    (t.put place (.file content)).find? other = some .directory ↔
      t.find? other = some .directory := by
  by_cases root : other = []
  · simp [find?, root]
  by_cases same : key other = key place
  · have inner := ne_nil_of_find? blocked
    rw [find?_of_ne_nil inner, ← same] at blocked
    rw [find?_of_ne_nil root, find?_of_ne_nil root, put, same, Catalog.find?_set_self, ← same]
    simp [blocked]
  · rw [find?_put_of_ne same]

/-- A way leads through directories only, and a new file is none of them. -/
theorem walk_put_ok_iff {text : String} {start names goal : List String} :
    (t.put place (.file content)).walk text start names = .ok goal ↔
      t.walk text start names = .ok goal := by
  have walk_cons (u : FileTree) (start : List String) (name : String) (rest : List String) :
      u.walk text start (name :: rest) = .ok goal ↔
        u.find? start = some .directory ∧
          (if name = ".." then u.walk text start.dropLast rest
          else if longestName < name.utf8ByteSize then .error (.nameTooLong text)
          else u.walk text (start ++ [name]) rest) = .ok goal := by
    rw [walk]
    cases u.find? start with
    | none => simp
    | some entry => cases entry <;> simp
  induction names generalizing start with
  | nil => simp [walk]
  | cons name rest ih =>
      rw [walk_cons, walk_cons, find?_put_directory_iff blocked]
      refine and_congr_right fun _ => ?_
      split
      · exact ih
      split
      · rfl
      · exact ih

theorem locate_put_ok_iff {p : Path} :
    (t.put place (.file content)).locate p = .ok other ↔ t.locate p = .ok other := by
  unfold locate
  split
  · rfl
  split
  · rfl
  · exact walk_put_ok_iff blocked

end NewFile

/-! ## Replacing -/

/-- Whether a partial file can be made, and renamed to its target. -/
structure Replaceable (t : FileTree) (source target : Path) : Prop where
  source : ∃ place, t.locate source = .ok place
  target : ∃ place, t.locate target = .ok place ∧ t.find? place ≠ some .directory

/-- A new file at one place, and all else as it was. -/
structure Replaced (before after : FileTree) (place : List String) (content : List UInt8) :
    Prop where
  here : after.here = before.here
  found : after.find? place = some (.file content)
  others : ∀ other, key other ≠ key place → after.find? other = before.find? other

theorem replaced_put (h : t.find? place ≠ some .directory) :
    t.Replaced (t.put place (.file content)) place content :=
  ⟨rfl, find?_put_self (ne_nil_of_find? h) _, fun _ ne => find?_put_of_ne ne _⟩

section Replace

variable {source target : Path} (located : t.locate source = .ok place)
  (free : t.find? place = none)

include located free

theorem write_of_free (content : List UInt8) :
    t.write source content = .ok (t.put place (.file content)) := by
  simp [write, located, free, bind, Except.bind]

theorem discard_put (content : List UInt8) :
    (t.put place (.file content)).discard source = t := by
  have blocked : t.find? place ≠ some .directory := by simp [free]
  have found := find?_put_self (t := t) (ne_nil_of_find? blocked) (.file content)
  simp only [discard, (locate_put_ok_iff blocked).mpr located, found, remove_put free]

theorem rename_put {goal : List String} (reached : t.locate target = .ok goal)
    (content : List UInt8) :
    (t.put place (.file content)).rename source target =
      if t.find? goal = some .directory then .error (.overDirectory source.text target.text)
      else .ok (t.put goal (.file content)) := by
  have blocked : t.find? place ≠ some .directory := by simp [free]
  have found := find?_put_self (t := t) (ne_nil_of_find? blocked) (.file content)
  have directory : (t.put place (.file content)).find? goal = some .directory ↔
      t.find? goal = some .directory := find?_put_directory_iff blocked
  simp only [rename, (locate_put_ok_iff blocked).mpr located,
    (locate_put_ok_iff blocked).mpr reached, bind, Except.bind, found, remove_put free]
  by_cases taken : t.find? goal = some .directory
  · rw [directory.mpr taken, if_pos taken]
  · rw [if_neg taken]
    split
    · contradiction
    · rename_i stands
      exact absurd (directory.mp stands) taken
    · rename_i same _
      cases same
      rfl

theorem replace_of_free (content : List UInt8) :
    (∃ goal, t.locate target = .ok goal ∧ t.find? goal ≠ some .directory ∧
      t.replace source target content = (t.put goal (.file content), .ok ())) ∨
    (¬ t.Replaceable source target ∧
      ∃ fault, t.replace source target content = (t, .error fault)) := by
  have blocked : t.find? place ≠ some .directory := by simp [free]
  simp only [replace, write_of_free located free, discard_put located free]
  cases reached : t.locate target with
  | ok goal =>
      rw [rename_put located free reached]
      by_cases taken : t.find? goal = some .directory
      · refine .inr ⟨?_, _, by rw [if_pos taken]⟩
        rintro ⟨-, other, same, clear⟩
        cases reached.symm.trans same
        exact clear taken
      · exact .inl ⟨goal, rfl, taken, by rw [if_neg taken]⟩
  | error fault =>
      refine .inr ⟨?_, ?_⟩
      · rintro ⟨-, goal, same, -⟩
        cases reached.symm.trans same
      · cases moved : (t.put place (.file content)).rename source target with
        | error fault => exact ⟨fault, rfl⟩
        | ok after =>
            simp only [rename, bind_ok_iff] at moved
            obtain ⟨-, -, goal, same, -⟩ := moved
            cases reached.symm.trans ((locate_put_ok_iff blocked).mp same)

end Replace

/-- Where nothing stands under the partial name, a target is replaced whenever it
can be, and nothing else ever changes. -/
theorem replace_cases {source : Path} (target : Path) (content : List UInt8)
    (free : ∀ place, t.locate source = .ok place → t.find? place = none) :
    (∃ goal after, after.locate target = .ok goal ∧ t.Replaced after goal content ∧
      t.replace source target content = (after, .ok ())) ∨
    (¬ t.Replaceable source target ∧
      ∃ fault, t.replace source target content = (t, .error fault)) := by
  cases located : t.locate source with
  | ok place =>
      rcases replace_of_free located (free place located) content with
        ⟨goal, reached, clear, same⟩ | stuck
      · exact .inl ⟨goal, _, (locate_put_ok_iff clear).mpr reached, replaced_put clear, same⟩
      · exact .inr stuck
  | error fault =>
      refine .inr ⟨?_, fault, ?_⟩
      · rintro ⟨⟨place, same⟩, -⟩
        cases located.symm.trans same
      · simp [replace, write, located, bind, Except.bind]

end FluidChip.FileTree
