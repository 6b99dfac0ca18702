import FluidChip.Proofs.Document
import Mathlib.Data.List.Perm.Basic

/-!
# Arranged problems

Putting problems in order keeps every one of them.  It succeeds if no check was left
undecided and any two of the places can be compared, wherever they come to meet.
-/

namespace FluidChip.Document

variable {problems arranged made run others : List Problem} {p last : Problem}
  {descending : Bool}

/-! ## Nothing is lost -/

theorem splitRun_append (h : splitRun descending last problems = some (run, others)) :
    run ++ others = problems := by
  induction problems generalizing last run others with
  | nil =>
      cases h
      rfl
  | cons p rest ih =>
      obtain ⟨before, -, h⟩ := Option.bind_eq_some_iff.mp h
      split at h
      · obtain ⟨⟨more, left⟩, split, h⟩ := Option.bind_eq_some_iff.mp h
        cases h
        rw [List.cons_append, ih split]
      · cases h
        rfl

theorem openingRun_perm (h : openingRun problems = some (run, others)) :
    (run ++ others).Perm problems := by
  match problems with
  | [] =>
      cases h
      exact .refl _
  | [p] =>
      cases h
      exact .refl _
  | first :: second :: rest =>
      obtain ⟨descending, -, h⟩ := Option.bind_eq_some_iff.mp h
      obtain ⟨⟨more, left⟩, split, h⟩ := Option.bind_eq_some_iff.mp h
      cases h
      rw [← splitRun_append split]
      split
      · exact (List.reverse_perm _).append_right others
      · exact .refl _

theorem insert?_perm (h : insert? arranged p = some made) : made.Perm (p :: arranged) := by
  obtain ⟨place, -, h⟩ := Option.bind_eq_some_iff.mp h
  cases h
  have whole : (p :: (arranged.take place ++ arranged.drop place)).Perm (p :: arranged) := by
    rw [List.take_append_drop]
  exact List.perm_middle.trans whole

theorem foldlM_insert?_perm (h : others.foldlM insert? run = some made) :
    made.Perm (run ++ others) := by
  induction others generalizing run with
  | nil =>
      cases h
      rw [List.append_nil]
  | cons p rest ih =>
      obtain ⟨next, inserted, h⟩ := Option.bind_eq_some_iff.mp h
      have onward := (ih h).trans ((insert?_perm inserted).append_right rest)
      exact onward.trans List.perm_middle.symm

theorem order?_perm (h : order? problems = some made) : made.Perm problems := by
  obtain ⟨⟨run, others⟩, opening, h⟩ := Option.bind_eq_some_iff.mp h
  exact (foldlM_insert?_perm h).trans (openingRun_perm opening)

theorem foldlM_add?_perm {c c' : Collection} (h : problems.foldlM Collection.add? c = some c') :
    c'.ordered.Perm (c.ordered ++ problems) := by
  induction problems generalizing c with
  | nil =>
      cases h
      rw [List.append_nil]
  | cons p rest ih =>
      obtain ⟨next, added, h⟩ := Option.bind_eq_some_iff.mp h
      obtain ⟨ordered, found, added⟩ := Option.bind_eq_some_iff.mp added
      obtain ⟨byRule, -, added⟩ := Option.bind_eq_some_iff.mp added
      cases added
      have onward := (ih h).trans ((order?_perm found).append_right rest)
      rwa [List.append_assoc] at onward

theorem collect?_perm (h : collect? problems = some made) : made.Perm problems := by
  obtain ⟨c, folded, rfl⟩ := Option.map_eq_some_iff.mp h
  exact foldlM_add?_perm folded

namespace Problem

mutual

/-- The places of a problem and of those inside of it. -/
def places : Problem → List Place
  | .single place _ => [place]
  | .group place parts => place :: placesOf parts
  | .undecidable _ => []

def placesOf : List Problem → List Place
  | [] => []
  | p :: rest => p.places ++ placesOf rest

end

theorem leavesOf_eq (problems : List Problem) : leavesOf problems = problems.flatMap leaves := by
  induction problems with
  | nil => rw [leavesOf, List.flatMap_nil]
  | cons p rest ih => rw [leavesOf, ih, List.flatMap_cons]

theorem placesOf_eq (problems : List Problem) : placesOf problems = problems.flatMap places := by
  induction problems with
  | nil => rw [placesOf, List.flatMap_nil]
  | cons p rest ih => rw [placesOf, ih, List.flatMap_cons]

theorem anyUndecided_eq (problems : List Problem) :
    anyUndecided problems = problems.any isUndecided := by
  induction problems with
  | nil => rw [anyUndecided, List.any_nil]
  | cons p rest ih => rw [anyUndecided, ih, List.any_cons]

/-- One problem has the same parts as another, in some order. -/
structure Alike (p q : Problem) : Prop where
  leaves : p.leaves.Perm q.leaves
  places : p.places.Perm q.places
  decided : p.isUndecided = false ∧ q.isUndecided = false

structure AllAlike (ps qs : List Problem) : Prop where
  leaves : (leavesOf ps).Perm (leavesOf qs)
  places : (placesOf ps).Perm (placesOf qs)
  decided : anyUndecided ps = false ∧ anyUndecided qs = false

theorem AllAlike.of_perm {ps ps' qs : List Problem} (h : ps'.Perm ps) (alike : AllAlike ps qs) :
    AllAlike ps' qs := by
  refine ⟨.trans ?_ alike.leaves, .trans ?_ alike.places, ?_, alike.decided.2⟩
  · rw [leavesOf_eq, leavesOf_eq]
    exact h.flatMap_right _
  · rw [placesOf_eq, placesOf_eq]
    exact h.flatMap_right _
  · rw [anyUndecided_eq, h.any_eq, ← anyUndecided_eq]
    exact alike.decided.1

mutual

theorem alike_of_arranged? (p : Problem) {q : Problem} (h : p.arranged? = some q) :
    Alike q p := by
  match p with
  | .single place reason =>
      cases h
      exact ⟨.refl _, .refl _, rfl, rfl⟩
  | .group place parts =>
      obtain ⟨inside, each, h⟩ := Option.bind_eq_some_iff.mp h
      obtain ⟨collected, order, h⟩ := Option.bind_eq_some_iff.mp h
      cases h
      have alike := (allAlike_of_arrangedAll? parts each).of_perm (collect?_perm order)
      exact ⟨alike.leaves, alike.places.cons place, alike.decided⟩
termination_by structural p

theorem allAlike_of_arrangedAll? (ps : List Problem) {qs : List Problem}
    (h : arrangedAll? ps = some qs) : AllAlike qs ps := by
  match ps with
  | [] =>
      cases h
      exact ⟨.refl _, .refl _, rfl, rfl⟩
  | p :: rest =>
      obtain ⟨first, here, h⟩ := Option.bind_eq_some_iff.mp h
      obtain ⟨later, there, h⟩ := Option.bind_eq_some_iff.mp h
      cases h
      have alike := alike_of_arranged? p here
      have others := allAlike_of_arrangedAll? rest there
      refine ⟨alike.leaves.append others.leaves, alike.places.append others.places, ?_, ?_⟩
      · rw [anyUndecided, alike.decided.1, others.decided.1]
        rfl
      · rw [anyUndecided, alike.decided.2, others.decided.2]
        rfl
termination_by structural ps

end

end Problem

theorem allAlike_of_arrange? (h : arrange? problems = some made) :
    Problem.AllAlike made problems := by
  obtain ⟨parts, each, h⟩ := Option.bind_eq_some_iff.mp h
  exact (Problem.allAlike_of_arrangedAll? problems each).of_perm (collect?_perm h)

/-! ## Places that can be compared -/

/-- Of any two places in a class, it can be told whether the one precedes the other. -/
def Comparable (S : Place → Prop) : Prop :=
  ∀ p q, S p → S q → ∃ before, p.before? q = some before

variable {S : Place → Prop}

theorem splitRun_isSome (comparable : Comparable S) (start : S last.place)
    (each : ∀ p ∈ problems, S p.place) :
    ∃ result, splitRun descending last problems = some result := by
  induction problems generalizing last with
  | nil => exact ⟨_, rfl⟩
  | cons p rest ih =>
      obtain ⟨here, later⟩ := List.forall_mem_cons.mp each
      obtain ⟨before, compared⟩ := comparable _ _ here start
      obtain ⟨result, split⟩ := ih here later
      rw [splitRun, Problem.before?, compared]
      by_cases same : before = descending
      · simp [same, split]
      · simp [same]

theorem openingRun_isSome (comparable : Comparable S) (each : ∀ p ∈ problems, S p.place) :
    ∃ result, openingRun problems = some result := by
  match problems with
  | [] => exact ⟨_, rfl⟩
  | [p] => exact ⟨_, rfl⟩
  | first :: second :: rest =>
      obtain ⟨one, others⟩ := List.forall_mem_cons.mp each
      obtain ⟨two, later⟩ := List.forall_mem_cons.mp others
      obtain ⟨before, compared⟩ := comparable _ _ two one
      have opened : ∃ result, splitRun before second rest = some result :=
        splitRun_isSome comparable two later
      obtain ⟨result, split⟩ := opened
      rw [openingRun, Problem.before?, compared]
      simp [split]

theorem position?_isSome (comparable : Comparable S) (here : S p.place)
    (each : ∀ q ∈ arranged, S q.place) (low high : Nat) :
    ∃ place, position? p arranged low high = some place := by
  fun_induction position? p arranged low high with
  | case1 => exact ⟨_, rfl⟩
  | case2 low high below middle other found unordered =>
      have there := each other (List.mem_of_getElem? found)
      obtain ⟨before, compared⟩ := comparable _ _ here there
      cases unordered.symm.trans compared
  | case3 _ _ _ _ _ _ _ ih => exact ih
  | case4 _ _ _ _ _ _ _ ih => exact ih
  | case5 => exact ⟨_, rfl⟩

theorem insert?_isSome (comparable : Comparable S) (here : S p.place)
    (each : ∀ q ∈ arranged, S q.place) :
    ∃ made, insert? arranged p = some made := by
  obtain ⟨place, found⟩ := position?_isSome comparable here each 0 arranged.length
  exact ⟨_, Option.bind_eq_some_iff.mpr ⟨place, found, rfl⟩⟩

theorem foldlM_insert?_isSome (comparable : Comparable S) (start : ∀ q ∈ run, S q.place)
    (each : ∀ p ∈ others, S p.place) :
    ∃ made, others.foldlM insert? run = some made := by
  induction others generalizing run with
  | nil => exact ⟨run, rfl⟩
  | cons p rest ih =>
      obtain ⟨here, later⟩ := List.forall_mem_cons.mp each
      obtain ⟨next, inserted⟩ := insert?_isSome comparable here start
      have onward : ∀ q ∈ next, S q.place := by
        intro q listed
        rcases List.mem_cons.mp ((insert?_perm inserted).mem_iff.mp listed) with rfl | old
        · exact here
        · exact start q old
      obtain ⟨made, folded⟩ := ih onward later
      exact ⟨made, Option.bind_eq_some_iff.mpr ⟨next, inserted, folded⟩⟩

theorem order?_isSome (comparable : Comparable S) (each : ∀ p ∈ problems, S p.place) :
    ∃ made, order? problems = some made := by
  obtain ⟨⟨run, others⟩, opening⟩ := openingRun_isSome comparable each
  have all : ∀ p ∈ run ++ others, S p.place := fun p listed =>
    each p ((openingRun_perm opening).mem_iff.mp listed)
  obtain ⟨start, later⟩ := List.forall_mem_append.mp all
  obtain ⟨made, folded⟩ := foldlM_insert?_isSome comparable start later
  exact ⟨made, Option.bind_eq_some_iff.mpr ⟨_, opening, folded⟩⟩

/-- What is filed under any rules can be compared. -/
def Filed (S : Place → Prop) (byRule : List (List String × List Problem)) : Prop :=
  ∀ rules, ∀ p ∈ foundUnder rules byRule, S p.place

theorem order?_filed (comparable : Comparable S) {byRule : List (List String × List Problem)}
    (filed : Filed S byRule)
    (here : S p.place) : ∃ found, order? (foundUnder p.place.rules byRule ++ [p]) = some found ∧
      Filed S ((p.place.rules, found) :: byRule) := by
  have all : ∀ q ∈ foundUnder p.place.rules byRule ++ [p], S q.place := by
    intro q listed
    rcases List.mem_append.mp listed with old | new
    · exact filed _ q old
    · obtain rfl := List.mem_singleton.mp new
      exact here
  obtain ⟨found, ordered⟩ := order?_isSome comparable all
  refine ⟨found, ordered, fun rules q listed => ?_⟩
  by_cases same : p.place.rules = rules
  · have listed : q ∈ found := by simpa [foundUnder, same] using listed
    exact all q ((order?_perm ordered).mem_iff.mp listed)
  · exact filed rules q (by simpa [foundUnder, same] using listed)

mutual

theorem file?_isSome (comparable : Comparable S) (p : Problem)
    {byRule : List (List String × List Problem)}
    (filed : Filed S byRule) (decided : p.isUndecided = false)
    (each : ∀ place ∈ p.places, S place) : ∃ filing, file? p byRule = some filing ∧
      Filed S filing := by
  match p with
  | .single place reason =>
      have here : S place := each place (by simp [Problem.places])
      obtain ⟨found, ordered, filing⟩ :=
        order?_filed (p := .single place reason) comparable filed here
      exact ⟨_, Option.bind_eq_some_iff.mpr ⟨found, ordered, rfl⟩, filing⟩
  | .group place parts =>
      have here : S place := each place (by simp [Problem.places])
      obtain ⟨found, ordered, filing⟩ :=
        order?_filed (p := .group place parts) comparable filed here
      obtain ⟨whole, filedAll, all⟩ := fileAll?_isSome comparable parts filing decided
        fun place listed => each place (List.mem_cons_of_mem _ listed)
      exact ⟨whole, Option.bind_eq_some_iff.mpr ⟨found, ordered, filedAll⟩, all⟩
  | .undecidable _ => cases decided
termination_by structural p

theorem fileAll?_isSome (comparable : Comparable S) (ps : List Problem)
    {byRule : List (List String × List Problem)}
    (filed : Filed S byRule) (decided : Problem.anyUndecided ps = false)
    (each : ∀ place ∈ Problem.placesOf ps, S place) : ∃ filing,
      fileAll? ps byRule = some filing ∧ Filed S filing := by
  match ps with
  | [] => exact ⟨byRule, rfl, filed⟩
  | p :: rest =>
      rw [Problem.anyUndecided, Bool.or_eq_false_iff] at decided
      rw [Problem.placesOf, List.forall_mem_append] at each
      obtain ⟨next, here, filing⟩ := file?_isSome comparable p filed decided.1 each.1
      obtain ⟨whole, there, all⟩ := fileAll?_isSome comparable rest filing decided.2 each.2
      exact ⟨whole, Option.bind_eq_some_iff.mpr ⟨next, here, there⟩, all⟩
termination_by structural ps

end

theorem foldlM_add?_isSome (comparable : Comparable S) {c : Collection}
    (ordered : ∀ p ∈ c.ordered, S p.place)
    (filed : Filed S c.byRule) (decided : Problem.anyUndecided problems = false)
    (each : ∀ place ∈ Problem.placesOf problems, S place) :
    ∃ c', problems.foldlM Collection.add? c = some c' := by
  induction problems generalizing c with
  | nil => exact ⟨c, rfl⟩
  | cons p rest ih =>
      rw [Problem.anyUndecided, Bool.or_eq_false_iff] at decided
      rw [Problem.placesOf, List.forall_mem_append] at each
      have here : S p.place := by
        cases p with
        | undecidable => cases decided.1
        | _ => exact each.1 _ (by simp [Problem.places, Problem.place])
      have all : ∀ q ∈ c.ordered ++ [p], S q.place := by
        intro q listed
        rcases List.mem_append.mp listed with old | new
        · exact ordered q old
        · obtain rfl := List.mem_singleton.mp new
          exact here
      obtain ⟨found, inOrder⟩ := order?_isSome comparable all
      obtain ⟨filing, byRule, filedAll⟩ := file?_isSome comparable p filed decided.1 each.1
      have onward : ∀ q ∈ found, S q.place := fun q listed =>
        all q ((order?_perm inOrder).mem_iff.mp listed)
      obtain ⟨c', folded⟩ := ih (c := ⟨found, filing⟩) onward filedAll decided.2 each.2
      have added : c.add? p = some ⟨found, filing⟩ := by
        rw [Collection.add?, inOrder, byRule]
        rfl
      exact ⟨c', Option.bind_eq_some_iff.mpr ⟨_, added, folded⟩⟩

theorem collect?_isSome (comparable : Comparable S)
    (decided : Problem.anyUndecided problems = false)
    (each : ∀ place ∈ Problem.placesOf problems, S place) :
    ∃ made, collect? problems = some made := by
  obtain ⟨c, folded⟩ := foldlM_add?_isSome (c := {}) comparable (by simp)
    (by simp [Filed, foundUnder]) decided each
  exact ⟨c.ordered, Option.map_eq_some_iff.mpr ⟨c, folded, rfl⟩⟩

mutual

theorem arranged?_isSome (comparable : Comparable S) (p : Problem) (decided : p.isUndecided = false)
    (each : ∀ place ∈ p.places, S place) : ∃ q, p.arranged? = some q := by
  match p with
  | .single place reason => exact ⟨_, rfl⟩
  | .group place parts =>
      have inside : ∀ place ∈ Problem.placesOf parts, S place := fun place listed =>
        each place (List.mem_cons_of_mem _ listed)
      obtain ⟨made, arranged⟩ := arrangedAll?_isSome comparable parts decided inside
      have alike := Problem.allAlike_of_arrangedAll? parts arranged
      have kept : ∀ place ∈ Problem.placesOf made, S place := fun place listed =>
        inside place (alike.places.mem_iff.mp listed)
      obtain ⟨collected, order⟩ := collect?_isSome comparable alike.decided.1 kept
      exact ⟨_, Option.bind_eq_some_iff.mpr
        ⟨made, arranged, Option.bind_eq_some_iff.mpr ⟨collected, order, rfl⟩⟩⟩
  | .undecidable _ => cases decided
termination_by structural p

theorem arrangedAll?_isSome (comparable : Comparable S) (ps : List Problem)
    (decided : Problem.anyUndecided ps = false)
    (each : ∀ place ∈ Problem.placesOf ps, S place) : ∃ qs, arrangedAll? ps = some qs := by
  match ps with
  | [] => exact ⟨[], rfl⟩
  | p :: rest =>
      rw [Problem.anyUndecided, Bool.or_eq_false_iff] at decided
      rw [Problem.placesOf, List.forall_mem_append] at each
      obtain ⟨q, here⟩ := arranged?_isSome comparable p decided.1 each.1
      obtain ⟨qs, there⟩ := arrangedAll?_isSome comparable rest decided.2 each.2
      exact ⟨_, Option.bind_eq_some_iff.mpr
        ⟨q, here, Option.bind_eq_some_iff.mpr ⟨qs, there, rfl⟩⟩⟩
termination_by structural ps

end

/-- Problems whose places can all be compared are put in order unless a check was left
undecided. -/
theorem exists_arrange?_iff (comparable : Comparable S)
    (each : ∀ place ∈ Problem.placesOf problems, S place) :
    (∃ made, arrange? problems = some made) ↔ Problem.anyUndecided problems = false := by
  constructor
  · rintro ⟨made, h⟩
    exact (allAlike_of_arrange? h).decided.2
  · intro decided
    obtain ⟨made, arranged⟩ := arrangedAll?_isSome comparable problems decided each
    have alike := Problem.allAlike_of_arrangedAll? problems arranged
    have kept : ∀ place ∈ Problem.placesOf made, S place := fun place listed =>
      each place (alike.places.mem_iff.mp listed)
    obtain ⟨collected, order⟩ := collect?_isSome comparable alike.decided.1 kept
    exact ⟨collected, Option.bind_eq_some_iff.mpr ⟨made, arranged, order⟩⟩

end FluidChip.Document
