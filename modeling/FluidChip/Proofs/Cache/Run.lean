import FluidChip.Proofs.Cache.History

/-!
# Runs of rules and sets, in events

A rule that runs adds one event.  The members of a set run in turn, each with its
own events, until one fails; then the set adds its event.  What a run does to a
cache is what its events do.
-/

namespace FluidChip

/-! ## Trees -/

namespace RuleTree

mutual

/-- The identities of a rule and of all that it reaches. -/
def ids : RuleTree → List Nat
  | leaf id _ => [id]
  | set id _ members => id :: idsAll members

def idsAll : List RuleTree → List Nat
  | [] => []
  | t :: rest => t.ids ++ idsAll rest

end

mutual

/-- No set reaches itself. -/
def Founded : RuleTree → Prop
  | leaf _ _ => True
  | set id _ members => id ∉ idsAll members ∧ FoundedAll members

def FoundedAll : List RuleTree → Prop
  | [] => True
  | t :: rest => t.Founded ∧ FoundedAll rest

end

theorem id_mem_ids (t : RuleTree) : t.id ∈ t.ids := by
  cases t with
  | leaf id rule => simp [ids, RuleTree.id]
  | set id name members => simp [ids, RuleTree.id]

@[simp] theorem idsAll_append (ts us : List RuleTree) :
    idsAll (ts ++ us) = idsAll ts ++ idsAll us := by
  induction ts with
  | nil => rfl
  | cons t rest ih => simp [idsAll, ih]

theorem ids_subset_idsAll {t : RuleTree} {ts : List RuleTree} (h : t ∈ ts) :
    t.ids ⊆ idsAll ts := by
  induction ts with
  | nil => cases h
  | cons first rest ih =>
      intro id hid
      rcases List.mem_cons.mp h with rfl | later
      · exact List.mem_append_left _ hid
      · exact List.mem_append_right _ (ih later hid)

/-! ## Runs -/

section Runs

variable (g : Setting)

mutual

/-- A run after a history, with the events that it adds and its outcome. -/
inductive Translates : RuleHistory → RuleTree → RuleHistory →
    Except Failure (List Sexp) → Prop
  | leaf {h : RuleHistory} {id : Nat} {rule : Rule} {outcome : Except Failure (List Sexp)}
      (step : (rule.step g ⟨h.runs id + 1, .error (.noResult rule.name .computing)⟩).outcome =
        outcome) :
      Translates h (.leaf id rule) [.ran id outcome] outcome
  | set {h events : RuleHistory} {id : Nat} {name : String} {members : List RuleTree}
      {outcome : Except Failure (List Sexp)} (turns : Turns h members events outcome) :
      Translates h (.set id name members) (events ++ [.ran id outcome]) outcome

/-- Members run up to the first that fails. -/
inductive Turns : RuleHistory → List RuleTree → RuleHistory →
    Except Failure (List Sexp) → Prop
  | all {h events : RuleHistory} {members : List RuleTree} {parts : List (List Sexp)}
      (turns : InTurn h members parts events) : Turns h members events (.ok parts.flatten)
  | stopped {h events more : RuleHistory} {earlier later : List RuleTree} {failing : RuleTree}
      {parts : List (List Sexp)} {failure : Failure} (turns : InTurn h earlier parts events)
      (fails : Translates (h ++ events) failing more (.error failure)) :
      Turns h (earlier ++ failing :: later) (events ++ more) (.error failure)

/-- Members run one after another, each with its part of the result. -/
inductive InTurn : RuleHistory → List RuleTree → List (List Sexp) → RuleHistory → Prop
  | nil {h : RuleHistory} : InTurn h [] [] []
  | cons {h events more : RuleHistory} {t : RuleTree} {rest : List RuleTree} {es : List Sexp}
      {parts : List (List Sexp)} (first : Translates h t events (.ok es))
      (others : InTurn (h ++ events) rest parts more) :
      InTurn h (t :: rest) (es :: parts) (events ++ more)

end

end Runs

variable {g : Setting}

theorem Translates.ends {h events : RuleHistory} {t : RuleTree}
    {outcome : Except Failure (List Sexp)} (run : Translates g h t events outcome) :
    ∃ inner, events = inner ++ [.ran t.id outcome] := by
  cases run with
  | leaf step => exact ⟨[], rfl⟩
  | set turns => exact ⟨_, rfl⟩

mutual

theorem Translates.within {h events : RuleHistory} {t : RuleTree}
    {outcome : Except Failure (List Sexp)} (run : Translates g h t events outcome) :
    ∀ e ∈ events, e.id ∈ t.ids := by
  match run with
  | .leaf _ =>
      intro e he
      rw [List.mem_singleton.mp he]
      exact List.mem_cons_self
  | .set turns =>
      intro e he
      rcases List.mem_append.mp he with he | he
      · exact List.mem_cons_of_mem _ (turns.within e he)
      · rw [List.mem_singleton.mp he]
        exact List.mem_cons_self
termination_by structural run

theorem Turns.within {h events : RuleHistory} {ts : List RuleTree}
    {outcome : Except Failure (List Sexp)} (turns : Turns g h ts events outcome) :
    ∀ e ∈ events, e.id ∈ idsAll ts := by
  match turns with
  | .all turns => exact turns.within
  | .stopped turns fails =>
      intro e he
      rw [idsAll_append, idsAll]
      rcases List.mem_append.mp he with he | he
      · exact List.mem_append_left _ (turns.within e he)
      · exact List.mem_append_right _ (List.mem_append_left _ (fails.within e he))
termination_by structural turns

theorem InTurn.within {h events : RuleHistory} {ts : List RuleTree} {parts : List (List Sexp)}
    (turns : InTurn g h ts parts events) : ∀ e ∈ events, e.id ∈ idsAll ts := by
  match turns with
  | .nil => simp
  | .cons first others =>
      intro e he
      rcases List.mem_append.mp he with he | he
      · exact List.mem_append_left _ (first.within e he)
      · exact List.mem_append_right _ (others.within e he)
termination_by structural turns

end

theorem Turns.after {h events more : RuleHistory} {t : RuleTree} {ts : List RuleTree}
    {es : List Sexp} {outcome : Except Failure (List Sexp)}
    (turns : Turns g (h ++ events) ts more outcome) (first : Translates g h t events (.ok es)) :
    Turns g h (t :: ts) (events ++ more) (outcome.map (es ++ ·)) := by
  cases turns with
  | all turns => exact .all (.cons first turns)
  | stopped turns fails =>
      rw [← List.append_assoc]
      exact .stopped (.cons first turns) (by rwa [← List.append_assoc])

/-- The turn of one member, between those before and after it. -/
theorem InTurn.split {h events : RuleHistory} {before between : List RuleTree} {t : RuleTree}
    {parts : List (List Sexp)} (turns : InTurn g h (before ++ t :: between) parts events) :
    ∃ es first here rest, parts[before.length]? = some es ∧ events = first ++ here ++ rest ∧
      Translates g (h ++ first) t here (.ok es) ∧ ∀ e ∈ rest, e.id ∈ idsAll between := by
  induction before generalizing h events parts with
  | nil =>
      cases turns with
      | cons run others => exact ⟨_, [], _, _, rfl, rfl, by simpa using run, others.within⟩
  | cons u before ih =>
      cases turns with
      | @cons _ start _ _ _ _ _ run others =>
          obtain ⟨es, first, here, rest, found, rfl, middle, within⟩ := ih others
          refine ⟨es, start ++ first, here, rest, found, by simp, ?_, within⟩
          rwa [← List.append_assoc]

end RuleTree

/-! ## What runs do to a cache -/

namespace RuleCache

open RuleTree RuleHistory

/-- A cache holds for some identities what a history says. -/
def Agrees (c : RuleCache) (h : RuleHistory) (ids : List Nat) : Prop :=
  ∀ id ∈ ids, c.slot id = h.slot id

/-- The step of a cache is that of a history, and stays within some identities. -/
structure Recorded (h : RuleHistory) (ids : List Nat) (c c' : RuleCache)
    (events : RuleHistory) : Prop where
  within : ∀ e ∈ events, e.id ∈ ids
  agrees : c'.Agrees (h ++ events) ids
  frame : ∀ id ∉ ids, c'.slot id = c.slot id

variable {h events more : RuleHistory} {ids others : List Nat} {c c' c'' : RuleCache}

theorem Recorded.refl (agrees : c.Agrees h ids) : Recorded h ids c c [] where
  within := by simp
  agrees := by simpa using agrees
  frame := fun _ _ => rfl

theorem Recorded.agrees_other (step : Recorded h ids c c' events) (agrees : c.Agrees h others) :
    c'.Agrees (h ++ events) others := by
  intro id hid
  by_cases inside : id ∈ ids
  · exact step.agrees id inside
  · rw [step.frame id inside, agrees id hid,
      slot_append_of_other (other_of_within step.within inside)]

theorem Recorded.trans (first : Recorded h ids c c' events)
    (second : Recorded (h ++ events) others c' c'' more) :
    Recorded h (ids ++ others) c c'' (events ++ more) := by
  constructor
  case within =>
    intro e he
    rcases List.mem_append.mp he with he | he
    · exact List.mem_append_left _ (first.within e he)
    · exact List.mem_append_right _ (second.within e he)
  case agrees =>
    intro id hid
    rw [← List.append_assoc]
    by_cases later : id ∈ others
    · exact second.agrees id later
    · have here : id ∈ ids := (List.mem_append.mp hid).resolve_right later
      rw [second.frame id later, first.agrees id here,
        slot_append_of_other (other_of_within second.within later)]
  case frame =>
    intro id hid
    simp only [List.mem_append, not_or] at hid
    rw [second.frame id hid.2, first.frame id hid.1]

theorem agrees_start {t : RuleTree} (new : t.id ∉ ids) (agrees : c.Agrees h ids) :
    (c.start t).Agrees h ids := by
  intro id hid
  have other : id ≠ t.id := fun same => new (same ▸ hid)
  rw [slot_start, if_neg other, agrees id hid]

/-- A rule starts, its members run, and it settles: its own event comes last. -/
theorem Recorded.settle {t : RuleTree} (new : t.id ∉ ids) (here : c.slot t.id = h.slot t.id)
    {made : Run Failure (List Sexp)} (inner : Recorded h ids (c.start t) c' events) :
    Recorded h (t.id :: ids) c (c'.settle t made).1 (events ++ [.ran t.id made.outcome]) := by
  have other := other_of_within inner.within new
  have running : c'.slot t.id = ⟨.computing, [], (h ++ events).runs t.id + 1⟩ := by
    rw [inner.frame t.id new, slot_start, if_pos rfl, here, calls_slot, runs_append_of_other other]
  constructor
  case within =>
    intro e he
    rcases List.mem_append.mp he with he | he
    · exact List.mem_cons_of_mem _ (inner.within e he)
    · rw [List.mem_singleton.mp he]
      exact List.mem_cons_self
  case agrees =>
    intro id hid
    rw [slot_settle, ← List.append_assoc]
    by_cases own : id = t.id
    · subst own
      rw [if_pos rfl, slot_concat_ran, running]
      cases made.outcome with
      | ok es => rfl
      | error failure => cases raised : failure.isException <;> simp [RuleEvent.leaves, raised]
    · have member : id ∈ ids := (List.mem_cons.mp hid).resolve_left own
      rw [if_neg own, inner.agrees id member,
        slot_append_of_other (other_of_single (Ne.symm own))]
  case frame =>
    intro id hid
    simp only [List.mem_cons, not_or] at hid
    rw [slot_settle, if_neg hid.1, inner.frame id hid.2, slot_start, if_neg hid.1]

mutual

theorem run_recorded (g : Setting) (t : RuleTree) (c : RuleCache) (h : RuleHistory)
    (founded : t.Founded) (agrees : c.Agrees h t.ids) :
    ∃ events, Translates g h t events (t.run g c).2.outcome ∧
      Recorded h t.ids c (t.run g c).1 events := by
  have here : c.slot t.id = h.slot t.id := agrees t.id t.id_mem_ids
  match t with
  | .leaf own rule =>
      have step : Recorded h [] (c.start (.leaf own rule)) (c.start (.leaf own rule)) [] :=
        .refl (by simp [Agrees])
      have calls : (c.slot own).calls = h.runs own := by
        rw [show c.slot own = h.slot own from here, calls_slot]
      rw [RuleTree.run, outcome_settle]
      refine ⟨_, .leaf ?_, step.settle (by simp) here⟩
      simp [slot_start, RuleTree.id, result, state, RuleTree.name, calls]
  | .set own name members =>
      obtain ⟨new, founded⟩ := founded
      have inside : c.Agrees h (idsAll members) :=
        fun other hother => agrees other (List.mem_cons_of_mem _ hother)
      obtain ⟨events, turns, inner⟩ := runAll_recorded g members (c.start (.set own name members)) h
        founded (agrees_start new inside)
      rw [RuleTree.run, outcome_settle]
      exact ⟨_, .set turns, inner.settle new here⟩
termination_by structural t

theorem runAll_recorded (g : Setting) (ts : List RuleTree) (c : RuleCache) (h : RuleHistory)
    (founded : FoundedAll ts) (agrees : c.Agrees h (idsAll ts)) :
    ∃ events, Turns g h ts events (runAll g ts c).2.outcome ∧
      Recorded h (idsAll ts) c (runAll g ts c).1 events := by
  match ts with
  | [] => exact ⟨[], .all .nil, .refl agrees⟩
  | t :: rest =>
      have before : c.Agrees h t.ids := fun id hid => agrees id (List.mem_append_left _ hid)
      have after : c.Agrees h (idsAll rest) := fun id hid => agrees id (List.mem_append_right _ hid)
      obtain ⟨events, translates, first⟩ := run_recorded g t c h founded.1 before
      have next := first.agrees_other after
      cases made : (t.run g c).2.outcome with
      | error failure =>
          rw [made] at translates
          have stopped := first.trans (.refl next)
          rw [List.append_nil] at stopped
          simp only [runAll, made]
          exact ⟨events, .stopped .nil (by simpa using translates), stopped⟩
      | ok es =>
          rw [made] at translates
          obtain ⟨more, turns, others⟩ :=
            runAll_recorded g rest (t.run g c).1 (h ++ events) founded.2 next
          simp only [runAll, made]
          refine ⟨events ++ more, ?_, first.trans others⟩
          generalize (runAll g rest (t.run g c).1).2.outcome = outcome at turns
          exact turns.after translates
termination_by structural ts

end

end RuleCache

end FluidChip
