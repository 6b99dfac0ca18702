import FluidChip.Rule.Tree

/-!
# The history of a cache

What befalls a rule is a run of it, on its own or as a member of a set, and the
word to forget.  A history lists these events, the latest last.  Between calls it
says all that a cache holds: the result of a run that was the latest event, and
how often a rule has run.
-/

namespace FluidChip

/-! ## Events -/

inductive RuleEvent where
  | ran (id : Nat) (outcome : Except Failure (List Sexp))
  | forgot (id : Nat)

namespace RuleEvent

def id : RuleEvent → Nat
  | ran id _ => id
  | forgot id => id

@[simp] theorem id_ran (own : Nat) (outcome : Except Failure (List Sexp)) :
    (ran own outcome).id = own := rfl

@[simp] theorem id_forgot (own : Nat) : (forgot own).id = own := rfl

def isRun (id : Nat) : RuleEvent → Bool
  | ran other _ => other == id
  | forgot _ => false

/-- What an event leaves of a rule: the result of a run that made one, and else
nothing, the run still under way if it was cut off by what is no exception. -/
def leaves : RuleEvent → CacheState × List Sexp
  | ran _ (.ok es) => (.cached, es)
  | ran _ (.error failure) => (if failure.isException then .uncached else .computing, [])
  | forgot _ => (.uncached, [])

theorem id_eq_of_isRun {id : Nat} {e : RuleEvent} (h : e.isRun id = true) : e.id = id := by
  cases e with
  | ran other outcome => exact beq_iff_eq.mp h
  | forgot other => cases h

end RuleEvent

abbrev RuleHistory := List RuleEvent

namespace RuleHistory

def latest? (h : RuleHistory) (id : Nat) : Option RuleEvent :=
  (h.filter fun e => e.id == id).getLast?

def runs (h : RuleHistory) (id : Nat) : Nat := h.countP (RuleEvent.isRun id)

/-- What the latest event has left, the state and the result. -/
def left (h : RuleHistory) (id : Nat) : CacheState × List Sexp :=
  match h.latest? id with
  | some event => event.leaves
  | none => (.uncached, [])

/-- What a cache holds under an identity after a history. -/
def slot (h : RuleHistory) (id : Nat) : RuleCache.Slot :=
  ⟨(h.left id).1, (h.left id).2, h.runs id⟩

def cache (h : RuleHistory) : RuleCache := ⟨h.slot⟩

/-- The answer to asking for the result of a rule. -/
def reading (h : RuleHistory) (t : RuleTree) : Except Failure (List Sexp) :=
  match (h.left t.id).1 with
  | .cached => .ok (h.left t.id).2
  | state => .error (.noResult t.name state)

variable {h more : RuleHistory} {id : Nat}

/-! ## Later events -/

theorem other_of_within {ids : List Nat} (within : ∀ e ∈ more, e.id ∈ ids) (apart : id ∉ ids) :
    ∀ e ∈ more, e.id ≠ id :=
  fun e he same => apart (same ▸ within e he)

theorem other_of_single {e : RuleEvent} (ne : e.id ≠ id) : ∀ e' ∈ [e], e'.id ≠ id := by
  intro e' he'
  rw [List.mem_singleton.mp he']
  exact ne

theorem filter_eq_nil_of_other (other : ∀ e ∈ more, e.id ≠ id) :
    (more.filter fun e => e.id == id) = [] := by
  rw [List.filter_eq_nil_iff]
  intro e he
  simpa using other e he

theorem latest?_append_of_other (other : ∀ e ∈ more, e.id ≠ id) :
    latest? (h ++ more) id = latest? h id := by
  simp [latest?, List.filter_append, filter_eq_nil_of_other other]

theorem runs_append_of_other (other : ∀ e ∈ more, e.id ≠ id) :
    runs (h ++ more) id = runs h id := by
  have none : List.countP (RuleEvent.isRun id) more = 0 := by
    rw [List.countP_eq_zero]
    intro e he isRun
    exact other e he (RuleEvent.id_eq_of_isRun isRun)
  simp [runs, none]

theorem slot_append_of_other (other : ∀ e ∈ more, e.id ≠ id) :
    slot (h ++ more) id = slot h id := by
  simp [slot, left, latest?_append_of_other other, runs_append_of_other other]

/-- The latest event stays it as long as others follow. -/
theorem latest?_append_cons {e : RuleEvent} (own : e.id = id) (other : ∀ e ∈ more, e.id ≠ id) :
    latest? (h ++ e :: more) id = some e := by
  have whole : h ++ e :: more = h ++ [e] ++ more := by simp
  rw [whole, latest?_append_of_other other]
  simp [latest?, own]

theorem latest?_concat {e : RuleEvent} (own : e.id = id) : latest? (h ++ [e]) id = some e :=
  latest?_append_cons own (by simp)

theorem left_of_latest? {e : RuleEvent} (latest : h.latest? id = some e) :
    h.left id = e.leaves := by
  rw [left, latest]

theorem id_of_latest? {e : RuleEvent} (latest : h.latest? id = some e) : e.id = id := by
  have kept := List.mem_filter.mp (List.mem_of_getLast? latest)
  simpa using kept.2

/-- A rule is cached just when the latest event was a run that made a result. -/
theorem cached_left_iff :
    (h.left id).1 = .cached ↔ ∃ es, h.latest? id = some (.ran id (.ok es)) := by
  constructor
  · intro cached
    cases latest : h.latest? id with
    | none => simp [left, latest] at cached
    | some e =>
        rw [left_of_latest? latest] at cached
        obtain rfl := id_of_latest? latest
        cases e with
        | forgot own => simp [RuleEvent.leaves] at cached
        | ran own outcome =>
            cases outcome with
            | ok es => exact ⟨es, rfl⟩
            | error failure => cases raised : failure.isException <;>
                simp [RuleEvent.leaves, raised] at cached
  · rintro ⟨es, latest⟩
    rw [left_of_latest? latest]
    rfl

/-- A rule is computing just when the latest event was a run cut off by what is no
exception. -/
theorem computing_left_iff : (h.left id).1 = .computing ↔
    ∃ failure, h.latest? id = some (.ran id (.error failure)) ∧ failure.isException = false := by
  constructor
  · intro computing
    cases latest : h.latest? id with
    | none => simp [left, latest] at computing
    | some e =>
        rw [left_of_latest? latest] at computing
        obtain rfl := id_of_latest? latest
        cases e with
        | forgot own => simp [RuleEvent.leaves] at computing
        | ran own outcome =>
            cases outcome with
            | ok es => simp [RuleEvent.leaves] at computing
            | error failure =>
                refine ⟨failure, rfl, ?_⟩
                cases raised : failure.isException with
                | false => rfl
                | true => simp [RuleEvent.leaves, raised] at computing
  · rintro ⟨failure, latest, raised⟩
    rw [left_of_latest? latest, RuleEvent.leaves]
    simp [raised]

theorem result_left (h : RuleHistory) (id : Nat) :
    (h.left id).1 = .cached ∨ (h.left id).2 = [] := by
  unfold left RuleEvent.leaves
  split
  · split
    · exact .inl rfl
    · exact .inr rfl
    · exact .inr rfl
  · exact .inr rfl

theorem slot_concat_ran (id : Nat) (outcome : Except Failure (List Sexp)) :
    slot (h ++ [.ran id outcome]) id =
      ⟨(RuleEvent.ran id outcome).leaves.1, (RuleEvent.ran id outcome).leaves.2,
        h.runs id + 1⟩ := by
  have latest : latest? (h ++ [.ran id outcome]) id = some (.ran id outcome) :=
    latest?_concat rfl
  have runs : runs (h ++ [.ran id outcome]) id = h.runs id + 1 := by
    simp [RuleHistory.runs, RuleEvent.isRun]
  rw [slot, left_of_latest? latest, runs]

theorem slot_concat_forgot (id : Nat) :
    slot (h ++ [.forgot id]) id = ⟨.uncached, [], h.runs id⟩ := by
  have latest : latest? (h ++ [.forgot id]) id = some (.forgot id) := latest?_concat rfl
  have runs : runs (h ++ [.forgot id]) id = h.runs id := by
    simp [RuleHistory.runs, RuleEvent.isRun]
  rw [slot, left_of_latest? latest, runs]
  rfl

theorem calls_slot : (h.slot id).calls = h.runs id := rfl

/-! ## What is remembered -/

theorem cache_nil : cache [] = {} := rfl

theorem result_cache (t : RuleTree) : h.cache.result t = h.reading t := rfl

/-- What holds of a rule between calls: a result is kept just when the latest event
was a run that made it, and nothing is, and nothing is answered, else.  Only a run
that was cut off by what is no exception can seem to go on. -/
structure Remembers (h : RuleHistory) (c : RuleCache) (t : RuleTree) : Prop where
  settled : c.state t = .uncached ∨ c.state t = .cached ∨
    ∃ failure, h.latest? t.id = some (.ran t.id (.error failure)) ∧ failure.isException = false
  cached : c.state t = .cached ↔ ∃ es, h.latest? t.id = some (.ran t.id (.ok es))
  result : ∀ es, h.latest? t.id = some (.ran t.id (.ok es)) → c.result t = .ok es
  empty : c.state t ≠ .cached →
    (c.slot t.id).result = [] ∧ c.result t = .error (.noResult t.name (c.state t))

theorem remembers_cache (h : RuleHistory) (t : RuleTree) : h.Remembers h.cache t := by
  constructor
  case settled =>
    cases state : h.cache.state t with
    | uncached => exact .inl rfl
    | cached => exact .inr (.inl rfl)
    | computing => exact .inr (.inr (computing_left_iff.mp state))
  case cached => exact cached_left_iff
  case result =>
    intro es latest
    rw [result_cache, reading, left_of_latest? latest]
    rfl
  case empty =>
    intro uncached
    refine ⟨(result_left h t.id).resolve_left uncached, ?_⟩
    cases state : h.cache.state t with
    | cached => exact absurd state uncached
    | uncached => rw [RuleCache.result, state]
    | computing => rw [RuleCache.result, state]

end RuleHistory

end FluidChip
