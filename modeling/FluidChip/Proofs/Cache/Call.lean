import FluidChip.Host
import FluidChip.Proofs.Cache.Run

/-!
# Calls to cached rules

Rules and sets are run, told to forget and asked for their results, in any order,
under any settings, with members shared between sets.  Whatever the calls, there
is a history behind the cache: it says what each rule holds, and what a set that
failed has left behind.
-/

namespace FluidChip

open RuleTree RuleHistory

/-! ## Calls -/

inductive RuleCall where
  | translate (g : Setting) (tree : RuleTree)
  | invalidate (tree : RuleTree)
  | read (tree : RuleTree)

def RuleCall.tree : RuleCall → RuleTree
  | translate _ tree => tree
  | invalidate tree => tree
  | read tree => tree

/-- The answer to a call; there is none to being told to forget. -/
abbrev RuleCall.Answer := Option (Except Failure (List Sexp))

namespace RuleCache

def answer (c : RuleCache) : RuleCall → RuleCache × RuleCall.Answer
  | .translate g t => ((t.run g c).1, some (t.run g c).2.outcome)
  | .invalidate t => (c.invalidate t, none)
  | .read t => (c, some (c.result t))

/-- The cache after some calls, and what they were answered. -/
def transcript (c : RuleCache) : List RuleCall → RuleCache × List (RuleCall × RuleCall.Answer)
  | [] => (c, [])
  | call :: rest =>
    let next := (c.answer call).1.transcript rest
    (next.1, (call, (c.answer call).2) :: next.2)

end RuleCache

namespace RuleHistory

/-- The history that answered calls make. -/
inductive Tells : RuleHistory → List (RuleCall × RuleCall.Answer) → RuleHistory → Prop
  | nil {h : RuleHistory} : Tells h [] h
  | translate {h events h' : RuleHistory} {g : Setting} {t : RuleTree}
      {outcome : Except Failure (List Sexp)} {rest : List (RuleCall × RuleCall.Answer)}
      (run : Translates g h t events outcome) (others : Tells (h ++ events) rest h') :
      Tells h ((.translate g t, some outcome) :: rest) h'
  | invalidate {h h' : RuleHistory} {t : RuleTree} {rest : List (RuleCall × RuleCall.Answer)}
      (others : Tells (h ++ [.forgot t.id]) rest h') : Tells h ((.invalidate t, none) :: rest) h'
  | read {h h' : RuleHistory} {t : RuleTree} {rest : List (RuleCall × RuleCall.Answer)}
      (others : Tells h rest h') : Tells h ((.read t, some (h.reading t)) :: rest) h'

end RuleHistory

namespace RuleCache

variable {h : RuleHistory} {g : Setting}

theorem run_cache (g : Setting) {t : RuleTree} (founded : t.Founded) (h : RuleHistory) :
    ∃ events, Translates g h t events (t.run g h.cache).2.outcome ∧
      (t.run g h.cache).1 = RuleHistory.cache (h ++ events) := by
  obtain ⟨events, translates, step⟩ :=
    run_recorded g t h.cache h founded (fun _ _ => rfl)
  refine ⟨events, translates, ?_⟩
  have slots : (t.run g h.cache).1.slot = RuleHistory.slot (h ++ events) := by
    funext id
    have everywhere : h.cache.Agrees h [id] := fun _ _ => rfl
    exact step.agrees_other everywhere id List.mem_cons_self
  exact congrArg RuleCache.mk slots

theorem invalidate_cache (h : RuleHistory) (t : RuleTree) :
    h.cache.invalidate t = RuleHistory.cache (h ++ [.forgot t.id]) := by
  have slots : (h.cache.invalidate t).slot = RuleHistory.slot (h ++ [.forgot t.id]) := by
    funext id
    by_cases own : id = t.id
    · subst own
      rw [slot_concat_forgot, ← calls_slot]
      exact if_pos rfl
    · rw [slot_append_of_other (other_of_single (Ne.symm own))]
      exact if_neg own
  exact congrArg RuleCache.mk slots

theorem transcript_told (calls : List RuleCall) (founded : ∀ call ∈ calls, call.tree.Founded)
    (h : RuleHistory) :
    ∃ h', Tells h (h.cache.transcript calls).2 h' ∧ (h.cache.transcript calls).1 = h'.cache := by
  induction calls generalizing h with
  | nil => exact ⟨h, .nil, rfl⟩
  | cons call rest ih =>
      have first := founded call List.mem_cons_self
      have others (h : RuleHistory) :=
        ih (fun call hcall => founded call (List.mem_cons_of_mem _ hcall)) h
      cases call with
      | translate g t =>
          obtain ⟨events, run, after⟩ := run_cache g first h
          obtain ⟨h', tells, cache⟩ := others (h ++ events)
          rw [← after] at tells cache
          exact ⟨h', .translate run tells, cache⟩
      | invalidate t =>
          obtain ⟨h', tells, cache⟩ := others (h ++ [.forgot t.id])
          rw [← invalidate_cache] at tells cache
          exact ⟨h', .invalidate tells, cache⟩
      | read t =>
          obtain ⟨h', tells, cache⟩ := others h
          refine ⟨h', ?_, cache⟩
          have answered := result_cache (h := h) t
          rw [transcript, answer, answered]
          exact .read tells

/-! ## Sets that fail -/

/-- What a set leaves behind when a member fails.  Members that had their turn hold
their parts, and members that had none hold what they did before, unless a member
that had its turn since, or the failing one, reaches them. -/
structure Abandoned (g : Setting) (h : RuleHistory) (c c' : RuleCache) (whole failing : RuleTree)
    (failure : Failure) (earlier later : List RuleTree) : Prop where
  members : whole.members = earlier ++ failing :: later
  turns : ∃ parts events more, InTurn g h earlier parts events ∧
    Translates g (h ++ events) failing more (.error failure) ∧
    ∀ before t between, earlier = before ++ t :: between →
      t.id ∉ idsAll (between ++ [failing]) →
      ∃ es, parts[before.length]? = some es ∧ c'.result t = .ok es
  uncached : failure.isException = true →
    c'.state whole = .uncached ∧ c'.state failing = .uncached
  untouched : ∀ t ∈ later, t.id ∉ idsAll (earlier ++ [failing]) → c'.slot t.id = c.slot t.id

theorem state_of_failed {t : RuleTree} {failure : Failure} (raised : failure.isException = true)
    (latest : h.latest? t.id = some (.ran t.id (.error failure))) :
    h.cache.state t = .uncached := by
  have left : (h.left t.id).1 = .uncached := by
    rw [left_of_latest? latest, RuleEvent.leaves]
    simp [raised]
  exact left

/-- What members and a set that failed with them record concerns no other rule. -/
theorem other_of_failed {members : List RuleTree} {failing t : RuleTree} {id : Nat}
    {rest more : List RuleEvent} {outcome : Except Failure (List Sexp)}
    (within : ∀ e ∈ rest, e.id ∈ idsAll members) (within' : ∀ e ∈ more, e.id ∈ failing.ids)
    (apart : t.id ∉ idsAll (members ++ [failing])) (last : id ≠ t.id) :
    ∀ e ∈ rest ++ more ++ [.ran id outcome], e.id ≠ t.id := by
  simp only [idsAll_append, idsAll, List.append_nil, List.mem_append, not_or] at apart
  simp only [List.forall_mem_append]
  exact ⟨⟨other_of_within within apart.1, other_of_within within' apart.2⟩, other_of_single last⟩

theorem abandoned_of_run {id : Nat} {name : String} {members : List RuleTree}
    (founded : (RuleTree.set id name members).Founded) {failure : Failure}
    (fails : ((RuleTree.set id name members).run g h.cache).2.outcome = .error failure) :
    ∃ earlier failing later, Abandoned g h h.cache
      ((RuleTree.set id name members).run g h.cache).1 (.set id name members) failing failure
      earlier later := by
  obtain ⟨all, translates, after⟩ := run_cache g founded h
  rw [fails] at translates
  rw [after]
  obtain ⟨new, -⟩ := founded
  cases translates with
  | set turns =>
  cases turns with
  | @stopped _ events more earlier later failing parts _ turns fails =>
  -- The event of the set itself comes last and concerns no member.
  have last {t : RuleTree} (ht : t ∈ earlier ++ failing :: later) : id ≠ t.id := fun own =>
    new (own ▸ ids_subset_idsAll ht t.id_mem_ids)
  refine ⟨earlier, failing, later, ?_⟩
  constructor
  case members => rfl
  case turns =>
    refine ⟨parts, events, more, turns, fails, ?_⟩
    rintro before t between rfl apart
    obtain ⟨es, first, here, rest, found, rfl, run, within⟩ := turns.split
    obtain ⟨start, rfl⟩ := run.ends
    refine ⟨es, found, ?_⟩
    have other : ∀ e ∈ rest ++ more ++ [.ran id (.error failure)], e.id ≠ t.id :=
      other_of_failed within fails.within apart (last (by simp))
    have latest := latest?_append_cons (h := h ++ first ++ start) (e := .ran t.id (.ok es))
      rfl other
    refine (remembers_cache _ t).result es ?_
    simpa using latest
  case uncached =>
    intro raised
    constructor
    · refine state_of_failed raised ?_
      rw [← List.append_assoc]
      exact latest?_concat rfl
    · obtain ⟨inner, rfl⟩ := fails.ends
      refine state_of_failed raised ?_
      have apart : id ≠ failing.id := last (by simp)
      have latest := latest?_append_cons (h := h ++ events ++ inner)
        (e := .ran failing.id (.error failure)) rfl
        (other_of_single (e := .ran id (.error failure)) apart)
      simpa using latest
  case untouched =>
    intro t ht apart
    exact slot_append_of_other
      (other_of_failed turns.within fails.within apart (last (by simp [ht])))

/-! ## Whole runs of calls -/

/-- Whatever the calls, a history of what reached each rule says what the rules hold,
what a set makes of its members, and what a set that fails leaves behind. -/
theorem calls_remembered (calls : List RuleCall)
    (founded : ∀ call ∈ calls, call.tree.Founded) :
    ∃ c replies h, ({} : RuleCache).transcript calls = (c, replies) ∧ Tells [] replies h ∧
      (∀ t, h.Remembers c t) ∧
      ∀ g id name members, (RuleTree.set id name members).Founded →
        (∀ es, ((RuleTree.set id name members).run g c).2.outcome = .ok es →
          ∃ parts events, InTurn g h members parts events ∧ es = parts.flatten) ∧
        ∀ failure, ((RuleTree.set id name members).run g c).2.outcome = .error failure →
          ∃ earlier failing later, Abandoned g h c ((RuleTree.set id name members).run g c).1
            (.set id name members) failing failure earlier later := by
  obtain ⟨h, tells, after⟩ := transcript_told calls founded []
  rw [cache_nil] at tells after
  refine ⟨h.cache, _, h, Prod.ext after rfl, tells, remembers_cache h, ?_⟩
  intro g id name members founded
  constructor
  · intro es made
    obtain ⟨events, translates, -⟩ := run_cache g founded h
    rw [made] at translates
    cases translates with
    | set turns =>
    cases turns with
    | all turns => exact ⟨_, _, turns, rfl⟩
  · exact fun failure fails => abandoned_of_run founded fails

/-! ## Rules that two sets share -/

/-- A setting that scripted rules do not look at. -/
def blank : Setting where
  schematic := .empty "blank"
  parameters := ⟨.int 1, .int 1, .int 1, .int 1, .int 1⟩
  table := ⟨.empty, .empty, .empty, ⟨"controlPoint", none⟩, ⟨"pressureControlPoint", none⟩,
    ⟨"voltageControlPoint", none⟩, [], [], ⟨"channel", none⟩, []⟩
  host := .standard

def moody : RuleTree := .leaf 0 (Rule.flaky [])

def steady : RuleTree := .leaf 1 (Rule.emit [])

def pair : RuleTree := .set 2 "TranslationStrategySet" [steady, moody]

def relay : RuleTree := .set 3 "TranslationStrategySet" [moody, pair, steady]

/-- A set that fails can take the result from a member that succeeded before, and
leave one with a member whose turn did not come. -/
theorem relay_diverges : ∃ failure, (relay.run blank {}).2.outcome = .error failure ∧
    relay.members = [moody] ++ pair :: [steady] ∧
    (relay.run blank {}).1.state pair = .uncached ∧
    (relay.run blank {}).1.state moody = .uncached ∧
    ({} : RuleCache).state steady = .uncached ∧
    (relay.run blank {}).1.state steady = .cached :=
  ⟨.topology (.reported "call 2 failed" (some "flaky")), by rfl, rfl, by rfl, by rfl, rfl, by rfl⟩

theorem relay_remembered : ∃ c replies h,
    ({} : RuleCache).transcript [.translate blank relay, .read steady, .invalidate steady] =
      (c, replies) ∧ Tells [] replies h ∧ h.Remembers c steady ∧
    ∃ failure earlier failing later,
      Abandoned blank h c (relay.run blank c).1 relay failing failure earlier later := by
  have founded : relay.Founded := by
    simp [relay, pair, moody, steady, Founded, FoundedAll, ids, idsAll]
  obtain ⟨c, replies, h, told, tells, remembers, sets⟩ :=
    calls_remembered [.translate blank relay, .read steady, .invalidate steady]
      (by simp [RuleCall.tree, founded, steady, Founded])
  have again : (relay.run blank c).2.outcome =
      .error (.topology (.reported "call 4 failed" (some "flaky"))) := by
    rw [← show (({} : RuleCache).transcript [.translate blank relay, .read steady,
      .invalidate steady]).1 = c from congrArg Prod.fst told]
    rfl
  exact ⟨c, replies, h, told, tells, remembers steady, _, (sets blank _ _ _ founded).2 _ again⟩

end RuleCache

end FluidChip
