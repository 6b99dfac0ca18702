import FluidChip.Rule

/-!
# Cached rules

A rule, or a set of rules that run in turn, keeps the result of its last run.
The cache has three states: nothing is kept before the first run and after one
that raised an exception, and nothing can be read while a run is under way.  What
is raised and is no exception leaves the rule as if its run went on.
-/

namespace FluidChip

/-- A rule or a set of them.  Each has an identity, so that a member may be shared
by several sets; what it has cached belongs to the identity. -/
inductive RuleTree where
  | leaf (id : Nat) (rule : Rule)
  | set (id : Nat) (name : String) (members : List RuleTree)

namespace RuleTree

def id : RuleTree → Nat
  | leaf id _ => id
  | set id _ _ => id

def name : RuleTree → String
  | leaf _ rule => rule.name
  | set _ name _ => name

def members : RuleTree → List RuleTree
  | leaf _ _ => []
  | set _ _ members => members

/-- A set of rules with the identities from `first` on, its own the last. -/
def ofRules (first : Nat) (name : String) (rules : List Rule) : RuleTree :=
  .set (first + rules.length) name
    ((List.range' first rules.length).zipWith .leaf rules)

end RuleTree

/-! ## The cache -/

structure RuleCache.Slot where
  state : CacheState := .uncached
  result : List Sexp := []
  calls : Nat := 0

structure RuleCache where
  slot : Nat → RuleCache.Slot := fun _ => {}

namespace RuleCache

def setSlot (c : RuleCache) (id : Nat) (slot : Slot) : RuleCache :=
  ⟨fun other => if other = id then slot else c.slot other⟩

def state (c : RuleCache) (t : RuleTree) : CacheState := (c.slot t.id).state

/-- Forgets the result of a rule, but not of the members of a set. -/
def invalidate (c : RuleCache) (t : RuleTree) : RuleCache :=
  c.setSlot t.id { c.slot t.id with state := .uncached, result := [] }

def result (c : RuleCache) (t : RuleTree) : Except Failure (List Sexp) :=
  match c.state t with
  | .cached => .ok (c.slot t.id).result
  | state => .error (.noResult t.name state)

def start (c : RuleCache) (t : RuleTree) : RuleCache :=
  c.setSlot t.id { state := .computing, calls := (c.slot t.id).calls + 1 }

/-- A run ends: its result is kept, an exception leaves nothing, and an interrupt
passes unseen. -/
def settle (c : RuleCache) (t : RuleTree) (run : Run Failure (List Sexp)) :
    RuleCache × Run Failure (List Sexp) :=
  match run.outcome with
  | .error failure => (if failure.isException then c.invalidate t else c, run)
  | .ok es =>
    (c.setSlot t.id { c.slot t.id with state := .cached, result := es },
      { run with records := run.records ++ [⟨Log.debug, t.name ++ " produced " ++
          Number.intText es.length ++ " expression(s)."⟩] })

theorem slot_start (c : RuleCache) (t : RuleTree) (id : Nat) :
    (c.start t).slot id =
      if id = t.id then { state := .computing, calls := (c.slot t.id).calls + 1 }
      else c.slot id := rfl

theorem slot_settle (c : RuleCache) (t : RuleTree) (made : Run Failure (List Sexp)) (id : Nat) :
    (c.settle t made).1.slot id =
      if id = t.id then
        match made.outcome with
        | .ok es => ⟨.cached, es, (c.slot t.id).calls⟩
        | .error failure =>
          if failure.isException then ⟨.uncached, [], (c.slot t.id).calls⟩ else c.slot t.id
      else c.slot id := by
  unfold settle
  cases made.outcome with
  | ok es => rfl
  | error failure =>
      simp only
      by_cases raised : failure.isException = true
      · rw [if_pos raised, if_pos raised]
        rfl
      · rw [if_neg raised, if_neg raised]
        split
        · rename_i own
          rw [own]
        · rfl

theorem outcome_settle (c : RuleCache) (t : RuleTree) (made : Run Failure (List Sexp)) :
    (c.settle t made).2.outcome = made.outcome := by
  unfold settle
  split <;> rfl

end RuleCache

/-! ## Running -/

namespace RuleTree

open RuleCache

mutual

/-- Runs a rule, or the members of a set in order, whatever was kept before. -/
def run (g : Setting) : RuleTree → RuleCache → RuleCache × Run Failure (List Sexp)
  | .leaf id rule, c =>
    let started := c.start (.leaf id rule)
    let visit := ⟨(started.slot id).calls, started.result (.leaf id rule)⟩
    started.settle (.leaf id rule) (rule.step g visit)
  | .set id name members, c =>
    let (c, made) := runAll g members (c.start (.set id name members))
    c.settle (.set id name members) made

def runAll (g : Setting) : List RuleTree → RuleCache → RuleCache × Run Failure (List Sexp)
  | [], c => (c, pure [])
  | t :: rest, c =>
    let (c, first) := t.run g c
    match first.outcome with
    | .error failure => (c, ⟨first.records, .error failure⟩)
    | .ok es =>
      let (c, others) := runAll g rest c
      (c, ⟨first.records ++ others.records, others.outcome.map (es ++ ·)⟩)

end

end RuleTree

/-! ## Scripted rules

Rules whose behaviour is given, not computed from a schematic.  They show how the
cache deals with rules that change from call to call, fail, or look at
themselves. -/

namespace Rule

def counted (es : List Sexp) (call : Nat) : Except Failure (List Sexp) :=
  return es ++ [.symbol (← Schematic.symbolNamed ("call" ++ Number.intText call))]

def emit (es : List Sexp) : Rule :=
  ⟨"Emit", fun _ visit => .ofExcept (counted es visit.call)⟩

def flaky (es : List Sexp) : Rule :=
  ⟨"Flaky", fun _ visit =>
    if visit.call % 2 = 0 then
      .fail (.topology (.reported ("call " ++ Number.intText visit.call ++ " failed")
        (some "flaky")))
    else .ofExcept (counted es visit.call)⟩

def fail (details : String) : Rule :=
  ⟨"Fail", fun _ _ => .fail (.topology (.reported details none))⟩

def probe : Rule := ⟨"Probe", fun _ visit => .ofExcept visit.cached⟩

end Rule

end FluidChip
