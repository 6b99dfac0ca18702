import FluidChip.Document.Problem

/-!
# The order of problems

Problems are kept in the order of their places.  Keys of different kinds have no
order of their own: a whole number precedes all that is none and a text all but
whole numbers, even where the reverse holds as well, and other mixtures cannot be
ordered at all.  So the arrangement follows the steps by which a problem is put in
its place, one problem after the other.
-/

namespace FluidChip.Document

/-! ## Precedence -/

def isWhole : Value → Bool
  | .int _ => true
  | .bool _ => true
  | _ => false

def isText : Value → Bool
  | .text _ => true
  | _ => false

def differenceBefore? : List Value → List Value → Option Bool
  | a :: as, b :: bs =>
    if isWhole a && !isWhole b then some true
    else if !isWhole a && isText a && !isText b then some true
    else if a.sameKey b then differenceBefore? as bs
    else if a.order?.isSome && a.order? == b.order? then some (a.lessKey b)
    else none
  | _, _ => none

def sameKeys (as bs : List Value) : Bool :=
  as.length == bs.length && (as.zip bs).all fun (a, b) => a.sameKey b

/-- Whether one way precedes another; a way precedes those that go on from it,
itself among them. -/
def keysBefore? (as bs : List Value) : Option Bool :=
  let shared := min as.length bs.length
  if sameKeys (as.take shared) (bs.take shared) then some (as.length == shared)
  else differenceBefore? as bs

def Place.before? (p q : Place) : Option Bool :=
  if sameKeys p.keys q.keys then keysBefore? (p.rules.map .text) (q.rules.map .text)
  else keysBefore? p.keys q.keys

def Problem.before? (p q : Problem) : Option Bool := p.place.before? q.place

/-! ## Putting in place -/

/-- The members that go on descending, or ascending, from one on. -/
def splitRun (descending : Bool) : Problem → List Problem → Option (List Problem × List Problem)
  | _, [] => some ([], [])
  | last, p :: rest => do
    if (← p.before? last) = descending then
      let (run, others) ← splitRun descending p rest
      some (p :: run, others)
    else some ([], p :: rest)

def openingRun : List Problem → Option (List Problem × List Problem)
  | first :: second :: rest => do
    let descending ← second.before? first
    let (run, others) ← splitRun descending second rest
    let whole := first :: second :: run
    some (if descending then whole.reverse else whole, others)
  | short => some (short, [])

/-- Where a problem belongs between two positions, by halving. -/
def position? (p : Problem) (arranged : List Problem) (low high : Nat) : Option Nat :=
  if _h : low < high then
    let middle := low + (high - low) / 2
    match arranged[middle]? with
    | none => some low
    | some other =>
      match p.before? other with
      | none => none
      | some true => position? p arranged low middle
      | some false => position? p arranged (middle + 1) high
  else some low
  termination_by high - low

def insert? (arranged : List Problem) (p : Problem) : Option (List Problem) := do
  let place ← position? p arranged 0 arranged.length
  some (arranged.take place ++ p :: arranged.drop place)

def order? (problems : List Problem) : Option (List Problem) := do
  let (run, others) ← openingRun problems
  others.foldlM insert? run

/-! ## Collecting -/

/-- Problems as they are collected: all in order, and those of each rule in
order. -/
structure Collection where
  ordered : List Problem := []
  byRule : List (List String × List Problem) := []

def foundUnder (rules : List String) (byRule : List (List String × List Problem)) :
    List Problem :=
  ((byRule.find? (·.1 = rules)).map (·.2)).getD []

mutual

def file? : Problem → List (List String × List Problem) →
    Option (List (List String × List Problem))
  | .group place parts, byRule => do
    let found ← order? (foundUnder place.rules byRule ++ [.group place parts])
    fileAll? parts ((place.rules, found) :: byRule)
  | p, byRule => do
    let found ← order? (foundUnder p.place.rules byRule ++ [p])
    some ((p.place.rules, found) :: byRule)

def fileAll? : List Problem → List (List String × List Problem) →
    Option (List (List String × List Problem))
  | [], byRule => some byRule
  | p :: rest, byRule => do fileAll? rest (← file? p byRule)

end

def Collection.add? (c : Collection) (p : Problem) : Option Collection := do
  some ⟨← order? (c.ordered ++ [p]), ← file? p c.byRule⟩

def collect? (problems : List Problem) : Option (List Problem) :=
  (problems.foldlM Collection.add? {}).map (·.ordered)

mutual

def Problem.arranged? : Problem → Option Problem
  | .single place reason => some (.single place reason)
  | .group place parts => do
    let parts ← arrangedAll? parts
    some (.group place (← collect? parts))
  | .undecidable _ => none

def arrangedAll? : List Problem → Option (List Problem)
  | [] => some []
  | p :: rest => do
    let p ← p.arranged?
    let rest ← arrangedAll? rest
    some (p :: rest)

end

/-- Problems in order, from the innermost out; none if a check could not be carried
out or the places have no order. -/
def arrange? (problems : List Problem) : Option (List Problem) := do
  collect? (← arrangedAll? problems)

end FluidChip.Document
