import FluidChip.Formula

/-!
# Programs

A program is a list of expressions in the order in which a solver reads them:
every declaration once, then the assertions, then the rest.
-/

namespace FluidChip.Program

inductive Part where
  | declaration
  | assertion
  | other
  deriving DecidableEq, Repr

def part (e : Sexp) : Part :=
  if e.isForm Formula.declareWord then .declaration
  else if e.isForm Formula.assertWord then .assertion
  else .other

structure Sorting (α : Type) where
  declarations : List α := []
  seen : List Sexp := []
  assertions : List α := []
  others : List α := []

variable {α : Type}

/-- Files one item under its part; a declaration seen before is dropped.  An item
that shows no expression belongs to the rest. -/
def Sorting.add (view : α → Option Sexp) (s : Sorting α) (x : α) : Sorting α :=
  match view x with
  | none => { s with others := x :: s.others }
  | some e =>
    match part e with
    | .declaration =>
      if s.seen.any (e.same ·) then s
      else { s with declarations := x :: s.declarations, seen := e :: s.seen }
    | .assertion => { s with assertions := x :: s.assertions }
    | .other => { s with others := x :: s.others }

def Sorting.result (s : Sorting α) : List α :=
  s.declarations.reverse ++ s.assertions.reverse ++ s.others.reverse

def arrangeBy (view : α → Option Sexp) (items : List α) : List α :=
  (items.foldl (Sorting.add view) {}).result

/-- Declarations without repetitions, then assertions, then the rest, each in the
order given. -/
def arrange (es : List Sexp) : List Sexp := arrangeBy some es

def lines (program : List Sexp) : List String := program.map Sexp.text

def text (program : List Sexp) : String := String.join (program.map fun e => e.text ++ "\n")

end FluidChip.Program
