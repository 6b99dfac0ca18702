import FluidChip.Sexp

/-!
# Formulas of nonlinear real arithmetic

The forms of a solver program: directives, declarations of real variables,
assertions of a relation between two terms, and the terms themselves.
-/

namespace FluidChip

def keyword (name : String) (legal : isSymbolName name.toList = true := by decide) : Sexp :=
  .symbol ⟨name, legal⟩

namespace Formula

/-! ## Directives and declarations -/

def setLogic : Sexp := .form (keyword "set-logic") [keyword "QF_NRA"]

def checkSat : Sexp := .form (keyword "check-sat") []

def exit : Sexp := .form (keyword "exit") []

def declareWord : String := "declare-fun"

def assertWord : String := "assert"

def declare (s : Symbol) : Sexp :=
  .form (keyword "declare-fun") [.symbol s, .noArguments, keyword "Real"]

/-! ## Assertions -/

inductive Relation where
  | equal
  | greater
  | atLeast
  | less
  | atMost
  deriving DecidableEq, Repr

def Relation.sign : Relation → Sexp
  | .equal => keyword "="
  | .greater => keyword ">"
  | .atLeast => keyword ">="
  | .less => keyword "<"
  | .atMost => keyword "<="

def assert (r : Relation) (a b : Sexp) : Sexp :=
  .form (keyword "assert") [.form r.sign [a, b]]

/-! ## Terms -/

def sum (terms : List Sexp) : Sexp := .form (keyword "+") terms

def product (factors : List Sexp) : Sexp := .form (keyword "*") factors

def difference (a b : Sexp) : Sexp := .form (keyword "-") [a, b]

def quotient (a b : Sexp) : Sexp := .form (keyword "/") [a, b]

def square (a : Sexp) : Sexp := product [a, a]

def zero : Sexp := .literal ⟨0.0, by decide⟩

def minusOne : Sexp := .literal ⟨-1.0, by decide⟩

/-- Nothing sums to zero, one term to itself. -/
def sumOf : List Sexp → Sexp
  | [] => zero
  | [e] => e
  | terms => sum terms

end Formula

end FluidChip
