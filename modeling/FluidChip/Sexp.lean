import FluidChip.Number.Layout
import FluidChip.Text.Character

/-!
# S-expressions

The expressions of a solver program: symbols, real literals, forms with at least
one member, and the empty argument list of a declaration, which is no form.  A
symbol carries the check of its name, a literal that it is finite.
-/

namespace FluidChip

open Number Text

/-! ## Atoms -/

def isSymbolChar (c : Char) : Bool :=
  isLetter c || isDigit c || "~!@$%^&*_+=<>.?/-".toList.contains c

/-- Whether a text names a symbol: symbol characters, no digit in front.  A line
feed at the very end is let through. -/
def isSymbolName (s : List Char) : Bool :=
  match withoutFinalNewline s with
  | [] => false
  | c :: rest => !isDigit c && isSymbolChar c && rest.all isSymbolChar

structure Symbol where
  name : String
  legal : isSymbolName name.toList = true

instance : DecidableEq Symbol := fun a b =>
  if h : a.name = b.name then isTrue (by cases a; cases b; simp_all)
  else isFalse fun e => h (e ▸ rfl)

def Symbol.ofName? (name : String) : Option Symbol :=
  if h : isSymbolName name.toList = true then some ⟨name, h⟩ else none

structure Literal where
  value : Float
  finite : isFinite value = true

def Literal.ofFloat? (value : Float) : Option Literal :=
  if h : isFinite value = true then some ⟨value, h⟩ else none

/-! ## Expressions -/

inductive Sexp where
  | symbol (s : Symbol)
  | literal (r : Literal)
  | noArguments
  | form (head : Sexp) (rest : List Sexp)

namespace Sexp

instance : Inhabited Sexp := ⟨.noArguments⟩

def ofList? : List Sexp → Option Sexp
  | [] => none
  | head :: rest => some (.form head rest)

def head? : Sexp → Option Sexp
  | .form head _ => some head
  | _ => none

def isForm (keyword : String) : Sexp → Bool
  | .form (.symbol s) _ => s.name == keyword
  | _ => false

mutual

def symbols : Sexp → List Symbol
  | .symbol s => [s]
  | .literal _ => []
  | .noArguments => []
  | .form head rest => head.symbols ++ symbolsOfAll rest

def symbolsOfAll : List Sexp → List Symbol
  | [] => []
  | e :: rest => e.symbols ++ symbolsOfAll rest

end

/-! ## Structural equality -/

mutual

/-- Equality of structure; literals are equal when their numbers are, so that
zero equals its negative. -/
def same : Sexp → Sexp → Bool
  | .symbol a, .symbol b => a.name == b.name
  | .literal a, .literal b => a.value == b.value
  | .noArguments, .noArguments => true
  | .form a as, .form b bs => a.same b && sameAll as bs
  | _, _ => false

def sameAll : List Sexp → List Sexp → Bool
  | [], [] => true
  | a :: as, b :: bs => a.same b && sameAll as bs
  | _, _ => false

end

/-! ## Text -/

end Sexp

/-- The text of a literal: positional, a negative one as the minus form of its
magnitude, either zero without a sign. -/
def Literal.chars (r : Literal) : List Char :=
  match Reading.ofFloat r.value with
  | .finite negative mantissa exponent =>
    let magnitude := (shortest mantissa exponent).plain
    if negative && mantissa != 0 then ['(', '-', ' '] ++ magnitude ++ [')'] else magnitude
  | _ => []

namespace Sexp

mutual

def chars : Sexp → List Char
  | .symbol s => s.name.toList
  | .literal r => r.chars
  | .noArguments => ['(', ')']
  | .form head rest => '(' :: (head.chars ++ charsOfAll rest)

def charsOfAll : List Sexp → List Char
  | [] => [')']
  | e :: rest => ' ' :: (e.chars ++ charsOfAll rest)

end

def text (e : Sexp) : String := .ofList e.chars

end Sexp

end FluidChip
