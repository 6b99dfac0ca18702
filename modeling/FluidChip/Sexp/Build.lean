import FluidChip.Formula
import FluidChip.Quantity.Magnitude
import FluidChip.Number.Read
import FluidChip.Value

/-!
# Building expressions from values

A program text may be assembled from expressions and plain values.  A plain
number stands for its literal; anything else is refused, with the cause.
-/

namespace FluidChip.Sexp

open Number Text Quantity

/-! ## Faults -/

inductive Fault where
  | badSymbol (name : String)
  | notFinite (shown : String)
  | truthLiteral
  | emptyForm
  | foreignMember (kind : String)
  | foreignOperand (kind shown : String)
  | undeclarable (kind : String)
  | fewTerms
  | fewFactors
  | unreadable (shown : String)
  | notNumber (kind : String)
  | tooLarge
  | operandCount
  /-- A value without a text, where a fault was to name it. -/
  | unprinted (limit : Limit)
  deriving Repr, DecidableEq

def Fault.message : Fault → String
  | .badSymbol name => "'" ++ name ++ "' is not a valid SMT2 simple symbol."
  | .notFinite shown => "Real literal must be finite, got " ++ shown ++ "."
  | .truthLiteral => "Boolean values cannot be used as real literals."
  | .emptyForm => "A parenthesized form must contain at least one expression."
  | .foreignMember kind => "ParenList children must be SExpressions, got " ++ kind ++ "."
  | .foreignOperand kind shown =>
    "Cannot use " ++ kind ++ " value " ++ shown ++ " as an SMT2 operand."
  | .undeclarable kind => "Only symbols can be declared, got " ++ kind ++ "."
  | .fewTerms => "'+' needs at least two terms."
  | .fewFactors => "'*' needs at least two factors."
  | .unreadable shown => "could not convert string to float: " ++ shown
  | .notNumber kind => "a value of kind " ++ kind ++ " is not a number"
  | .tooLarge => "int too large to convert to float"
  | .operandCount => "wrong number of operands"
  | .unprinted limit => limit.message

/-- A fault that names a value, if the value has a text. -/
def Fault.naming (v : Value) (fault : Fault) : Fault := (v.limit? none).elim fault .unprinted

def kindName : Sexp → String
  | .symbol _ => "Symbol"
  | .literal _ => "RealLiteral"
  | .noArguments => "EmptyArgumentList"
  | .form _ _ => "ParenList"

/-! ## Atoms -/

def symbolOf (name : Value) : Except Fault Sexp :=
  match name with
  | .text s =>
    match Symbol.ofName? s with
    | some found => .ok (.symbol found)
    | none => .error (.badSymbol s)
  | v => .error (.naming v (.badSymbol v.plain))

/-- The literal of a double; `shown` is how a report shows the value it came
from. -/
def literalOf (x : Float) (shown : String) : Except Fault Sexp :=
  match Literal.ofFloat? x with
  | some found => .ok (.literal found)
  | none => .error (.notFinite shown)

def numberOf (n : Int) : Except Fault Float :=
  (Magnitude.int n).toFloat.mapError fun _ => .tooLarge

/-- The literal that a value gives: a number, or a text that reads as one. -/
def realOf (v : Value) : Except Fault Sexp :=
  match v with
  | .bool _ => .error .truthLiteral
  | .int n => do literalOf (← numberOf n) v.shown
  | .float x => literalOf x v.shown
  | .text s =>
    match readFloat? s with
    | some x => literalOf x v.shown
    | none => .error (.unreadable v.shown)
  | v => .error (.notNumber v.kindName)

/-! ## Operands -/

inductive Operand where
  | expression (e : Sexp)
  | value (v : Value)

namespace Operand

def kindName : Operand → String
  | .expression e => e.kindName
  | .value v => v.kindName

def toSexp : Operand → Except Fault Sexp
  | .expression e => .ok e
  | .value (.int n) => do
    let x ← numberOf n
    literalOf x (floatText x)
  | .value (.float x) => literalOf x (floatText x)
  | .value v => .error (.naming v (.foreignOperand v.kindName v.shown))

end Operand

def formOf (members : List Operand) : Except Fault Sexp := do
  if members.isEmpty then throw .emptyForm
  let es ← members.mapM fun m => match m with
    | .expression e => .ok e
    | .value v => .error (.foreignMember v.kindName)
  match ofList? es with
  | some e => .ok e
  | none => .error .emptyForm

/-! ## Builders by name -/

inductive Builder where
  | operand
  | directive (e : Sexp)
  | declare
  | assert (r : Formula.Relation)
  | sum
  | product
  | difference
  | quotient
  | square

def Builder.apply (b : Builder) (operands : List Operand) : Except Fault Sexp :=
  match b, operands with
  | .operand, [a] => a.toSexp
  | .directive e, [] => .ok e
  | .declare, [.expression (.symbol s)] => .ok (Formula.declare s)
  | .declare, [a] => .error (.undeclarable a.kindName)
  | .assert r, [a, b] => do return Formula.assert r (← a.toSexp) (← b.toSexp)
  | .sum, terms =>
    if terms.length < 2 then .error .fewTerms
    else do return Formula.sum (← terms.mapM Operand.toSexp)
  | .product, factors =>
    if factors.length < 2 then .error .fewFactors
    else do return Formula.product (← factors.mapM Operand.toSexp)
  | .difference, [a, b] => do return Formula.difference (← a.toSexp) (← b.toSexp)
  | .quotient, [a, b] => do return Formula.quotient (← a.toSexp) (← b.toSexp)
  | .square, [a] => do return Formula.square (← a.toSexp)
  | _, _ => .error .operandCount

def sumOfOperands : List Operand → Except Fault Operand
  | [] => .ok (.expression Formula.zero)
  | [a] => .ok a
  | terms => do return .expression (Formula.sum (← terms.mapM Operand.toSexp))

end FluidChip.Sexp
