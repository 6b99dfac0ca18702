import FluidChip.Number.Read
import FluidChip.Quantity

/-!
# Quantities written as text

The text of a quantity is an arithmetic expression over numbers and names of
units.  Operands that stand side by side are multiplied, `per` divides, and `^`
is another spelling of `**`.
-/

namespace FluidChip.Quantity

open Number Text

/-! ## Tokens -/

inductive Token where
  | number (m : Magnitude)
  | name (s : String)
  | plus
  | minus
  | times
  | divide
  | power
  | opening
  | closing
  /-- A bracket that is not round, or a quote that nothing closes: each is passed over,
  but the text is not closed unless as many brackets close as open. -/
  | otherOpening
  | otherClosing

def isNameStart (c : Char) : Bool := isLetter c || c == '_' || 128 ≤ c.toNat && !isBlank c

def isNameChar (c : Char) : Bool := isNameStart c || isDigit c

/-- The digits in front, single underscores between them dropped. -/
def takeDigits : List Char → List Char × List Char
  | [] => ([], [])
  | '_' :: c :: rest =>
    if isDigit c then
      let (digits, left) := takeDigits rest
      (c :: digits, left)
    else ([], '_' :: c :: rest)
  | c :: rest =>
    if isDigit c then
      let (digits, left) := takeDigits rest
      (c :: digits, left)
    else ([], c :: rest)

def natOf (digits : List Char) : Nat :=
  digits.foldl (fun n c => 10 * n + (c.toNat - '0'.toNat)) 0

/-- An exponent, where a digit follows the letter and its sign. -/
def takeExponent : List Char → Option (Int × List Char)
  | e :: rest =>
    if lower e ≠ 'e' then none else
    let (negative, rest) := takeSign rest
    match takeDigits rest with
    | ([], _) => none
    | (digits, left) => some (if negative then -(natOf digits : Int) else natOf digits, left)
  | [] => none

/-- A whole number; one of too many digits is read as a double. -/
def wholeNumber (digits : List Char) : Magnitude :=
  if digits.length ≤ longestInteger then .int (natOf digits)
  else .float (ofReadDecimal false (natOf digits) 0 0)

/-- A number in front: exact without point and exponent. -/
def takeNumber (s : List Char) : Magnitude × List Char :=
  let (whole, left) := takeDigits s
  let (places, left) := match left with
    | '.' :: rest =>
      let (part, left) := takeDigits rest
      (some part, left)
    | _ => (none, left)
  match places, takeExponent left with
  | none, none => (wholeNumber whole, left)
  | some part, none =>
    (.float (ofReadDecimal false (natOf (whole ++ part)) part.length 0), left)
  | none, some (exponent, left) =>
    (.float (ofReadDecimal false (natOf whole) 0 exponent), left)
  | some part, some (exponent, left) =>
    (.float (ofReadDecimal false (natOf (whole ++ part)) part.length exponent), left)

def nameToken (s : String) : Token :=
  let lowered := String.ofList (s.toList.map lower)
  if lowered = "inf" ∨ lowered = "infinity" then .number (.float (1.0 / 0.0))
  else if lowered = "nan" then .number (.float (0.0 / 0.0))
  else if s = "per" then .divide
  else .name s

/-- The rest of a line after a quoted part that is closed on it; the quote alone
is skipped where it is not. -/
def skipQuoted (mark : Char) (s : List Char) : List Char :=
  match (s.takeWhile (· ≠ '\n')).dropWhile (· ≠ mark) with
  | [] => s
  | _ => (s.dropWhile (· ≠ mark)).drop 1

/-- The rest of a text after three quotes that close a quoted part. -/
def afterTriple? (mark : Char) : List Char → Option (List Char)
  | [] => none
  | c :: rest =>
    if (c :: rest).take 3 = [mark, mark, mark] then some (rest.drop 2)
    else afterTriple? mark rest

/-- The tokens of a text, at most `fuel` of them.  Commas, quoted parts, comments and
characters without a meaning are passed over. -/
def tokensOf : Nat → List Char → List Token
  | 0, _ => []
  | _, [] => []
  | fuel + 1, c :: rest =>
    let dotted := match rest with
      | d :: _ => c == '.' && isDigit d
      | [] => false
    if isDigit c || dotted then
      let (m, left) := takeNumber (c :: rest)
      .number m :: tokensOf fuel left
    else if isNameStart c then
      nameToken (.ofList ((c :: rest).takeWhile isNameChar)) ::
        tokensOf fuel ((c :: rest).dropWhile isNameChar)
    else match c, rest with
      | '*', '*' :: rest => .power :: tokensOf fuel rest
      | '^', _ => .power :: tokensOf fuel rest
      | '*', _ => .times :: tokensOf fuel rest
      | '/', _ => .divide :: tokensOf fuel rest
      | '+', _ => .plus :: tokensOf fuel rest
      | '-', _ => .minus :: tokensOf fuel rest
      | '(', _ => .opening :: tokensOf fuel rest
      | ')', _ => .closing :: tokensOf fuel rest
      | '%', _ => .name "percent" :: tokensOf fuel rest
      | '[', _ => .otherOpening :: tokensOf fuel rest
      | '\x7b', _ => .otherOpening :: tokensOf fuel rest
      | ']', _ => .otherClosing :: tokensOf fuel rest
      | '\x7d', _ => .otherClosing :: tokensOf fuel rest
      | '#', _ => tokensOf fuel (rest.dropWhile (· ≠ '\n'))
      | '"', '"' :: '"' :: rest => match afterTriple? '"' rest with
        | some left => tokensOf fuel left
        | none => [.otherOpening]
      | '\'', '\'' :: '\'' :: rest => match afterTriple? '\'' rest with
        | some left => tokensOf fuel left
        | none => [.otherOpening]
      | '"', _ => tokensOf fuel (skipQuoted '"' rest)
      | '\'', _ => tokensOf fuel (skipQuoted '\'' rest)
      | _, _ => tokensOf fuel rest

def tokens (s : List Char) : List Token := tokensOf s.length s

/-- How many brackets open more than close. -/
def balance : List Token → Int
  | [] => 0
  | .opening :: rest => balance rest + 1
  | .otherOpening :: rest => balance rest + 1
  | .closing :: rest => balance rest - 1
  | .otherClosing :: rest => balance rest - 1
  | _ :: rest => balance rest

def Token.counts : Token → Bool
  | .otherOpening => false
  | .otherClosing => false
  | _ => true

/-! ## Trees -/

inductive Tree where
  | number (m : Magnitude)
  | unit (name : String)
  | neg (a : Tree)
  | add (a b : Tree)
  | sub (a b : Tree)
  | mul (a b : Tree)
  | div (a b : Tree)
  | pow (a b : Tree)

def operand? : Token → Option Tree
  | .number m => some (.number m)
  | .name s => some (.unit s)
  | _ => none

mutual

/-- Sums of products.  The fuel bounds the depth of the tree. -/
def sumTree : Nat → List Token → Option (Tree × List Token)
  | 0, _ => none
  | fuel + 1, s => do
    let (a, rest) ← productTree fuel s
    sumRest fuel a rest

def sumRest : Nat → Tree → List Token → Option (Tree × List Token)
  | 0, _, _ => none
  | fuel + 1, a, .plus :: rest => do
    let (b, rest) ← productTree fuel rest
    sumRest fuel (.add a b) rest
  | fuel + 1, a, .minus :: rest => do
    let (b, rest) ← productTree fuel rest
    sumRest fuel (.sub a b) rest
  | _, a, rest => some (a, rest)

def productTree : Nat → List Token → Option (Tree × List Token)
  | 0, _ => none
  | fuel + 1, s => do
    let (a, rest) ← signedTree fuel s
    productRest fuel a rest

/-- The further factors of a product; a factor may follow without a sign. -/
def productRest : Nat → Tree → List Token → Option (Tree × List Token)
  | 0, _, _ => none
  | fuel + 1, a, .times :: rest => do
    let (b, rest) ← signedTree fuel rest
    productRest fuel (.mul a b) rest
  | fuel + 1, a, .divide :: rest => do
    let (b, rest) ← signedTree fuel rest
    productRest fuel (.div a b) rest
  | fuel + 1, a, .number m :: rest => do
    let (b, rest) ← signedTree fuel (.number m :: rest)
    productRest fuel (.mul a b) rest
  | fuel + 1, a, .name n :: rest => do
    let (b, rest) ← signedTree fuel (.name n :: rest)
    productRest fuel (.mul a b) rest
  | fuel + 1, a, .opening :: rest => do
    let (b, rest) ← signedTree fuel (.opening :: rest)
    productRest fuel (.mul a b) rest
  | _, a, rest => some (a, rest)

/-- A sign binds weaker than a power and stronger than a product. -/
def signedTree : Nat → List Token → Option (Tree × List Token)
  | 0, _ => none
  | fuel + 1, .minus :: rest => do
    let (a, rest) ← signedTree fuel rest
    some (.neg a, rest)
  | fuel + 1, .plus :: rest => signedTree fuel rest
  | fuel + 1, s => do
    let (a, rest) ← atomTree fuel s
    match rest with
    | .power :: rest => do
      let (b, rest) ← signedTree fuel rest
      some (.pow a b, rest)
    | rest => some (a, rest)

def atomTree : Nat → List Token → Option (Tree × List Token)
  | 0, _ => none
  | _, [] => none
  | fuel + 1, .opening :: rest => do
    match ← sumTree fuel rest with
    | (a, .closing :: rest) => some (a, rest)
    | _ => none
  | _ + 1, t :: rest => (operand? t).map (·, rest)

end

def treeOf? (s : List Token) : Option Tree :=
  match sumTree (6 * s.length + 6) s with
  | some (a, []) => some a
  | _ => none

/-! ## Values -/

/-- Where the texts of quantities get their units: a registry, and the names that it
has for what is written. -/
structure Spelling where
  registry : Registry
  named? : String → Option String

namespace Spelling

variable (spelling : Spelling)

/-- A unit by its spelling; one name stands for the number one. -/
def ofName (s : String) : Except Fault Amount :=
  if s = "dimensionless" then .ok ⟨.int 1, []⟩
  else match spelling.named? s with
    | some name => .ok ⟨.int 1, [(name, 1)]⟩
    | none => .error (.undefined s)

/-- A sum or difference, in the units of the first term. -/
def combine (op : Magnitude → Magnitude → Except ArithmeticFault Magnitude) (a b : Amount) :
    Except Fault Amount := do
  let other ← spelling.registry.magnitudeIn b a.units |>.mapError fun fault => match fault with
    | .dimensions .. => spelling.registry.mismatch a.units b.units
    | fault => fault
  let m ← liftArithmetic (op a.magnitude other)
  .ok ⟨m, a.units⟩

end Spelling

/-- The exact value of an exponent. -/
def exponentOf? : Magnitude → Option Rat
  | .int n => some n
  | .float x =>
    match Reading.ofFloat x with
    | .finite negative mantissa exponent =>
      let value : Rat := if 0 ≤ exponent then ((mantissa * twoTo exponent.toNat : Nat) : Rat)
        else mkRat mantissa (twoTo (-exponent).toNat)
      some (if negative then -value else value)
    | _ => none

/-- A power of a magnitude, a double if its exponent is one.  Exponents that are not
whole are left to other libraries. -/
def Magnitude.raise (a b : Magnitude) (n : Rat) : Except Fault Magnitude :=
  if n.den ≠ 1 then .error .malformed
  else liftArithmetic <| match b with
    | .int _ => a.pow n.num
    | .float _ => do return .float (← floatPower (← a.toFloat) n.num)

def Tree.eval (spelling : Spelling) : Tree → Except Fault Amount
  | .number m => .ok ⟨m, []⟩
  | .unit s => spelling.ofName s
  | .neg a => do
    let x ← a.eval spelling
    .ok ⟨x.magnitude.neg, x.units⟩
  | .add a b => do
    let x ← a.eval spelling
    let y ← b.eval spelling
    spelling.combine Magnitude.add x y
  | .sub a b => do
    let x ← a.eval spelling
    let y ← b.eval spelling
    spelling.combine Magnitude.sub x y
  | .mul a b => do
    let x ← a.eval spelling
    let y ← b.eval spelling
    let m ← liftArithmetic (x.magnitude.mul y.magnitude)
    .ok ⟨m, x.units.mul y.units⟩
  | .div a b => do
    let x ← a.eval spelling
    let y ← b.eval spelling
    let m ← liftArithmetic (x.magnitude.div y.magnitude)
    .ok ⟨m, x.units.mul y.units.inverse⟩
  | .pow a b => do
    let x ← a.eval spelling
    let y ← b.eval spelling
    match y.units, exponentOf? y.magnitude with
    | [], some n => do
      let m ← x.magnitude.raise y.magnitude n
      .ok ⟨m, x.units.raise n⟩
    | _, _ => .error .malformed

namespace Spelling

variable (spelling : Spelling)

def amountOf (s : String) : Except Fault Amount :=
  if s = "" then .error .empty else
  let ts := tokens (s.toList.filter (· ≠ ','))
  let counted := ts.filter Token.counts
  if balance ts ≠ 0 then .error .unclosed
  else if counted.isEmpty then .ok ⟨.int 1, []⟩
  else match treeOf? counted with
    | some tree => tree.eval spelling
    | none => .error .malformed

/-- A library that reads the texts of quantities, and no values but these and numbers. -/
def library : UnitLibrary where
  parse
    | .int n => .ok (spelling.registry.parsed ⟨.int n, []⟩)
    | .float x => .ok (spelling.registry.parsed ⟨.float x, []⟩)
    | .text s => (spelling.amountOf s).map spelling.registry.parsed
    | v => .error (.notNumber v.kindName)
  int _ := ⟨_, rfl, rfl, rfl⟩
  float _ := ⟨_, rfl, rfl, rfl⟩

end Spelling

end FluidChip.Quantity
