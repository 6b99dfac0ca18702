import FluidChip.Number.Shortest

/-!
# Decimals as text

Two layouts of one decimal.  A solver reads positional notation only, always
with a point; a report writes large and small numbers with an exponent.  An integer
of more digits than a limit is not printed at all.
-/

namespace FluidChip.Number

/-! ## Digits -/

def digitChar (n : Nat) : Char := Char.ofNat ('0'.toNat + n % 10)

/-- The decimal digits of a natural, at most `fuel` of them, most significant
first, in front of `rest`. -/
def digitsOnto : Nat → Nat → List Char → List Char
  | 0, _, rest => rest
  | fuel + 1, n, rest =>
    if n < 10 then digitChar n :: rest
    else digitsOnto fuel (n / 10) (digitChar n :: rest)

def natDigits (n : Nat) : List Char := digitsOnto (n + 1) n []

def intChars (n : Int) : List Char :=
  if n < 0 then '-' :: natDigits n.natAbs else natDigits n.natAbs

def intText (n : Int) : String := .ofList (intChars n)

/-! ## Limits -/

/-- Why what is to be printed has no text. -/
inductive Limit where
  | digits
  | nesting
  deriving Repr, DecidableEq

def Limit.kind : Limit → String
  | .digits => "ValueError"
  | .nesting => "RecursionError"

def Limit.message : Limit → String
  | .digits => "Exceeds the limit (4300 digits) for integer string conversion; " ++
      "use sys.set_int_max_str_digits() to increase the limit"
  | .nesting => "maximum recursion depth exceeded while getting the repr of an object"

/-- The most decimal digits of an integer that is read or printed. -/
def longestInteger : Nat := 4300

def intLimit? (n : Int) : Option Limit :=
  if n.natAbs < tenTo longestInteger then none else some .digits

/-! ## Positional layout -/

/-- Digits with the point before the last `places` of them, padded so that a
digit stands on either side of it. -/
def pointed (digits : List Char) (places : Nat) : List Char :=
  let padded := List.replicate (places + 1 - digits.length) '0' ++ digits
  padded.take (padded.length - places) ++ '.' :: padded.drop (padded.length - places)

def Decimal.plain (d : Decimal) : List Char :=
  if 0 ≤ d.exponent then
    natDigits (d.digits * tenTo d.exponent.toNat) ++ ['.', '0']
  else pointed (natDigits d.digits) (-d.exponent).toNat

/-! ## Layout with an exponent -/

/-- Two digits at least, and always a sign. -/
def exponentChars (n : Int) : List Char :=
  let digits := natDigits n.natAbs
  (if n < 0 then '-' else '+') :: (if digits.length < 2 then '0' :: digits else digits)

def Decimal.scientific (d : Decimal) : List Char :=
  let digits := natDigits d.digits
  let exponent := d.exponent + digits.length - 1
  (match digits with
    | [] => []
    | [lead] => [lead]
    | lead :: rest => lead :: '.' :: rest) ++ 'e' :: exponentChars exponent

/-- Positional from `1e-4` up to below `1e16`. -/
def Decimal.general (d : Decimal) : List Char :=
  let magnitude := d.exponent + (natDigits d.digits).length - 1
  if -4 ≤ magnitude ∧ magnitude < 16 then d.plain else d.scientific

/-! ## Doubles -/

def floatChars (x : Float) : List Char :=
  match Reading.ofFloat x with
  | .nan => ['n', 'a', 'n']
  | .infinite negative => if negative then ['-', 'i', 'n', 'f'] else ['i', 'n', 'f']
  | .finite negative mantissa exponent =>
    let text := (shortest mantissa exponent).general
    if negative then '-' :: text else text

def floatText (x : Float) : String := .ofList (floatChars x)

end FluidChip.Number
