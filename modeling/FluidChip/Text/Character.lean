/-!
# Characters, lines and identifiers

Blank characters are trimmed from the ends of a number's text, line ends split a
report into lines, and a decimal digit of any script counts as one.  An identifier
is a letter or an underscore and then letters, digits and underscores; an endpoint
joins two of them with a point.  Either may end in one line feed.
-/

namespace FluidChip.Text

/-! ## Blanks and line ends -/

/-- White space of any script, the separators below the space included. -/
def isBlank (c : Char) : Bool :=
  let n := c.toNat
  (9 ≤ n && n ≤ 13) || (28 ≤ n && n ≤ 32) || n == 0x85 || n == 0xa0 || n == 0x1680 ||
    (0x2000 ≤ n && n ≤ 0x200a) || n == 0x2028 || n == 0x2029 || n == 0x202f ||
    n == 0x205f || n == 0x3000

/-- The characters that end a line; a carriage return takes a line feed after it
along. -/
def isLineEnd (c : Char) : Bool :=
  let n := c.toNat
  (10 ≤ n && n ≤ 13) || (28 ≤ n && n ≤ 30) || n == 0x85 || n == 0x2028 || n == 0x2029

def trim (s : List Char) : List Char :=
  ((s.dropWhile isBlank).reverse.dropWhile isBlank).reverse

/-! ## Digits and letters -/

/-- The code points of the digit zero in every script that counts in tens. -/
def zeros : List Nat :=
  [0x30, 0x660, 0x6f0, 0x7c0, 0x966, 0x9e6, 0xa66, 0xae6, 0xb66, 0xbe6, 0xc66, 0xce6, 0xd66,
  0xde6, 0xe50, 0xed0, 0xf20, 0x1040, 0x1090, 0x17e0, 0x1810, 0x1946, 0x19d0, 0x1a80, 0x1a90,
  0x1b50, 0x1bb0, 0x1c40, 0x1c50, 0xa620, 0xa8d0, 0xa900, 0xa9d0, 0xa9f0, 0xaa50, 0xabf0,
  0xff10, 0x104a0, 0x10d30, 0x11066, 0x110f0, 0x11136, 0x111d0, 0x112f0, 0x11450, 0x114d0,
  0x11650, 0x116c0, 0x11730, 0x118e0, 0x11950, 0x11c50, 0x11d50, 0x11da0, 0x16a60, 0x16ac0,
  0x16b50, 0x1d7ce, 0x1d7d8, 0x1d7e2, 0x1d7ec, 0x1d7f6, 0x1e140, 0x1e2f0, 0x1e950, 0x1fbf0]

def digitValue? (c : Char) : Option Nat :=
  (zeros.find? fun start => start ≤ c.toNat && c.toNat < start + 10).map (c.toNat - ·)

def isLetter (c : Char) : Bool := ('a' ≤ c && c ≤ 'z') || ('A' ≤ c && c ≤ 'Z')

def isDigit (c : Char) : Bool := '0' ≤ c && c ≤ '9'

def lower (c : Char) : Char :=
  if 'A' ≤ c && c ≤ 'Z' then Char.ofNat (c.toNat + 32) else c

def hexDigit (n : Nat) : Char :=
  if n < 10 then Char.ofNat ('0'.toNat + n) else Char.ofNat ('a'.toNat + n - 10)

def hexValue? (c : Char) : Option Nat :=
  if isDigit c then some (c.toNat - '0'.toNat)
  else if 'a' ≤ c && c ≤ 'f' then some (c.toNat - 'a'.toNat + 10)
  else if 'A' ≤ c && c ≤ 'F' then some (c.toNat - 'A'.toNat + 10)
  else none

def hexDigits : Nat → Nat → List Char
  | 0, _ => []
  | count + 1, n => hexDigits count (n / 16) ++ [hexDigit (n % 16)]

/-! ## Lines -/

def withoutFinalNewline : List Char → List Char
  | [] => []
  | ['\n'] => []
  | c :: rest => c :: withoutFinalNewline rest

/-- The lines of a text; a line end at the very end opens no further line. -/
def linesOnto : List Char → List Char → List (List Char)
  | [], [] => []
  | [], line => [line.reverse]
  | '\r' :: '\n' :: rest, line => line.reverse :: linesOnto rest []
  | c :: rest, line =>
    if isLineEnd c then line.reverse :: linesOnto rest [] else linesOnto rest (c :: line)

def lines (s : String) : List String := (linesOnto s.toList []).map String.ofList

/-! ## Identifiers -/

def startsIdentifier (c : Char) : Bool := isLetter c || c == '_'

def continuesIdentifier (c : Char) : Bool := startsIdentifier c || isDigit c

def isWord : List Char → Bool
  | [] => false
  | c :: rest => startsIdentifier c && rest.all continuesIdentifier

def isIdentifier (s : String) : Bool := isWord (withoutFinalNewline s.toList)

def pointSides? (s : List Char) : Option (List Char × List Char) :=
  match s.span (· ≠ '.') with
  | (before, _ :: after) => if after.contains '.' then none else some (before, after)
  | (_, []) => none

def isEndpoint (s : String) : Bool :=
  match pointSides? s.toList with
  | some (node, port) => isWord node && isWord (withoutFinalNewline port)
  | none => false

def endpointNames (s : String) : String × String :=
  match pointSides? s.toList with
  | some (node, port) => (.ofList node, .ofList port)
  | none => (s, "")

def sorted (items : List String) : List String :=
  items.mergeSort fun a b => decide (a ≤ b)

def forbiddenCharacters (s : String) : List String :=
  sorted ((s.toList.filter fun c => !continuesIdentifier c).eraseDups.map fun c => .ofList [c])

end FluidChip.Text
