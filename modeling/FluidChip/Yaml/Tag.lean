import FluidChip.Yaml.Cursor

/-!
# Tags

The tag of a node says what kind of value it is.  A plain scalar without a tag has
the tag that its text suggests: numbers, truth values, dates and nothing each have
a form of their own, anything else is text.
-/

namespace FluidChip.Yaml

open Text

inductive Tag where
  | null
  | truth
  | int
  | float
  | binary
  | moment
  | orderedMap
  | pairs
  | members
  | text
  | sequence
  | mapping
  /-- The key whose value is merged into a mapping. -/
  | merge
  /-- The key of the value that a mapping stands for. -/
  | standIn
  | unknown (name : String)
  deriving DecidableEq, Repr

namespace Tag

def standard : String := "tag:yaml.org,2002:"

def known : List (String × Tag) := [
  ("null", null), ("bool", truth), ("int", int), ("float", float), ("binary", binary),
  ("timestamp", moment), ("omap", orderedMap), ("pairs", pairs), ("set", members),
  ("str", text), ("seq", sequence), ("map", mapping), ("merge", merge), ("value", standIn)]

def ofName (name : String) : Tag :=
  ((known.find? fun entry => standard ++ entry.1 = name).map (·.2)).getD (unknown name)

end Tag

/-! ## Forms of plain text -/

def isDigitOrBar (c : Char) : Bool := isDigit c || c == '_'

def withoutSign : List Char → List Char
  | '-' :: rest => rest
  | '+' :: rest => rest
  | rest => rest

def isDigitRun : List Char → Bool
  | [] => false
  | c :: rest => isDigit c && rest.all isDigitOrBar

def isSixtieth : List Char → Bool
  | [a] => isDigit a
  | [a, b] => '0' ≤ a && a ≤ '5' && isDigit b
  | _ => false

def colonParts (s : List Char) : List (List Char) :=
  ((String.ofList s).splitOn ":").map String.toList

def isSexagesimal (s : List Char) : Bool :=
  match colonParts s with
  | first :: second :: rest => isDigitRun first && (second :: rest).all isSixtieth
  | _ => false

def isIntText (s : List Char) : Bool :=
  match withoutSign s with
  | ['0'] => true
  | '0' :: 'b' :: rest => !rest.isEmpty && rest.all fun c => c == '0' || c == '1' || c == '_'
  | '0' :: 'x' :: rest => !rest.isEmpty && rest.all fun c => (hexValue? c).isSome || c == '_'
  | '0' :: rest => rest.all fun c => ('0' ≤ c && c ≤ '7') || c == '_'
  | body => isDigitRun body && body.all isDigitOrBar || isSexagesimal body

def isExponent : List Char → Bool
  | [] => true
  | e :: sign :: digits =>
    (e == 'e' || e == 'E') && (sign == '-' || sign == '+') && !digits.isEmpty &&
      digits.all isDigit
  | _ => false

def isFraction (s : List Char) : Bool := isExponent (s.dropWhile isDigitOrBar)

def isInfinity (s : List Char) : Bool :=
  s == ".inf".toList || s == ".Inf".toList || s == ".INF".toList

def isNoNumber (s : List Char) : Bool :=
  s == ".nan".toList || s == ".NaN".toList || s == ".NAN".toList

def isFloatText (s : List Char) : Bool :=
  let body := withoutSign s
  let whole := body.takeWhile (· != '.')
  match body.dropWhile (· != '.') with
  | '.' :: fraction =>
    (isDigitRun whole && isFraction fraction) ||
    (isSexagesimal whole && fraction.all isDigitOrBar) ||
    isInfinity body || isNoNumber s ||
    (s.head? == some '.' && (fraction.head?.map isDigit).getD false && isFraction fraction)
  | _ => false

def truths : List String := ["yes", "true", "on"]
def untruths : List String := ["no", "false", "off"]

/-- A word in small letters, in capitals, or with a capital in front. -/
def isSpelling (word : String) (s : List Char) : Bool :=
  let capital (c : Char) : Char := if 'a' ≤ c && c ≤ 'z' then Char.ofNat (c.toNat - 32) else c
  match word.toList with
  | [] => s.isEmpty
  | c :: rest => s == c :: rest || s == capital c :: rest || s == (c :: rest).map capital

def isTruthText (s : List Char) : Bool := (truths ++ untruths).any (isSpelling · s)

def isNullText (s : List Char) : Bool := s.isEmpty || s == ['~'] || isSpelling "null" s

/-! ## Moments -/

structure MomentText where
  year : Nat
  month : List Char
  day : List Char
  time : Option (Nat × Nat × Nat × List Char) := none
  offset : Option Int := none

def digitsValue (s : List Char) : Nat := s.foldl (fun n c => 10 * n + (c.toNat - '0'.toNat)) 0

def takeDigits? (least most : Nat) (s : List Char) : Option (List Char × List Char) :=
  let digits := (s.take most).takeWhile isDigit
  if least ≤ digits.length then some (digits, s.drop digits.length) else none

def takeMark? (mark : Char) : List Char → Option (List Char)
  | [] => none
  | c :: rest => if c == mark then some rest else none

def offset? (s : List Char) : Option (Option Int) :=
  match s.dropWhile fun c => c == ' ' || c == '\t' with
  | [] => if s.isEmpty then some none else none
  | ['Z'] => some (some 0)
  | sign :: rest =>
    if sign != '+' && sign != '-' then none
    else do
      let (hours, rest) ← takeDigits? 1 2 rest
      let minutes ← match rest with
        | [] => some []
        | ':' :: rest => do
          let (minutes, rest) ← takeDigits? 2 2 rest
          if rest.isEmpty then some minutes else none
        | _ => none
      let total : Int := digitsValue hours * 60 + digitsValue minutes
      some (some (if sign == '-' then -total else total))

/-- The text after the letter or the blanks between a date and a time. -/
def afterDate? : List Char → Option (List Char)
  | 'T' :: rest => some rest
  | 't' :: rest => some rest
  | ' ' :: rest => some (rest.dropWhile fun c => c == ' ' || c == '\t')
  | '\t' :: rest => some (rest.dropWhile fun c => c == ' ' || c == '\t')
  | _ => none

def timeText? (s : List Char) : Option ((Nat × Nat × Nat × List Char) × Option Int) := do
  let rest ← afterDate? s
  let (hour, rest) ← takeDigits? 1 2 rest
  let (minute, rest) ← takeDigits? 2 2 (← takeMark? ':' rest)
  let (second, rest) ← takeDigits? 2 2 (← takeMark? ':' rest)
  let (fraction, rest) := match rest with
    | '.' :: rest => (rest.takeWhile isDigit, rest.dropWhile isDigit)
    | rest => ([], rest)
  let offset ← offset? rest
  some ((digitsValue hour, digitsValue minute, digitsValue second, fraction), offset)

def momentText? (s : List Char) : Option MomentText := do
  let (year, rest) ← takeDigits? 4 4 s
  let (month, rest) ← takeDigits? 1 2 (← takeMark? '-' rest)
  let (day, rest) ← takeDigits? 1 2 (← takeMark? '-' rest)
  if rest.isEmpty then some { year := digitsValue year, month, day }
  else
    let (time, offset) ← timeText? rest
    some { year := digitsValue year, month, day, time := some time, offset }

/-- Whether a text is a moment by itself: a date alone has two digits for the
month and two for the day. -/
def isMomentText (s : List Char) : Bool :=
  match momentText? s with
  | none => false
  | some m => m.time.isSome || (m.month.length == 2 && m.day.length == 2)

/-! ## The tag of plain text -/

def Tag.ofPlain (s : List Char) : Tag :=
  if isTruthText s then .truth
  else if isFloatText s then .float
  else if isIntText s then .int
  else if s == ['<', '<'] then .merge
  else if isNullText s then .null
  else if isMomentText s then .moment
  else if s == ['='] then .standIn
  else .text

end FluidChip.Yaml
