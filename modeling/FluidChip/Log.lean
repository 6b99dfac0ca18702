import FluidChip.Number.Layout
import FluidChip.Text.Upper

/-!
# Log records

A record is a level, the name of its logger and a message.  A console shows the
records at or above its level, each with the level's name cut or padded to five
characters.
-/

namespace FluidChip

open Number Text

namespace Log

def debug : Int := 10
def info : Int := 20
def error : Int := 40
def critical : Int := 50

structure Record where
  level : Int
  message : String
  deriving Repr, DecidableEq

/-! ## Names of levels -/

def levelOf? (name : String) : Option Int :=
  match upper name with
  | "CRITICAL" => some 50
  | "FATAL" => some 50
  | "ERROR" => some 40
  | "WARN" => some 30
  | "WARNING" => some 30
  | "INFO" => some 20
  | "DEBUG" => some 10
  | "NOTSET" => some 0
  | _ => none

def levelName (level : Int) : String :=
  if level = 50 then "CRITICAL"
  else if level = 40 then "ERROR"
  else if level = 30 then "WARNING"
  else if level = 20 then "INFO"
  else if level = 10 then "DEBUG"
  else if level = 0 then "NOTSET"
  else "Level " ++ intText level

def five (s : String) : String :=
  let cut := s.toList.take 5
  .ofList (cut ++ List.replicate (5 - cut.length) ' ')

/-! ## Consoles -/

structure UnknownLevel where
  name : String

def UnknownLevel.message (fault : UnknownLevel) : String :=
  "Unknown log level name: '" ++ fault.name ++ "'"

structure Console where
  level : Int
  shown : List String := []

/-- Whether a console shows a level.  Nothing is logged at level zero or below. -/
def Console.passes (c : Console) (level : Int) : Bool := 0 < level && c.level ≤ level

def line (level : Int) (logger message : String) : String :=
  "[" ++ five (levelName level) ++ "] [" ++ logger ++ "] " ++ message

def Console.log (c : Console) (level : Int) (logger message : String) : Console :=
  if c.passes level then { c with shown := line level logger message :: c.shown } else c

def Console.open (level : Int) : Console :=
  ({ level := level } : Console).log debug "root"
    ("Logging configured at level " ++ levelName level ++ ".")

/-- The consoles that a list of levels opens in turn: each replaces the one
before, and the messages go to the last. -/
def consoles (levels : List Int) (messages : List (String × Int × String)) : List Console :=
  match levels.reverse with
  | [] => []
  | last :: earlier =>
    let final := messages.foldl (fun c (logger, level, message) => c.log level logger message)
      (Console.open last)
    (earlier.map Console.open).reverse ++ [final]

def Console.text (c : Console) : List String :=
  c.shown.reverse.flatMap (·.splitOn "\n")

end Log

end FluidChip
