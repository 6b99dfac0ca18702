import FluidChip.Value

/-!
# Diagnostic reports

Every failure a user meets is laid out alike: a banner, what is concerned, the
details and the advice, indented line by line.
-/

namespace FluidChip

open Text

/-- Whether a value says anything: zero, false and all that is empty do not. -/
def Value.isGiven : Value → Bool
  | .null => false
  | .bool b => b
  | .int n => n != 0
  | .float x => x != 0.0
  | .text s => s != ""
  | .bytes bs => !bs.isEmpty
  | .moment _ => true
  | .list items => !items.isEmpty
  | .map entries => !entries.isEmpty
  | .members items => !items.isEmpty

/-- What a report is about.  A part that is not given is left out. -/
structure Subject where
  schematic : Value := .null
  entity : Value := .null
  sourceFile : Value := .null
  userInput : Value := .null

structure Report where
  title : String
  details : String
  advice : String
  subject : Subject := {}

namespace Report

def banner : String :=
  "=============== mfsmt-core: Actionable Diagnostic Report ==============="

def footer : String :=
  "========================================================================"

def subjectLine (label : String) (v : Value) (before after : String) : List String :=
  if v.isGiven then [label ++ before ++ v.plain ++ after] else []

def indented (s : String) : List String := (lines s).map ("  " ++ ·)

def text (r : Report) : String :=
  "\n".intercalate (
    ["\n", banner, "Error Type:     " ++ r.title] ++
    subjectLine "Schematic:      " r.subject.schematic "" "" ++
    subjectLine "Entity:         " r.subject.entity "" "" ++
    subjectLine "Source File:    " r.subject.sourceFile "" "" ++
    subjectLine "User Input:     " r.subject.userInput "'" "'" ++
    ["\nDetails:"] ++ indented r.details ++
    (if r.advice = "" then [] else "\nSuggestion:" :: indented r.advice) ++
    [footer])

end Report

end FluidChip
