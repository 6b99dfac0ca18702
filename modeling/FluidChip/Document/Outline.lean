import FluidChip.Document.Problem

/-!
# Outlines of problems

An outline lists what is wrong with each field, with an outline of what is wrong
inside of it at the end.
-/

namespace FluidChip.Document

open Text

inductive Outline where
  | node (messages : List String) (inside : List (Value × Outline))

namespace Outline

/-! ## Building -/

def change (f : Outline → Outline) (key : Value) :
    List (Value × Outline) → List (Value × Outline)
  | [] => [(key, f (.node [] []))]
  | (other, outline) :: rest =>
    if other.sameKey key then (other, f outline) :: rest
    else (other, outline) :: change f key rest

def add (message : String) : List Value → List (Value × Outline) → List (Value × Outline)
  | [], entries => entries
  | [key], entries =>
    change (fun (.node messages inside) => .node (messages ++ [message]) inside) key entries
  | key :: next :: keys, entries =>
    change (fun (.node messages inside) => .node messages (add message (next :: keys) inside))
      key entries

def ofProblems (problems : List Problem) : List (Value × Outline) :=
  (Problem.leavesOf problems).foldl (fun entries (keys, reason) =>
    add reason.message keys entries) []

/-! ## Text -/

mutual

def text : Outline → String
  | .node messages [] => quotedList messages
  | .node messages (entry :: inside) =>
    bracketed (messages.map quoted ++
      ["\x7b" ++ ", ".intercalate (entryTexts (entry :: inside)) ++ "\x7d"])

def entryTexts : List (Value × Outline) → List String
  | [] => []
  | (key, outline) :: rest => (key.shown ++ ": " ++ outline.text) :: entryTexts rest

end

def texts (entries : List (Value × Outline)) : List (String × String) :=
  entries.map fun (key, outline) => (key.plain, outline.text)

mutual

/-- What keeps the keys inside an outline from being printed. -/
def limit? : Outline → Option Number.Limit
  | .node _ inside => entriesLimit? inside

def entriesLimit? : List (Value × Outline) → Option Number.Limit
  | [] => none
  | (key, outline) :: rest =>
    ((key.limit? none).or outline.limit?).or (entriesLimit? rest)

end

/-- The fields at fault in the order of their keys, as they are told. -/
def inOrder (entries : List (Value × Outline)) : Except Obstacle (List (Value × Outline)) :=
  match Value.sortKeys? (·.1) entries with
  | none => .error .kinds
  | some ordered =>
    match entriesLimit? ordered with
    | none => .ok ordered
    | some limit => .error (.noText limit)

end Outline

end FluidChip.Document
