import FluidChip.Document.Format
import FluidChip.Text.Character

/-!
# Problems of documents

What is wrong with a document, and where.  The problems inside a collection make
up one problem of the collection.
-/

namespace FluidChip.Document

open Text

structure Place where
  keys : List Value
  rules : List String

inductive Reason where
  | null
  | wrongKind (expected : List Kind)
  | empty
  | tooShort (atLeast : Nat)
  | unknownField
  | missingField
  /-- An identifier was to be read from something else than a text. -/
  | noIdentifier
  | badIdentifier (text : String)
  | badEndpoint (text : String)
  | repeated (key : String) (values : List Value)

def kindsText : List Kind → String
  | [kind] => kind.word
  | kinds => quotedList (kinds.map Kind.word)

def Reason.message : Reason → String
  | .null => "null value not allowed"
  | .wrongKind expected => "must be of " ++ kindsText expected ++ " type"
  | .empty => "empty values not allowed"
  | .tooShort atLeast => "min length is " ++ Number.intText atLeast
  | .unknownField => "unknown field"
  | .missingField => "required field"
  | .noIdentifier => "must be a string to be validated by id_regex."
  | .badIdentifier text =>
    "Identifier '" ++ text ++ "' is invalid. Identifiers must start with a letter or underscore, and can only contain letters, numbers, and underscores. This identifier contains the following forbidden character(s): " ++
      quotedList (forbiddenCharacters text)
  | .badEndpoint text =>
    "Endpoint '" ++ text ++ "' is invalid. Endpoints are written 'node.port' (e.g., 'inlet0.out'), using valid identifiers on both sides."
  | .repeated key values =>
    "Duplicate values found for key '" ++ key ++ "': " ++ bracketed (values.map Value.shown)

inductive Problem where
  | single (place : Place) (reason : Reason)
  | group (place : Place) (parts : List Problem)
  /-- A check that the values do not allow to be carried out. -/
  | undecidable (obstacle : Obstacle)

namespace Problem

instance : Inhabited Problem := ⟨.undecidable .kinds⟩

def place : Problem → Place
  | .single place _ => place
  | .group place _ => place
  | .undecidable _ => ⟨[], []⟩

mutual

def isUndecided : Problem → Bool
  | .single _ _ => false
  | .group _ parts => anyUndecided parts
  | .undecidable _ => true

def anyUndecided : List Problem → Bool
  | [] => false
  | p :: rest => p.isUndecided || anyUndecided rest

end

mutual

def leaves : Problem → List (List Value × Reason)
  | .single place reason => [(place.keys, reason)]
  | .group _ parts => leavesOf parts
  | .undecidable _ => []

def leavesOf : List Problem → List (List Value × Reason)
  | [] => []
  | p :: rest => p.leaves ++ leavesOf rest

end

mutual

/-- What the checks that could not be carried out met, in the order of the checks. -/
def obstacles : Problem → List Obstacle
  | .single _ _ => []
  | .group _ parts => obstaclesOf parts
  | .undecidable obstacle => [obstacle]

def obstaclesOf : List Problem → List Obstacle
  | [] => []
  | p :: rest => p.obstacles ++ obstaclesOf rest

end

/-- What ends the checks.  Problems that have no order do so as well. -/
def firstObstacle (problems : List Problem) : Obstacle := (obstaclesOf problems).headD .kinds

end Problem

end FluidChip.Document
