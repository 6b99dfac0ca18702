import FluidChip.CommandLine.Flag
import FluidChip.Log

/-!
# Arguments

The words of the command line are taken one by one.  The first plain word is the
schematic, later ones are left over.  Of an option given twice the last one
counts.
-/

namespace FluidChip.CommandLine

open Text

/-! ## Faults -/

inductive Fault where
  | ambiguous (a : Ambiguity)
  | noValue (flag : Flag)
  | needlessValue (flag : Flag) (value : String)
  | badLevel (level : String)
  | noSchematic
  | leftOver (words : List String)
  | mixedSources (fields : List Parameters.Field)
  deriving DecidableEq, Repr

def levels : List String := ["DEBUG", "INFO", "WARNING", "ERROR", "CRITICAL"]

def Fault.message : Fault → String
  | .ambiguous a =>
    "ambiguous option: " ++ a.word ++ " could match " ++ ", ".intercalate a.spellings
  | .noValue flag => "argument " ++ flag.title ++ ": expected one argument"
  | .needlessValue flag value =>
    "argument " ++ flag.title ++ ": ignored explicit argument " ++ quoted value
  | .badLevel level =>
    "argument " ++ Flag.logLevel.title ++ ": invalid choice: " ++ quoted level ++
      " (choose from " ++ ", ".intercalate (levels.map quoted) ++ ")"
  | .noSchematic => "the following arguments are required: schematic"
  | .leftOver words => "unrecognized arguments: " ++ " ".intercalate words
  | .mixedSources fields =>
    "--process-file cannot be combined with " ++
      ", ".intercalate (fields.map fun f => "--" ++ f.flag) ++ "."

/-! ## Taking words -/

structure Arguments where
  schematic? : Option String := none
  outputDir : String := "."
  logLevel : String := "INFO"
  processFile : Option String := none
  parameters : List (Parameters.Field × String) := []
  leftOver : List String := []

inductive Stop where
  | help
  | fault (f : Fault)

namespace Arguments

def give (a : Arguments) (flag : Flag) (value : String) : Except Stop Arguments :=
  match flag with
  | .help => .error .help
  | .outputDir => .ok { a with outputDir := value }
  | .logLevel =>
    let level := upper value
    if levels.contains level then .ok { a with logLevel := level }
    else .error (.fault (.badLevel level))
  | .processFile => .ok { a with processFile := some value }
  | .parameter f =>
    .ok { a with parameters := a.parameters.filter (·.1 ≠ f) ++ [(f, value)] }

def leave (a : Arguments) (word : String) : Arguments :=
  { a with leftOver := a.leftOver ++ [word] }

/-- The letters behind the letter for help: more options, of which help needs no
value. -/
def helpStop (next : List Word) : List Char → Stop
  | '=' :: value => .fault (.needlessValue .help (.ofList value))
  | '-' :: value => .fault (.needlessValue .help (.ofList ('-' :: value)))
  | 'h' :: rest => helpStop next rest
  | ['o'] =>
    match next with
    | .plain _ :: _ => .help
    | _ => .fault (.noValue .outputDir)
  | _ => .help

def helpBy (next : List Word) (spelling : String) : Joined → Stop
  | .none => .help
  | .byEquals value => .fault (.needlessValue .help value)
  | .directly value =>
    if spelling = "-h" then helpStop next value.toList
    else .fault (.needlessValue .help value)

def take (a : Arguments) : List Word → Except Stop Arguments
  | [] => .ok a
  | .plain s :: rest =>
    match a.schematic? with
    | some _ => take (a.leave s) rest
    | none =>
      match rest with
      | .ending :: rest => take { a with schematic? := some s } rest
      | rest => take { a with schematic? := some s } rest
  | .ending :: rest =>
    match a.schematic?, rest with
    | none, .plain s :: rest => take { a with schematic? := some s } rest
    | _, rest => take (a.leave "--") rest
  | .unknown s :: rest => take (a.leave s) rest
  | .option .help spelling joined :: rest => .error (helpBy rest spelling joined)
  | .option flag _ (.byEquals value) :: rest => do take (← a.give flag value) rest
  | .option flag _ (.directly value) :: rest => do take (← a.give flag value) rest
  | .option flag _ .none :: .plain value :: rest => do take (← a.give flag value) rest
  | .option flag _ .none :: _ => .error (.fault (.noValue flag))

def value? (a : Arguments) (f : Parameters.Field) : Option String :=
  (a.parameters.find? (·.1 = f)).map (·.2)

def givenFields (a : Arguments) : List Parameters.Field :=
  Parameters.Field.all.filter fun f => (a.value? f).isSome

/-- Checks what can be checked only when all words are taken; answers the
schematic. -/
def settle (a : Arguments) : Except Stop String :=
  match a.schematic? with
  | none => .error (.fault .noSchematic)
  | some schematic =>
    if a.leftOver ≠ [] then .error (.fault (.leftOver a.leftOver))
    else if a.processFile.isSome && !a.givenFields.isEmpty then
      .error (.fault (.mixedSources a.givenFields))
    else .ok schematic

def ofTexts (texts : List String) : Except Stop (String × Arguments) := do
  let words ← (words texts).mapError fun a => .fault (.ambiguous a)
  let a ← take {} words
  return (← a.settle, a)

end Arguments

end FluidChip.CommandLine
