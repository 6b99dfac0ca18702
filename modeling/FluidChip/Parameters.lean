import FluidChip.Catalog
import FluidChip.Host
import FluidChip.Report
import FluidChip.Run
import FluidChip.Value.Order

/-!
# Process parameters

The constants of a fabrication process: four lengths and an angle.  They are
built from raw values, with every problem found reported at once, or taken as
they are from numbers that are in range.
-/

namespace FluidChip

open Quantity Number Text

namespace Parameters

/-! ## Fields -/

inductive Field where
  | nodeDistance
  | channelLength
  | chipSizeX
  | chipSizeY
  | crossingAngle
  deriving DecidableEq, Repr

namespace Field

def all : List Field := [nodeDistance, channelLength, chipSizeX, chipSizeY, crossingAngle]

def name : Field → String
  | nodeDistance => "minimum_node_distance"
  | channelLength => "minimum_channel_length"
  | chipSizeX => "maximum_chip_size_x"
  | chipSizeY => "maximum_chip_size_y"
  | crossingAngle => "critical_crossing_angle"

def key : Field → String
  | nodeDistance => "minimumNodeDistance"
  | channelLength => "minimumChannelLength"
  | chipSizeX => "maximumChipSizeX"
  | chipSizeY => "maximumChipSizeY"
  | crossingAngle => "criticalCrossingAngle"

def flag : Field → String
  | nodeDistance => "process-minimum-node-distance"
  | channelLength => "process-minimum-channel-length"
  | chipSizeX => "process-maximum-chip-size-x"
  | chipSizeY => "process-maximum-chip-size-y"
  | crossingAngle => "process-critical-crossing-angle"

def description : Field → String
  | nodeDistance => "minimum distance between any two nodes"
  | channelLength => "minimum length of any channel"
  | chipSizeX => "maximum extent of the chip along x"
  | chipSizeY => "maximum extent of the chip along y"
  | crossingAngle => "smallest allowed angle between two channels meeting at a node"

def measure : Field → Measure
  | crossingAngle => .angle
  | _ => .length

end Field

/-! ## Problems -/

inductive Problem where
  | missing (f : Field)
  | unreadable (f : Field) (shown : String) (cause : Quantity.Fault)
  | notReal (f : Field) (shown : String)
  | notFinite (f : Field) (value : Float)
  | badAngle (f : Field) (value : Float)
  | notPositive (f : Field) (value : Float)

namespace Problem

def field : Problem → Field
  | missing f => f
  | unreadable f _ _ => f
  | notReal f _ => f
  | notFinite f _ => f
  | badAngle f _ => f
  | notPositive f _ => f

def text : Problem → String
  | missing f => "Missing required parameter '" ++ f.name ++ "' (" ++ f.description ++ ")."
  | unreadable f shown cause =>
    "Parameter '" ++ f.name ++ "' value " ++ shown ++ " cannot be read as a " ++
      f.measure.name ++ " quantity: " ++ cause.message
  | notReal f shown => "'" ++ f.name ++ "' must be a real number, got " ++ shown ++ "."
  | notFinite f value =>
    "'" ++ f.name ++ "' must be a finite number, got " ++ floatText value ++ "."
  | badAngle f value =>
    "'" ++ f.name ++ "' must lie in (0, pi] radians, got " ++ floatText value ++ "."
  | notPositive f value =>
    "'" ++ f.name ++ "' must be strictly positive, got " ++ floatText value ++ "."

end Problem

def piValue : Float := 3.141592653589793

/-- Why a number is out of the range of its field: lengths are positive, angles
lie above zero and up to pi. -/
def rangeProblem? (f : Field) (value : Float) : Option Problem :=
  if !isFinite value then some (.notFinite f value)
  else match f with
    | .crossingAngle =>
      if 0.0 < value ∧ value ≤ piValue then none else some (.badAngle f value)
    | _ => if value ≤ 0.0 then some (.notPositive f value) else none

/-! ## Rejections -/

inductive Source where
  | named (name : String)
  | file (path : String)

def Source.text : Source → String
  | named name => name
  | file path => path

inductive Cause where
  | problems (ps : List Problem)
  | noFile (path : String)
  | badSyntax (detail : String)
  | badEncoding (detail : String)
  | notMapping
  | badFields (entries : List (String × String)) (fields : List Field)

def Cause.details : Cause → String
  | problems ps => "\n".intercalate (ps.map Problem.text)
  | noFile path => "Process parameter file not found at path: " ++ path
  | badSyntax detail => "Invalid YAML/JSON syntax: " ++ detail
  | badEncoding detail => "File is not valid UTF-8 text: " ++ detail
  | notMapping => "The root of the process parameter file must be a mapping."
  | badFields entries _ =>
    "\n".intercalate (entries.map fun (key, messages) => "Field '" ++ key ++ "': " ++ messages)

def Cause.fields : Cause → List Field
  | problems ps => ps.map Problem.field
  | badFields _ fields => fields
  | _ => []

structure Rejection where
  cause : Cause
  source : Source
  userInput : Option String := none

namespace Rejection

def message (r : Rejection) : String :=
  "Invalid process parameters from " ++ r.source.text ++ ": " ++ r.cause.details

def parameterNames (r : Rejection) : List String := r.cause.fields.map Field.name

def report (r : Rejection) : Report where
  title := "Process Parameter Configuration Error"
  details := r.cause.details
  advice := "Specify all five process parameters, either with '--process-file <file>' or with '--process-minimum-node-distance', '--process-minimum-channel-length', '--process-maximum-chip-size-x', '--process-maximum-chip-size-y' and '--process-critical-crossing-angle'. Values are numbers in SI units or unit strings such as '40 mm' or '5 degree'."
  subject := {
    sourceFile := match r.source with
      | .named _ => .null
      | .file path => .text path
    userInput := match r.userInput with
      | none => .null
      | some s => .text s }

end Rejection

/-- A rejection, or what comes instead of one: a fault that no check of ours names, a
problem that cannot be told, or a file that cannot be read. -/
inductive Failure where
  | rejected (r : Rejection)
  | escaped (fault : Quantity.Fault)
  | untellable (obstacle : Obstacle)
  /-- A rejection that was to repeat a value without a text. -/
  | untold (r : Rejection) (limit : Limit)
  | badValue (kind detail : String)

def Failure.kind : Failure → String
  | .rejected _ => "ProcessParameterError"
  | .escaped fault => fault.kind
  | .untellable obstacle => obstacle.kind
  | .untold _ limit => limit.kind
  | .badValue kind _ => kind

/-- A problem that is told with values that `limit?` may keep from being printed. -/
def Problem.told (limit? : Option Limit) (problem : Problem) : Except Failure Problem :=
  match limit? with
  | none => .ok problem
  | some limit => .error (.untellable (.noText limit))

end Parameters

/-! ## Parameters -/

structure Parameters where
  nodeDistance : Magnitude
  channelLength : Magnitude
  chipSizeX : Magnitude
  chipSizeY : Magnitude
  crossingAngle : Magnitude

namespace Parameters

def get (p : Parameters) : Field → Magnitude
  | .nodeDistance => p.nodeDistance
  | .channelLength => p.channelLength
  | .chipSizeX => p.chipSizeX
  | .chipSizeY => p.chipSizeY
  | .crossingAngle => p.crossingAngle

def ofFields (value : Field → Magnitude) : Parameters :=
  ⟨value .nodeDistance, value .channelLength, value .chipSizeX, value .chipSizeY,
    value .crossingAngle⟩

def entries (p : Parameters) : List (String × Magnitude) :=
  Field.all.map fun f => (f.name, p.get f)

def toValues (p : Parameters) : List (String × Value) :=
  p.entries.map fun (name, m) => (name, match m with
    | .int n => .int n
    | .float x => .float x)

def shown (p : Parameters) : String :=
  "ProcessParameters(" ++
    ", ".intercalate (p.entries.map fun (name, m) => name ++ "=" ++ m.text) ++ ")"

/-! ## From numbers -/

def magnitude? : Value → Option Magnitude
  | .int n => some (.int n)
  | .float x => some (.float x)
  | _ => none

def numberProblem? (host : Host) (f : Field) (v : Value) : Except Failure (Option Problem) :=
  match magnitude? v with
  | none => return some (← Problem.told (host.limit? v) (.notReal f v.shown))
  | some m =>
    match m.toFloat with
    | .error fault => .error (.escaped (.arithmetic fault))
    | .ok x => .ok (rangeProblem? f x)

/-- Takes numbers as they are, provided that each is in the range of its
field. -/
def ofNumbers (host : Host) (value : Field → Value) : Except Failure Parameters := do
  let problems ← Field.all.mapM fun f => numberProblem? host f (value f)
  match problems.filterMap id with
  | [] => .ok (ofFields fun f => (magnitude? (value f)).getD (.float 0.0))
  | ps => .error (.rejected ⟨.problems ps, .named "ProcessParameters constructor", none⟩)

/-! ## From raw values -/

def readField (host : Host) (f : Field) (raw : Option Value) :
    Except Failure (Except Problem Float) :=
  match raw with
  | none => .ok (.error (.missing f))
  | some .null => .ok (.error (.missing f))
  | some v =>
    match host.units.toMagnitude v f.measure with
    | .error fault =>
      if fault.escapes then .error (.escaped fault)
      else return .error (← Problem.told ((host.limit? v).or fault.limit?)
        (.unreadable f v.shown fault))
    | .ok x =>
      match rangeProblem? f x with
      | some problem => .ok (.error problem)
      | none => .ok (.ok x)

def given (raw : Catalog Value) : List (String × Value) :=
  raw.entries.filter fun (_, v) => match v with
    | .null => false
    | _ => true

def userInput (raw : Catalog Value) : Option String :=
  let text := ", ".intercalate ((given raw).map fun (name, v) => name ++ "=" ++ v.plain)
  if text = "" then none else some text

/-- The failure with all problems found, which repeats the values given. -/
def rejection (host : Host) (raw : Catalog Value) (source : Source) (ps : List Problem) :
    Failure :=
  match (given raw).findSome? fun (_, v) => host.limit? v with
  | none => .rejected ⟨.problems ps, source, userInput raw⟩
  | some limit => .untold ⟨.problems ps, source, none⟩ limit

def problemOf : Except Problem Float → Option Problem
  | .error problem => some problem
  | .ok _ => none

def valueOf : Except Problem Float → Float
  | .error _ => 0.0
  | .ok x => x

/-- Reads raw values keyed by field name; every field at fault is reported. -/
def read (host : Host) (raw : Catalog Value) (source : Source) :
    Except Failure Parameters := do
  let readings ← Field.all.mapM fun f => readField host f (raw.find? f.name)
  match readings.filterMap problemOf with
  | [] =>
    let value (f : Field) : Float := ((Field.all.zip readings).find? (·.1 = f)).elim 0.0
      fun entry => valueOf entry.2
    ofNumbers host fun f => .float (value f)
  | ps => .error (rejection host raw source ps)

def rejectedRecord (r : Rejection) : Log.Record where
  level := Log.error
  message := "Process parameters from " ++ r.source.text ++ " rejected: " ++
    intText r.cause.fields.length ++ " problem(s)."

def records (source : Source) : Except Failure Parameters → List Log.Record
  | .ok p => [⟨Log.info, "Loaded process parameters from " ++ source.text ++ ": " ++ p.shown⟩]
  | .error (.rejected r) => [rejectedRecord r]
  | .error (.untold r _) => [rejectedRecord r]
  | .error _ => []

def ofValues (host : Host) (raw : Catalog Value) (source : Source) : Run Failure Parameters :=
  let outcome := read host raw source
  ⟨records source outcome, outcome⟩

end Parameters

end FluidChip
