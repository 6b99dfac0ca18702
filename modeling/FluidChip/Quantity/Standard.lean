import FluidChip.Quantity.Expression

/-!
# The standard registry

The units that process files and schematics are usually written in, with their
multiples: lengths, angles, times, pressures, viscosities and volumes, and what they
are built on.  It stands for a larger registry, which has these units alike.
-/

namespace FluidChip.Quantity

open Number

/-! ## Definitions -/

structure Definition where
  name : String
  spellings : List String
  meaning : Meaning

structure Multiple where
  name : String
  symbols : List String
  scale : Float

def multiples : List Multiple := [
  ⟨"tera", ["T"], 1e12⟩, ⟨"giga", ["G"], 1e9⟩, ⟨"mega", ["M"], 1e6⟩, ⟨"kilo", ["k"], 1e3⟩,
  ⟨"hecto", ["h"], 1e2⟩, ⟨"deca", ["da"], 1e1⟩, ⟨"deci", ["d"], 1e-1⟩, ⟨"centi", ["c"], 1e-2⟩,
  ⟨"milli", ["m"], 1e-3⟩, ⟨"micro", ["µ", "μ", "u"], 1e-6⟩, ⟨"nano", ["n"], 1e-9⟩,
  ⟨"pico", ["p"], 1e-12⟩, ⟨"femto", ["f"], 1e-15⟩]

/-- A multiple of other units by a whole number. -/
def Meaning.times (n : Int) (reference : Powers) : Meaning := .derived (.int n) reference

/-- A multiple of other units by a double. -/
def Meaning.scaled (x : Float) (reference : Powers) : Meaning := .derived (.float x) reference

def definitions : List Definition := [
  ⟨"meter", ["m", "metre"], .base (some "[length]")⟩,
  ⟨"second", ["s", "sec"], .base (some "[time]")⟩,
  ⟨"gram", ["g"], .base (some "[mass]")⟩,
  ⟨"ampere", ["A", "amp"], .base (some "[current]")⟩,
  ⟨"radian", ["rad"], .base none⟩,
  ⟨"percent", [], .scaled 0.01 []⟩,
  ⟨"pi", ["π"], .scaled 3.141592653589793 []⟩,
  ⟨"fine_structure_constant", ["α", "alpha"], .scaled 0.0072973525693 []⟩,
  ⟨"degree", ["deg", "arcdeg"], .scaled (1.0 / 180.0) [("pi", 1), ("radian", 1)]⟩,
  ⟨"arcminute", ["arcmin"], .scaled (1.0 / 60.0) [("degree", 1)]⟩,
  ⟨"arcsecond", ["arcsec"], .scaled (1.0 / 60.0) [("arcminute", 1)]⟩,
  ⟨"turn", ["revolution", "cycle"], .times 2 [("pi", 1), ("radian", 1)]⟩,
  ⟨"grade", ["grad", "gon"], .scaled (1.0 / 200.0) [("pi", 1), ("radian", 1)]⟩,
  ⟨"minute", ["min"], .times 60 [("second", 1)]⟩,
  ⟨"hour", ["hr"], .times 60 [("minute", 1)]⟩,
  ⟨"day", ["d"], .times 24 [("hour", 1)]⟩,
  ⟨"year", ["a", "yr", "julian_year"], .scaled 365.25 [("day", 1)]⟩,
  ⟨"micron", ["µ", "μ"], .times 1 [("micrometer", 1)]⟩,
  ⟨"yard", ["yd"], .scaled 0.9144 [("meter", 1)]⟩,
  ⟨"foot", ["ft", "feet"], .scaled (1.0 / 3.0) [("yard", 1)]⟩,
  ⟨"inch", ["in", "inches"], .scaled (1.0 / 36.0) [("yard", 1)]⟩,
  ⟨"liter", ["l", "L", "ℓ", "litre"], .times 1 [("decimeter", 3)]⟩,
  ⟨"barn", ["b"], .scaled 1e-28 [("meter", 2)]⟩,
  ⟨"grain", ["gr"], .scaled 64.79891 [("milligram", 1)]⟩,
  ⟨"pound", ["lb"], .scaled 7e3 [("grain", 1)]⟩,
  ⟨"standard_gravity", ["g_0", "g0", "g_n", "gravity"],
    .scaled 9.80665 [("meter", 1), ("second", -2)]⟩,
  ⟨"newton", ["N"], .times 1 [("kilogram", 1), ("meter", 1), ("second", -2)]⟩,
  ⟨"joule", ["J"], .times 1 [("newton", 1), ("meter", 1)]⟩,
  ⟨"coulomb", ["C"], .times 1 [("ampere", 1), ("second", 1)]⟩,
  ⟨"volt", ["V"], .times 1 [("joule", 1), ("coulomb", -1)]⟩,
  ⟨"ohm", ["Ω"], .times 1 [("volt", 1), ("ampere", -1)]⟩,
  ⟨"pascal", ["Pa"], .times 1 [("newton", 1), ("meter", -2)]⟩,
  ⟨"poise", ["P"], .scaled 0.1 [("pascal", 1), ("second", 1)]⟩,
  ⟨"bar", [], .scaled 1e5 [("pascal", 1)]⟩,
  ⟨"standard_atmosphere", ["atm", "atmosphere"], .scaled 1.01325e5 [("pascal", 1)]⟩,
  ⟨"force_pound", ["lbf", "pound_force"], .times 1 [("standard_gravity", 1), ("pound", 1)]⟩,
  ⟨"pound_force_per_square_inch", ["psi"], .times 1 [("force_pound", 1), ("inch", -2)]⟩]

/-! ## Finding a unit by its spelling -/

def Definition.spells (d : Definition) (s : String) : Bool :=
  d.name == s || d.spellings.contains s

def after? : List Char → List Char → Option (List Char)
  | [], s => some s
  | _ :: _, [] => none
  | c :: start, d :: s => if c = d then after? start s else none

def singular? (s : List Char) : Option (List Char) :=
  match s.reverse with
  | 's' :: rest => some rest.reverse
  | _ => none

def findUnit? (s : List Char) : Option Definition :=
  match definitions.find? (·.spells (.ofList s)) with
  | some d => some d
  | none => (singular? s).bind fun rest => definitions.find? (·.spells (.ofList rest))

/-- The multiples that a spelling can begin with, each with what is left. -/
def splitMultiple (s : List Char) : List (Multiple × List Char) :=
  multiples.flatMap fun m => (m.name :: m.symbols).filterMap fun start =>
    match after? start.toList s with
    | some (c :: rest) => some (m, c :: rest)
    | _ => none

structure Found where
  name : String
  meaning : Meaning

/-- A unit as spelled; failing that, a multiple of a unit. -/
def find? (s : String) : Option Found :=
  match findUnit? s.toList with
  | some d => some ⟨d.name, d.meaning⟩
  | none => (splitMultiple s.toList).findSome? fun (m, rest) =>
    (findUnit? rest).map fun d => ⟨m.name ++ d.name, .scaled m.scale [(d.name, 1)]⟩

theorem mem_definitions_of_findUnit? {s : List Char} {d : Definition}
    (h : findUnit? s = some d) : d ∈ definitions := by
  unfold findUnit? at h
  split at h
  · rename_i found
    cases h
    exact List.mem_of_find?_eq_some found
  · obtain ⟨rest, -, found⟩ := Option.bind_eq_some_iff.mp h
    exact List.mem_of_find?_eq_some found

theorem find?_cases {s : String} {found : Found} (h : find? s = some found) :
    (∃ d ∈ definitions, found = ⟨d.name, d.meaning⟩) ∨
      ∃ m ∈ multiples, ∃ d ∈ definitions,
        found = ⟨m.name ++ d.name, .scaled m.scale [(d.name, 1)]⟩ := by
  unfold find? at h
  split at h
  · rename_i d plain
    cases h
    exact .inl ⟨d, mem_definitions_of_findUnit? plain, rfl⟩
  · obtain ⟨⟨m, rest⟩, split, hit⟩ := List.exists_of_findSome?_eq_some h
    obtain ⟨d, plain, rfl⟩ := Option.map_eq_some_iff.mp hit
    obtain ⟨n, listed, spelled⟩ := List.mem_flatMap.mp split
    obtain ⟨start, -, cut⟩ := List.mem_filterMap.mp spelled
    split at cut
    · cases cut
      exact .inr ⟨m, listed, d, mem_definitions_of_findUnit? plain, rfl⟩
    · cases cut

/-! ## The registry -/

def standardMeaning? (name : String) : Option Meaning := (find? name).map Found.meaning

theorem settles_definitions : ∀ d ∈ definitions,
    settles standardMeaning? 11 [(d.name, 1)] = true ∧
      settles standardMeaning? 11 d.meaning.reference = true := by
  decide +kernel

namespace Registry

def standard : Registry where
  meaning? := standardMeaning?
  raised m e := if e.den = 1 then m.pow e.num else .error .overflow
  depth := 11
  settled {name meaning} h := by
    obtain ⟨found, hit, rfl⟩ := Option.map_eq_some_iff.mp h
    rcases find?_cases hit with ⟨d, listed, rfl⟩ | ⟨m, -, d, listed, rfl⟩
    · exact (settles_definitions d listed).2
    · exact (settles_definitions d listed).1
  measured := by decide +kernel

end Registry

namespace Spelling

def standard : Spelling := ⟨.standard, fun s => (find? s).map Found.name⟩

end Spelling

end FluidChip.Quantity
