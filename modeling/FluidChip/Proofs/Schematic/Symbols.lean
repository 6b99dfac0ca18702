import FluidChip.Host
import FluidChip.Proofs.Schematic.Load
import FluidChip.Proofs.Unknown

/-!
# The symbols of loaded schematics

Two rules for names have to fit together: that of the identifiers in a document and
that of the solver's symbols, which are identifiers with suffixes.  They do for
identifiers of one line.  An identifier may also end in a line feed, which in the
midst of a symbol is refused.
-/

namespace FluidChip

open Document Outcome Text

/-! ## Words -/

/-- No line feed stands in a text. -/
def Text.OneLine (s : String) : Prop := '\n' ∉ s.toList

theorem withoutFinalNewline_cases (s : List Char) :
    s = withoutFinalNewline s ∨ s = withoutFinalNewline s ++ ['\n'] := by
  induction s using withoutFinalNewline.induct with
  | case1 => exact .inl rfl
  | case2 => exact .inr rfl
  | case3 c rest last ih =>
      rw [withoutFinalNewline]
      · exact ih.imp (congrArg (c :: ·)) (congrArg (c :: ·))
      · exact last

theorem withoutFinalNewline_eq_self {s : List Char} (h : s.getLast? ≠ some '\n') :
    withoutFinalNewline s = s := by
  rcases withoutFinalNewline_cases s with whole | ended
  · exact whole.symm
  · rw [ended, List.getLast?_append] at h
    exact absurd rfl h

theorem isWord_of_isIdentifier {s : String} (legal : isIdentifier s = true) (line : OneLine s) :
    isWord s.toList = true := by
  rw [isIdentifier, withoutFinalNewline_eq_self] at legal
  · exact legal
  · exact fun last => line (List.mem_of_getLast? last)

theorem continues_of_isWord {s : List Char} (word : isWord s = true) :
    s.all continuesIdentifier = true := by
  cases s with
  | nil => rfl
  | cons c rest =>
      simp only [isWord, Bool.and_eq_true] at word
      simp [continuesIdentifier, word]

/-- Letters, digits and underscores, with no digit in front. -/
def Text.IsPlain (name : String) : Prop :=
  (∀ c ∈ name.toList, continuesIdentifier c = true) ∧ ∀ c ∈ name.toList.head?, isDigit c = false

theorem isDigit_of_starts {c : Char} (h : startsIdentifier c = true) : isDigit c = false := by
  simp only [startsIdentifier, isLetter, Bool.or_eq_true, Bool.and_eq_true, decide_eq_true_eq,
    beq_iff_eq] at h
  have above : '9' < c := by
    rcases h with (⟨low, -⟩ | ⟨low, -⟩) | rfl
    · exact Std.lt_of_lt_of_le (by decide) low
    · exact Std.lt_of_lt_of_le (by decide) low
    · decide
  simp [isDigit, above]

theorem isPlain_of_isWord {name : String} (word : isWord name.toList = true) : IsPlain name := by
  refine ⟨fun c hc => List.all_eq_true.mp (continues_of_isWord word) c hc, fun c hc => ?_⟩
  obtain ⟨rest, spelled⟩ := List.head?_eq_some_iff.mp hc
  rw [spelled, isWord, Bool.and_eq_true] at word
  exact isDigit_of_starts word.1

/-- A word in front of which a plain name stands is a word. -/
theorem isWord_append {name word : String} (plain : IsPlain name)
    (h : isWord word.toList = true) : isWord (name ++ word).toList = true := by
  obtain ⟨letters, lead⟩ := plain
  rw [String.toList_append]
  cases spelled : name.toList with
  | nil => exact h
  | cons c rest =>
      rw [spelled] at letters lead
      obtain ⟨first, others⟩ := List.forall_mem_cons.mp letters
      have digit : isDigit c = false := lead c rfl
      have start : startsIdentifier c = true := by simpa [continuesIdentifier, digit] using first
      simp only [List.cons_append, isWord, start, Bool.true_and, List.all_append, Bool.and_eq_true]
      exact ⟨List.all_eq_true.mpr others, continues_of_isWord h⟩

/-! ## Simple symbols -/

/-- The words that the solver's language keeps to itself. -/
def reservedWords : List String :=
  ["!", "_", "as", "BINARY", "DECIMAL", "exists", "HEXADECIMAL", "forall", "let", "match",
  "NUMERAL", "par", "STRING", "assert", "check-sat", "check-sat-assuming", "declare-const",
  "declare-datatype", "declare-datatypes", "declare-fun", "declare-sort", "define-fun",
  "define-fun-rec", "define-funs-rec", "define-sort", "echo", "exit", "get-assertions",
  "get-assignment", "get-info", "get-model", "get-option", "get-proof",
  "get-unsat-assumptions", "get-unsat-core", "get-value", "pop", "push", "reset",
  "reset-assertions", "set-info", "set-logic", "set-option"]

/-- What the solver reads as one symbol: symbol characters, no digit in front, and
no word that it keeps to itself. -/
structure IsSimpleSymbol (name : String) : Prop where
  nonempty : name ≠ ""
  characters : ∀ c ∈ name.toList, isSymbolChar c = true
  head : ∀ c ∈ name.toList.head?, isDigit c = false
  free : name ∉ reservedWords

theorem isSymbolChar_of_continues {c : Char} (h : continuesIdentifier c = true) :
    isSymbolChar c = true := by
  simp only [continuesIdentifier, startsIdentifier, Bool.or_eq_true, beq_iff_eq] at h
  rcases h with (letter | rfl) | digit
  · simp [isSymbolChar, letter]
  · decide
  · simp [isSymbolChar, digit]

theorem isSimpleSymbol_of_isWord {name : String} (word : isWord name.toList = true)
    (hvar : Schematic.IsVariable name) : IsSimpleSymbol name := by
  constructor
  case nonempty =>
    rintro rfl
    cases word
  case characters =>
    intro c hc
    exact isSymbolChar_of_continues (List.all_eq_true.mp (continues_of_isWord word) c hc)
  case head =>
    intro c hc
    obtain ⟨rest, spelled⟩ := List.head?_eq_some_iff.mp hc
    rw [spelled, isWord, Bool.and_eq_true] at word
    exact isDigit_of_starts word.1
  case free =>
    intro reserved
    have plain : ∀ w ∈ reservedWords, ¬ Schematic.IsVariable w := by decide +kernel
    exact plain name reserved hvar

namespace Schematic

/-! ## Symbols of given names -/

theorem getLast?_of_isVariable {name : String} (h : IsVariable name) :
    name.toList.getLast? ≠ some '\n' := by
  intro last
  have lower := h.2
  rw [last] at lower
  revert lower
  decide

theorem isSymbolName_of_simple {name : String} (simple : IsSimpleSymbol name)
    (hvar : IsVariable name) : isSymbolName name.toList = true := by
  rw [isSymbolName, withoutFinalNewline_eq_self (getLast?_of_isVariable hvar)]
  have characters := simple.characters
  have head := simple.head
  cases spelled : name.toList with
  | nil => exact absurd (String.toList_eq_nil_iff.mp spelled) simple.nonempty
  | cons c rest =>
      rw [spelled] at characters head
      have digit : isDigit c = false := head c rfl
      have first : isSymbolChar c = true := characters c List.mem_cons_self
      have others : rest.all isSymbolChar = true :=
        List.all_eq_true.mpr fun d hd => characters d (List.mem_cons_of_mem c hd)
      simp [digit, first, others]

theorem symbolNamed_of_simple {name : String} (simple : IsSimpleSymbol name)
    (hvar : IsVariable name) :
    ∃ symbol, symbolNamed name = .ok symbol ∧ symbol.name = name := by
  have legal := isSymbolName_of_simple simple hvar
  exact ⟨⟨name, legal⟩, by simp [symbolNamed, Symbol.ofName?, legal], rfl⟩

/-- A line feed before the last character is let through by no rule. -/
theorem symbolNamed_of_broken {name : String} (broken : ¬ OneLine name)
    (hvar : IsVariable name) :
    symbolNamed name = .error (.expression (.badSymbol name)) := by
  have illegal : isSymbolName name.toList = false := by
    rw [isSymbolName, withoutFinalNewline_eq_self (getLast?_of_isVariable hvar)]
    have feed : '\n' ∈ name.toList := not_not.mp broken
    have other : isSymbolChar '\n' = false := by decide
    cases spelled : name.toList with
    | nil => rfl
    | cons c rest =>
        rw [spelled] at feed
        rw [Bool.eq_false_iff]
        intro legal
        simp only [Bool.and_eq_true, List.all_eq_true] at legal
        rcases List.mem_cons.mp feed with rfl | later
        · exact Bool.false_ne_true (other.symm.trans legal.1.2)
        · exact Bool.false_ne_true (other.symm.trans (legal.2 _ later))
  simp [symbolNamed, Symbol.ofName?, illegal]

/-! ## From names to symbols -/

/-- The names that the symbol of an unknown is built from, and its text. -/
inductive Builds (s : Schematic) : Unknown → List String → String → Prop
  | pi : Builds s .pi [] "constant_pi"
  | node {name : String} {id : NodeId} (quantity : NodeQuantity) :
      (name, id) ∈ s.nodes.entries →
      Builds s (.node quantity id) [name] (name ++ quantity.suffix)
  | port {name label : String} {id : NodeId} {port : PortId} :
      (name, id) ∈ s.nodes.entries → (label, port) ∈ (s.node id).ports.entries →
      Builds s (.port port) [name, label] (name ++ "_" ++ label ++ "_pressure")
  | connection {name : String} {id : ConnectionId} (quantity : ConnectionQuantity) :
      (name, id) ∈ s.connections.entries →
      Builds s (.connection quantity id) [name] (name ++ quantity.suffix)

variable {s : Schematic} {u : Unknown} {names : List String} {text : String}

theorem builds_of_registers (h : s.Registers u) : ∃ names text, s.Builds u names text := by
  cases u with
  | pi => exact ⟨_, _, .pi⟩
  | node quantity id =>
      obtain ⟨⟨name, same⟩, listed, rfl⟩ := List.mem_map.mp h
      exact ⟨_, _, .node quantity listed⟩
  | port id =>
      obtain ⟨node, hnode, hport⟩ := h
      obtain ⟨⟨name, same⟩, listed, rfl⟩ := List.mem_map.mp hnode
      obtain ⟨⟨label, port⟩, labelled, rfl⟩ := List.mem_map.mp hport
      exact ⟨_, _, .port listed labelled⟩
  | connection quantity id =>
      obtain ⟨⟨name, same⟩, listed, rfl⟩ := List.mem_map.mp h
      exact ⟨_, _, .connection quantity listed⟩

theorem Builds.registers (h : s.Builds u names text) : s.Registers u := by
  cases h with
  | pi => trivial
  | node quantity listed => exact List.mem_map_of_mem listed
  | port listed labelled =>
      exact ⟨_, List.mem_map_of_mem listed, List.mem_map_of_mem labelled⟩
  | connection quantity listed => exact List.mem_map_of_mem listed

theorem Builds.isVariable (h : s.Builds u names text) : IsVariable text := by
  cases h with
  | pi => decide
  | node quantity => exact isVariable_append (by cases quantity <;> decide)
  | port => exact isVariable_append (by decide)
  | connection quantity => exact isVariable_append (by cases quantity <;> decide)

theorem Builds.labelled {P : String → Prop} (h : s.Builds u names text) (all : s.Labelled P) :
    ∀ name ∈ names, P name := by
  cases h with
  | pi => simp
  | node quantity listed =>
      simpa using all.nodes _ (List.mem_map_of_mem listed)
  | port listed labelled =>
      simpa using And.intro (all.nodes _ (List.mem_map_of_mem listed))
        (all.ports _ (List.mem_map_of_mem listed) _ (List.mem_map_of_mem labelled))
  | connection quantity listed =>
      simpa using all.connections _ (List.mem_map_of_mem listed)

/-- In an orderly schematic an unknown is looked up under the names that it was
registered with. -/
theorem Builds.symbolOf (h : s.Builds u names text) (o : s.Orderly) :
    s.symbolOf u = symbolNamed text := by
  cases h with
  | pi => rfl
  | node quantity listed =>
      have named := nodeName_ok_iff.mpr ((nameOf?_eq_some_iff o.nodesOnce).mpr listed)
      rw [Schematic.symbolOf, nodeSymbol, named]
      rfl
  | @port name label id port listed labelled =>
      have registered : id ∈ s.nodes.values := List.mem_map_of_mem listed
      have owned : s.owner port = id :=
        o.portsOwned id registered port (List.mem_map_of_mem labelled)
      have named := nodeName_ok_iff.mpr ((nameOf?_eq_some_iff o.nodesOnce).mpr listed)
      have portNamed : s.portName port = .ok label := by
        rw [portName_ok_iff, owned]
        exact (nameOf?_eq_some_iff (o.portsOnce id registered)).mpr labelled
      rw [Schematic.symbolOf, portSymbol, owned, named, portNamed]
      rfl
  | connection quantity listed =>
      have named :=
        connectionName_ok_iff.mpr ((nameOf?_eq_some_iff o.connectionsOnce).mpr listed)
      rw [Schematic.symbolOf, connectionSymbol, named]
      rfl

theorem Builds.isWord (h : s.Builds u names text) (plain : ∀ name ∈ names, IsPlain name) :
    Text.isWord text.toList = true := by
  cases h with
  | pi => decide
  | node quantity =>
      exact isWord_append (plain _ List.mem_cons_self) (by cases quantity <;> decide)
  | port =>
      simp only [List.mem_cons, List.not_mem_nil, or_false, forall_eq_or_imp, forall_eq] at plain
      obtain ⟨name, label⟩ := plain
      have underscore : IsPlain "_" := isPlain_of_isWord (by decide)
      rw [String.append_assoc, String.append_assoc]
      exact isWord_append name (isWord_append underscore (isWord_append label (by decide)))
  | connection quantity =>
      exact isWord_append (plain _ List.mem_cons_self) (by cases quantity <;> decide)

theorem Builds.broken (h : s.Builds u names text) (broken : ∃ name ∈ names, ¬ OneLine name) :
    ¬ OneLine text := by
  obtain ⟨name, listed, feed⟩ := broken
  have feed : '\n' ∈ name.toList := not_not.mp feed
  refine not_not.mpr ?_
  cases h with
  | pi => cases listed
  | node quantity =>
      obtain rfl := List.mem_singleton.mp listed
      simp [feed]
  | port =>
      simp only [List.mem_cons, List.not_mem_nil, or_false] at listed
      rcases listed with rfl | rfl <;> simp [feed]
  | connection quantity =>
      obtain rfl := List.mem_singleton.mp listed
      simp [feed]

/-! ## Legible schematics -/

/-- The first claim that is not granted has no symbol, or one that is taken. -/
theorem grant_error {schematic : String} {claims : List Claim} {granted : Catalog String}
    {failure : Failure} (h : grant schematic claims granted = .error failure) :
    (∃ claim ∈ claims, claim.symbol = .error failure) ∨ ∃ symbol first second,
      failure = .naming (.collision schematic symbol first second) := by
  induction claims generalizing granted with
  | nil => cases h
  | cons claim rest ih =>
      rw [grant] at h
      split at h
      · rename_i none
        cases h
        exact .inl ⟨claim, List.mem_cons_self, none⟩
      · split at h
        · cases h
          exact .inr ⟨_, _, _, rfl⟩
        · rcases ih h with ⟨other, later, none⟩ | collision
          · exact .inl ⟨other, List.mem_cons_of_mem claim later, none⟩
          · exact .inr collision

/-- A schematic without a namespace has an unknown without a symbol, or two with one. -/
theorem namespace_error {failure : Failure} (h : s.namespace? = .error failure) :
    (∃ u, s.Registers u ∧ s.symbolOf u = .error failure) ∨ ∃ symbol first second,
      failure = .naming (.collision s.name symbol first second) := by
  rcases grant_error h with ⟨claim, listed, none⟩ | collision
  · have claimed := List.mem_map_of_mem (f := Claim.symbol) listed
    rw [map_symbol_claims, none] at claimed
    obtain ⟨u, hu, none⟩ := List.mem_map.mp claimed
    exact .inl ⟨u, mem_unknowns.mp hu, none⟩
  · exact .inr collision

/-- The symbols of a schematic whose names are identifiers: simple ones where no
name breaks over lines, none where one does.  Nothing else than such a name, or a
symbol claimed twice, keeps the schematic from having a namespace. -/
structure Legible (s : Schematic) : Prop where
  simple : ∀ u names text, s.Builds u names text → (∀ name ∈ names, OneLine name) →
    IsSimpleSymbol text ∧ ∃ symbol, s.symbolOf u = .ok symbol ∧ symbol.name = text
  broken : ∀ u names text, s.Builds u names text → (∃ name ∈ names, ¬ OneLine name) →
    s.symbolOf u = .error (.expression (.badSymbol text)) ∧ ∀ owners, s.namespace? ≠ .ok owners
  refused : ∀ failure, s.namespace? = .error failure →
    (∃ symbol first second, failure = .naming (.collision s.name symbol first second)) ∨
    ∃ u names text, s.Builds u names text ∧ (∃ name ∈ names, ¬ OneLine name) ∧
      failure = .expression (.badSymbol text)
  answered : (∀ u names text, s.Builds u names text → ∀ name ∈ names, OneLine name) →
    (∃ owners, s.namespace? = .ok owners) ∨ ∃ symbol first second,
      s.namespace? = .error (.naming (.collision s.name symbol first second))

theorem legible_of_spelled (w : s.WellFormed)
    (spelled : s.Spelled fun name => isIdentifier name = true) : s.Legible := by
  have simple u names text (built : s.Builds u names text)
      (lines : ∀ name ∈ names, OneLine name) : IsSimpleSymbol text ∧
      ∃ symbol, s.symbolOf u = .ok symbol ∧ symbol.name = text := by
    have word : Text.isWord text.toList = true := built.isWord fun name listed =>
      isPlain_of_isWord <|
        isWord_of_isIdentifier (built.labelled spelled.labelled name listed) (lines name listed)
    have simple := isSimpleSymbol_of_isWord word built.isVariable
    rw [built.symbolOf w.orderly]
    exact ⟨simple, symbolNamed_of_simple simple built.isVariable⟩
  have broken u names text (built : s.Builds u names text)
      (feed : ∃ name ∈ names, ¬ OneLine name) :
      s.symbolOf u = .error (.expression (.badSymbol text)) := by
    rw [built.symbolOf w.orderly]
    exact symbolNamed_of_broken (built.broken feed) built.isVariable
  have refused failure (h : s.namespace? = .error failure) :
      (∃ symbol first second, failure = .naming (.collision s.name symbol first second)) ∨
      ∃ u names text, s.Builds u names text ∧ (∃ name ∈ names, ¬ OneLine name) ∧
        failure = .expression (.badSymbol text) := by
    rcases namespace_error h with ⟨u, registered, none⟩ | collision
    · obtain ⟨names, text, built⟩ := builds_of_registers registered
      by_cases lines : ∀ name ∈ names, OneLine name
      · obtain ⟨-, symbol, made, -⟩ := simple u names text built lines
        cases made.symm.trans none
      · have feed : ∃ name ∈ names, ¬ OneLine name := by simpa using lines
        cases (broken u names text built feed).symm.trans none
        exact .inr ⟨u, names, text, built, feed, rfl⟩
    · exact .inl collision
  constructor
  case simple => exact simple
  case broken =>
    intro u names text built feed
    have none := broken u names text built feed
    refine ⟨none, fun owners granted => ?_⟩
    cases none.symm.trans (resolves_of_registers granted built.registers)
  case refused => exact refused
  case answered =>
    intro lines
    cases answer : s.namespace? with
    | ok owners => exact .inl ⟨owners, rfl⟩
    | error failure =>
        rcases refused failure answer with ⟨symbol, first, second, rfl⟩ | broken
        · exact .inr ⟨symbol, first, second, rfl⟩
        · obtain ⟨u, names, text, built, ⟨name, listed, feed⟩, -⟩ := broken
          exact absurd (lines u names text built name listed) feed

/-! ## Loaded schematics -/

/-- A directory with one file in it. -/
def directoryWith (content : String) : FileTree where
  entries := Catalog.empty.set "chip.yaml" (.file content.toUTF8.toList)

theorem load_legible {host : Host} {path : Path} {tree : FileTree}
    (h : (load host path tree).outcome = .ok s) : s.Legible := by
  obtain ⟨at', fallback, document, accepted⟩ := load_ok h
  obtain ⟨formed, spelled⟩ := ofDocument_ok accepted
  exact legible_of_spelled formed spelled

/-- A crossing with a channel from one port of it to another. -/
def crossing : FileTree := directoryWith <|
  "\x7b\"nodes\":[\x7b\"id\":\"a\",\"type\":\"channelCrossing\",\"ports\":[\"p\",\"q\"]\x7d]," ++
  "\"connections\":[\x7b\"id\":\"c\",\"from\":\"a.p\",\"to\":\"a.q\"\x7d]\x7d"

theorem crossing_legible : ∃ s, (load .standard ⟨["chip.yaml"], false⟩ crossing).outcome = .ok s ∧
    s.nodes.names = ["a"] ∧ s.connections.names = ["c"] ∧ s.Legible := by
  have checked : ((load .standard ⟨["chip.yaml"], false⟩ crossing).outcome.toOption.filter fun s =>
      s.nodes.names == ["a"] && s.connections.names == ["c"]).isSome = true := by
    decide +kernel
  obtain ⟨s, checked⟩ := Option.isSome_iff_exists.mp checked
  simp only [Option.filter_eq_some_iff, toOption_eq_some_iff, Bool.and_eq_true,
    beq_iff_eq] at checked
  obtain ⟨loaded, nodes, connections⟩ := checked
  exact ⟨s, loaded, nodes, connections, load_legible loaded⟩

/-- A node whose identifier ends in a line feed. -/
def brokenNode : FileTree := directoryWith
  "\x7b\"nodes\": [\x7b\"id\": \"a\\n\", \"type\": \"channelCrossing\"\x7d]\x7d"

/-- The text that was refused as a symbol. -/
def refusedText? {α : Type} : Except Failure α → Option String
  | .error (.expression (.badSymbol text)) => some text
  | _ => none

theorem refusedText?_eq_some_iff {α : Type} {result : Except Failure α} :
    refusedText? result = some text ↔ result = .error (.expression (.badSymbol text)) := by
  unfold refusedText?
  split <;> simp_all

/-- The identifier is accepted, and there is no symbol for it. -/
theorem brokenNode_loaded : ∃ s, (load .standard ⟨["chip.yaml"], false⟩ brokenNode).outcome = .ok s ∧
    s.nodes.names = ["a\n"] ∧ s.namespace? = .error (.expression (.badSymbol "a\n_pos_x")) := by
  have checked : ((load .standard ⟨["chip.yaml"], false⟩ brokenNode).outcome.toOption.filter fun s =>
      s.nodes.names == ["a\n"] && refusedText? s.namespace? == some "a\n_pos_x").isSome = true := by
    decide +kernel
  obtain ⟨s, checked⟩ := Option.isSome_iff_exists.mp checked
  simp only [Option.filter_eq_some_iff, toOption_eq_some_iff, Bool.and_eq_true, beq_iff_eq,
    refusedText?_eq_some_iff] at checked
  obtain ⟨loaded, names, refused⟩ := checked
  exact ⟨s, loaded, names, refused⟩

end Schematic

end FluidChip
