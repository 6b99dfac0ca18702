import FluidChip.Proofs.Sexp.Reader
import FluidChip.Proofs.Declaration
import FluidChip.Proofs.Schematic.Symbols

/-!
# Programs read back

The text of a program has one line for each of its expressions, and a reader finds
the expression in the line again, a negative number as the minus form of its
magnitude.  The symbols have to be of one line for that; those of a compiled
program are, whatever its schematic calls things.
-/

namespace FluidChip

open Number Text Formula

/-! ## What is read back -/

def Literal.magnitude (r : Literal) : Literal where
  value := r.value.abs
  finite := by
    obtain ⟨_, _, _, reading⟩ := finite_of_isFinite r.finite
    exact reading.abs.isFinite

theorem isSymbolName_minus : isSymbolName "-".toList = true := by decide

def minusSign : Sexp := keyword "-" isSymbolName_minus

/-- What the text of a literal reads as: a negative one as the minus form of its
magnitude, the negative zero as zero. -/
def Literal.normal (r : Literal) : Sexp :=
  if r.value < 0.0 then .form minusSign [.literal r.magnitude]
  else if r.value == 0.0 then Formula.zero
  else .literal r

namespace Sexp

mutual

def normal : Sexp → Sexp
  | .symbol s => .symbol s
  | .literal r => r.normal
  | .noArguments => .noArguments
  | .form head rest => .form head.normal (normalOfAll rest)

def normalOfAll : List Sexp → List Sexp
  | [] => []
  | e :: rest => e.normal :: normalOfAll rest

end

mutual

/-- The tokens of an expression without negative numbers: one for each symbol and
each number in it, and two for each pair of parentheses. -/
def spelling : Sexp → List Token
  | .symbol s => [.atom s.name.toList]
  | .literal r => [.atom r.chars]
  | .noArguments => [.opening, .closing]
  | .form head rest => .opening :: (head.spelling ++ spellingOfAll rest)

def spellingOfAll : List Sexp → List Token
  | [] => [.closing]
  | e :: rest => e.spelling ++ spellingOfAll rest

end

/-- The text opens and closes as many parentheses, and closes none before it is
opened. -/
structure Balanced (line : List Char) : Prop where
  total : line.count '(' = line.count ')'
  initial : ∀ n, (line.take n).count ')' ≤ (line.take n).count '('

def IsPositional (s : List Char) : Prop :=
  ∃ whole part, s = whole ++ '.' :: part ∧ Positional whole part

/-- A text writes an expression: each symbol and each number in it is one token, every
token with a digit in front is positional, and the reader finds the expression. -/
structure Writes (line : List Char) (e : Sexp) : Prop where
  tokens : tokens line = e.normal.spelling
  read : read? line = some e.normal
  balanced : Balanced line
  positional : ∀ s, Token.atom s ∈ Sexp.tokens line → s.head?.any isDigit = true →
    IsPositional s

end Sexp

/-! ## Symbols -/

theorem Symbol.name_cases (s : Symbol) : ∃ c rest, s.name.toList = c :: rest ∧
    isDigit c = false ∧ ∀ d ∈ c :: rest, isSymbolChar d = true ∨ d = '\n' := by
  have legal := s.legal
  rw [isSymbolName] at legal
  cases word : withoutFinalNewline s.name.toList with
  | nil => simp [word] at legal
  | cons c rest =>
      rw [word, Bool.and_eq_true, Bool.and_eq_true, Bool.not_eq_true', List.all_eq_true] at legal
      obtain ⟨⟨digit, first⟩, others⟩ := legal
      have letters : ∀ d ∈ c :: rest, isSymbolChar d = true :=
        List.forall_mem_cons.mpr ⟨first, others⟩
      rcases withoutFinalNewline_cases s.name.toList with whole | ended
      · exact ⟨c, rest, whole.trans word, digit, fun d hd => .inl (letters d hd)⟩
      · rw [word] at ended
        refine ⟨c, rest ++ ['\n'], ended, digit, fun d hd => ?_⟩
        rw [← List.cons_append] at hd
        rcases List.mem_append.mp hd with inside | last
        · exact .inl (letters d inside)
        · exact .inr (List.mem_singleton.mp last)

theorem Sexp.atom?_symbol (s : Symbol) : atom? s.name.toList = some (.symbol s) := by
  obtain ⟨c, rest, word, digit, -⟩ := s.name_cases
  have named : Symbol.ofName? (.ofList s.name.toList) = some s := by
    rw [String.ofList_toList, Symbol.ofName?, dif_pos s.legal]
  rw [atom?, named]
  simp [word, digit]

/-! ## Literals -/

namespace Literal

variable (r : Literal)

theorem magnitude_chars : ∃ whole part, r.magnitude.chars = whole ++ '.' :: part ∧
    Positional whole part ∧
    ofDecimal false (natOf (whole ++ part)) (-(part.length : Int)) = r.magnitude.value := by
  obtain ⟨negative, mantissa, exponent, reading⟩ := finite_of_isFinite r.finite
  obtain ⟨whole, part, plain, positional, value⟩ :=
    plain_positional (shortest mantissa exponent)
  refine ⟨whole, part, ?_, positional, ofDecimal_eq_abs reading value⟩
  have magnitude : Reading.ofFloat r.magnitude.value = .finite false mantissa exponent :=
    reading.abs.ofFloat
  rw [← plain, chars, magnitude]
  rfl

/-- The text of a magnitude is one word that starts with a digit. -/
theorem magnitude_word : ∃ c rest, r.magnitude.chars = c :: rest ∧
    (∀ d ∈ r.magnitude.chars, isSymbolChar d = true) ∧ isDigit c = true ∧
    Sexp.atom? r.magnitude.chars = some (.literal r.magnitude) ∧
    Sexp.IsPositional r.magnitude.chars := by
  obtain ⟨whole, part, chars, positional, value⟩ := r.magnitude_chars
  obtain ⟨nonempty, digits, -⟩ := isNumeral_iff.mp positional.numeral
  cases whole with
  | nil => exact absurd rfl nonempty
  | cons c rest =>
      have digit : isDigit c = true := digits c List.mem_cons_self
      rw [chars]
      refine ⟨c, rest ++ '.' :: part, rfl, ?_, digit, ?_, c :: rest, part, rfl, positional⟩
      · intro d hd
        rcases List.mem_append.mp hd with before | after
        · exact Sexp.isSymbolChar_of_isDigit (digits d before)
        · rcases List.mem_cons.mp after with rfl | after
          · decide
          · exact Sexp.isSymbolChar_of_isDigit (positional.digits d after)
      · rw [Sexp.atom?, Sexp.decimal?_positional positional value]
        simp [digit]

theorem magnitude_magnitude : r.magnitude.magnitude = r.magnitude := by
  obtain ⟨_, _, _, reading⟩ := finite_of_isFinite r.finite
  have same : r.value.abs.abs = r.value.abs := reading.abs.abs.unique reading.abs
  simp only [magnitude, same]

theorem chars_of_lt (h : r.value < 0.0) :
    r.chars = '(' :: '-' :: ' ' :: (r.magnitude.chars ++ [')']) := by
  obtain ⟨negative, mantissa, exponent, reading⟩ := finite_of_isFinite r.finite
  obtain ⟨rfl, nonzero⟩ := reading.lt_zero_iff.mp h
  have magnitude : Reading.ofFloat r.magnitude.value = .finite false mantissa exponent :=
    reading.abs.ofFloat
  rw [chars, chars, reading.ofFloat, magnitude]
  simp [nonzero]

theorem chars_of_not_lt (h : ¬ r.value < 0.0) : r.chars = r.magnitude.chars := by
  obtain ⟨negative, mantissa, exponent, reading⟩ := finite_of_isFinite r.finite
  have unsigned : (negative && mantissa != 0) = false := by
    simpa using mt reading.lt_zero_iff.mpr h
  have magnitude : Reading.ofFloat r.magnitude.value = .finite false mantissa exponent :=
    reading.abs.ofFloat
  rw [chars, chars, reading.ofFloat, magnitude]
  simp [unsigned]

theorem normal_of_not_lt (h : ¬ r.value < 0.0) : r.normal = .literal r.magnitude := by
  obtain ⟨negative, mantissa, exponent, reading⟩ := finite_of_isFinite r.finite
  rw [normal, if_neg h, magnitude]
  split
  · rename_i zero
    have nothing : mantissa = 0 := reading.beq_zero_iff.mp zero
    have same : r.value.abs = 0.0 := by
      cases reading.abs with
      | zero bits => exact (Finite.zero bits).unique (.zero rfl)
      | canonical c => exact absurd nothing c.pos.ne'
    simp only [same]
    rfl
  · rename_i nonzero
    have unsigned : negative = false := by
      by_contra signed
      exact h (reading.lt_zero_iff.mpr ⟨by simpa using signed, mt reading.beq_zero_iff.mpr nonzero⟩)
    subst unsigned
    have same : r.value = r.value.abs := reading.unique reading.abs
    show Sexp.literal ⟨r.value, r.finite⟩ = _
    simp only [← same]

theorem not_magnitude_lt : ¬ r.magnitude.value < 0.0 := by
  obtain ⟨_, _, _, reading⟩ := finite_of_isFinite r.finite
  exact fun h => Bool.false_ne_true (reading.abs.lt_zero_iff.mp h).1

theorem normal_magnitude : r.magnitude.normal = .literal r.magnitude := by
  rw [r.magnitude.normal_of_not_lt r.not_magnitude_lt, r.magnitude_magnitude]

theorem chars_normal : r.normal.chars = r.chars := by
  by_cases negative : r.value < 0.0
  · rw [normal, if_pos negative, r.chars_of_lt negative]
    simp [minusSign, keyword, Sexp.chars, Sexp.charsOfAll]
  · rw [r.normal_of_not_lt negative, Sexp.chars, r.chars_of_not_lt negative]

theorem normal_normal : r.normal.normal = r.normal := by
  by_cases negative : r.value < 0.0
  · rw [normal, if_pos negative]
    simp [minusSign, keyword, Sexp.normal, Sexp.normalOfAll, r.normal_magnitude]
  · rw [r.normal_of_not_lt negative, Sexp.normal, r.normal_magnitude]

end Literal

namespace Sexp

variable {line rest : List Char} {e : Sexp} {es : List Sexp}

/-! ## Parentheses -/

theorem Balanced.append {a b : List Char} (ha : Balanced a) (hb : Balanced b) :
    Balanced (a ++ b) := by
  constructor
  case total => rw [List.count_append, List.count_append, ha.total, hb.total]
  case initial =>
    intro n
    rw [List.take_append, List.count_append, List.count_append]
    exact Nat.add_le_add (ha.initial n) (hb.initial _)

theorem Balanced.wrapped (h : Balanced line) : Balanced ('(' :: (line ++ [')'])) := by
  constructor
  case total => simp [h.total]
  case initial =>
    intro n
    cases n with
    | zero => simp
    | succ n =>
        have inner := h.initial n
        have last : ([')'].take (n - line.length)).count ')' ≤ 1 :=
          (List.count_le_length).trans (by simp)
        simp only [List.take_succ_cons, List.take_append, List.count_cons, List.count_append]
        simp
        omega

theorem balanced_of_letters (opening : '(' ∉ line) (closing : ')' ∉ line) : Balanced line := by
  constructor
  case total => rw [List.count_eq_zero.mpr opening, List.count_eq_zero.mpr closing]
  case initial =>
    intro n
    rw [List.count_eq_zero.mpr fun h => closing (List.mem_of_mem_take h)]
    exact Nat.zero_le _

/-! ## Expressions that read back -/

/-- What holds of the text of an expression, whatever text follows it and whatever was
read before it. -/
structure Legible (e : Sexp) : Prop where
  tokens : ∀ rest, EndsWord rest →
    Sexp.tokens (e.chars ++ rest) = e.normal.spelling ++ Sexp.tokens rest
  read : ∀ members forms, e.normal.spelling.foldlM readToken (members :: forms) =
    some ((members ++ [e.normal]) :: forms)
  balanced : Balanced e.chars
  oneLine : '\n' ∉ e.chars
  positional : ∀ s, Token.atom s ∈ e.normal.spelling → s.head?.any isDigit = true →
    IsPositional s

/-- The same of the members of a form, up to its end. -/
structure LegibleAll (es : List Sexp) : Prop where
  tokens : ∀ rest, Sexp.tokens (charsOfAll es ++ rest) =
    spellingOfAll (normalOfAll es) ++ Sexp.tokens rest
  read : ∀ members outer forms,
    (spellingOfAll (normalOfAll es)).foldlM readToken (members :: outer :: forms) =
      some ((outer ++ [ofMembers (members ++ normalOfAll es)]) :: forms)
  balanced : ∀ start, Balanced start → Balanced ('(' :: (start ++ charsOfAll es))
  oneLine : '\n' ∉ charsOfAll es
  positional : ∀ s, Token.atom s ∈ spellingOfAll (normalOfAll es) →
    s.head?.any isDigit = true → IsPositional s

theorem Legible.of_eq {e' : Sexp} (h : Legible e) (chars : e'.chars = e.chars)
    (normal : e'.normal = e.normal) : Legible e' := by
  obtain ⟨tokens, read, balanced, oneLine, positional⟩ := h
  constructor <;> simpa only [chars, normal]

theorem endsWord_charsOfAll (es : List Sexp) (rest : List Char) :
    EndsWord (charsOfAll es ++ rest) := by
  cases es <;> simp [charsOfAll, isSeparator]

theorem legibleAll_nil : LegibleAll [] := by
  constructor
  case tokens => intro rest; rfl
  case read => intro members outer forms; simp [normalOfAll, spellingOfAll, readToken]
  case balanced => exact fun _ start => start.wrapped
  case oneLine => decide
  case positional => simp [normalOfAll, spellingOfAll]

theorem Legible.cons (first : Legible e) (others : LegibleAll es) : LegibleAll (e :: es) := by
  constructor
  case tokens =>
    intro rest
    rw [charsOfAll, List.cons_append, tokens_blank, List.append_assoc,
      first.tokens _ (endsWord_charsOfAll es rest), others.tokens, normalOfAll, spellingOfAll,
      List.append_assoc]
  case read =>
    intro members outer forms
    rw [normalOfAll, spellingOfAll, List.foldlM_append, first.read]
    simpa using others.read (members ++ [e.normal]) outer forms
  case balanced =>
    intro start balanced
    have blank : Balanced [' '] := balanced_of_letters (by simp) (by simp)
    have further := others.balanced _ (balanced.append (blank.append first.balanced))
    simpa [charsOfAll] using further
  case oneLine => simpa [charsOfAll] using ⟨first.oneLine, others.oneLine⟩
  case positional =>
    intro s mem
    rcases List.mem_append.mp mem with here | later
    · exact first.positional s here
    · exact others.positional s later

theorem Legible.form {head : Sexp} (first : Legible head) (others : LegibleAll es) :
    Legible (.form head es) := by
  constructor
  case tokens =>
    intro rest _
    rw [chars, List.cons_append, tokens_opening, List.append_assoc,
      first.tokens _ (endsWord_charsOfAll es rest), others.tokens, normal, spelling,
      List.cons_append, List.append_assoc]
  case read =>
    intro members forms
    rw [normal, spelling, List.foldlM_cons, readToken, Option.bind_eq_bind, Option.bind_some,
      List.foldlM_append, first.read]
    exact others.read [head.normal] members forms
  case balanced => exact others.balanced _ first.balanced
  case oneLine => simpa [chars] using ⟨first.oneLine, others.oneLine⟩
  case positional =>
    intro s mem
    rw [normal, spelling] at mem
    rcases List.mem_append.mp (List.mem_of_ne_of_mem Token.noConfusion mem) with here | later
    · exact first.positional s here
    · exact others.positional s later

/-- An atom is legible: a word of symbol characters that the reader finds again. -/
theorem legible_atom {word : List Char} (chars : e.chars = word)
    (spelling : e.normal.spelling = [.atom word]) (nonempty : word ≠ [])
    (letters : ∀ c ∈ word, isSymbolChar c = true) (read : atom? word = some e.normal)
    (positional : word.head?.any isDigit = true → IsPositional word) : Legible e := by
  constructor
  case tokens =>
    intro rest ends
    rw [chars, spelling]
    exact tokens_word nonempty (fun c hc => isSeparator_of_isSymbolChar (letters c hc)) ends
  case read =>
    intro members forms
    simp [spelling, readToken, read]
  case balanced =>
    rw [chars]
    exact balanced_of_letters (fun h => absurd (letters _ h) (by decide))
      (fun h => absurd (letters _ h) (by decide))
  case oneLine =>
    rw [chars]
    exact fun h => absurd (letters _ h) (by decide)
  case positional =>
    intro s mem digit
    obtain rfl : s = word := by simpa [spelling] using mem
    exact positional digit

theorem legible_symbol {s : Symbol} (line : OneLine s.name) : Legible (.symbol s) := by
  obtain ⟨c, rest, word, digit, letters⟩ := s.name_cases
  refine legible_atom word ?_ (List.cons_ne_nil c rest) (fun d hd => ?_) ?_ (by simp [digit])
  · rw [normal, spelling, word]
  · refine (letters d hd).resolve_right ?_
    rintro rfl
    exact line (word ▸ hd)
  · rw [← word, normal, atom?_symbol]

theorem legible_magnitude {r : Literal} (h : ¬ r.value < 0.0) : Legible (.literal r) := by
  obtain ⟨c, rest, word, letters, digit, read, positional⟩ := r.magnitude_word
  have normal : (literal r).normal = .literal r.magnitude := r.normal_of_not_lt h
  refine legible_atom ((r.chars_of_not_lt h).trans word) ?_ (List.cons_ne_nil c rest) ?_ ?_ ?_
  · rw [normal, spelling, word]
  · rwa [← word]
  · rw [normal, ← word, read]
  · rw [← word]
    exact fun _ => positional

theorem legible_literal (r : Literal) : Legible (.literal r) := by
  by_cases negative : r.value < 0.0
  · have line : OneLine "-" := by
      unfold OneLine
      decide
    have minus : Legible (.form minusSign [.literal r.magnitude]) :=
      (legible_symbol line).form ((legible_magnitude r.not_magnitude_lt).cons legibleAll_nil)
    have normal : r.normal = .form minusSign [.literal r.magnitude] := if_pos negative
    rw [← normal] at minus
    exact minus.of_eq r.chars_normal.symm r.normal_normal.symm
  · exact legible_magnitude negative

theorem legible_noArguments : Legible .noArguments := by
  constructor
  case tokens => intro rest _; rfl
  case read => intro members forms; simp [normal, spelling, readToken, ofMembers]
  case balanced =>
    have nothing : Balanced [] := balanced_of_letters (by simp) (by simp)
    exact nothing.wrapped
  case oneLine => decide
  case positional => simp [normal, spelling]

mutual

theorem legible_of_symbols (e : Sexp) (h : ∀ s ∈ e.symbols, OneLine s.name) : Legible e := by
  match e with
  | .symbol s => exact legible_symbol (h s (by simp [symbols]))
  | .literal r => exact legible_literal r
  | .noArguments => exact legible_noArguments
  | .form head rest =>
      rw [symbols, List.forall_mem_append] at h
      exact (legible_of_symbols head h.1).form (legibleAll_of_symbols rest h.2)
termination_by structural e

theorem legibleAll_of_symbols (es : List Sexp) (h : ∀ s ∈ symbolsOfAll es, OneLine s.name) :
    LegibleAll es := by
  match es with
  | [] => exact legibleAll_nil
  | e :: rest =>
      rw [symbolsOfAll, List.forall_mem_append] at h
      exact (legible_of_symbols e h.1).cons (legibleAll_of_symbols rest h.2)
termination_by structural es

end

theorem Legible.writes (h : Legible e) : Writes e.chars e := by
  have tokens : Sexp.tokens e.chars = e.normal.spelling := by
    simpa [Sexp.tokens, tokensAfter, wordToken] using h.tokens [] endsWord_nil
  constructor
  case tokens => exact tokens
  case read => rw [read?, tokens, h.read]; rfl
  case balanced => exact h.balanced
  case positional => rw [tokens]; exact h.positional

end Sexp

/-! ## Lines -/

/-- The only line feed that a symbol can hold is its last character. -/
theorem Symbol.oneLine {s : Symbol} (last : s.name.toList.getLast? ≠ some '\n') :
    OneLine s.name := by
  have legal := s.legal
  rw [isSymbolName, withoutFinalNewline_eq_self last] at legal
  intro feed
  cases word : s.name.toList with
  | nil => simp [word] at feed
  | cons c rest =>
      rw [word, Bool.and_eq_true, Bool.and_eq_true, List.all_eq_true] at legal
      have letters : ∀ d ∈ c :: rest, isSymbolChar d = true :=
        List.forall_mem_cons.mpr ⟨legal.1.2, legal.2⟩
      exact absurd (letters _ (word ▸ feed)) (by decide)

theorem Program.text_lines {program : List Sexp} (h : ∀ e ∈ program, '\n' ∉ e.chars) :
    (text program).toList.splitOn '\n' = program.map Sexp.chars ++ [[]] := by
  have joined : (text program).toList = ['\n'].intercalate (program.map Sexp.chars ++ [[]]) := by
    clear h
    induction program with
    | nil => rfl
    | cons e rest ih =>
        rw [text, List.map_cons, String.join_cons, String.toList_append, ← text, ih]
        cases rest <;> simp [Sexp.text, List.intercalate]
  rw [joined, List.splitOn_intercalate '\n' _ (by simp)]
  simpa [or_imp, forall_and] using h

namespace Schematic

variable {host : Host} {s : Schematic} {p : Parameters} {program : List Sexp}

theorem Compiled.oneLine (c : Compiled host s p program) {e : Sexp} (he : e ∈ program) :
    ∀ symbol ∈ e.symbols, OneLine symbol.name := by
  have word : ∀ name ∈ words, OneLine name := by
    unfold OneLine
    decide
  have directive : ∀ e ∈ [setLogic, checkSat, exit], ∀ symbol ∈ e.symbols,
      OneLine symbol.name := by
    unfold OneLine
    decide
  have known {symbol : Symbol} (declared : c.setting.Declared symbol) : OneLine symbol.name := by
    obtain ⟨u, -, resolves, rfl⟩ := declared
    exact Symbol.oneLine (getLast?_of_isVariable (isVariable_of_symbolOf resolves))
  obtain ⟨declared, -, mem, forms⟩ := c.arranged
  rw [forms] at he
  simp only [List.mem_cons, List.mem_append, List.mem_map, List.not_mem_nil, or_false] at he
  rcases he with rfl | (⟨symbol, hsymbol, rfl⟩ | assertion) | rfl | rfl
  · exact directive _ (by simp)
  · have keywords : OneLine "declare-fun" ∧ OneLine "Real" := by
      unfold OneLine
      decide
    have line := known ((mem symbol).mp hsymbol)
    simpa [declare, keyword, Sexp.symbols, Sexp.symbolsOfAll] using ⟨keywords.1, line, keywords.2⟩
  · obtain ⟨-, -, -, -, symbols⟩ := c.assertion_over assertion
    exact fun symbol hsymbol => (symbols symbol hsymbol).elim (word _) known
  · exact directive _ (by simp)
  · exact directive _ (by simp)

theorem compile_reads_back (h : (s.compile host p).outcome = .ok program) :
    ∃ lines, (Program.text program).toList.splitOn '\n' = lines ++ [[]] ∧
      List.Forall₂ Sexp.Writes lines program := by
  obtain ⟨c⟩ := compiled_of_compile h
  have legible (e : Sexp) (he : e ∈ program) : e.Legible :=
    Sexp.legible_of_symbols e (c.oneLine he)
  refine ⟨program.map Sexp.chars, Program.text_lines fun e he => (legible e he).oneLine, ?_⟩
  rw [List.forall₂_map_left_iff, List.forall₂_same]
  exact fun e he => (legible e he).writes

theorem bend_reads_back : ∃ s p program, bend = .ok s ∧
    (s.compile .standard p).outcome = .ok program ∧
    ∃ lines, (Program.text program).toList.splitOn '\n' = lines ++ [[]] ∧
      List.Forall₂ Sexp.Writes lines program := by
  obtain ⟨s, p, program, built, -, h⟩ := bend_compiles
  exact ⟨s, p, program, built, h, compile_reads_back h⟩

end Schematic

end FluidChip
