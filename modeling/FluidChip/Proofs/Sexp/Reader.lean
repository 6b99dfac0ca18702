import FluidChip.Formula
import FluidChip.Proofs.Number.Positional

/-!
# A reader of s-expressions

The reader of a solver takes a line apart at blanks and parentheses and builds the
expression from the tokens.  A token that starts with a digit is a decimal, read as
the nearest double; any other names a symbol.
-/

namespace FluidChip

open Number Text

namespace Sexp

/-! ## Tokens -/

inductive Token where
  | opening
  | closing
  | atom (chars : List Char)
  deriving DecidableEq, Repr

def isSeparator (c : Char) : Bool := c == ' ' || c == '(' || c == ')'

def wordToken (word : List Char) : List Token := if word = [] then [] else [.atom word]

/-- The tokens of a text, after the part of a word that is read already. -/
def tokensAfter (word : List Char) : List Char → List Token
  | [] => wordToken word
  | c :: rest =>
    if c = ' ' then wordToken word ++ tokensAfter [] rest
    else if c = '(' then wordToken word ++ .opening :: tokensAfter [] rest
    else if c = ')' then wordToken word ++ .closing :: tokensAfter [] rest
    else tokensAfter (word ++ [c]) rest

def tokens (line : List Char) : List Token := tokensAfter [] line

/-! ## Atoms -/

/-- The literal of a decimal: a numeral, a point and digits. -/
def decimal? (s : List Char) : Option Literal :=
  let whole := s.takeWhile (· != '.')
  let part := s.drop (whole.length + 1)
  if isNumeral whole ∧ part ≠ [] ∧ part.all isDigit then
    Literal.ofFloat? (ofDecimal false (natOf (whole ++ part)) (-(part.length : Int)))
  else none

def atom? (s : List Char) : Option Sexp :=
  if s.head?.any isDigit then (decimal? s).map .literal
  else (Symbol.ofName? (.ofList s)).map .symbol

/-! ## Forms -/

def ofMembers : List Sexp → Sexp
  | [] => .noArguments
  | head :: rest => .form head rest

/-- Takes one token.  What is kept are the members so far of every form that is
open, the innermost first. -/
def readToken : List (List Sexp) → Token → Option (List (List Sexp))
  | forms, .opening => some ([] :: forms)
  | members :: outer :: forms, .closing => some ((outer ++ [ofMembers members]) :: forms)
  | members :: forms, .atom s => (atom? s).map fun e => (members ++ [e]) :: forms
  | _, _ => none

/-- The expression that a line writes, where it writes one and nothing else. -/
def read? (line : List Char) : Option Sexp :=
  match (tokens line).foldlM readToken [[]] with
  | some [[e]] => some e
  | _ => none

/-! ## Lemmas on tokens -/

variable {word s rest : List Char} {c : Char}

theorem isSeparator_iff : isSeparator c = true ↔ c = ' ' ∨ c = '(' ∨ c = ')' := by
  simp [isSeparator, or_assoc]

/-- Where a word ends: before a separator, or with the text. -/
def EndsWord (rest : List Char) : Prop := ∀ c ∈ rest.head?, isSeparator c = true

@[simp] theorem endsWord_nil : EndsWord [] := by simp [EndsWord]

@[simp] theorem endsWord_cons : EndsWord (c :: rest) ↔ isSeparator c = true := by
  simp [EndsWord]

@[simp] theorem tokens_blank (rest : List Char) : tokens (' ' :: rest) = tokens rest := rfl

@[simp] theorem tokens_opening (rest : List Char) :
    tokens ('(' :: rest) = .opening :: tokens rest := rfl

@[simp] theorem tokens_closing (rest : List Char) :
    tokens (')' :: rest) = .closing :: tokens rest := rfl

theorem tokensAfter_letter (h : isSeparator c = false) (word rest : List Char) :
    tokensAfter word (c :: rest) = tokensAfter (word ++ [c]) rest := by
  simp only [isSeparator, Bool.or_eq_false_iff, beq_eq_false_iff_ne] at h
  obtain ⟨⟨blank, opening⟩, closing⟩ := h
  rw [tokensAfter, if_neg blank, if_neg opening, if_neg closing]

theorem tokensAfter_of_endsWord (h : EndsWord rest) (word : List Char) :
    tokensAfter word rest = wordToken word ++ tokens rest := by
  cases rest with
  | nil => simp [tokensAfter, tokens, wordToken]
  | cons c rest =>
      rcases isSeparator_iff.mp (endsWord_cons.mp h) with rfl | rfl | rfl <;> rfl

theorem tokens_word (nonempty : word ≠ []) (letters : ∀ c ∈ word, isSeparator c = false)
    (h : EndsWord rest) : tokens (word ++ rest) = .atom word :: tokens rest := by
  have gathered (seen : List Char) :
      tokensAfter seen (word ++ rest) = tokensAfter (seen ++ word) rest := by
    clear nonempty
    induction word generalizing seen with
    | nil => simp
    | cons c word ih =>
        obtain ⟨letter, letters⟩ := List.forall_mem_cons.mp letters
        rw [List.cons_append, tokensAfter_letter letter, ih letters]
        simp
  rw [tokens, gathered, List.nil_append, tokensAfter_of_endsWord h, wordToken,
    if_neg nonempty]
  rfl

/-! ## Lemmas on atoms -/

theorem isSeparator_of_isSymbolChar (h : isSymbolChar c = true) : isSeparator c = false := by
  rw [← Bool.not_eq_true, isSeparator_iff]
  rintro (rfl | rfl | rfl) <;> exact absurd h (by decide)

theorem isSymbolChar_of_isDigit (h : isDigit c = true) : isSymbolChar c = true := by
  simp [isSymbolChar, h]

theorem decimal?_positional {whole part : List Char} (h : Positional whole part) {r : Literal}
    (value : ofDecimal false (natOf (whole ++ part)) (-(part.length : Int)) = r.value) :
    decimal? (whole ++ '.' :: part) = some r := by
  obtain ⟨-, all, -⟩ := isNumeral_iff.mp h.numeral
  have first : (whole ++ '.' :: part).takeWhile (· != '.') = whole := by
    rw [List.takeWhile_append_of_pos, List.takeWhile_cons_of_neg]
    · simp
    · simp
    · intro c hc
      rw [bne_iff_ne]
      rintro rfl
      exact absurd (all _ hc) (by decide)
  have second : (whole ++ '.' :: part).drop (whole.length + 1) = part := by
    rw [List.append_cons, List.drop_left' (by simp)]
  have digits : part.all isDigit = true := List.all_eq_true.mpr h.digits
  simp only [decimal?, first, second, h.numeral, digits, value, Literal.ofFloat?]
  rw [if_pos ⟨trivial, h.nonempty, trivial⟩, dif_pos r.finite]

end Sexp

end FluidChip
