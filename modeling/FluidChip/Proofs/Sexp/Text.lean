import FluidChip.Proofs.Sexp.ReadBack
import FluidChip.Proofs.Sexp.Same

/-!
# Texts and expressions

The text of an expression determines its normal form and nothing more.  The text of a
normal form cannot be split in two ways: a word in it runs to the next separator, and a
parenthesis tells a form from an atom.  So among expressions without negative numbers
those of one text are the same.
-/

namespace FluidChip

open Number Text

/-! ## Literals -/

namespace Literal

variable {a b r : Literal}

theorem magnitude_of_normal (h : r.normal = .literal r) : r.magnitude = r := by
  by_cases negative : r.value < 0.0
  · rw [normal, if_pos negative] at h
    cases h
  · rw [r.normal_of_not_lt negative] at h
    exact Sexp.literal.inj h

theorem normal_of_same (h : (a.value == b.value) = true) : a.normal = b.normal := by
  obtain ⟨_, _, _, first⟩ := finite_of_isFinite a.finite
  obtain ⟨_, _, _, second⟩ := finite_of_isFinite b.finite
  rcases (first.beq_iff second).mp h with ⟨none, none'⟩ | ⟨rfl, rfl, rfl⟩
  · have unsigned : ¬ a.value < 0.0 := fun negative => (first.lt_zero_iff.mp negative).2 none
    have unsigned' : ¬ b.value < 0.0 := fun negative => (second.lt_zero_iff.mp negative).2 none'
    rw [normal, if_neg unsigned, if_pos (first.beq_zero_iff.mpr none), normal,
      if_neg unsigned', if_pos (second.beq_zero_iff.mpr none')]
  · have value : a.value = b.value := first.unique second
    obtain ⟨x, finite⟩ := a
    obtain rfl : x = b.value := value
    rfl

theorem same_magnitude (h : ¬ r.value < 0.0) : (r.value == r.magnitude.value) = true := by
  obtain ⟨negative, mantissa, exponent, reading⟩ := finite_of_isFinite r.finite
  rw [reading.lt_zero_iff] at h
  refine (reading.beq_iff reading.abs).mpr ?_
  by_cases zero : mantissa = 0
  · exact .inl ⟨zero, zero⟩
  · exact .inr ⟨by simpa [zero] using h, rfl, rfl⟩

end Literal

namespace Sexp

/-! ## Normal forms -/

mutual

theorem chars_normal : (e : Sexp) → e.normal.chars = e.chars
  | .symbol s => rfl
  | .literal r => by rw [normal, r.chars_normal, chars]
  | .noArguments => rfl
  | .form head rest => by rw [normal, chars, chars_normal head, charsOfAll_normal rest, chars]

theorem charsOfAll_normal : (es : List Sexp) → charsOfAll (normalOfAll es) = charsOfAll es
  | [] => rfl
  | e :: rest => by
    rw [normalOfAll, charsOfAll, chars_normal e, charsOfAll_normal rest, charsOfAll]

end

mutual

theorem normal_normal : (e : Sexp) → e.normal.normal = e.normal
  | .symbol s => rfl
  | .literal r => by rw [normal, r.normal_normal]
  | .noArguments => rfl
  | .form head rest => by rw [normal, normal, normal_normal head, normalOfAll_normal rest]

theorem normalOfAll_normal : (es : List Sexp) → normalOfAll (normalOfAll es) = normalOfAll es
  | [] => rfl
  | e :: rest => by rw [normalOfAll, normalOfAll, normal_normal e, normalOfAll_normal rest]

end

mutual

theorem normal_of_same : {a b : Sexp} → a.same b = true → a.normal = b.normal
  | .symbol s, .symbol t, h => by
    rw [same, beq_iff_eq] at h
    obtain ⟨name, legal⟩ := s
    obtain rfl : name = t.name := h
    rfl
  | .literal r, .literal t, h => by
    rw [same] at h
    exact Literal.normal_of_same h
  | .noArguments, .noArguments, _ => rfl
  | .form a as, .form b bs, h => by
    rw [same, Bool.and_eq_true] at h
    rw [normal, normal_of_same h.1, normalOfAll_of_same h.2, normal]

theorem normalOfAll_of_same : {as bs : List Sexp} → sameAll as bs = true →
    normalOfAll as = normalOfAll bs
  | [], [], _ => rfl
  | a :: as, b :: bs, h => by
    rw [sameAll, Bool.and_eq_true] at h
    rw [normalOfAll, normal_of_same h.1, normalOfAll_of_same h.2, normalOfAll]

end

theorem same_normal_iff {a b : Sexp} : a.normal.same b.normal = true ↔ a.normal = b.normal := by
  constructor
  · intro h
    have normal := normal_of_same h
    rwa [normal_normal, normal_normal] at normal
  · intro h
    rw [h]
    exact same_refl _

/-! ## Expressions without negative numbers -/

mutual

def literals : Sexp → List Literal
  | .symbol _ => []
  | .literal r => [r]
  | .noArguments => []
  | .form head rest => head.literals ++ literalsOfAll rest

def literalsOfAll : List Sexp → List Literal
  | [] => []
  | e :: rest => e.literals ++ literalsOfAll rest

end

/-- No number in it is below zero. -/
def Unsigned (e : Sexp) : Prop := ∀ r ∈ e.literals, ¬ r.value < 0.0

instance (e : Sexp) : Decidable e.Unsigned :=
  inferInstanceAs (Decidable (∀ r ∈ e.literals, ¬ r.value < 0.0))

mutual

theorem same_normal : (e : Sexp) → (∀ r ∈ e.literals, ¬ r.value < 0.0) → e.same e.normal = true
  | .symbol s, _ => same_refl _
  | .literal r, h => by
    have unsigned : ¬ r.value < 0.0 := h r (by simp [literals])
    rw [normal, r.normal_of_not_lt unsigned, same]
    exact Literal.same_magnitude unsigned
  | .noArguments, _ => same_refl _
  | .form head rest, h => by
    rw [literals, List.forall_mem_append] at h
    rw [normal, same, same_normal head h.1, sameAll_normal rest h.2]
    rfl

theorem sameAll_normal : (es : List Sexp) → (∀ r ∈ literalsOfAll es, ¬ r.value < 0.0) →
    sameAll es (normalOfAll es) = true
  | [], _ => rfl
  | e :: rest, h => by
    rw [literalsOfAll, List.forall_mem_append] at h
    rw [normalOfAll, sameAll, same_normal e h.1, sameAll_normal rest h.2]
    rfl

end

/-! ## Words -/

variable {a b : Sexp} {word word' rest rest' : List Char}

/-- A word that runs to a separator ends where any other does. -/
theorem word_append_inj (letters : ∀ c ∈ word, isSeparator c = false)
    (letters' : ∀ c ∈ word', isSeparator c = false) (ends : EndsWord rest)
    (ends' : EndsWord rest') (h : word ++ rest = word' ++ rest') :
    word = word' ∧ rest = rest' := by
  induction word generalizing word' with
  | nil =>
      cases word' with
      | nil => exact ⟨rfl, h⟩
      | cons c word' =>
          obtain rfl : rest = c :: (word' ++ rest') := h
          have letter := letters' c List.mem_cons_self
          rw [endsWord_cons.mp ends] at letter
          cases letter
  | cons c word ih =>
      cases word' with
      | nil =>
          obtain rfl : c :: (word ++ rest) = rest' := h
          have letter := letters c List.mem_cons_self
          rw [endsWord_cons.mp ends'] at letter
          cases letter
      | cons d word' =>
          obtain ⟨rfl, tail⟩ := List.cons.inj h
          obtain ⟨rfl, after⟩ := ih (fun c hc => letters c (List.mem_cons_of_mem _ hc))
            (fun c hc => letters' c (List.mem_cons_of_mem _ hc)) tail
          exact ⟨rfl, after⟩

/-- An atom that is written as one word, in which it is found again. -/
structure Word (e : Sexp) : Prop where
  lead : ∃ c rest, e.chars = c :: rest ∧ isSeparator c = false
  letters : ∀ c ∈ e.chars, isSeparator c = false
  read : atom? e.chars = some e

theorem word_symbol (s : Symbol) : Word (.symbol s) := by
  obtain ⟨c, rest, name, -, letters⟩ := s.name_cases
  have separate : ∀ d ∈ c :: rest, isSeparator d = false := by
    intro d hd
    rcases letters d hd with letter | rfl
    · exact isSeparator_of_isSymbolChar letter
    · rfl
  constructor
  case lead => exact ⟨c, rest, name, separate c List.mem_cons_self⟩
  case letters => rwa [chars, name]
  case read => exact atom?_symbol s

theorem word_literal {r : Literal} (normal : (literal r).normal = .literal r) :
    Word (.literal r) := by
  obtain ⟨c, rest, word, letters, -, read, -⟩ := r.magnitude_word
  rw [Literal.magnitude_of_normal normal] at word letters read
  have separate : ∀ d ∈ r.chars, isSeparator d = false :=
    fun d hd => isSeparator_of_isSymbolChar (letters d hd)
  constructor
  case lead => exact ⟨c, rest, word, separate c (word ▸ List.mem_cons_self)⟩
  case letters => exact separate
  case read => exact read

theorem Word.ne_cons (word : Word a) {c : Char} (separator : isSeparator c = true) :
    a.chars ++ rest ≠ c :: rest' := by
  obtain ⟨d, tail, chars, letter⟩ := word.lead
  rw [chars, List.cons_append]
  intro h
  rw [(List.cons.inj h).1, separator] at letter
  cases letter

theorem not_closing (normal : a.normal = a) : a.chars ++ rest ≠ ')' :: rest' := by
  cases a with
  | symbol s => exact (word_symbol s).ne_cons rfl
  | literal r => exact (word_literal normal).ne_cons rfl
  | noArguments => exact fun h => absurd (List.cons.inj h).1 (by decide)
  | form head rest => exact fun h => absurd (List.cons.inj h).1 (by decide)

/-! ## Texts taken apart -/

/-- Where one of two texts starts with a word, both do, and with the same. -/
theorem Word.append_inj (word : Word a) (normal : b.normal = b) (ends : EndsWord rest)
    (ends' : EndsWord rest') (h : a.chars ++ rest = b.chars ++ rest') : a = b ∧ rest = rest' := by
  have read (word' : Word b) : a = b ∧ rest = rest' := by
    obtain ⟨same, after⟩ := word_append_inj word.letters word'.letters ends ends' h
    have found := word.read
    rw [same, word'.read] at found
    exact ⟨(Option.some.inj found).symm, after⟩
  cases b with
  | symbol s => exact read (word_symbol s)
  | literal r => exact read (word_literal normal)
  | noArguments => exact absurd h (word.ne_cons rfl)
  | form head rest => exact absurd h (word.ne_cons rfl)

mutual

/-- The text of a normal form, with anything behind it that ends a word, shows both
the form and where it stops. -/
theorem chars_append_inj (a : Sexp) {b : Sexp} {rest rest' : List Char} (normal : a.normal = a)
    (normal' : b.normal = b) (ends : EndsWord rest) (ends' : EndsWord rest')
    (h : a.chars ++ rest = b.chars ++ rest') : a = b ∧ rest = rest' := by
  match a, b with
  | .symbol s, b => exact (word_symbol s).append_inj normal' ends ends' h
  | .literal r, b => exact (word_literal normal).append_inj normal' ends ends' h
  | a, .symbol s =>
      exact ((word_symbol s).append_inj normal ends' ends h.symm).imp Eq.symm Eq.symm
  | a, .literal r =>
      exact ((word_literal normal').append_inj normal ends' ends h.symm).imp Eq.symm Eq.symm
  | .noArguments, .noArguments => exact ⟨rfl, (List.cons.inj (List.cons.inj h).2).2⟩
  | .noArguments, .form head es =>
      obtain ⟨first, -⟩ := form.inj normal'
      simp only [chars, List.cons_append, List.append_assoc] at h
      exact absurd (List.cons.inj h).2.symm (not_closing first)
  | .form head es, .noArguments =>
      obtain ⟨first, -⟩ := form.inj normal
      simp only [chars, List.cons_append, List.append_assoc] at h
      exact absurd (List.cons.inj h).2 (not_closing first)
  | .form head es, .form head' es' =>
      obtain ⟨first, others⟩ := form.inj normal
      obtain ⟨first', others'⟩ := form.inj normal'
      simp only [chars, List.cons_append, List.append_assoc] at h
      obtain ⟨rfl, after⟩ := chars_append_inj head first first' (endsWord_charsOfAll es rest)
        (endsWord_charsOfAll es' rest') (List.cons.inj h).2
      obtain ⟨rfl, behind⟩ := charsOfAll_append_inj es others others' after
      exact ⟨rfl, behind⟩
termination_by structural a

theorem charsOfAll_append_inj (as : List Sexp) {bs : List Sexp} {rest rest' : List Char}
    (normal : normalOfAll as = as) (normal' : normalOfAll bs = bs)
    (h : charsOfAll as ++ rest = charsOfAll bs ++ rest') : as = bs ∧ rest = rest' := by
  match as, bs with
  | [], [] => exact ⟨rfl, (List.cons.inj h).2⟩
  | [], b :: bs => exact absurd (List.cons.inj h).1 (by decide)
  | a :: as, [] => exact absurd (List.cons.inj h).1 (by decide)
  | a :: as, b :: bs =>
      obtain ⟨first, others⟩ := List.cons.inj normal
      obtain ⟨first', others'⟩ := List.cons.inj normal'
      simp only [charsOfAll, List.cons_append, List.append_assoc] at h
      obtain ⟨rfl, after⟩ := chars_append_inj a first first' (endsWord_charsOfAll as rest)
        (endsWord_charsOfAll bs rest') (List.cons.inj h).2
      obtain ⟨rfl, behind⟩ := charsOfAll_append_inj as others others' after
      exact ⟨rfl, behind⟩
termination_by structural as

end

theorem eq_of_chars (normal : a.normal = a) (normal' : b.normal = b) (h : a.chars = b.chars) :
    a = b :=
  (chars_append_inj a normal normal' endsWord_nil endsWord_nil (congrArg (· ++ []) h)).1

theorem text_eq_iff : a.text = b.text ↔ a.normal = b.normal := by
  rw [text, text, String.ofList_inj]
  constructor
  · intro h
    refine eq_of_chars a.normal_normal b.normal_normal ?_
    rw [chars_normal, chars_normal, h]
  · intro h
    rw [← chars_normal, h, chars_normal]

theorem text_eq_of_same (h : a.same b = true) : a.text = b.text :=
  text_eq_iff.mpr (normal_of_same h)

theorem same_of_text_eq (unsigned : a.Unsigned) (unsigned' : b.Unsigned) (h : a.text = b.text) :
    a.same b = true := by
  have first : a.same b.normal = true := text_eq_iff.mp h ▸ same_normal a unsigned
  exact same_trans first (same_symm (same_normal b unsigned'))

/-- Expressions have one text just when they have one normal form, under either notion of
equality.  The same expressions always do, and only they where no number is negative. -/
theorem text_determines (a b : Sexp) :
    (a.text = b.text ↔ a.normal = b.normal) ∧
    (a.normal.same b.normal = true ↔ a.normal = b.normal) ∧
    (a.same b = true → a.text = b.text) ∧
    (a.Unsigned → b.Unsigned → a.text = b.text → a.same b = true) :=
  ⟨text_eq_iff, same_normal_iff, text_eq_of_same, same_of_text_eq⟩

theorem zeros_same :
    let a := Formula.sum [Formula.zero, .literal ⟨2.5, by decide⟩]
    let b := Formula.sum [.literal ⟨-0.0, by decide⟩, .literal ⟨2.5, by decide⟩]
    a.Unsigned ∧ b.Unsigned ∧ a.text = "(+ 0.0 2.5)" ∧ a.text = b.text ∧ a.same b = true := by
  intro a b
  have unsigned : a.Unsigned := by decide
  have unsigned' : b.Unsigned := by decide
  have text : a.text = b.text := by decide
  exact ⟨unsigned, unsigned', by decide, text,
    (text_determines a b).2.2.2 unsigned unsigned' text⟩

/-- A negative number and the minus form of its magnitude share a text, and are not the
same. -/
example : let a := literal ⟨-2.5, by decide⟩
    let b := form minusSign [literal ⟨2.5, by decide⟩]
    a.text = "(- 2.5)" ∧ a.text = b.text ∧ a.same b = false := by
  decide

end Sexp

end FluidChip
