import FluidChip.Program
import FluidChip.Proofs.Sexp.Same

/-!
# Arranging any expressions

One pass files every expression under its part and passes over declarations that it
has met before.  What it answers is the declarations without their repetitions, the
assertions and the rest, each in the order in which they came.  So a program that is
arranged in parts, or once more, comes out the same.
-/

namespace FluidChip.Program

open Formula Sexp

/-! ## First occurrences -/

/-- A list without the members that repeat an earlier one. -/
def firsts : List Sexp → List Sexp
  | [] => []
  | e :: rest => e :: (firsts rest).filter fun later => !later.same e

/-- A further member is kept unless it repeats one that was kept: if it repeats one
that was dropped, it repeats what that one repeats. -/
theorem firsts_concat (es : List Sexp) (e : Sexp) :
    firsts (es ++ [e]) = if (firsts es).any (e.same ·) then firsts es else firsts es ++ [e] := by
  induction es with
  | nil => rfl
  | cons first rest ih =>
      rw [List.cons_append, firsts, firsts, ih]
      by_cases repeated : e.same first = true
      · have dropped : [e].filter (fun later => !later.same first) = [] := by simp [repeated]
        split <;> simp [repeated, dropped]
      · have kept : (firsts rest).any (e.same ·) =
            ((firsts rest).filter fun later => !later.same first).any (e.same ·) := by
          rw [Bool.eq_iff_iff, List.any_eq_true, List.any_eq_true]
          constructor
          · rintro ⟨old, mem, same⟩
            refine ⟨old, List.mem_filter.mpr ⟨mem, ?_⟩, same⟩
            rw [Bool.not_eq_true', ← Bool.not_eq_true]
            exact fun older => repeated (same_trans same older)
          · rintro ⟨old, mem, same⟩
            exact ⟨old, List.mem_of_mem_filter mem, same⟩
        simp only [List.any_cons, repeated, Bool.false_or, ← kept]
        split
        · rfl
        · simp [repeated]

theorem pairwise_firsts (es : List Sexp) :
    (firsts es).Pairwise fun earlier later => later.same earlier = false := by
  induction es with
  | nil => exact .nil
  | cons e rest ih =>
      rw [firsts, List.pairwise_cons]
      refine ⟨fun later mem => ?_, ih.filter _⟩
      simpa using (List.mem_filter.mp mem).2

theorem firsts_of_pairwise {es : List Sexp}
    (apart : es.Pairwise fun earlier later => later.same earlier = false) : firsts es = es := by
  induction es with
  | nil => rfl
  | cons e rest ih =>
      obtain ⟨new, others⟩ := List.pairwise_cons.mp apart
      rw [firsts, ih others, List.filter_eq_self.mpr fun later mem => by simp [new later mem]]

theorem firsts_firsts (es : List Sexp) : firsts (firsts es) = firsts es :=
  firsts_of_pairwise (pairwise_firsts es)

theorem firsts_append_left (es fs : List Sexp) : firsts (firsts es ++ fs) = firsts (es ++ fs) := by
  induction fs using List.reverseRecOn with
  | nil => rw [List.append_nil, List.append_nil, firsts_firsts]
  | append_singleton fs f ih =>
      rw [← List.append_assoc, ← List.append_assoc, firsts_concat, firsts_concat, ih]

theorem firsts_sublist (es : List Sexp) : (firsts es).Sublist es := by
  induction es with
  | nil => exact .slnil
  | cons e rest ih => exact (List.filter_sublist.trans ih).cons_cons e

theorem exists_same_mem_firsts {es : List Sexp} {e : Sexp} (h : e ∈ es) :
    ∃ kept ∈ firsts es, e.same kept = true := by
  induction es with
  | nil => cases h
  | cons first rest ih =>
      rcases List.mem_cons.mp h with rfl | later
      · exact ⟨e, List.mem_cons_self, same_refl e⟩
      · obtain ⟨kept, mem, same⟩ := ih later
        by_cases repeated : kept.same first = true
        · exact ⟨first, List.mem_cons_self, same_trans same repeated⟩
        · exact ⟨kept, List.mem_cons_of_mem _ (List.mem_filter.mpr ⟨mem, by simp [repeated]⟩), same⟩

/-! ## Parts -/

def ofPart (p : Part) (es : List Sexp) : List Sexp := es.filter fun e => part e = p

variable {es : List Sexp} {p q : Part}

theorem mem_ofPart {e : Sexp} : e ∈ ofPart p es ↔ e ∈ es ∧ part e = p := by
  simp [ofPart]

theorem ofPart_append (es fs : List Sexp) : ofPart p (es ++ fs) = ofPart p es ++ ofPart p fs :=
  List.filter_append ..

theorem ofPart_concat (es : List Sexp) (e : Sexp) :
    ofPart p (es ++ [e]) = if part e = p then ofPart p es ++ [e] else ofPart p es := by
  rw [ofPart_append, ofPart, ofPart, List.filter_singleton]
  split <;> simp_all

theorem ofPart_of_forall (h : ∀ e ∈ es, part e = q) : ofPart p es = if q = p then es else [] := by
  split
  · rename_i same
    exact List.filter_eq_self.mpr fun e mem => by simp [h e mem, same]
  · rename_i other
    exact List.filter_eq_nil_iff.mpr fun e mem => by simp [h e mem, other]

theorem isForm_unique {e : Sexp} {word word' : String} (h : e.isForm word = true)
    (h' : e.isForm word' = true) : word = word' := by
  unfold isForm at h h'
  split at h
  · rw [beq_iff_eq] at h h'
    exact h.symm.trans h'
  · cases h

theorem ofPart_declaration (es : List Sexp) :
    ofPart .declaration es = es.filter (isForm declareWord) := by
  refine List.filter_congr fun e _ => ?_
  unfold part
  split
  · simp_all
  · split <;> simp_all

theorem ofPart_assertion (es : List Sexp) :
    ofPart .assertion es = es.filter (isForm assertWord) := by
  refine List.filter_congr fun e _ => ?_
  unfold part
  split
  · rename_i declares
    have apart : ¬ e.isForm assertWord = true :=
      fun asserts => absurd (isForm_unique declares asserts) (by decide)
    simp [apart]
  · split <;> simp_all

theorem ofPart_other (es : List Sexp) :
    ofPart .other es = es.filter fun e => !e.isForm declareWord && !e.isForm assertWord := by
  refine List.filter_congr fun e _ => ?_
  unfold part
  split
  · simp_all
  · split <;> simp_all

/-! ## One pass -/

/-- What a sorting holds after some expressions, the latest of each part first. -/
structure Filed (es : List Sexp) (s : Sorting Sexp) : Prop where
  declarations : s.declarations.reverse = firsts (ofPart .declaration es)
  seen : s.seen = s.declarations
  assertions : s.assertions.reverse = ofPart .assertion es
  others : s.others.reverse = ofPart .other es

variable {s : Sorting Sexp}

theorem filed_nil : Filed [] {} := ⟨rfl, rfl, rfl, rfl⟩

theorem Filed.add (h : Filed es s) (e : Sexp) : Filed (es ++ [e]) (s.add some e) := by
  obtain ⟨declarations, seen, assertions, others⟩ := h
  cases kind : part e with
  | declaration =>
      have met : s.seen.any (e.same ·) = (firsts (ofPart .declaration es)).any (e.same ·) := by
        rw [seen, ← declarations, List.any_reverse]
      simp only [Sorting.add, kind, met]
      split
      · rename_i repeated
        constructor <;>
          simp [ofPart_concat, kind, firsts_concat, repeated, declarations, seen, assertions,
            others]
      · rename_i new
        constructor <;>
          simp [ofPart_concat, kind, firsts_concat, new, declarations, seen, assertions, others]
  | assertion =>
      simp only [Sorting.add, kind]
      constructor <;> simp [ofPart_concat, kind, declarations, seen, assertions, others]
  | other =>
      simp only [Sorting.add, kind]
      constructor <;> simp [ofPart_concat, kind, declarations, seen, assertions, others]

theorem filed_foldl (es : List Sexp) : Filed es (es.foldl (Sorting.add some) {}) := by
  induction es using List.reverseRecOn with
  | nil => exact filed_nil
  | append_singleton es e ih =>
      rw [List.foldl_append]
      exact ih.add e

/-! ## Arrangements -/

theorem arrange_eq (es : List Sexp) :
    arrange es = firsts (ofPart .declaration es) ++ ofPart .assertion es ++ ofPart .other es := by
  obtain ⟨declarations, -, assertions, others⟩ := filed_foldl es
  rw [arrange, arrangeBy, Sorting.result, declarations, assertions, others]

/-- The parts of an arrangement are those of the list, declarations kept once. -/
theorem ofPart_arrange (es : List Sexp) : ofPart p (arrange es) =
    if p = .declaration then firsts (ofPart .declaration es) else ofPart p es := by
  have within (q : Part) : ∀ e ∈ ofPart q es, part e = q := fun e mem => (mem_ofPart.mp mem).2
  have declarations : ∀ e ∈ firsts (ofPart .declaration es), part e = .declaration :=
    fun e mem => within .declaration e ((firsts_sublist _).subset mem)
  rw [arrange_eq, ofPart_append, ofPart_append, ofPart_of_forall declarations,
    ofPart_of_forall (within .assertion), ofPart_of_forall (within .other)]
  cases p <;> simp

theorem arrange_append_left (es fs : List Sexp) :
    arrange (arrange es ++ fs) = arrange (es ++ fs) := by
  rw [arrange_eq, arrange_eq (es ++ fs)]
  simp [ofPart_append, ofPart_arrange, firsts_append_left]

/-- An arrangement is the declarations without repetitions, the assertions and the
rest; what is arranged already may be put in front of what is not. -/
theorem arrange_sorts (es : List Sexp) :
    arrange es = firsts (es.filter (isForm declareWord)) ++ es.filter (isForm assertWord) ++
      es.filter (fun e => !e.isForm declareWord && !e.isForm assertWord) ∧
    (∀ fs, arrange (arrange es ++ fs) = arrange (es ++ fs)) ∧
    arrange (arrange es) = arrange es := by
  refine ⟨?_, arrange_append_left es, ?_⟩
  · rw [arrange_eq, ofPart_declaration, ofPart_assertion, ofPart_other]
  · simpa using arrange_append_left es []

/-- A declaration goes where it is repeated, an assertion stays. -/
example : let a : Symbol := ⟨"a", by decide⟩
    (arrange [exit, assert .less (.symbol a) (.symbol a), declare a,
      assert .less (.symbol a) (.symbol a), declare a]).map Sexp.text =
        ["(declare-fun a () Real)", "(assert (< a a))", "(assert (< a a))", "(exit)"] := by
  decide

end FluidChip.Program
