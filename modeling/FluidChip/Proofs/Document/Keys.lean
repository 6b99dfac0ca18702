import FluidChip.Document.Outline
import FluidChip.Proofs.Document.Acceptance
import FluidChip.Proofs.Document.Arrangement
import FluidChip.Proofs.Number.Decimal
import Mathlib.Data.List.Sort

/-!
# Keys that can be compared

Which keys meet without a fault: in the places of problems, and where the fields of an
outline are sorted.  An outline has an entry for every key that a problem begins with.
-/

namespace FluidChip

/-! ## Equal keys -/

theorem Value.order?_of_measured? {v : Value} {x : Value.Measured} (h : v.measured? = some x) :
    v.order? = some .number := by
  cases v with
  | bool | int | float => rfl
  | _ => cases h

theorem Value.order?_of_sameKey {a b : Value} (h : a.sameKey b = true) : a.order? = b.order? := by
  unfold sameKey at h
  split at h
  case h_4 => exact eq_of_beq (Bool.and_eq_true_iff.mp h).1
  case h_5 =>
    split at h
    · rename_i first second
      rw [order?_of_measured? first, order?_of_measured? second]
    · cases h
  all_goals rfl

theorem Value.eq_null_of_sameKey {v : Value} (h : Value.null.sameKey v = true) : v = .null := by
  cases v with
  | null => rfl
  | _ => cases h

theorem Value.order?_of_isKey {key : Value} (h : key.isKey = true) :
    key = .null ∨ ∃ o, key.order? = some o := by
  cases key with
  | null => exact .inl rfl
  | moment m =>
      refine .inr ?_
      rw [order?]
      split
      · exact ⟨_, rfl⟩
      · split <;> exact ⟨_, rfl⟩
  | list => cases h
  | map => cases h
  | members => cases h
  | _ => exact .inr ⟨_, rfl⟩

/-! ## Keys with a text -/

namespace Value

open Number

/-- A value that can be printed, if it is not nested too deep. -/
def HasText (v : Value) : Prop := v.limit? none = none

theorem itemsLimit?_eq_none_iff {vs : List Value} :
    itemsLimit? none vs = none ↔ ∀ v ∈ vs, v.HasText := by
  induction vs with
  | nil => simp [itemsLimit?]
  | cons v rest ih => simp [itemsLimit?, HasText, ih]

theorem hasText_int {n : Int} {k : Nat} (small : n.natAbs ≤ twoTo k)
    (fits : k < longestInteger) : (Value.int n).HasText :=
  intLimit?_eq_none_iff.mpr (lt_of_le_of_lt small (twoTo_lt_tenTo fits))

/-- What equals a double has a text. -/
theorem hasText_of_float_sameKey {x : Float} {n : Int}
    (h : (Value.float x).sameKey (.int n) = true) : (Value.int n).HasText := by
  refine hasText_int (k := 53 + 971) (twoTo_add 53 971 ▸ ?_) (by decide)
  cases reading : Reading.ofFloat x with
  | nan => simp [sameKey, measured?, reading, Measured.same] at h
  | infinite negative => simp [sameKey, measured?, reading, Measured.same] at h
  | finite negative mantissa exponent =>
      obtain ⟨small, low⟩ := Reading.ofBits_bounds reading
      let signed : Int := if negative then -mantissa else mantissa
      have size : signed.natAbs = mantissa := by
        cases negative <;> simp [signed]
      by_cases whole : 0 ≤ exponent
      · have same : signed * twoTo exponent.toNat = n := by
          simpa [signed, sameKey, measured?, reading, whole, Measured.same, twoTo] using h
        rw [← same, Int.natAbs_mul, size, Int.natAbs_natCast]
        exact Nat.mul_le_mul small.le (twoTo_le_twoTo (Int.toNat_le.mpr low))
      · have same : signed = n * twoTo (-exponent).toNat := by
          simpa [signed, sameKey, measured?, reading, whole, Measured.same, twoTo] using h
        have product : n.natAbs * twoTo (-exponent).toNat = mantissa := by
          rw [← size, same, Int.natAbs_mul, Int.natAbs_natCast]
        calc n.natAbs ≤ n.natAbs * twoTo (-exponent).toNat :=
              Nat.le_mul_of_pos_right _ (twoTo_pos _)
          _ ≤ twoTo 53 := product ▸ small.le
          _ ≤ twoTo 53 * twoTo 971 := Nat.le_mul_of_pos_right _ (twoTo_pos _)

/-- The text of a key does not depend on which of equal keys it is. -/
theorem HasText.of_sameKey {a b : Value} (h : a.HasText) (same : a.sameKey b = true) :
    b.HasText := by
  cases b with
  | int n =>
    cases a with
    | int m =>
        obtain rfl : m = n := by simpa [sameKey, measured?, Measured.same, twoTo] using same
        exact h
    | bool b =>
        have one : (if b then 1 else 0) = n := by
          simpa [sameKey, measured?, Measured.same, twoTo] using same
        refine one ▸ hasText_int (k := 0) ?_ (by decide)
        cases b <;> decide
    | float x => exact hasText_of_float_sameKey same
    | _ => cases same
  | list => cases a <;> simp [sameKey, measured?] at same
  | map => cases a <;> simp [sameKey, measured?] at same
  | members => cases a <;> simp [sameKey, measured?] at same
  | _ => rfl

end Value

namespace Document

variable {a b : Value} {as bs keys : List Value} {problems : List Problem}

/-! ## Keys of places -/

/-- Keys for which it can be told whether the one precedes the other. -/
inductive Meets (a b : Value) : Prop
  | whole (first : isWhole a = true) (second : isWhole b = false)
  | text (first : isText a = true) (second : isText b = false)
  | same (same : a.sameKey b = true)
  | ordered {o : Value.Order} (first : a.order? = some o) (second : b.order? = some o)

theorem differenceBefore?_isSome (meets : ∀ a ∈ as, ∀ b ∈ bs, Meets a b)
    (differ : ((as.zip bs).all fun (a, b) => a.sameKey b) = false) :
    ∃ before, differenceBefore? as bs = some before := by
  induction as generalizing bs with
  | nil => simp at differ
  | cons a as ih =>
      cases bs with
      | nil => simp at differ
      | cons b bs =>
          have here := meets a List.mem_cons_self b List.mem_cons_self
          have later (same : a.sameKey b = true) :
              ∃ before, differenceBefore? as bs = some before := by
            refine ih (fun x hx y hy => ?_) ?_
            · exact meets x (List.mem_cons_of_mem _ hx) y (List.mem_cons_of_mem _ hy)
            · simpa [same] using differ
          rw [differenceBefore?]
          cases here with
          | whole first second => simp [first, second]
          | text first second =>
              have other : isWhole a = false := by
                cases a with
                | text s => rfl
                | _ => cases first
              simp [first, second, other]
          | same same =>
              split
              · exact ⟨_, rfl⟩
              · split
                · exact ⟨_, rfl⟩
                · exact later same
          | ordered first second =>
              split
              · exact ⟨_, rfl⟩
              · split
                · exact ⟨_, rfl⟩
                · split
                  · rename_i same
                    exact later same
                  · simp [first, second]

theorem keysBefore?_isSome (meets : ∀ a ∈ as, ∀ b ∈ bs, Meets a b) :
    ∃ before, keysBefore? as bs = some before := by
  unfold keysBefore?
  simp only
  split
  · exact ⟨_, rfl⟩
  · rename_i differ
    refine differenceBefore?_isSome meets ?_
    have zipped : (as.take (min as.length bs.length)).zip (bs.take (min as.length bs.length)) =
        as.zip bs := List.zip_eq_zip_take_min.symm
    simp [sameKeys, zipped] at differ ⊢
    exact differ

/-- Places whose keys meet can be compared. -/
theorem comparable_of_meets {K : Value → Prop} (meets : ∀ a b, K a → K b → Meets a b) :
    Comparable fun place => ∀ k ∈ place.keys, K k := by
  intro p q hp hq
  unfold Place.before?
  split
  · refine keysBefore?_isSome fun a ha b hb => ?_
    obtain ⟨s, -, rfl⟩ := List.mem_map.mp ha
    obtain ⟨t, -, rfl⟩ := List.mem_map.mp hb
    exact .ordered (o := .text) rfl rfl
  · exact keysBefore?_isSome fun a ha b hb => meets a b (hp a ha) (hq b hb)

/-! ## Sorted keys -/

/-- Keys that have one order, or too few of them to need it. -/
def Sortable (keys : List Value) : Prop :=
  keys.length ≤ 1 ∨ ∃ o, ∀ k ∈ keys, k.order? = some o

/-- Values that have one order, or are no more than the null key. -/
def OneOrder (S : Value → Prop) : Prop :=
  (∃ o, ∀ k, S k → k.order? = some o) ∨ ∀ k, S k → k = .null

/-- Different keys can be sorted just when they have one order. -/
theorem sortable_iff_oneOrder (isKey : ∀ k ∈ keys, k.isKey = true)
    (apart : keys.Pairwise fun a b => a.sameKey b = false) :
    Sortable keys ↔ OneOrder (· ∈ keys) := by
  constructor
  · rintro (few | one)
    · match keys with
      | [] => exact .inr (by simp)
      | [key] =>
          rcases Value.order?_of_isKey (isKey key (by simp)) with rfl | ⟨o, order⟩
          · exact .inr (by simp)
          · exact .inl ⟨o, by simpa using order⟩
      | _ :: _ :: _ => simp at few
    · exact .inl one
  · rintro (one | none)
    · exact .inr one
    · refine .inl ?_
      match keys with
      | [] => simp
      | [key] => simp
      | first :: second :: rest =>
          obtain rfl := none first (by simp)
          obtain rfl := none second (by simp)
          have differ := (List.pairwise_cons.mp apart).1 .null (by simp)
          cases differ

section

variable {α : Type} {key : α → Value} {items ordered : List α}

theorem sortKeys?_perm (h : Value.sortKeys? key items = some ordered) : ordered.Perm items := by
  unfold Value.sortKeys? at h
  split at h
  · cases h
    exact .refl _
  · cases h
    exact .refl _
  · split at h
    · cases h
    · split at h
      · cases h
        exact List.mergeSort_perm _ _
      · cases h

theorem exists_sortKeys?_iff :
    (∃ ordered, Value.sortKeys? key items = some ordered) ↔ Sortable (items.map key) := by
  unfold Sortable
  match items with
  | [] => simp [Value.sortKeys?]
  | [item] => simp [Value.sortKeys?]
  | first :: second :: rest =>
      rw [or_iff_right (by simp)]
      cases order : (key first).order? with
      | none => simp [Value.sortKeys?, order]
      | some o =>
          have one : (∃ o', ∀ k ∈ (first :: second :: rest).map key, k.order? = some o') ↔
              ((second :: rest).all fun item => (key item).order? == some o) = true := by
            rw [List.all_eq_true]
            constructor
            · rintro ⟨o', each⟩ item listed
              have same := each (key first) (by simp)
              obtain rfl : o = o' := Option.some.inj (order.symm.trans same)
              have here := each (key item) (List.mem_map_of_mem (List.mem_cons_of_mem _ listed))
              simp [here]
            · intro each
              refine ⟨o, fun k listed => ?_⟩
              obtain ⟨item, member, rfl⟩ := List.mem_map.mp listed
              rcases List.mem_cons.mp member with rfl | later
              · exact order
              · simpa using each item later
          have sorted : Value.sortKeys? key (first :: second :: rest) =
              if (second :: rest).all fun item => (key item).order? == some o then
                some ((first :: second :: rest).mergeSort fun a b => !(key b).lessKey (key a))
              else none := by
            rw [Value.sortKeys?.eq_def]
            simp only [order]
          rw [one, sorted]
          split <;> simp_all

/-- Sorting by keys that are texts sorts the texts. -/
theorem sortKeys?_texts {texts : List String} (each : items.map key = texts.map .text)
    (h : Value.sortKeys? key items = some ordered) :
    ordered.map key = texts.mergeSort.map .text := by
  let le (a b : Value) : Bool := !b.lessKey a
  have compared (s t : String) : decide (s ≤ t) = le (.text s) (.text t) := by
    show _ = !decide (t < s)
    rw [← decide_not]
    exact decide_eq_decide.mpr String.not_lt.symm
  have sorted : (items.mergeSort fun a b => !(key b).lessKey (key a)).map key =
      texts.mergeSort.map .text := by
    rw [List.map_mergeSort (s := le) fun _ _ _ _ => rfl, each,
      List.map_mergeSort (s := le) fun s _ t _ => compared s t]
  unfold Value.sortKeys? at h
  split at h
  · cases h
    simpa using sorted
  · cases h
    simpa using sorted
  · split at h
    · cases h
    · split at h
      · cases h
        exact sorted
      · cases h

end

/-! ## Keys of outlines -/

/-- The keys that problems begin with. -/
def firstKeys (problems : List Problem) : List Value :=
  (Problem.leavesOf problems).filterMap (·.1.head?)

theorem firstKeys_append (ps qs : List Problem) :
    firstKeys (ps ++ qs) = firstKeys ps ++ firstKeys qs := by
  simp only [firstKeys, Problem.leavesOf_eq, List.flatMap_append, List.filterMap_append]

theorem firstKeys_flatMap {α : Type} (f : α → List Problem) (xs : List α) :
    firstKeys (xs.flatMap f) = xs.flatMap fun x => firstKeys (f x) := by
  induction xs with
  | nil => rfl
  | cons x xs ih => rw [List.flatMap_cons, firstKeys_append, ih, List.flatMap_cons]

/-- A key is added at the end unless it is there. -/
def insertKey (keys : List Value) (key : Value) : List Value :=
  if keys.any (·.sameKey key) then keys else keys ++ [key]

namespace Outline

theorem keys_change (f : Outline → Outline) (key : Value) (entries : List (Value × Outline)) :
    (change f key entries).map (·.1) = insertKey (entries.map (·.1)) key := by
  unfold insertKey
  induction entries with
  | nil => rfl
  | cons entry rest ih =>
      obtain ⟨other, outline⟩ := entry
      rw [change]
      cases same : other.sameKey key with
      | true => simp [same]
      | false =>
          rw [if_neg Bool.false_ne_true, List.map_cons, ih, List.map_cons, List.any_cons, same,
            Bool.false_or]
          split <;> rfl

theorem keys_add (message : String) (key : Value) (keys : List Value)
    (entries : List (Value × Outline)) :
    (add message (key :: keys) entries).map (·.1) = insertKey (entries.map (·.1)) key := by
  cases keys with
  | nil => rw [add, keys_change]
  | cons next rest => rw [add, keys_change]

/-- The keys of an outline are the first keys of the problems, each once. -/
theorem keys_ofProblems (problems : List Problem) :
    (ofProblems problems).map (·.1) = (firstKeys problems).foldl insertKey [] := by
  unfold ofProblems firstKeys
  suffices onward : ∀ entries : List (Value × Outline),
      ((Problem.leavesOf problems).foldl (fun entries leaf =>
        add leaf.2.message leaf.1 entries) entries).map (·.1) =
      ((Problem.leavesOf problems).filterMap (·.1.head?)).foldl insertKey (entries.map (·.1)) from
    onward []
  induction Problem.leavesOf problems with
  | nil => exact fun _ => rfl
  | cons leaf rest ih =>
      intro entries
      obtain ⟨keys, reason⟩ := leaf
      rw [List.foldl_cons, ih]
      cases keys with
      | nil => rfl
      | cons key keys =>
          rw [keys_add]
          rfl

end Outline

theorem mem_insertKey {key : Value} (h : a ∈ insertKey keys key) : a ∈ keys ∨ a = key := by
  unfold insertKey at h
  split at h
  · exact .inl h
  · simpa using h

theorem mem_foldl_insertKey {start : List Value} (h : a ∈ keys.foldl insertKey start) :
    a ∈ start ∨ a ∈ keys := by
  induction keys generalizing start with
  | nil => exact .inl h
  | cons key rest ih =>
      rcases ih h with old | later
      · rcases mem_insertKey old with old | rfl
        · exact .inl old
        · exact .inr List.mem_cons_self
      · exact .inr (List.mem_cons_of_mem _ later)

theorem insertKey_pairwise {key : Value} (apart : keys.Pairwise fun a b => a.sameKey b = false) :
    (insertKey keys key).Pairwise fun a b => a.sameKey b = false := by
  unfold insertKey
  split
  · exact apart
  · rename_i new
    have new : ∀ a ∈ keys, a.sameKey key = false := by simpa using new
    exact List.pairwise_append.mpr ⟨apart, List.pairwise_singleton _ _, by simpa using new⟩

theorem foldl_insertKey_pairwise {start : List Value}
    (apart : start.Pairwise fun a b => a.sameKey b = false) :
    (keys.foldl insertKey start).Pairwise fun a b => a.sameKey b = false := by
  induction keys generalizing start with
  | nil => exact apart
  | cons key rest ih => exact ih (insertKey_pairwise apart)

theorem mem_insertKey_of_mem {key : Value} (h : a ∈ keys) : a ∈ insertKey keys key := by
  unfold insertKey
  split
  · exact h
  · exact List.mem_append_left _ h

theorem exists_mem_insertKey (keys : List Value) (key : Value) :
    ∃ b ∈ insertKey keys key, b = key ∨ b.sameKey key = true := by
  unfold insertKey
  split
  · rename_i old
    obtain ⟨b, listed, same⟩ := List.any_eq_true.mp old
    exact ⟨b, listed, .inr same⟩
  · exact ⟨key, by simp, .inl rfl⟩

theorem mem_foldl_insertKey_of_mem {start : List Value} (h : a ∈ start) :
    a ∈ keys.foldl insertKey start := by
  induction keys generalizing start with
  | nil => exact h
  | cons key rest ih => exact ih (mem_insertKey_of_mem h)

theorem exists_mem_foldl_insertKey {start : List Value} (h : a ∈ keys) :
    ∃ b ∈ keys.foldl insertKey start, b = a ∨ b.sameKey a = true := by
  induction keys generalizing start with
  | nil => cases h
  | cons key rest ih =>
      rcases List.mem_cons.mp h with rfl | later
      · obtain ⟨b, listed, same⟩ := exists_mem_insertKey start a
        have kept : b ∈ rest.foldl insertKey (insertKey start a) :=
          mem_foldl_insertKey_of_mem listed
        exact ⟨b, kept, same⟩
      · exact ih later

namespace Outline

theorem mem_firstKeys {k : Value} (h : k ∈ (ofProblems problems).map (·.1)) :
    k ∈ firstKeys problems := by
  rw [keys_ofProblems] at h
  simpa using mem_foldl_insertKey h

theorem keys_pairwise (problems : List Problem) :
    ((ofProblems problems).map (·.1)).Pairwise fun a b => a.sameKey b = false := by
  rw [keys_ofProblems]
  exact foldl_insertKey_pairwise .nil

theorem exists_key (h : a ∈ firstKeys problems) :
    ∃ b ∈ (ofProblems problems).map (·.1), b = a ∨ b.sameKey a = true := by
  rw [keys_ofProblems]
  exact exists_mem_foldl_insertKey h

end Outline

/-! ## Texts of outlines -/

namespace Outline

variable {issues : List (Value × Outline)}

theorem entriesLimit?_eq_none_iff :
    entriesLimit? issues = none ↔ ∀ issue ∈ issues, issue.1.HasText ∧ issue.2.limit? = none := by
  induction issues with
  | nil => simp [entriesLimit?]
  | cons issue rest ih =>
      simp only [entriesLimit?, Option.or_eq_none_iff, ih, List.forall_mem_cons, Value.HasText]

/-- What changes an outline under a key asks for the text of the key as well. -/
theorem entriesLimit?_change {f : Outline → Outline} {P : Prop}
    (changed : ∀ o, (f o).limit? = none ↔ o.limit? = none ∧ P) (key : Value) :
    entriesLimit? (change f key issues) = none ↔
      entriesLimit? issues = none ∧ key.HasText ∧ P := by
  induction issues with
  | nil => simp [change, entriesLimit?, changed, limit?, Value.HasText]
  | cons issue rest ih =>
      obtain ⟨other, outline⟩ := issue
      rw [change]
      split
      · rename_i same
        have spoken (text : other.HasText) : key.HasText := text.of_sameKey same
        simp only [entriesLimit?, Option.or_eq_none_iff, changed]
        exact ⟨fun ⟨⟨text, inside, told⟩, later⟩ => ⟨⟨⟨text, inside⟩, later⟩, spoken text, told⟩,
          fun ⟨⟨⟨text, inside⟩, later⟩, _, told⟩ => ⟨⟨text, inside, told⟩, later⟩⟩
      · simp only [entriesLimit?, Option.or_eq_none_iff, ih, and_assoc]

theorem entriesLimit?_add (message : String) (keys : List Value) :
    entriesLimit? (add message keys issues) = none ↔
      entriesLimit? issues = none ∧ ∀ k ∈ keys, k.HasText := by
  induction keys generalizing issues with
  | nil => simp [add]
  | cons key rest ih =>
      cases rest with
      | nil =>
          rw [add, entriesLimit?_change (P := True) fun ⟨messages, inside⟩ => by simp [limit?]]
          simp
      | cons next rest =>
          rw [add, entriesLimit?_change fun ⟨messages, inside⟩ => by rw [limit?, limit?, ih],
            List.forall_mem_cons (a := key)]

/-- An outline has a text just when all keys on the way to a problem have one. -/
theorem entriesLimit?_ofProblems :
    entriesLimit? (ofProblems problems) = none ↔
      ∀ leaf ∈ Problem.leavesOf problems, ∀ k ∈ leaf.1, k.HasText := by
  unfold ofProblems
  suffices onward : ∀ issues : List (Value × Outline),
      entriesLimit? ((Problem.leavesOf problems).foldl (fun entries leaf =>
        add leaf.2.message leaf.1 entries) issues) = none ↔ entriesLimit? issues = none ∧
          ∀ leaf ∈ Problem.leavesOf problems, ∀ k ∈ leaf.1, k.HasText from
    (onward []).trans (and_iff_right rfl)
  induction Problem.leavesOf problems with
  | nil => simp
  | cons leaf rest ih =>
      intro issues
      rw [List.foldl_cons, ih, entriesLimit?_add, List.forall_mem_cons, and_assoc]

/-- Fields are told in order if they have one, and keys with a text. -/
theorem inOrder_of_sortable (sortable : Sortable (issues.map (·.1))) :
    (∃ ordered, inOrder issues = .ok ordered ∧ ordered.Perm issues) ∧
        entriesLimit? issues = none ∨
      ∃ limit, inOrder issues = .error (.noText limit) ∧ entriesLimit? issues ≠ none := by
  obtain ⟨ordered, sorted⟩ := exists_sortKeys?_iff.mpr sortable
  have same := sortKeys?_perm sorted
  have limited : entriesLimit? ordered = none ↔ entriesLimit? issues = none := by
    simp only [entriesLimit?_eq_none_iff, same.mem_iff]
  unfold inOrder
  rw [sorted]
  cases found : entriesLimit? ordered with
  | none => exact .inl ⟨⟨ordered, by simp [found], same⟩, limited.mp found⟩
  | some limit =>
      exact .inr ⟨limit, by simp [found], fun none => by simp [limited.mpr none] at found⟩

theorem sortKeys?_of_inOrder {ordered : List (Value × Outline)} (h : inOrder issues = .ok ordered) :
    Value.sortKeys? (·.1) issues = some ordered := by
  unfold inOrder at h
  split at h
  · cases h
  · rename_i sorted
    split at h
    · cases h
      exact sorted
    · cases h

theorem inOrder_of_not_sortable (unsorted : ¬ Sortable (issues.map (·.1))) :
    inOrder issues = .error .kinds := by
  unfold inOrder
  cases sorted : Value.sortKeys? (·.1) issues with
  | none => rfl
  | some ordered => exact absurd (exists_sortKeys?_iff.mp ⟨ordered, sorted⟩) unsorted

theorem exists_inOrder_iff : (∃ ordered, inOrder issues = .ok ordered) ↔
    Sortable (issues.map (·.1)) ∧ entriesLimit? issues = none := by
  by_cases sortable : Sortable (issues.map (·.1))
  · rcases inOrder_of_sortable sortable with ⟨⟨ordered, told, -⟩, spoken⟩ | ⟨limit, failed, mute⟩
    · exact iff_of_true ⟨ordered, told⟩ ⟨sortable, spoken⟩
    · exact iff_of_false (by simp [failed]) fun h => mute h.2
  · exact iff_of_false (by simp [inOrder_of_not_sortable sortable]) fun h => sortable h.1

end Outline

/-- The fields of an outline can be sorted just when the keys that problems begin with have
one order. -/
theorem sortable_outline_iff (isKey : ∀ k ∈ firstKeys problems, k.isKey = true) :
    Sortable ((Outline.ofProblems problems).map (·.1)) ↔ OneOrder (· ∈ firstKeys problems) := by
  rw [sortable_iff_oneOrder (fun k listed => isKey k (Outline.mem_firstKeys listed))
    (Outline.keys_pairwise problems)]
  constructor
  · rintro (⟨o, each⟩ | none)
    · refine .inl ⟨o, fun k listed => ?_⟩
      obtain ⟨b, made, rfl | same⟩ := Outline.exists_key listed
      · exact each b made
      · exact (Value.order?_of_sameKey same).symm.trans (each b made)
    · refine .inr fun k listed => ?_
      obtain ⟨b, made, rfl | same⟩ := Outline.exists_key listed
      · exact none b made
      · obtain rfl := none b made
        exact Value.eq_null_of_sameKey same
  · rintro (⟨o, each⟩ | none)
    · exact .inl ⟨o, fun k listed => each k (Outline.mem_firstKeys listed)⟩
    · exact .inr fun k listed => none k (Outline.mem_firstKeys listed)

end Document

end FluidChip
