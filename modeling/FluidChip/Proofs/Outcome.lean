import FluidChip.Run
import Mathlib.Data.List.Forall2

/-!
# Outcomes

What the success of a computation says about its steps.  A traversal succeeds
with a list whose members are what its steps succeed with, in order; a statement
about all results is one about all items.
-/

namespace FluidChip.Outcome

variable {ε δ α β : Type}

/-! ## Steps -/

theorem bind_ok_iff {r : Except ε α} {f : α → Except ε β} {b : β} :
    (r >>= f) = .ok b ↔ ∃ a, r = .ok a ∧ f a = .ok b := by
  cases r with
  | error e => simp [bind, Except.bind]
  | ok a => simp [bind, Except.bind]

theorem bind_error_iff {r : Except ε α} {f : α → Except ε β} {e : ε} :
    (r >>= f) = .error e ↔ r = .error e ∨ ∃ a, r = .ok a ∧ f a = .error e := by
  cases r with
  | error e => simp [bind, Except.bind]
  | ok a => simp [bind, Except.bind]

theorem pure_ok_iff {a b : α} : (pure a : Except ε α) = .ok b ↔ a = b := by
  simp [pure, Except.pure]

theorem throw_ok_iff {e : ε} {a : α} : (throw e : Except ε α) = .ok a ↔ False := by
  simp [throw, throwThe, MonadExceptOf.throw]

theorem map_ok_iff {r : Except ε α} {f : α → β} {b : β} :
    r.map f = .ok b ↔ ∃ a, r = .ok a ∧ f a = b := by
  cases r <;> simp [Except.map]

theorem mapError_ok_iff {r : Except ε α} {f : ε → δ} {a : α} :
    r.mapError f = .ok a ↔ r = .ok a := by
  cases r <;> simp [Except.mapError]

theorem mapError_error_iff {r : Except ε α} {f : ε → δ} {e : δ} :
    r.mapError f = .error e ↔ ∃ e', r = .error e' ∧ f e' = e := by
  cases r <;> simp [Except.mapError]

theorem toOption_eq_some_iff {r : Except ε α} {a : α} : r.toOption = some a ↔ r = .ok a := by
  cases r <;> simp [Except.toOption]

/-! ## Traversals -/

theorem mapM_ok_iff {f : α → Except ε β} {xs : List α} {ys : List β} :
    xs.mapM f = .ok ys ↔ List.Forall₂ (fun x y => f x = .ok y) xs ys := by
  induction xs generalizing ys with
  | nil => cases ys <;> simp [pure_ok_iff]
  | cons x xs ih =>
      rw [List.mapM_cons]
      simp only [bind_ok_iff, pure_ok_iff, List.forall₂_cons_left_iff, ih]
      constructor
      · rintro ⟨y, hy, rest, hrest, rfl⟩
        exact ⟨y, rest, hy, hrest, rfl⟩
      · rintro ⟨y, rest, hy, hrest, rfl⟩
        exact ⟨y, hy, rest, hrest, rfl⟩

theorem mem_of_forall₂ {R : α → β → Prop} {xs : List α} {ys : List β}
    (h : List.Forall₂ R xs ys) {y : β} (hy : y ∈ ys) : ∃ x ∈ xs, R x y := by
  induction h with
  | nil => simp at hy
  | cons first rest ih =>
      rcases List.mem_cons.mp hy with rfl | hy
      · exact ⟨_, List.mem_cons_self, first⟩
      · obtain ⟨x, hx, related⟩ := ih hy
        exact ⟨x, List.mem_cons_of_mem _ hx, related⟩

variable {f : α → Except ε β} {xs : List α} {ys : List β}

theorem step_of_result (h : xs.mapM f = .ok ys) {y : β} (hy : y ∈ ys) :
    ∃ x ∈ xs, f x = .ok y :=
  mem_of_forall₂ (mapM_ok_iff.mp h) hy

theorem result_of_step (h : xs.mapM f = .ok ys) {x : α} (hx : x ∈ xs) :
    ∃ y ∈ ys, f x = .ok y :=
  mem_of_forall₂ (mapM_ok_iff.mp h).flip hx

theorem step_of_error {e : ε} (h : xs.mapM f = .error e) : ∃ x ∈ xs, f x = .error e := by
  induction xs with
  | nil => cases h
  | cons x xs ih =>
      rw [List.mapM_cons] at h
      rcases bind_error_iff.mp h with first | ⟨y, -, rest⟩
      · exact ⟨x, List.mem_cons_self, first⟩
      · rcases bind_error_iff.mp rest with later | ⟨ys, -, done⟩
        · obtain ⟨z, hz, failed⟩ := ih later
          exact ⟨z, List.mem_cons_of_mem _ hz, failed⟩
        · cases done

theorem forall_result_iff (h : xs.mapM f = .ok ys) {P : β → Prop} {Q : α → Prop}
    (each : ∀ x ∈ xs, ∀ y, f x = .ok y → (P y ↔ Q x)) :
    (∀ y ∈ ys, P y) ↔ ∀ x ∈ xs, Q x := by
  constructor
  · intro all x hx
    obtain ⟨y, hy, made⟩ := result_of_step h hx
    exact (each x hx y made).mp (all y hy)
  · intro all y hy
    obtain ⟨x, hx, made⟩ := step_of_result h hy
    exact (each x hx y made).mpr (all x hx)

/-- Where each step has a law of its own, all results are as they should be just when
every law holds. -/
theorem forall_results_iff {P : β → Prop} {laws : List Prop} (h : xs.mapM f = .ok ys)
    (each : List.Forall₂ (fun x law => ∀ y, f x = .ok y → (P y ↔ law)) xs laws) :
    (∀ y ∈ ys, P y) ↔ ∀ law ∈ laws, law := by
  have made := mapM_ok_iff.mp h
  clear h
  induction each generalizing ys with
  | nil =>
      cases made
      simp
  | cons first _ ih =>
      cases made with
      | cons ok rest =>
          rw [List.forall_mem_cons, List.forall_mem_cons]
          exact and_congr (first _ ok) (ih rest)

theorem map_results {γ : Type} (h : xs.mapM f = .ok ys) {F : α → γ} {G : β → γ}
    (each : ∀ x ∈ xs, ∀ y, f x = .ok y → F x = G y) : xs.map F = ys.map G := by
  have related := mapM_ok_iff.mp h
  clear h
  induction related with
  | nil => rfl
  | cons first rest ih =>
      rw [List.map_cons, List.map_cons, each _ List.mem_cons_self _ first,
        ih fun x hx => each x (List.mem_cons_of_mem _ hx)]

theorem results_eq_map (h : xs.mapM f = .ok ys) {F : α → β}
    (each : ∀ x ∈ xs, ∀ y, f x = .ok y → F x = y) : xs.map F = ys := by
  simpa using map_results h (G := id) each

theorem mapM_eq_map {F : α → β} (each : ∀ x ∈ xs, f x = .ok (F x)) :
    xs.mapM f = .ok (xs.map F) :=
  mapM_ok_iff.mpr (List.forall₂_map_right_iff.mpr (List.forall₂_same.mpr each))

theorem exists_mapM_ok_iff :
    (∃ ys, xs.mapM f = .ok ys) ↔ ∀ x ∈ xs, ∃ y, f x = .ok y := by
  induction xs with
  | nil => simp [pure_ok_iff]
  | cons x xs ih =>
      simp only [List.mapM_cons, bind_ok_iff, pure_ok_iff, List.forall_mem_cons, ← ih]
      constructor
      · rintro ⟨ys, y, hy, rest, hrest, rfl⟩
        exact ⟨⟨y, hy⟩, rest, hrest⟩
      · rintro ⟨⟨y, hy⟩, rest, hrest⟩
        exact ⟨_, y, hy, rest, hrest, rfl⟩

variable {fs : α → Except ε (List β)} {yss : List (List β)}

theorem step_of_flatten (h : xs.mapM fs = .ok yss) {y : β} (hy : y ∈ yss.flatten) :
    ∃ x ∈ xs, ∃ ys, fs x = .ok ys ∧ y ∈ ys := by
  obtain ⟨ys, hys, hy⟩ := List.mem_flatten.mp hy
  obtain ⟨x, hx, made⟩ := step_of_result h hys
  exact ⟨x, hx, ys, made, hy⟩

theorem step_of_joined {ys : List β}
    (h : (do return (← xs.mapM fs).flatten) = .ok ys) {y : β} (hy : y ∈ ys) :
    ∃ x ∈ xs, ∃ made, fs x = .ok made ∧ y ∈ made := by
  obtain ⟨parts, made, joined⟩ := bind_ok_iff.mp h
  obtain rfl := pure_ok_iff.mp joined
  exact step_of_flatten made hy

theorem result_mem_flatten (h : xs.mapM fs = .ok yss) {x : α} (hx : x ∈ xs) {ys : List β}
    (made : fs x = .ok ys) {y : β} (hy : y ∈ ys) : y ∈ yss.flatten := by
  obtain ⟨zs, hzs, made'⟩ := result_of_step h hx
  obtain rfl : ys = zs := by simpa [made] using made'
  exact List.mem_flatten.mpr ⟨ys, hzs, hy⟩

/-- What every step preserves, a whole fold does. -/
theorem foldlM_preserves {g : β → α → Except ε β} {I : β → Prop}
    (each : ∀ x ∈ xs, ∀ b b', g b x = .ok b' → I b → I b') {b b' : β}
    (h : xs.foldlM g b = .ok b') (start : I b) : I b' := by
  induction xs generalizing b with
  | nil => exact pure_ok_iff.mp h ▸ start
  | cons x xs ih =>
      rw [List.foldlM_cons] at h
      obtain ⟨next, step, h⟩ := bind_ok_iff.mp h
      have after := each x List.mem_cons_self b next step start
      exact ih (fun y hy => each y (List.mem_cons_of_mem _ hy)) h after

/-- A fold that builds up something from its items succeeds just when every item can be
added, whatever has been built from those before it. -/
theorem foldlM_builds {g : β → α → Except ε β} {I : List α → β → Prop} {P : α → Prop}
    (each : ∀ front x back, xs = front ++ x :: back → ∀ b, I front b →
      (∀ b', g b x = .ok b' → P x ∧ I (front ++ [x]) b') ∧ (P x → ∃ b', g b x = .ok b'))
    {b : β} (start : I [] b) :
    (∀ b', xs.foldlM g b = .ok b' → (∀ x ∈ xs, P x) ∧ I xs b') ∧
      ((∀ x ∈ xs, P x) → ∃ b', xs.foldlM g b = .ok b') := by
  suffices onward : ∀ back front, xs = front ++ back → ∀ b, I front b →
      (∀ b', back.foldlM g b = .ok b' → (∀ x ∈ back, P x) ∧ I xs b') ∧
        ((∀ x ∈ back, P x) → ∃ b', back.foldlM g b = .ok b') from onward xs [] rfl b start
  intro back
  induction back with
  | nil =>
      intro front whole b built
      rw [List.append_nil] at whole
      refine ⟨fun b' h => ⟨by simp, ?_⟩, fun _ => ⟨b, rfl⟩⟩
      exact whole ▸ pure_ok_iff.mp h ▸ built
  | cons x back ih =>
      intro front whole b built
      obtain ⟨sound, complete⟩ := each front x back whole b built
      have onward := ih (front ++ [x]) (by simpa using whole)
      constructor
      · intro b' h
        rw [List.foldlM_cons] at h
        obtain ⟨next, step, h⟩ := bind_ok_iff.mp h
        obtain ⟨good, built⟩ := sound next step
        obtain ⟨others, all⟩ := (onward next built).1 b' h
        exact ⟨List.forall_mem_cons.mpr ⟨good, others⟩, all⟩
      · intro good
        obtain ⟨first, others⟩ := List.forall_mem_cons.mp good
        obtain ⟨next, step⟩ := complete first
        obtain ⟨b', h⟩ := (onward next (sound next step).2).2 others
        exact ⟨b', by rw [List.foldlM_cons, step]; exact h⟩

/-! ## Failures that do not occur -/

/-- A computation may fail, but not in a bad way. -/
def Spares (bad : ε → Prop) (r : Except ε α) : Prop := ∀ e, r = .error e → ¬ bad e

namespace Spares

variable {bad : ε → Prop} {r : Except ε α}

theorem of_ok {a : α} (h : r = .ok a) : Spares bad r := by
  intro e failed
  cases h.symm.trans failed

theorem pure (a : α) : Spares bad (pure a : Except ε α) := of_ok rfl

theorem error {e : ε} (good : ¬ bad e) : Spares bad (.error e : Except ε α) := by
  rintro _ ⟨⟩
  exact good

theorem bind {k : α → Except ε β} (first : Spares bad r)
    (next : ∀ a, r = .ok a → Spares bad (k a)) : Spares bad (r >>= k) := by
  intro e failed
  rcases bind_error_iff.mp failed with failed | ⟨a, made, failed⟩
  · exact first e failed
  · exact next a made e failed

theorem mapM {f : α → Except ε β} {xs : List α} (each : ∀ x ∈ xs, Spares bad (f x)) :
    Spares bad (xs.mapM f) := by
  intro e failed
  obtain ⟨x, listed, failed⟩ := step_of_error failed
  exact each x listed e failed

theorem mapError {f : δ → ε} {r : Except δ α} (h : Spares (fun e => bad (f e)) r) :
    Spares bad (r.mapError f) := by
  cases r with
  | error e => exact error (h e rfl)
  | ok a => exact pure a

theorem map {f : α → β} (h : Spares bad r) : Spares bad (r.map f) := by
  cases r with
  | error e => exact error (h e rfl)
  | ok a => exact pure (f a)

/-- What is built from the items before one keeps the step at this one from failing
badly. -/
theorem foldlM {g : β → α → Except ε β} {xs : List α} {I : List α → β → Prop}
    (each : ∀ front x back, xs = front ++ x :: back → ∀ b, I front b →
      Spares bad (g b x) ∧ ∀ b', g b x = .ok b' → I (front ++ [x]) b')
    {b : β} (start : I [] b) : Spares bad (xs.foldlM g b) := by
  suffices onward : ∀ back front, xs = front ++ back → ∀ b, I front b →
      Spares bad (back.foldlM g b) from onward xs [] rfl b start
  intro back
  induction back with
  | nil => exact fun _ _ b _ => pure b
  | cons x back ih =>
      intro front whole b built
      obtain ⟨good, step⟩ := each front x back whole b built
      rw [List.foldlM_cons]
      refine good.bind fun next made => ?_
      exact ih (front ++ [x]) (by simpa using whole) next (step next made)

end Spares

/-! ## Carrying successes over -/

/-- Where one computation succeeds, so does the other, with a related value. -/
def Relates {γ : Type} (R : α → γ → Prop) (r : Except ε α) (r' : Except ε γ) : Prop :=
  ∀ a, r = .ok a → ∃ b, r' = .ok b ∧ R a b

/-- Where one computation succeeds, so does the other, with the value carried
over. -/
def Carries {γ : Type} (φ : α → γ) (r : Except ε α) (r' : Except ε γ) : Prop :=
  ∀ a, r = .ok a → r' = .ok (φ a)

/-- Where one computation succeeds, so does the other, with the same value. -/
def Keeps (r r' : Except ε α) : Prop := ∀ a, r = .ok a → r' = .ok a

theorem Keeps.refl (r : Except ε α) : Keeps r r := fun _ h => h

theorem Keeps.eq {r r' : Except ε α} (h : Keeps r r') {a a' : α} (made : r = .ok a)
    (made' : r' = .ok a') : a = a' := Except.ok.inj ((h a made).symm.trans made')

theorem Keeps.of_throw {e : ε} {k : α → Except ε β} {r : Except ε β} :
    Keeps (throw e >>= k) r := by
  intro b h
  simp [bind_ok_iff, throw_ok_iff] at h

theorem Carries.bind {γ : Type} {φ : α → γ} {r : Except ε α} {r' : Except ε γ}
    {k : α → Except ε β} {k' : γ → Except ε β} (first : Carries φ r r')
    (next : ∀ a, r = .ok a → Keeps (k a) (k' (φ a))) : Keeps (r >>= k) (r' >>= k') := by
  intro b h
  obtain ⟨a, made, h⟩ := bind_ok_iff.mp h
  exact bind_ok_iff.mpr ⟨φ a, first a made, next a made b h⟩

theorem Keeps.bind {r r' : Except ε α} {k k' : α → Except ε β} (first : Keeps r r')
    (next : ∀ a, r = .ok a → Keeps (k a) (k' a)) : Keeps (r >>= k) (r' >>= k') :=
  Carries.bind first next

theorem Relates.pure {γ : Type} {R : α → γ → Prop} {a : α} {b : γ} (h : R a b) :
    Relates R (pure a : Except ε α) (pure b) := by
  intro a' same
  obtain rfl := pure_ok_iff.mp same
  exact ⟨b, rfl, h⟩

theorem Relates.bind {γ ζ : Type} {R : α → γ → Prop} {S : β → ζ → Prop} {r : Except ε α}
    {r' : Except ε γ} {k : α → Except ε β} {k' : γ → Except ε ζ} (first : Relates R r r')
    (next : ∀ a b, R a b → Relates S (k a) (k' b)) : Relates S (r >>= k) (r' >>= k') := by
  intro b h
  obtain ⟨a, made, h⟩ := bind_ok_iff.mp h
  obtain ⟨a', made', related⟩ := first a made
  obtain ⟨b', h', related'⟩ := next a a' related b h
  exact ⟨b', bind_ok_iff.mpr ⟨a', made', h'⟩, related'⟩

theorem Keeps.relates_bind {ζ : Type} {S : β → ζ → Prop} {r r' : Except ε α}
    {k : α → Except ε β} {k' : α → Except ε ζ} (first : Keeps r r')
    (next : ∀ a, Relates S (k a) (k' a)) : Relates S (r >>= k) (r' >>= k') :=
  Relates.bind (R := Eq) (fun a made => ⟨a, first a made, rfl⟩) fun a _ same => same ▸ next a

theorem keeps_mapM_map {γ : Type} {φ : α → γ} {k : α → Except ε β} {k' : γ → Except ε β}
    (each : ∀ x, Keeps (k x) (k' (φ x))) (xs : List α) :
    Keeps (xs.mapM k) ((xs.map φ).mapM k') := by
  intro ys made
  rw [mapM_ok_iff, List.forall₂_map_left_iff]
  exact (mapM_ok_iff.mp made).imp fun x y ok => each x y ok

end FluidChip.Outcome

namespace FluidChip.Run

variable {ε α β : Type}

/-! ## Traversals of runs -/

theorem bind_records (r : Run ε α) (f : α → Run ε β) :
    r >>= f = match r.outcome with
      | .error e => ⟨r.records, .error e⟩
      | .ok a => ⟨r.records ++ (f a).records, (f a).outcome⟩ := rfl

instance : LawfulMonad (Run ε) := .mk' _
  (fun r => by
    obtain ⟨records, outcome⟩ := r
    cases outcome <;> simp [Functor.map, Run.bind])
  (fun a f => by simp [bind_records, pure])
  (fun r f g => by
    obtain ⟨records, outcome⟩ := r
    cases outcome with
    | error e => rfl
    | ok a => cases h : (f a).outcome <;> simp [bind_records, h])

theorem outcome_mapM (f : α → Run ε β) (xs : List α) :
    (xs.mapM f).outcome = xs.mapM fun x => (f x).outcome := by
  induction xs with
  | nil => rfl
  | cons x xs ih =>
      rw [List.mapM_cons, List.mapM_cons, outcome_bind]
      simp only [outcome_bind, outcome_pure, ih]
      rfl

end FluidChip.Run
