import FluidChip.Log

/-!
# Runs

A run ends in a value or a failure and leaves log records either way, those
before the failure included.
-/

namespace FluidChip

structure Run (ε α : Type) where
  records : List Log.Record
  outcome : Except ε α

namespace Run

variable {ε α β : Type}

def bind (r : Run ε α) (f : α → Run ε β) : Run ε β :=
  match r.outcome with
  | .error e => ⟨r.records, .error e⟩
  | .ok a => ⟨r.records ++ (f a).records, (f a).outcome⟩

instance : Monad (Run ε) where
  pure a := ⟨[], .ok a⟩
  bind := bind

def ofExcept (e : Except ε α) : Run ε α := ⟨[], e⟩

def fail (e : ε) : Run ε α := ⟨[], .error e⟩

def log (level : Int) (message : String) : Run ε Unit := ⟨[⟨level, message⟩], .ok ()⟩

def debug (message : String) : Run ε Unit := log Log.debug message

def info (message : String) : Run ε Unit := log Log.info message

def mapError {δ : Type} (f : ε → δ) (r : Run ε α) : Run δ α :=
  ⟨r.records, r.outcome.mapError f⟩

def onError (r : Run ε α) (f : ε → List Log.Record) : Run ε α :=
  match r.outcome with
  | .error e => ⟨r.records ++ f e, .error e⟩
  | .ok _ => r

/-! ## The outcome of a run -/

@[simp] theorem outcome_pure (a : α) : (pure a : Run ε α).outcome = .ok a := rfl

@[simp] theorem outcome_log (level : Int) (message : String) :
    (log level message : Run ε Unit).outcome = .ok () := rfl

@[simp] theorem outcome_ofExcept (e : Except ε α) : (ofExcept e).outcome = e := rfl

@[simp] theorem outcome_fail (e : ε) : (fail e : Run ε α).outcome = .error e := rfl

@[simp] theorem outcome_bind (r : Run ε α) (f : α → Run ε β) :
    (r >>= f).outcome = r.outcome.bind fun a => (f a).outcome := by
  show (bind r f).outcome = _
  unfold bind
  cases h : r.outcome <;> rfl

@[simp] theorem outcome_onError (r : Run ε α) (f : ε → List Log.Record) :
    (r.onError f).outcome = r.outcome := by
  unfold onError
  cases h : r.outcome <;> simp [h]

end Run

end FluidChip
