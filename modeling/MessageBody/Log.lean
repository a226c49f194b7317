/-! # Log records

    What is worth a warning or an error is returned as a list of records, in the
    order in which it came up.  An outcome that is logged keeps its records also
    when it is an error. -/

namespace MessageBody

/-- How serious a record is. -/
inductive Severity where
  | warning
  | error
  deriving DecidableEq

/-- The name of the severity. -/
def Severity.name : Severity → String
  | .warning => "WARNING"
  | .error => "ERROR"

/-- A log record. -/
structure LogRecord where
  severity : Severity
  message : String
  deriving DecidableEq

/-- A warning. -/
def LogRecord.warning (message : String) : LogRecord := ⟨.warning, message⟩

/-- An error. -/
def LogRecord.error (message : String) : LogRecord := ⟨.error, message⟩

/-- An outcome and the records that came up on the way to it. -/
structure Logged (ε α : Type) where
  log : List LogRecord
  outcome : Except ε α

namespace Logged

variable {ε α β : Type}

/-- A value without records. -/
protected def pure (x : α) : Logged ε α := ⟨[], .ok x⟩

/-- An error without records. -/
def fail (e : ε) : Logged ε α := ⟨[], .error e⟩

/-- A value and one record. -/
def record (r : LogRecord) (x : α) : Logged ε α := ⟨[r], .ok x⟩

/-- An outcome without records. -/
def ofExcept (outcome : Except ε α) : Logged ε α := ⟨[], outcome⟩

/-- The outcome of `f` on a value, with the records of both in their order. -/
protected def bind (x : Logged ε α) (f : α → Logged ε β) : Logged ε β :=
  match x.outcome with
  | .ok value => ⟨x.log ++ (f value).log, (f value).outcome⟩
  | .error e => ⟨x.log, .error e⟩

instance : Monad (Logged ε) where
  pure := Logged.pure
  bind := Logged.bind

@[simp] theorem log_pure (x : α) : (pure x : Logged ε α).log = [] := rfl

@[simp] theorem outcome_pure (x : α) : (pure x : Logged ε α).outcome = .ok x := rfl

@[simp] theorem outcome_record (r : LogRecord) (x : α) :
    (record r x : Logged ε α).outcome = .ok x := rfl

/-- What is logged does not matter for the outcome. -/
@[simp] theorem outcome_bind (x : Logged ε α) (f : α → Logged ε β) :
    (x >>= f).outcome = x.outcome >>= fun value => (f value).outcome := by
  obtain ⟨log, outcome⟩ := x
  cases outcome <;> rfl

/-- What comes of a bind without an error comes of both parts without one. -/
theorem outcome_bind_eq_ok {x : Logged ε α} {f : α → Logged ε β} {z : β}
    (h : (x >>= f).outcome = .ok z) : ∃ y, x.outcome = .ok y ∧ (f y).outcome = .ok z := by
  rw [outcome_bind] at h
  cases hx : x.outcome with
  | error e =>
      rw [hx] at h
      exact nomatch h
  | ok y =>
      rw [hx] at h
      exact ⟨y, rfl, h⟩

/-- The records of both parts of a bind are kept, if the first comes to a value. -/
theorem log_bind_of_ok {x : Logged ε α} {f : α → Logged ε β} {y : α} (h : x.outcome = .ok y) :
    (x >>= f).log = x.log ++ (f y).log := by
  obtain ⟨log, outcome⟩ := x
  cases h
  rfl

/-- A function of the value adds no record. -/
theorem log_bind_pure (x : Logged ε α) (g : α → β) :
    (x >>= fun y => pure (g y)).log = x.log := by
  obtain ⟨log, outcome⟩ := x
  cases outcome with
  | ok y => exact List.append_nil log
  | error e => rfl

@[simp] theorem bind_ok (log : List LogRecord) (x : α) (f : α → Logged ε β) :
    (⟨log, .ok x⟩ : Logged ε α) >>= f = ⟨log ++ (f x).log, (f x).outcome⟩ := rfl

/-- Nothing is done behind an error, and what was logged before it stays. -/
@[simp] theorem bind_error (log : List LogRecord) (e : ε) (f : α → Logged ε β) :
    (⟨log, .error e⟩ : Logged ε α) >>= f = ⟨log, .error e⟩ := rfl

end Logged

end MessageBody
