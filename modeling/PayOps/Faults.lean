import Mathlib

/-!
# Exceptions

The exceptions the code tells apart, with the part of Python's hierarchy its handlers use:
`PermissionError` is an `OSError`, and `EvidenceIntegrityError` and pydantic's
`ValidationError` are `ValueError`s.
-/

namespace PayOps

/-- Why a reasoning loop stopped. -/
inductive StopReason where
  /-- `FINISHED`. -/
  | finished
  /-- `REFUSED`. -/
  | refused
  /-- `INVALID_OUTPUT`. -/
  | invalidOutput
  /-- `BUDGET_EXHAUSTED`. -/
  | budgetExhausted
  /-- `UNKNOWN_COMPLETION`. -/
  | unknownCompletion
  /-- `ERROR`. -/
  | error
  /-- `TIMEOUT`. -/
  | timeout
  /-- `DENIED`. -/
  | denied
  /-- `BUSY`. -/
  | busy
  deriving DecidableEq

/-- An exception. -/
inductive Fault where
  /-- `PermissionError`. -/
  | permission (reason : String)
  /-- Any other `OSError`. -/
  | os (name : String)
  /-- `EvidenceIntegrityError`. -/
  | integrity (message : String)
  /-- Any other `ValueError`. -/
  | value (message : String)
  /-- `KeyError`. -/
  | key (key : String)
  /-- SQLAlchemy's `IntegrityError`. -/
  | duplicate
  /-- `TransitionConflict` and `BudgetConflict`. -/
  | conflict (message : String)
  /-- `LoopStopped`. -/
  | stopped (reason : StopReason)
  /-- Any other exception. -/
  | other (name : String)
  deriving DecidableEq

/-- `except OSError` catches it. -/
def Fault.isOs : Fault → Bool
  | permission _ => true
  | os _ => true
  | _ => false

/-- `except ValueError` catches it. -/
def Fault.isValue : Fault → Bool
  | integrity _ => true
  | value _ => true
  | _ => false

/-- `except KeyError` catches it. -/
def Fault.isKey : Fault → Bool
  | key _ => true
  | _ => false

/-- What a thread of a pool raises, as the handlers of its callers tell it apart. -/
inductive WorkerFault where
  /-- `TimeoutError`. -/
  | timeout
  /-- `PermissionError`. -/
  | permission
  /-- Any other `Exception`. -/
  | exception (name : String)
  /-- What is no `Exception`. -/
  | base (name : String)
  deriving DecidableEq

/-- `except Exception` catches it. -/
def WorkerFault.isException : WorkerFault → Bool
  | base _ => false
  | _ => true

/-- A composition that returns has returned at both its steps. -/
theorem bind_eq_ok {ε α β : Type} {x : Except ε α} {f : α → Except ε β} {b : β} :
    (x >>= f) = .ok b ↔ ∃ a, x = .ok a ∧ f a = .ok b := by
  cases x <;> simp [Bind.bind, Except.bind]

end PayOps
