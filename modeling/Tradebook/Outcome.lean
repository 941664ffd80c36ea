/-!
# How a computation may end

Besides a value and an error that a caller can handle there are two more ends:
arithmetic may leave the range of its type, which nobody handles, and a loop that
asks the outside world how to go on may use up the number of steps it was given.
Keeping the four apart lets a statement say which of them it excludes.
-/

namespace Tradebook

/-- The ends of a computation with errors in `ε` and values in `α`. -/
inductive Outcome (ε α : Type) where
  /-- It ended with a value. -/
  | ok (value : α)
  /-- It ended with an error. -/
  | error (cause : ε)
  /-- Arithmetic left its range. -/
  | overflow
  /-- The steps allowed to it were used up. -/
  | exhausted
  deriving Repr, DecidableEq

namespace Outcome

/-- Goes on with the value, if there is one. -/
def bind {ε α β : Type} (x : Outcome ε α) (f : α → Outcome ε β) : Outcome ε β :=
  match x with
  | ok a => f a
  | error e => error e
  | overflow => overflow
  | exhausted => exhausted

instance {ε : Type} : Monad (Outcome ε) where
  pure := ok
  bind := bind

/-- The same end with another account of the error. -/
def mapError {ε δ α : Type} (f : ε → δ) : Outcome ε α → Outcome δ α
  | ok a => ok a
  | error e => error (f e)
  | overflow => overflow
  | exhausted => exhausted

/-- A missing value is the given error. -/
def ofOption {ε α : Type} (e : ε) : Option α → Outcome ε α
  | some a => ok a
  | none => error e

/-- A missing value is an overflow. -/
def ofChecked {ε α : Type} : Option α → Outcome ε α
  | some a => ok a
  | none => overflow

/-- A plain result. -/
def ofExcept {ε α : Type} : Except ε α → Outcome ε α
  | .ok a => ok a
  | .error e => error e

@[simp] theorem pure_eq {ε α : Type} (a : α) : (pure a : Outcome ε α) = ok a := rfl

@[simp] theorem ok_bind {ε α β : Type} (a : α) (f : α → Outcome ε β) : (ok a >>= f) = f a := rfl

@[simp] theorem error_bind {ε α β : Type} (e : ε) (f : α → Outcome ε β) :
    (error e >>= f) = error e := rfl

@[simp] theorem overflow_bind {ε α β : Type} (f : α → Outcome ε β) :
    ((overflow : Outcome ε α) >>= f) = overflow := rfl

@[simp] theorem exhausted_bind {ε α β : Type} (f : α → Outcome ε β) :
    ((exhausted : Outcome ε α) >>= f) = exhausted := rfl

end Outcome

end Tradebook
