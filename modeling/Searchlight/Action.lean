import Searchlight.Error

/-!
# Actions

An action works on a state and may fail. What it did before it failed stays done.
-/

namespace Searchlight

/-- Work on a state that may fail; the state is kept either way. -/
abbrev Action (σ α : Type) := EStateM Error σ α

namespace Action

variable {σ τ α : Type}

/-- The outcome of work that touches no state. -/
def ofExcept : Except Error α → Action σ α
  | .ok a => pure a
  | .error e => throw e

/-- Does work on a part of the state. -/
def focus (get : σ → τ) (put : τ → σ → σ) (x : Action τ α) : Action σ α := fun s =>
  match x (get s) with
  | .ok a t => .ok a (put t s)
  | .error e t => .error e (put t s)

def first (x : Action σ α) : Action (σ × τ) α := focus (·.1) (fun t s => (t, s.2)) x

def second (x : Action τ α) : Action (σ × τ) α := focus (·.2) (fun t s => (s.1, t)) x

/-- Work that may fail, followed by work that is done in any case; a failure of the first
stays the outcome. -/
def thenAlways (x : Action σ α) (y : Action σ Unit) : Action σ α := do
  let a ← tryCatch x fun e => do y; throw e
  y
  return a

/-- Work that may fail, with work that is done only then. -/
def orUndo (x : Action σ α) (y : Action σ Unit) : Action σ α :=
  tryCatch x fun e => do y; throw e

end Action

end Searchlight
