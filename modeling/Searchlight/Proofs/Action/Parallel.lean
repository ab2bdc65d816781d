import Searchlight.Proofs.Action

/-!
# Two runs side by side

`Parallel f x y` says that `x`, from a state seen through `f`, ends as `y` ends from the state
itself, and leaves what `y` leaves, seen through `f`. So work runs parallel to itself under a change
of something that it does not look at. There is one rule for each way to put actions together. -/

namespace Searchlight

namespace Action

variable {σ σ' τ τ' α β : Type} {f : σ → τ}

/-- Work on states seen through a map does what other work does on the states themselves. -/
def Parallel (f : σ → τ) (x : Action τ α) (y : Action σ α) : Prop :=
  ∀ s,
    x (f s) =
      match y s with
      | .ok a t => .ok a (f t)
      | .error e t => .error e (f t)

namespace Parallel

variable {x : Action τ α} {y : Action σ α}

theorem outcome (h : Parallel f x y) (s : σ) : x.outcome (f s) = y.outcome s := by
  rw [Action.outcome, h, Action.outcome]
  cases y s <;> rfl

theorem after (h : Parallel f x y) (s : σ) : x.after (f s) = f (y.after s) := by
  rw [Action.after, h, Action.after]
  cases y s <;> rfl

theorem pure {a : α} : Parallel f (Pure.pure a) (Pure.pure a) := fun _ => rfl

theorem throw {e : Error} : Parallel f (throw e : Action τ α) (throw e) := fun _ => rfl

theorem ofExcept {x : Except Error α} : Parallel f (Action.ofExcept x) (Action.ofExcept x) := by
  cases x with
  | ok a => exact .pure
  | error e => exact .throw

theorem set {t : τ} {s : σ} (h : t = f s) : Parallel f (set t : Action τ PUnit) (set s) :=
  fun _ => by rw [h]; rfl

theorem modify {g : τ → τ} {k : σ → σ} (h : ∀ s, g (f s) = f (k s)) :
    Parallel f (modify g : Action τ PUnit) (modify k) := fun s => by
  rw [modify_run, modify_run, h]

theorem bind (h : Parallel f x y) {g : α → Action τ β} {k : α → Action σ β}
    (hg : ∀ a, Parallel f (g a) (k a)) : Parallel f (x >>= g) (y >>= k) := by
  intro s
  rw [bind_run, bind_run, h]
  cases y s with
  | ok a t => exact hg a t
  | error e t => rfl

theorem look {g : τ → Action τ β} {k : σ → Action σ β} (h : ∀ s, Parallel f (g (f s)) (k s)) :
    Parallel f (get >>= g) (get >>= k) := fun s => h s s

theorem ite {p : Prop} [Decidable p] {x' : Action τ α} {y' : Action σ α} (h : Parallel f x y)
    (h' : Parallel f x' y') : Parallel f (if p then x else x') (if p then y else y') := by
  split
  · exact h
  · exact h'

/-- Work on a part that is seen through a map of its own. -/
theorem focus {f' : σ' → τ'} {x : Action τ' α} {y : Action σ' α} (h : Parallel f' x y)
    {get : τ → τ'} {put : τ' → τ → τ} {get' : σ → σ'} {put' : σ' → σ → σ}
    (hget : ∀ s, get (f s) = f' (get' s)) (hput : ∀ t s, put (f' t) (f s) = f (put' t s)) :
    Parallel f (x.focus get put) (y.focus get' put') := by
  intro s
  rw [Action.focus, Action.focus, hget, h]
  cases y (get' s) <;> exact congrArg _ (hput _ s)

theorem second {x : Action τ α} {y : Action σ α} (h : Parallel f x y) :
    Parallel (Prod.map (id : σ' → σ') f) (Action.second x) (Action.second y) :=
  h.focus (fun _ => rfl) fun _ _ => rfl

end Parallel

end Action

end Searchlight
