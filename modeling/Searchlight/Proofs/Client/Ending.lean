import Searchlight.Proofs.Client.Writing

/-!
# How clients end

To close a client, to destroy its store and to drop it come down to one piece of work of its driver.
Whether that fails or not, the client is closed then and has given its lease back (`close_run`,
`destroy_run`).
-/

namespace Searchlight

namespace Action

variable {σ α : Type}

theorem run_of_failsAs_false {y : Action σ Unit} (hy : FailsAs (fun _ => False) y) (s : σ) :
    y s = .ok () (y.after s) := by
  rw [after]
  cases hs : y s with
  | ok _ t => rfl
  | error e t => exact (hy s e t hs).elim

/-- What cannot fail is done after work, however that ends. -/
theorem thenAlways_run {x : Action σ α} {y : Action σ Unit} (hy : FailsAs (fun _ => False) y)
    (s : σ) : x.thenAlways y s =
      match x s with
      | .ok a t => .ok a (y.after t)
      | .error e t => .error e (y.after t) := by
  rw [thenAlways, bind_run, tryCatch_run]
  cases x s with
  | ok a t => simp only [bind_run, run_of_failsAs_false hy, pure_run]
  | error e t => simp only [bind_run, run_of_failsAs_false hy, throw_run]

theorem orUndo_run {x : Action σ α} {y : Action σ Unit} (hy : FailsAs (fun _ => False) y) (s : σ) :
    x.orUndo y s =
      match x s with
      | .ok a t => .ok a t
      | .error e t => .error e (y.after t) := by
  rw [orUndo, tryCatch_run]
  cases x s with
  | ok a t => rfl
  | error e t => simp only [bind_run, run_of_failsAs_false hy, throw_run]

end Action

namespace Host

def released (h : Host) (lease : Option String) : Host :=
  match lease with
  | none => h
  | some key => { h with leases := h.leases.erase key }

variable {h : Host} {lease : Option String}

@[simp] theorem volume_released : (h.released lease).volume = h.volume := by
  cases lease <;> rfl

@[simp] theorem server_released : (h.released lease).server = h.server := by
  cases lease <;> rfl

end Host

namespace Client

variable {c : Client} {h : Host}

def ended (c : Client) (d : Driver) : Client := { c with driver := d, closed := true, lease := none }

theorem releaseLease_eq :
    releaseLease (c, h) = .ok () ({ c with lease := none }, h.released c.lease) := by
  simp only [releaseLease, Action.get_bind]
  cases c.lease <;> rfl

theorem thenAlways_releaseLease (x : DriverWork Unit) :
    (drive x).thenAlways releaseLease ({ c with closed := true }, h) =
      match x (c.driver, h) with
      | .ok _ (d, h') => .ok () (c.ended d, h'.released c.lease)
      | .error e (d, h') => .error e (c.ended d, h'.released c.lease) := by
  have hfails : Action.FailsAs (fun _ => False) releaseLease := fun (c, h) _ _ hr => by
    rw [releaseLease_eq] at hr
    cases hr
  rw [Action.thenAlways_run hfails, drive_run]
  cases x (c.driver, h) <;> simp only [Action.after, releaseLease_eq] <;> rfl

/-- **To close a client** that is open. -/
theorem close_run (hopen : c.closed = false) :
    close (c, h) =
      match Driver.close (c.driver, h) with
      | .ok _ (d, h') => .ok () (c.ended d, h'.released c.lease)
      | .error e (d, h') => .error e (c.ended d, h'.released c.lease) := by
  rw [← thenAlways_releaseLease]
  simp [close, hopen]

theorem close_of_closed (hclosed : c.closed = true) : close (c, h) = .ok () (c, h) := by
  simp [close, hclosed]

/-- **To destroy the store** of a client that may. -/
theorem destroy_run (hopen : c.closed = false) (hwritable : c.readonly = false) :
    destroy (c, h) =
      match Driver.destroy (c.driver, h) with
      | .ok _ (d, h') => .ok () (c.ended d, h'.released c.lease)
      | .error e (d, h') => .error e (c.ended d, h'.released c.lease) := by
  rw [← thenAlways_releaseLease]
  simp [destroy, ensureWritable, ensureOpen, hopen, hwritable]

end Client

end Searchlight
