import Searchlight.Proofs.SetStore.Matching
import Searchlight.Proofs.SetStore.Roles

/-!
# What commands do to a server

A command changes no key but those that it writes (`get?_run_of_notMem`), and leaves a server in
order for a store if it writes data of the kinds of its keys (`InOrder.run`). The commands of one
change put an id into many sets or take it out of them (`Command.place`), and what a list of these
comes to is told for the list as a whole (`contains_runAll_place`).
-/

namespace Searchlight

namespace KeyMap

variable {α : Type} {m : KeyMap α}

theorem eq_empty_of_isEmpty (h : m.isEmpty = true) : m = ∅ := by
  refine KeyMap.ext fun k => ?_
  cases m with
  | mk entries sorted =>
    obtain rfl : entries = [] := by simpa [isEmpty] using h
    rfl

end KeyMap

namespace TextSet

variable {a b : TextSet} {x : String}

@[simp] theorem contains_union : (a.union b).contains x = (a.contains x || b.contains x) := by
  have h := KeyMap.contains_foldl_insert (k := x) b.entries a
  have hmem : x ∈ b.entries.map (·.1) ↔ b.contains x = true := KeyMap.mem_keys
  rw [union, h, Bool.or_comm]
  congr 1
  rw [Bool.eq_iff_iff, decide_eq_true_iff, hmem]

@[simp] theorem contains_diff : (a.diff b).contains x = (a.contains x && !b.contains x) := by
  simp only [diff, KeyMap.contains, KeyMap.get?_filter]
  cases a.get? x <;> cases b.get? x <;> rfl

end TextSet

namespace SetStore

/-! ## The keys that are written -/

namespace Command

def writes : Command → List String
  | put key _ | increment key | hashPut key _ | add key _ | remove key _ => [key]
  | delete keys => keys
  | store step => [step.dest]
  | get _ | getAll _ | hashFields _ | members _ | isMember _ _ | cardinality _ | sorted _ _ _
  | scan _ _ _ => []

/-- What a command may put under the keys of a store is of their kinds. Taking something away is
always right. -/
def Fits (k : KeySpace) : Command → Prop
  | put key _ | increment key => ∀ r : Role, key = r.key k → r.kind = .text
  | hashPut key _ => ∀ r : Role, key = r.key k → r.kind = .hash
  | add key _ => ∀ r : Role, key = r.key k → r.kind = .set
  | store step => ∀ r : Role, step.dest = r.key k → r.kind = .set
  | remove _ _ | delete _ | get _ | getAll _ | hashFields _ | members _ | isMember _ _
  | cardinality _ | sorted _ _ _ | scan _ _ _ => True

/-- A command that puts an id into the set under a key, or takes it out. -/
def place (present : Bool) (id key : String) : Command :=
  if present then add key [id] else remove key [id]

@[simp] theorem writes_place (present : Bool) (id key : String) :
    (place present id key).writes = [key] := by
  cases present <;> rfl

end Command

theorem Role.kind_eq {k k' : KeySpace} {r r' : Role} (hk : KeySpace.IsValidStem k.stem)
    (hk' : KeySpace.IsValidStem k'.stem) (h : r.key k = r'.key k') : r'.kind = r.kind := by
  rw [(Role.key_inj hk hk' h).2]

theorem Command.fits_place {k k' : KeySpace} {r : Role} (hk : KeySpace.IsValidStem k.stem)
    (hk' : KeySpace.IsValidStem k'.stem) (hr : r.kind = .set) (present : Bool) (id : String) :
    (place present id (r.key k)).Fits k' := by
  cases present with
  | true => exact fun r' h => (Role.kind_eq hk hk' h).trans hr
  | false => trivial

def Reply.Succeeds : Reply → Prop
  | failure _ => False
  | _ => True

namespace Server

variable {v : Server} {k : KeySpace} {c : Command} {cs : List Command} {key key' : String}
  {m : TextSet} {x : String}

theorem get?_putSet (v : Server) (key key' : String) (m : TextSet) :
    (v.putSet key m).keys.get? key' =
      if key = key' then if m.isEmpty then none else some (.set m) else v.keys.get? key' := by
  rw [putSet]
  by_cases hm : m.isEmpty = true <;> by_cases hkey : key = key' <;> simp [hm, hkey]

theorem get?_run_of_notMem (h : key ∉ c.writes) :
    (v.run c).1.keys.get? key = v.keys.get? key := by
  cases c with
  | put key' value =>
    have hne : key' ≠ key := by simpa [Command.writes, eq_comm] using h
    simp [run, hne]
  | increment key' =>
    have hne : key' ≠ key := by simpa [Command.writes, eq_comm] using h
    simp only [run, increment]
    split <;> try rfl
    split
    · simp [hne]
    · rfl
  | delete keys =>
    have hmem : key ∉ keys := h
    simp only [run, KeyMap.get?_filter]
    cases v.keys.get? key <;> simp [hmem]
  | hashPut key' fields =>
    have hne : key' ≠ key := by simpa [Command.writes, eq_comm] using h
    simp only [run]
    split
    · rfl
    · simp [hne]
  | add key' members =>
    have hne : key' ≠ key := by simpa [Command.writes, eq_comm] using h
    simp only [run]
    split
    · rfl
    · simp [get?_putSet, hne]
  | remove key' members =>
    have hne : key' ≠ key := by simpa [Command.writes, eq_comm] using h
    simp only [run]
    split
    · rfl
    · simp [get?_putSet, hne]
  | store step =>
    have hne : step.dest ≠ key := by simpa [Command.writes, eq_comm] using h
    simp only [run]
    split
    · rfl
    · simp [get?_putSet, hne]
  | getAll keys => rfl
  | scan cursor pattern count => rfl
  | sorted key' offset limit =>
    simp only [run]
    split
    · split <;> rfl
    · rfl
  | _ =>
    simp only [run]
    split <;> rfl

theorem keys_run_of_writes_eq_nil (h : c.writes = []) : (v.run c).1.keys = v.keys :=
  KeyMap.ext fun key => get?_run_of_notMem (by simp [h])

/-- How a server answers does not depend on what it was told. -/
theorem answering_run (v : Server) (c : Command) :
    (v.run c).1.mode = v.mode ∧ (v.run c).1.reachable = v.reachable := by
  cases c <;> simp only [run, increment, putSet, scanPage] <;> (repeat' split) <;>
    first | exact ⟨rfl, rfl⟩ | trivial

/-! ## Order -/

theorem InOrder.insert (hv : v.InOrder k) {x : Datum} (h : ∀ r : Role, key = r.key k → x.kind = r.kind) :
    InOrder k { v with keys := v.keys.insert key x } := by
  intro r y hy
  rw [KeyMap.get?_insert] at hy
  split at hy
  · rename_i hkey
    cases hy
    exact h r hkey
  · exact hv r y hy

theorem InOrder.putSet (hv : v.InOrder k)
    (h : m.isEmpty = false → ∀ r : Role, key = r.key k → r.kind = .set) :
    (v.putSet key m).InOrder k := by
  intro r y hy
  rw [get?_putSet] at hy
  split at hy
  · rename_i hkey
    split at hy
    · cases hy
    · rename_i hm
      cases hy
      exact (h (by simpa using hm) r hkey).symm
  · exact hv r y hy

/-- **A command that fits keeps a server in order.** -/
theorem InOrder.run (hv : v.InOrder k) (hc : c.Fits k) : (v.run c).1.InOrder k := by
  cases c with
  | put key value => exact hv.insert fun r hr => (hc r hr).symm
  | increment key =>
    simp only [Server.run, increment]
    split
    · exact hv
    · exact hv
    · split
      · exact hv.insert fun r hr => (hc r hr).symm
      · exact hv
  | hashPut key fields =>
    simp only [Server.run]
    split
    · exact hv
    · exact hv.insert fun r hr => (hc r hr).symm
  | add key members =>
    simp only [Server.run]
    split
    · exact hv
    · exact hv.putSet fun _ => hc
  | remove key members =>
    simp only [Server.run]
    split
    · exact hv
    · rename_i m hm
      refine hv.putSet fun hne r hr => ?_
      -- Something is left, so there was a set before.
      rw [Server.set?] at hm
      split at hm
      · cases hm
        cases hne
      · rename_i hget
        cases hm
        exact (hv r _ (hr ▸ hget)).symm
      · cases hm
  | store step =>
    simp only [Server.run]
    split
    · exact hv
    · exact hv.putSet fun _ => hc
  | delete keys =>
    intro r y hy
    simp only [Server.run, KeyMap.get?_filter, Option.filter_eq_some_iff] at hy
    exact hv r y hy.1
  | _ =>
    intro r y hy
    rw [keys_run_of_writes_eq_nil rfl] at hy
    exact hv r y hy

/-! ## Several commands -/

theorem runAll_cons (v : Server) (c : Command) (cs : List Command) :
    v.runAll (c :: cs) = (((v.run c).1.runAll cs).1, (v.run c).2 :: ((v.run c).1.runAll cs).2) := rfl

theorem runAll_singleton (v : Server) (c : Command) :
    v.runAll [c] = ((v.run c).1, [(v.run c).2]) := rfl

theorem runAll_append (v : Server) (cs cs' : List Command) :
    v.runAll (cs ++ cs') =
      (((v.runAll cs).1.runAll cs').1, (v.runAll cs).2 ++ ((v.runAll cs).1.runAll cs').2) := by
  induction cs generalizing v with
  | nil => rfl
  | cons c cs ih => rw [List.cons_append, runAll_cons, ih, runAll_cons]; rfl

theorem get?_runAll_of_notMem (h : ∀ c ∈ cs, key ∉ c.writes) :
    (v.runAll cs).1.keys.get? key = v.keys.get? key := by
  induction cs generalizing v with
  | nil => rfl
  | cons c cs ih =>
    rw [runAll_cons, ih fun c' hc' => h c' (List.mem_cons_of_mem _ hc'),
      get?_run_of_notMem (h c List.mem_cons_self)]

theorem answering_runAll (v : Server) (cs : List Command) :
    (v.runAll cs).1.mode = v.mode ∧ (v.runAll cs).1.reachable = v.reachable := by
  induction cs generalizing v with
  | nil => exact ⟨rfl, rfl⟩
  | cons c cs ih =>
    rw [runAll_cons, (ih _).1, (ih _).2]
    exact v.answering_run c

/-! ## Putting an id into sets -/

theorem sets_congr {v' : Server} (h : v'.keys.get? key = v.keys.get? key) :
    v'.sets key = v.sets key := by
  rw [sets, sets, set?, set?, h]

theorem sets_eq_of_set? (h : v.set? key = some m) : v.sets key = m := by
  rw [sets, h]
  rfl

theorem sets_putSet (v : Server) (key key' : String) (m : TextSet) :
    (v.putSet key m).sets key' = if key = key' then m else v.sets key' := by
  split
  · rename_i hkey
    rw [sets, set?, get?_putSet, if_pos hkey]
    by_cases hm : m.isEmpty = true
    · rw [if_pos hm, KeyMap.eq_empty_of_isEmpty hm]
      rfl
    · rw [if_neg hm]
      rfl
  · rename_i hkey
    exact sets_congr (by rw [get?_putSet, if_neg hkey])

theorem run_place (h : v.set? key = some m) (present : Bool) (id : String) :
    (v.run (.place present id key)).2.Succeeds ∧
      ∀ key' x, ((v.run (.place present id key)).1.sets key').contains x =
        if key' = key ∧ x = id then present else (v.sets key').contains x := by
  have hsets := sets_eq_of_set? h
  cases present with
  | true =>
    simp only [Command.place, if_true, run, h]
    refine ⟨trivial, fun key' x => ?_⟩
    rw [sets_putSet]
    by_cases hkey : key = key'
    · subst hkey
      by_cases hx : x = id <;> simp [hx, hsets]
    · simp [hkey, Ne.symm hkey]
  | false =>
    simp only [Command.place, Bool.false_eq_true, if_false, run, h]
    refine ⟨trivial, fun key' x => ?_⟩
    rw [sets_putSet]
    by_cases hkey : key = key'
    · subst hkey
      by_cases hx : x = id <;> simp [hx, hsets]
    · simp [hkey, Ne.symm hkey]

/-- **One id is put into many sets, or taken out of them.** -/
theorem contains_runAll_place (hk : KeySpace.IsValidStem k.stem) (hv : v.InOrder k)
    {ks : List String} (hks : ∀ key ∈ ks, ∃ r : Role, r.kind = .set ∧ key = r.key k)
    (present : Bool) (id key x : String) :
    ((v.runAll (ks.map (.place present id))).1.sets key).contains x =
      if key ∈ ks ∧ x = id then present else (v.sets key).contains x := by
  induction ks generalizing v with
  | nil => simp [runAll]
  | cons key' ks ih =>
    obtain ⟨r, hr, rfl⟩ := hks key' List.mem_cons_self
    obtain ⟨m, hm⟩ := hv.set? hr
    rw [List.map_cons, runAll_cons, ih (hv.run (Command.fits_place hk hk hr present id))
      fun key' h => hks key' (List.mem_cons_of_mem _ h), (run_place hm present id).2]
    by_cases hmem : key ∈ ks <;> by_cases hkey : key = r.key k <;> by_cases hx : x = id <;>
      simp [hmem, hkey, hx]

end Server

end SetStore

end Searchlight
