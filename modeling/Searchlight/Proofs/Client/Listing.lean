import Mathlib.Data.List.ReduceOption
import Searchlight.Client.Cursor
import Searchlight.Proofs.Action

/-!
# What a listing gives

A cursor over documents goes through the ids that its source lists and loads each. While the source
stays as it is, what the cursor has before it is a list of ids (`rest`): each turn loads the first
of them or fetches more of them, so that the cursor gives all documents that they load and is used up
then, or fails with the first of them that cannot be loaded (`drain_run`). Or it fails with a page
that its source does not give.
-/

namespace Searchlight.DocumentCursor

variable {σ : Type} {source : DocumentSource σ} {s : σ} {ids : List String}
  {load : String → Except Error (Option StoredDocument)} {c c' : DocumentCursor}
  {turns bound : Nat}

/-- The ids whose documents the cursor has not given yet, when there are these ids. -/
def rest (ids : List String) (c : DocumentCursor) : List String :=
  c.buffer ++ if c.finished then [] else ids.drop c.offset

/-- The source lists these ids and loads these documents, and stays as it is. -/
structure Serves (source : DocumentSource σ) (s : σ) (ids : List String)
    (load : String → Except Error (Option StoredDocument)) : Prop where
  list : ∀ offset limit, source.list offset limit s = .ok ((ids.drop offset).take limit) s
  load : ∀ id, source.load id s = Action.ofExcept (load id) s

structure Provides (source : DocumentSource σ) (s : σ) (ids : List String)
    (load : String → Except Error (Option StoredDocument)) : Prop where
  list : ∀ offset limit, source.list offset limit s = .ok ((ids.drop offset).take limit) s ∨
    ∃ e, source.list offset limit s = .error e s
  load : ∀ id, source.load id s = Action.ofExcept (load id) s

theorem Serves.provides (h : Serves source s ids load) : Provides source s ids load where
  list offset limit := .inl (h.list offset limit)
  load := h.load

/-- The source refuses a page that starts no later than here. -/
def FailsPage (source : DocumentSource σ) (s : σ) (bound size : Nat) (e : Error) : Prop :=
  ∃ offset ≤ bound, source.list offset size s = .error e s

theorem Serves.not_failsPage (h : Serves source s ids load) {bound size : Nat} {e : Error} :
    ¬ FailsPage source s bound size e := by
  rintro ⟨offset, -, hlist⟩
  cases (h.list offset size).symm.trans hlist

def firstOf (load : String → Except Error (Option StoredDocument)) :
    List String → Except Error (Option (StoredDocument × List String))
  | [] => .ok none
  | id :: ids =>
    match load id with
    | .error e => .error e
    | .ok (some d) => .ok (some (d, ids))
    | .ok none => firstOf load ids

/-- Turns enough to go through all ids. -/
def work (ids : List String) (c : DocumentCursor) : Nat :=
  c.buffer.length + if c.finished then 0 else 2 * (ids.length - c.offset) + 1

/-- Another page takes nothing from what is before the cursor, and takes work off it. -/
theorem receive_page (ids : List String) (hc : c.finished = false) (hsize : 0 < c.pageSize)
    (hbuffer : c.buffer = []) :
    (c.receive ((ids.drop c.offset).take c.pageSize)).rest ids = c.rest ids ∧
      (c.receive ((ids.drop c.offset).take c.pageSize)).work ids < c.work ids := by
  have hlength : ((ids.drop c.offset).take c.pageSize).length =
      min c.pageSize (ids.length - c.offset) := by simp
  by_cases hlast : ids.length - c.offset < c.pageSize
  · -- The page has all that is left.
    have hpage : (ids.drop c.offset).take c.pageSize = ids.drop c.offset :=
      List.take_of_length_le (by simp; omega)
    simp only [rest, work, receive, hc, hbuffer, hpage]
    simp [hlast]
    omega
  · have hfull : ((ids.drop c.offset).take c.pageSize).length = c.pageSize := by omega
    simp only [rest, work, receive, hc, hbuffer, hfull]
    simp [← List.drop_drop]
    omega

/-- Every listed id was taken up, and there are no more to list. -/
def isUsedUp (c : DocumentCursor) : Bool := c.finished && c.buffer.isEmpty

theorem rest_of_isUsedUp (h : c.isUsedUp = true) : c.rest ids = [] := by
  simp only [isUsedUp, Bool.and_eq_true, List.isEmpty_iff] at h
  simp [rest, h]

theorem isUsedUp_of_work_eq_zero (h : c.work ids = 0) : c.isUsedUp = true := by
  rw [work] at h
  cases hc : c.finished <;> simp_all [isUsedUp]

/-! ## Turns -/

theorem next_load {id : String} {left : List String} (hbuffer : c.buffer = id :: left) :
    next false source (turns + 1) (c, s) =
      match source.load id s with
      | .error e s' => .error e ({ c with buffer := left }, s')
      | .ok (some d) s' => .ok (some d) ({ c with buffer := left }, s')
      | .ok none s' => next false source turns ({ c with buffer := left }, s') := by
  rw [next, if_neg Bool.false_ne_true]
  dsimp only
  rw [Action.get_bind]
  simp only [hbuffer, Action.bind_run, Action.set_run, Action.second, Action.focus]
  rcases source.load id s with ⟨_ | _, _⟩ | ⟨_, _⟩ <;> rfl

theorem next_list (hbuffer : c.buffer = []) (hfinished : c.finished = false) :
    next false source (turns + 1) (c, s) =
      match source.list c.offset c.pageSize s with
      | .error e s' => .error e (c, s')
      | .ok ids s' => next false source turns (c.receive ids, s') := by
  rw [next, if_neg Bool.false_ne_true]
  dsimp only
  rw [Action.get_bind]
  simp only [hbuffer, hfinished, Bool.false_eq_true, if_false, Action.bind_run, Action.second,
    Action.focus]
  cases source.list c.offset c.pageSize s <;> rfl

theorem next_of_isUsedUp (h : c.isUsedUp = true) :
    next false source (turns + 1) (c, s) = .ok none (c, s) := by
  simp only [isUsedUp, Bool.and_eq_true, List.isEmpty_iff] at h
  rw [next, if_neg Bool.false_ne_true]
  dsimp only
  rw [Action.get_bind]
  simp only [h, if_true]
  rfl

/-- Whoever begins at a source that lists the same is given the same. -/
theorem next_congr {s' : σ}
    (h : ∀ offset limit, source.list offset limit s = source.list offset limit s')
    (hbuffer : c.buffer = []) (hfinished : c.finished = false) :
    next false source (turns + 1) (c, s) = next false source (turns + 1) (c, s') := by
  rw [next_list hbuffer hfinished, next_list hbuffer hfinished, h]

theorem next_of_list_eq_error {s' : σ} {e : Error} (hbuffer : c.buffer = [])
    (hfinished : c.finished = false) (hlist : source.list c.offset c.pageSize s = .error e s') :
    next false source (turns + 1) (c, s) = .error e (c, s') := by
  rw [next_list hbuffer hfinished, hlist]

theorem next_cons (h : Provides source s ids load) {id : String} {left : List String}
    (hbuffer : c.buffer = id :: left) :
    next false source (turns + 1) (c, s) =
      match load id with
      | .error e => .error e ({ c with buffer := left }, s)
      | .ok (some d) => .ok (some d) ({ c with buffer := left }, s)
      | .ok none => next false source turns ({ c with buffer := left }, s) := by
  rw [next_load hbuffer, h.load]
  rcases load id with _ | _ | _ <;> rfl

theorem next_nil (hbuffer : c.buffer = []) (hfinished : c.finished = false)
    (hlist : source.list c.offset c.pageSize s = .ok ((ids.drop c.offset).take c.pageSize) s) :
    next false source (turns + 1) (c, s) =
      next false source turns (c.receive ((ids.drop c.offset).take c.pageSize), s) := by
  rw [next_list hbuffer hfinished, hlist]

theorem offset_receive_le (hids : ids.length ≤ bound) (hoffset : c.offset ≤ bound) :
    (c.receive ((ids.drop c.offset).take c.pageSize)).offset ≤ bound := by
  simp only [receive, List.length_take, List.length_drop]
  omega

/-- **The next document** is the first that there is, unless a page is not given. There is none only
for a cursor that is used up. -/
theorem next_run (h : Provides source s ids load) (hsize : 0 < c.pageSize)
    (hids : ids.length ≤ bound) (hoffset : c.offset ≤ bound) (hturns : c.work ids ≤ turns) :
    (∃ e c', FailsPage source s bound c.pageSize e ∧
        next false source turns (c, s) = .error e (c', s)) ∨
      ∃ c', next false source turns (c, s) =
          Action.ofExcept ((firstOf load (c.rest ids)).map (·.map (·.1))) (c', s) ∧
        (firstOf load (c.rest ids) = .ok none → c'.isUsedUp = true) ∧
        ∀ d left, firstOf load (c.rest ids) = .ok (some (d, left)) →
          c'.rest ids = left ∧ c'.work ids ≤ c.work ids ∧ c'.pageSize = c.pageSize ∧
            c'.offset ≤ bound := by
  induction turns generalizing c with
  | zero =>
    have husedUp := isUsedUp_of_work_eq_zero (Nat.le_zero.1 hturns)
    rw [rest_of_isUsedUp husedUp]
    exact .inr ⟨c, rfl, fun _ => husedUp, fun d left hfirst => by cases hfirst⟩
  | succ turns ih =>
    cases hbuffer : c.buffer with
    | cons id left =>
      have hrest : c.rest ids = id :: ({ c with buffer := left } : DocumentCursor).rest ids := by
        simp [rest, hbuffer]
      have hwork : c.work ids = ({ c with buffer := left } : DocumentCursor).work ids + 1 := by
        simp only [work, hbuffer, List.length_cons]
        omega
      rw [hrest, firstOf, next_cons h hbuffer]
      rcases hload : load id with e | (_ | d)
      · exact .inr ⟨_, rfl, fun hfirst => (by cases hfirst), fun d left hfirst => by cases hfirst⟩
      · refine (ih (c := { c with buffer := left }) hsize hoffset (by omega)).imp_right ?_
        rintro ⟨c', hnext, hend, hc'⟩
        refine ⟨c', hnext, hend, fun d left hfirst => ?_⟩
        obtain ⟨hleft, hle, hpage⟩ := hc' d left hfirst
        exact ⟨hleft, by omega, hpage⟩
      · refine .inr ⟨_, rfl, fun hfirst => (by cases hfirst), fun d' left' hfirst => ?_⟩
        cases hfirst
        exact ⟨rfl, by omega, rfl, hoffset⟩
    | nil =>
      cases hfinished : c.finished with
      | true =>
        have husedUp : c.isUsedUp = true := by simp [isUsedUp, hbuffer, hfinished]
        rw [rest_of_isUsedUp husedUp]
        exact .inr ⟨c, next_of_isUsedUp husedUp, fun _ => husedUp,
          fun d left hfirst => by cases hfirst⟩
      | false =>
        rcases h.list c.offset c.pageSize with hlist | ⟨e, hlist⟩
        · obtain ⟨hrest, hwork⟩ := receive_page ids hfinished hsize hbuffer
          have hgoes := ih (c := c.receive ((ids.drop c.offset).take c.pageSize)) hsize
            (offset_receive_le hids hoffset) (by omega)
          rw [hrest] at hgoes
          rw [next_nil hbuffer hfinished hlist]
          refine hgoes.imp_right ?_
          rintro ⟨c', hnext, hend, hc'⟩
          refine ⟨c', hnext, hend, fun d left hfirst => ?_⟩
          obtain ⟨hleft, hle, hpage⟩ := hc' d left hfirst
          exact ⟨hleft, by omega, hpage⟩
        · exact .inl ⟨e, c, ⟨_, hoffset, hlist⟩, next_of_list_eq_error hbuffer hfinished hlist⟩

/-- What ids load is the first document and what those after it load. -/
theorem mapM_eq_firstOf (load : String → Except Error (Option StoredDocument)) (ids : List String) :
    (ids.mapM load).map List.reduceOption =
      match firstOf load ids with
      | .error e => .error e
      | .ok none => .ok []
      | .ok (some (d, left)) => ((left.mapM load).map List.reduceOption).map (d :: ·) := by
  induction ids with
  | nil => rfl
  | cons id ids ih =>
    rw [List.mapM_cons, firstOf]
    rcases load id with e | (_ | d)
    · rfl
    · dsimp only
      rw [← ih]
      cases ids.mapM load <;> rfl
    · dsimp only
      cases ids.mapM load <;> rfl

theorem length_of_firstOf {d : StoredDocument} {ids left : List String}
    (h : firstOf load ids = .ok (some (d, left))) : left.length < ids.length := by
  induction ids with
  | nil => cases h
  | cons id ids ih =>
    rw [firstOf] at h
    split at h
    · cases h
    · cases h
      exact Nat.lt_succ_self _
    · exact Nat.lt_succ_of_lt (ih h)

/-- **A cursor gives all documents** that the ids before it load, and is used up then, unless a page
is not given. -/
theorem drain_run (h : Provides source s ids load) (hsize : 0 < c.pageSize)
    (hids : ids.length ≤ bound) (hoffset : c.offset ≤ bound) (hturns : c.work ids ≤ turns) {n : Nat}
    (hn : (c.rest ids).length < n) :
    (∃ e c', FailsPage source s bound c.pageSize e ∧
        drain false source turns n (c, s) = .error e (c', s)) ∨
      ∃ c', drain false source turns n (c, s) =
          Action.ofExcept (((c.rest ids).mapM load).map List.reduceOption) (c', s) ∧
        ((((c.rest ids).mapM load).map List.reduceOption).toBool = true → c'.isUsedUp = true) := by
  induction n generalizing c with
  | zero => omega
  | succ n ih =>
    rw [mapM_eq_firstOf, drain, Action.bind_run]
    obtain ⟨e, c', hpage, hnext⟩ | ⟨c', hnext, hend, hc'⟩ := next_run h hsize hids hoffset hturns <;>
      rw [hnext]
    · exact .inl ⟨e, c', hpage, rfl⟩
    rcases hfirst : firstOf load (c.rest ids) with e | (_ | ⟨d, left⟩)
    · exact .inr ⟨c', rfl, fun hok => by cases hok⟩
    · exact .inr ⟨c', rfl, fun _ => hend hfirst⟩
    · obtain ⟨rfl, hle, hpage, hoffset'⟩ := hc' d left hfirst
      have hlength := length_of_firstOf hfirst
      -- The cursor goes on with what is left, with no more work and fewer documents before it.
      simp only [Except.map, Option.map, Action.ofExcept, Action.pure_run, Action.bind_run]
      obtain ⟨e, c'', hfails, hrest⟩ | ⟨c'', hrest, hend⟩ :=
        ih (c := c') (hpage ▸ hsize) hoffset' (by omega) (by omega)
      · rw [hrest]
        exact .inl ⟨e, c'', hpage ▸ hfails, rfl⟩
      · rw [hrest]
        generalize (c'.rest ids).mapM load = loaded at hend ⊢
        cases loaded with
        | error e => exact .inr ⟨c'', rfl, fun hok => by cases hok⟩
        | ok ds => exact .inr ⟨c'', rfl, fun _ => hend rfl⟩

theorem drain_congr {s' : σ} {n : Nat}
    (h : ∀ offset limit, source.list offset limit s = source.list offset limit s')
    (hbuffer : c.buffer = []) (hfinished : c.finished = false) :
    drain false source (turns + 1) (n + 1) (c, s) =
      drain false source (turns + 1) (n + 1) (c, s') := by
  rw [drain, Action.bind_run, Action.bind_run, next_congr h hbuffer hfinished]

end Searchlight.DocumentCursor
