import Searchlight.Proofs.Client.Windows

/-!
# Calls of a result cursor

Whatever a driver answers, a call of `next` takes one of five steps (`Step`). Each step keeps the
accounts of the cursor (`Accounts`): every hit that it was opened for was given, waits in the cursor
or is still to be asked for, and a page is asked for at most once for each hit, once for each
failure and once more. So a cursor is safe with any driver (`safe_with_any_driver`): what it was
opened for bounds what it gives, and once it gave none it is at its end, whatever is done to it.
-/

namespace Searchlight

/-! ## Calls -/

namespace Action

variable {σ α : Type} {x : Bool → Action σ α}

/-- Calls one after the other, whatever becomes of each. For each it is told whether the client is
closed by then. -/
def calls (x : Bool → Action σ α) : List Bool → σ → List (Except Error α) × σ
  | [], s => ([], s)
  | closed :: closings, s =>
    let run := calls x closings ((x closed).after s)
    ((x closed).outcome s :: run.1, run.2)

/-- What each call keeps, of the outcomes so far and of the state, all calls keep. -/
theorem calls_invariant {P : List (Except Error α) → σ → Prop}
    (hcall : ∀ outcomes s closed, P outcomes s →
      P (outcomes ++ [(x closed).outcome s]) ((x closed).after s))
    {outcomes : List (Except Error α)} {s : σ} (h : P outcomes s) (closings : List Bool) :
    P (outcomes ++ (calls x closings s).1) (calls x closings s).2 := by
  induction closings generalizing outcomes s with
  | nil => rwa [calls, List.append_nil]
  | cons closed closings ih =>
    have hrest := ih (hcall outcomes s closed h)
    rwa [List.append_assoc] at hrest

/-- What holds before any call and each call keeps. -/
theorem calls_induction {P : List (Except Error α) → σ → Prop}
    (hcall : ∀ outcomes s closed, P outcomes s →
      P (outcomes ++ [(x closed).outcome s]) ((x closed).after s))
    {s : σ} (h : P [] s) (closings : List Bool) : P (calls x closings s).1 (calls x closings s).2 :=
  calls_invariant hcall h closings

theorem calls_of_same {outcome : Except Error α} {s : σ} {closings : List Bool}
    (h : ∀ closed ∈ closings, (x closed).outcome s = outcome ∧ (x closed).after s = s) :
    calls x closings s = (closings.map fun _ => outcome, s) := by
  induction closings with
  | nil => rfl
  | cons closed closings ih =>
    obtain ⟨houtcome, hafter⟩ := h closed List.mem_cons_self
    rw [calls, houtcome, hafter, ih fun closed' hmem => h closed' (List.mem_cons_of_mem _ hmem),
      List.map_cons]

def given (outcomes : List (Except Error (Option α))) : List α :=
  outcomes.filterMap fun o => o.toOption.join

def failures (outcomes : List (Except Error α)) : Nat := outcomes.countP fun o => !o.toBool

@[simp] theorem given_append (os ps : List (Except Error (Option α))) :
    given (os ++ ps) = given os ++ given ps := List.filterMap_append

@[simp] theorem given_ok (o : Option α) : given [.ok o] = o.toList := by cases o <;> rfl

@[simp] theorem given_error (e : Error) : given [(.error e : Except Error (Option α))] = [] := rfl

@[simp] theorem given_nil : given ([] : List (Except Error (Option α))) = [] := rfl

@[simp] theorem given_map_some (as : List α) : given (as.map fun a => .ok (some a)) = as := by
  simp [given, Except.toOption, List.filterMap_map]

@[simp] theorem failures_append (os ps : List (Except Error α)) :
    failures (os ++ ps) = failures os + failures ps := List.countP_append

@[simp] theorem failures_ok (a : α) : failures [.ok a] = 0 := rfl

@[simp] theorem failures_error (e : Error) : failures [(.error e : Except Error α)] = 1 := rfl

@[simp] theorem failures_nil : failures ([] : List (Except Error α)) = 0 := rfl

@[simp] theorem failures_map_ok (as : List α) {β : Type} (f : α → β) :
    failures (as.map fun a => .ok (f a)) = 0 := by
  simp [failures, Except.toBool, List.countP_map, Function.comp_def]

end Action

namespace ResultCursor

open Searchlight.Action (calls given failures)

variable {σ : Type} {fetch : FetchHits σ} {closed : Bool} {c c' : ResultCursor} {s s' : σ}
  {r : EStateM.Result Error (ResultCursor × σ) (Option SearchHit)}

/-! ## Steps -/

/-- What becomes of a call of `next`. -/
inductive Step (closed : Bool) (fetch : FetchHits σ) (c : ResultCursor) (s : σ) :
    EStateM.Result Error (ResultCursor × σ) (Option SearchHit) → Prop where
  /-- The next hit waits in the cursor. -/
  | buffered {hit : SearchHit} {hits : List SearchHit} (hbuffer : c.buffer = hit :: hits) :
    Step closed fetch c s (.ok (some hit) ({ c with buffer := hits }, s))
  | ended (hbuffer : c.buffer = []) (hfinished : c.finished = true) :
    Step closed fetch c s (.ok none (c, s))
  /-- There may be more hits, but the client is closed. -/
  | shut (hbuffer : c.buffer = []) (hgoing : c.finished = false) (hclosed : closed = true) :
    Step closed fetch c s (.error .clientClosed (c, s))
  | refused {e : Error} {s' : σ} (hbuffer : c.buffer = []) (hgoing : c.finished = false)
      (hopen : closed = false) (hfetch : fetch c.query c.offset c.want s = .error e s') :
    Step closed fetch c s (.error e (c, s'))
  /-- Another page comes, of which no more is taken than was asked for. -/
  | paged {page : ResultSet} {s' : σ} (hbuffer : c.buffer = []) (hgoing : c.finished = false)
      (hopen : closed = false) (hfetch : fetch c.query c.offset c.want s = .ok page s') :
    Step closed fetch c s (.ok (page.hits.take c.want).head?
      ({ c.receive page with buffer := (page.hits.take c.want).tail }, s'))

/-- **A call of `next`** takes a step. -/
theorem step_next (closed : Bool) (fetch : FetchHits σ) (c : ResultCursor) (s : σ) :
    Step closed fetch c s (next closed fetch (c, s)) := by
  rw [next, Action.get_bind]
  cases hbuffer : c.buffer with
  | cons hit hits =>
    simp only [hbuffer, List.isEmpty_cons, Bool.false_and, Bool.false_eq_true, if_false]
    rw [pop_run, hbuffer]
    exact .buffered hbuffer
  | nil =>
    cases hfinished : c.finished with
    | true =>
      simp only [hbuffer, hfinished, List.isEmpty_nil, Bool.not_true, Bool.and_false,
        Bool.false_eq_true, if_false]
      have hsame : { c with buffer := c.buffer.tail } = c := by
        rw [hbuffer, List.tail_nil, ← hbuffer]
      rw [pop_run, hsame, hbuffer]
      exact .ended hbuffer hfinished
    | false =>
      simp only [hbuffer, hfinished, List.isEmpty_nil, Bool.not_false, Bool.and_self, if_true]
      cases closed with
      | true => exact .shut hbuffer hfinished rfl
      | false =>
        simp only [Bool.false_eq_true, if_false, Action.bind_run, Action.second, Action.focus]
        cases hfetch : fetch c.query c.offset c.want s with
        | error e s' => exact .refused hbuffer hfinished rfl hfetch
        | ok page s' =>
          have hpage : (c.receive page).buffer = page.hits.take c.want := by
            simp [receive, hbuffer]
          simp only [Action.modify_run]
          rw [pop_run, hpage]
          exact .paged hbuffer hfinished rfl hfetch

/-! ## Accounts -/

/-- A page has at least one hit, and a cursor that is not at its end has hits to ask for. -/
structure Coherent (c : ResultCursor) : Prop where
  pageSize : 0 < c.pageSize
  remaining : c.finished = false → 0 < c.remaining

theorem coherent_new (q : NativeQuery) (offset limit pageSize : Nat) :
    (new q offset limit pageSize).Coherent where
  pageSize := Nat.le_max_right pageSize 1
  remaining h := Nat.pos_of_ne_zero (by simpa [new] using h)

theorem remaining_receive (c : ResultCursor) (page : ResultSet) :
    (c.receive page).remaining + (page.hits.take c.want).length = c.remaining := by
  have hlength : (page.hits.take c.want).length ≤ c.remaining :=
    Nat.le_trans (List.length_take_le ..) (Nat.min_le_left ..)
  exact Nat.sub_add_cancel hlength

theorem Coherent.buffer (h : c.Coherent) (hits : List SearchHit) :
    ({ c with buffer := hits } : ResultCursor).Coherent := ⟨h.pageSize, h.remaining⟩

theorem receive_going (hgoing : c.finished = false) (page : ResultSet) :
    (c.receive page).finished = false ↔
      (page.hits.take c.want).length = c.want ∧ (page.hits.take c.want).length ≠ c.remaining := by
  have hlength := List.length_take_le c.want page.hits
  simp only [ResultCursor.receive, hgoing, Bool.false_or, Bool.or_eq_false_iff,
    decide_eq_false_iff_not, beq_eq_false_iff_ne]
  omega

theorem Coherent.receive (h : c.Coherent) (hgoing : c.finished = false) (page : ResultSet) :
    (c.receive page).Coherent := by
  have hremaining := remaining_receive c page
  refine ⟨h.pageSize, fun hc => ?_⟩
  have := ((receive_going hgoing page).1 hc).2
  omega

theorem Coherent.take_ne_nil (h : c.Coherent) (hgoing : c.finished = false) {page : ResultSet}
    (hc : (c.receive page).finished = false) : page.hits.take c.want ≠ [] := by
  have hwant : 0 < c.want := Nat.lt_min.2 ⟨h.remaining hgoing, h.pageSize⟩
  obtain ⟨hlength, -⟩ := (receive_going hgoing page).1 hc
  rw [← List.length_pos_iff]
  omega

/-- How a cursor stands that was opened for so many hits, after calls with these outcomes by which
these windows were asked for. -/
structure Accounts (limit : Nat) (outcomes : List (Except Error (Option SearchHit)))
    (c : ResultCursor) (asked : List (Nat × Nat)) : Prop where
  coherent : c.Coherent
  hits : (given outcomes).length + c.buffer.length + c.remaining = limit
  /-- As long as there may be another page, it is counted as if it had been asked for. -/
  asks : asked.length + (if c.finished then 0 else 1) ≤
    (given outcomes).length + failures outcomes + 1
  ended : .ok none ∈ outcomes → c.isFinished = true

theorem accounts_new (q : NativeQuery) (offset limit pageSize : Nat) :
    Accounts limit [] (new q offset limit pageSize) [] where
  coherent := coherent_new q offset limit pageSize
  hits := by simp [new, given]
  asks := by
    rw [List.length_nil]
    split <;> simp [given, failures]
  ended h := nomatch h

variable {limit : Nat} {outcomes : List (Except Error (Option SearchHit))}
  {asked asked' : List (Nat × Nat)} {q : NativeQuery} {offset n : Nat}

theorem noting_eq_ok {page : ResultSet} {x : List (Nat × Nat) × σ} :
    noting fetch q offset n (asked, s) = .ok page x ↔
      ∃ s', fetch q offset n s = .ok page s' ∧ x = (asked ++ [(offset, n)], s') := by
  simp only [noting, Action.bind_run, Action.modify_run, Action.second, Action.focus]
  cases fetch q offset n s <;> simp [eq_comm]

theorem noting_eq_error {e : Error} {x : List (Nat × Nat) × σ} :
    noting fetch q offset n (asked, s) = .error e x ↔
      ∃ s', fetch q offset n s = .error e s' ∧ x = (asked ++ [(offset, n)], s') := by
  simp only [noting, Action.bind_run, Action.modify_run, Action.second, Action.focus]
  cases fetch q offset n s <;> simp [eq_comm]

theorem Accounts.failed (h : Accounts limit outcomes c asked) (e : Error)
    (hasked : asked'.length ≤ asked.length + 1) :
    Accounts limit (outcomes ++ [.error e]) c asked' where
  coherent := h.coherent
  hits := by simpa using h.hits
  asks := by
    have hasks := h.asks
    simp only [Action.given_append, Action.given_error, Action.failures_append,
      Action.failures_error, List.append_nil]
    omega
  ended hmem := h.ended (by simpa using hmem)

/-- A page is paid for by the hit that it begins with, and is the last if it has none. -/
theorem Accounts.paged (h : Accounts limit outcomes c asked) (hbuffer : c.buffer = [])
    (hgoing : c.finished = false) (page : ResultSet) :
    Accounts limit (outcomes ++ [.ok (page.hits.take c.want).head?])
      { c.receive page with buffer := (page.hits.take c.want).tail }
      (asked ++ [(c.offset, c.want)]) := by
  have hcoherent := (h.coherent.receive hgoing page).buffer (page.hits.take c.want).tail
  have hremaining := remaining_receive c page
  have hhits := h.hits
  have hasks := h.asks
  have hnone : .ok none ∉ outcomes := fun hmem => by
    simpa [isFinished, hgoing] using h.ended hmem
  rw [hbuffer, List.length_nil, Nat.add_zero] at hhits
  rw [hgoing, if_neg Bool.false_ne_true] at hasks
  cases htake : page.hits.take c.want with
  | nil =>
    have hfinished : (c.receive page).finished = true := by
      by_contra hc
      exact h.coherent.take_ne_nil hgoing (Bool.eq_false_iff.2 hc) htake
    rw [htake] at hcoherent hremaining
    refine ⟨hcoherent, ?_, ?_, fun _ => by simp [isFinished, hfinished]⟩
    · simp at hremaining ⊢
      omega
    · simp [hfinished]
      omega
  | cons hit hits =>
    rw [htake] at hcoherent hremaining
    refine ⟨hcoherent, ?_, ?_, fun hmem => by simp [hnone] at hmem⟩
    · simp at hremaining ⊢
      omega
    · simp
      split <;> omega

/-- **Each call keeps the accounts.** -/
theorem Accounts.call (h : Accounts limit outcomes c asked) (closed : Bool) :
    Accounts limit (outcomes ++ [(next closed (noting fetch)).outcome (c, asked, s)])
      ((next closed (noting fetch)).after (c, asked, s)).1
      ((next closed (noting fetch)).after (c, asked, s)).2.1 := by
  have hstep := step_next closed (noting fetch) c (asked, s)
  rw [Action.outcome, Action.after]
  generalize next closed (noting fetch) (c, asked, s) = r at hstep ⊢
  cases hstep with
  | @buffered _ hits hbuffer =>
    have hhits := h.hits
    have hasks := h.asks
    have hnone : .ok none ∉ outcomes := fun hmem => by
      simpa [isFinished, hbuffer] using h.ended hmem
    refine ⟨h.coherent.buffer hits, ?_, ?_, fun hmem => by simp [hnone] at hmem⟩
    · simp [hbuffer] at hhits ⊢
      omega
    · simp
      omega
  | ended hbuffer hfinished =>
    exact ⟨h.coherent, by simpa using h.hits, by simpa using h.asks,
      fun _ => by simp [isFinished, hbuffer, hfinished]⟩
  | shut hbuffer hgoing hclosed => exact h.failed _ (Nat.le_succ _)
  | refused hbuffer hgoing hopen hfetch =>
    obtain ⟨s', -, rfl⟩ := noting_eq_error.1 hfetch
    exact h.failed _ (by simp)
  | paged hbuffer hgoing hopen hfetch =>
    obtain ⟨s', -, rfl⟩ := noting_eq_ok.1 hfetch
    exact h.paged hbuffer hgoing _

/-! ## Runs -/

/-- Calls of `next`, where the windows are noted that are asked for. -/
def follow (fetch : FetchHits σ) :
    List Bool → ResultCursor × List (Nat × Nat) × σ →
      List (Except Error (Option SearchHit)) × ResultCursor × List (Nat × Nat) × σ :=
  calls fun closed => next closed (noting fetch)

variable {x y : ResultCursor × List (Nat × Nat) × σ} {hits : List SearchHit}

/-- **All calls keep the accounts.** -/
theorem Accounts.follow (h : Accounts limit outcomes x.1 x.2.1) (fetch : FetchHits σ)
    (closings : List Bool) :
    Accounts limit (outcomes ++ (follow fetch closings x).1) (follow fetch closings x).2.1
      (follow fetch closings x).2.2.1 :=
  Action.calls_invariant
    (P := fun outcomes (x : ResultCursor × List (Nat × Nat) × σ) =>
      Accounts limit outcomes x.1 x.2.1)
    (fun _ _ closed h => h.call closed) h closings

/-- What is drained off a cursor are calls that give hits, and then one that gives none unless there
were as many hits as were wanted. -/
theorem follow_of_drain (hdrain : drain closed (noting fetch) n x = .ok hits y) :
    hits.length ≤ n ∧ ∃ k, follow fetch (List.replicate k closed) x =
      (hits.map (fun hit => .ok (some hit)) ++ if hits.length < n then [.ok none] else [], y) := by
  induction n generalizing x hits with
  | zero =>
    cases hdrain
    exact ⟨Nat.le_refl 0, 0, rfl⟩
  | succ n ih =>
    rw [drain] at hdrain
    obtain ⟨o, t, hnext, hdrain⟩ := Action.bind_eq_ok.1 hdrain
    cases o with
    | none =>
      cases hdrain
      refine ⟨Nat.zero_le _, 1, ?_⟩
      simp [follow, calls, Action.outcome, Action.after, hnext]
    | some hit =>
      obtain ⟨rest, t', hrest, hdrain⟩ := Action.bind_eq_ok.1 hdrain
      cases hdrain
      obtain ⟨hlength, k, hk⟩ := ih hrest
      refine ⟨Nat.succ_le_succ hlength, k + 1, ?_⟩
      rw [follow] at hk ⊢
      rw [List.replicate_succ, calls, Action.outcome, Action.after, hnext]
      dsimp only
      rw [hk]
      simp

theorem calls_of_isFinished (h : c.isFinished = true) (fetch : FetchHits σ) (s : σ)
    (closings : List Bool) :
    calls (fun closed => next closed fetch) closings (c, s) =
      (closings.map fun _ => .ok none, (c, s)) := by
  rw [isFinished, Bool.and_eq_true, List.isEmpty_iff] at h
  refine Action.calls_of_same fun closed _ => ?_
  have hstep := step_next closed fetch c s
  rw [Action.outcome, Action.after]
  generalize next closed fetch (c, s) = r at hstep ⊢
  cases hstep <;> simp_all

theorem follow_closed (h : x.1.isFinished = false) (hbuffer : x.1.buffer = []) (n : Nat) :
    follow fetch (List.replicate n true) x = (List.replicate n (.error .clientClosed), x) := by
  obtain ⟨c, asked, s⟩ := x
  dsimp only at h hbuffer
  have hgoing : c.finished = false := by simpa [isFinished, hbuffer] using h
  have hnext : next true (noting fetch) (c, asked, s) = .error .clientClosed (c, asked, s) := by
    have hstep := step_next true (noting fetch) c (asked, s)
    generalize next true (noting fetch) (c, asked, s) = r at hstep ⊢
    cases hstep <;> simp_all
  have hsame : calls (fun closed => next closed (noting fetch)) (List.replicate n true)
      (c, asked, s) = ((List.replicate n true).map fun _ => .error .clientClosed, (c, asked, s)) := by
    refine Action.calls_of_same fun closed hmem => ?_
    rw [List.eq_of_mem_replicate hmem, Action.outcome, Action.after, hnext]
    exact ⟨rfl, rfl⟩
  rwa [List.map_replicate] at hsame

/-- A cursor that is not at its end either has a hit or asks for a page at the next call. -/
theorem follow_of_going (fetch : FetchHits σ) (h : x.1.isFinished = false) :
    (∃ hit, given (follow fetch [false] x).1 = [hit] ∧ (follow fetch [false] x).2.2.1 = x.2.1) ∨
      (follow fetch [false] x).2.2.1 = x.2.1 ++ [(x.1.offset, x.1.want)] := by
  obtain ⟨c, asked, s⟩ := x
  have hstep := step_next false (noting fetch) c (asked, s)
  simp only [follow, calls, Action.outcome, Action.after]
  generalize next false (noting fetch) (c, asked, s) = r at hstep ⊢
  cases hstep with
  | buffered hbuffer => exact .inl ⟨_, rfl, rfl⟩
  | ended hbuffer hfinished => simp [isFinished, hbuffer, hfinished] at h
  | shut hbuffer hgoing hclosed => cases hclosed
  | refused hbuffer hgoing hopen hfetch =>
    obtain ⟨s', -, rfl⟩ := noting_eq_error.1 hfetch
    exact .inr rfl
  | paged hbuffer hgoing hopen hfetch =>
    obtain ⟨s', -, rfl⟩ := noting_eq_ok.1 hfetch
    exact .inr rfl

/-- A cursor is at its end exactly when no more hits come before another page is asked for, and none
will be. -/
theorem isFinished_iff :
    x.1.isFinished = true ↔
      (∀ closings, (follow fetch closings x).2.2.1 = x.2.1 →
        given (follow fetch closings x).1 = []) ∧
      ∀ closings, (follow fetch closings x).2.2.1 = x.2.1 := by
  constructor
  · intro h
    have hrun closings : follow fetch closings x = (closings.map fun _ => .ok none, x) :=
      calls_of_isFinished h (noting fetch) x.2 closings
    refine ⟨fun closings _ => ?_, fun closings => by rw [hrun]⟩
    rw [hrun]
    simp [given, Except.toOption]
  · rintro ⟨hgiven, hasked⟩
    by_contra h
    rcases follow_of_going fetch (Bool.eq_false_iff.2 h) with ⟨hit, hhit, -⟩ | hask
    · rw [hgiven [false] (hasked _)] at hhit
      cases hhit
    · rw [hasked] at hask
      simp at hask

/-! ## Safety -/

/-- What holds of a cursor that was opened for so many hits, after calls with these outcomes. -/
structure Safe (limit : Nat) (fetch : FetchHits σ)
    (outcomes : List (Except Error (Option SearchHit)))
    (x : ResultCursor × List (Nat × Nat) × σ) : Prop where
  /-- Every hit was given, waits in the cursor or is still to be asked for. -/
  hits : (given outcomes).length + x.1.buffer.length + x.1.remaining = limit
  /-- A page is asked for at most once for each hit, once for each failure and once more. -/
  asks : x.2.1.length ≤ (given outcomes).length + failures outcomes + 1
  /-- No more is taken of a page than was asked for, nor than is still to be given. -/
  cut : x.1.buffer = [] → x.1.finished = false →
    ∀ page s', fetch x.1.query x.1.offset x.1.want x.2.2 = .ok page s' →
      ∃ c', next false fetch (x.1, x.2.2) = .ok (page.hits.take x.1.want).head? (c', s') ∧
        c'.buffer = (page.hits.take x.1.want).tail ∧
        c'.remaining + (page.hits.take x.1.want).length = x.1.remaining
  /-- Once it gave none it gives none, and it does so without a driver. -/
  ended : .ok none ∈ outcomes → ∀ {τ : Type} (fetch' : FetchHits τ) (t : τ) (closings : List Bool),
    calls (fun closed => next closed fetch') closings (x.1, t) =
      (closings.map fun _ => .ok none, (x.1, t))
  /-- It is at its end exactly when no more hits come before another page is asked for, and none
  will be. -/
  finished : x.1.isFinished = true ↔
    (∀ closings, (follow fetch closings x).2.2.1 = x.2.1 →
      given (follow fetch closings x).1 = []) ∧
    ∀ closings, (follow fetch closings x).2.2.1 = x.2.1
  /-- Before that, a client that is closed keeps it from asking, and it stays as it is. -/
  shut : x.1.isFinished = false → x.1.buffer = [] → ∀ n,
    follow fetch (List.replicate n true) x = (List.replicate n (.error .clientClosed), x)
  /-- Drained without failing, it comes to its end. -/
  drained : ∀ closed hits y, collectAll closed (noting fetch) x = .ok hits y →
    (given outcomes).length + hits.length ≤ limit ∧
    y.2.1.length ≤ (given outcomes).length + hits.length + failures outcomes + 1 ∧
    y.1.isFinished = true

theorem next_cut (hbuffer : c.buffer = []) (hgoing : c.finished = false) {page : ResultSet}
    (hfetch : fetch c.query c.offset c.want s = .ok page s') :
    ∃ c', next false fetch (c, s) = .ok (page.hits.take c.want).head? (c', s') ∧
      c'.buffer = (page.hits.take c.want).tail ∧
      c'.remaining + (page.hits.take c.want).length = c.remaining := by
  have hstep := step_next false fetch c s
  generalize next false fetch (c, s) = r at hstep ⊢
  cases hstep with
  | buffered hb => simp [hbuffer] at hb
  | ended _ hfinished => simp [hgoing] at hfinished
  | shut _ _ hclosed => cases hclosed
  | refused _ _ _ hrun => simp [hfetch] at hrun
  | paged _ _ _ hrun =>
    cases hfetch.symm.trans hrun
    exact ⟨_, rfl, rfl, remaining_receive c page⟩

theorem Coherent.isFinished (h : c.Coherent) (hnone : c.buffer.length + c.remaining = 0) :
    c.isFinished = true := by
  obtain ⟨hbuffer, hremaining⟩ := Nat.add_eq_zero_iff.1 hnone
  have hfinished : c.finished = true := by
    by_contra hgoing
    have := h.remaining (Bool.eq_false_iff.2 hgoing)
    omega
  simp [ResultCursor.isFinished, hfinished, List.length_eq_zero_iff.1 hbuffer]

theorem Accounts.drained (h : Accounts limit outcomes x.1 x.2.1)
    (hrun : collectAll closed (noting fetch) x = .ok hits y) :
    (given outcomes).length + hits.length ≤ limit ∧
      y.2.1.length ≤ (given outcomes).length + hits.length + failures outcomes + 1 ∧
      y.1.isFinished = true := by
  rw [collectAll, Action.get_bind] at hrun
  obtain ⟨hlength, k, hk⟩ := follow_of_drain hrun
  have hy := h.follow fetch (List.replicate k closed)
  rw [hk] at hy
  have hbefore := h.hits
  have hhits := hy.hits
  have hasks := hy.asks
  by_cases hlast : hits.length < x.1.buffer.length + x.1.remaining
  · simp [hlast] at hhits hasks
    exact ⟨by omega, by omega, hy.ended (by simp [hlast])⟩
  · -- As many hits as were wanted leave nothing to ask for.
    simp [hlast] at hhits hasks
    exact ⟨by omega, by omega, hy.coherent.isFinished (by dsimp only; omega)⟩

/-- **A cursor is safe with any driver**, however it answers and fails, and however often the client
is open or closed when `next` is called. -/
theorem safe_with_any_driver (fetch : FetchHits σ) (q : NativeQuery) (offset limit pageSize : Nat)
    (s : σ) (closings : List Bool) :
    Safe limit fetch (follow fetch closings (new q offset limit pageSize, [], s)).1
      (follow fetch closings (new q offset limit pageSize, [], s)).2 := by
  have h := (accounts_new q offset limit pageSize).follow
    (x := (new q offset limit pageSize, [], s)) fetch closings
  generalize follow fetch closings (new q offset limit pageSize, [], s) = run at h ⊢
  obtain ⟨outcomes, c, asked, s'⟩ := run
  exact
    { hits := h.hits
      asks := by
        have := h.asks
        simp at this ⊢
        omega
      cut hbuffer hgoing page s' hfetch := next_cut hbuffer hgoing hfetch
      ended hmem := fun fetch' t closings => calls_of_isFinished (h.ended hmem) fetch' t closings
      finished := isFinished_iff
      shut hgoing hbuffer n := follow_closed hgoing hbuffer n
      drained closed hits y hrun := h.drained hrun }

def single : FetchHits Unit := fun _ _ _ => pure ⟨[⟨"1", .ofNat 1, ⟨[]⟩⟩], some 1⟩

def onSingle : ResultCursor × List (Nat × Nat) × Unit :=
  (new ⟨"memory", .tokens (.field "title" ["boat"])⟩ 0 5 1, [], ())

/-- With a client that is closed, the cursor gives no hits and asks for no pages any more; as its hit
was not given, it is not at its end all the same. -/
theorem not_isFinished_of_closed :
    ¬(onSingle.1.isFinished = true ↔
      (∀ n, (follow single (List.replicate n true) onSingle).2.2.1 = onSingle.2.1 →
        given (follow single (List.replicate n true) onSingle).1 = []) ∧
      ∀ n, (follow single (List.replicate n true) onSingle).2.2.1 = onSingle.2.1) := by
  intro h
  have hclosed n : follow single (List.replicate n true) onSingle =
      (List.replicate n (.error .clientClosed), onSingle) := follow_closed rfl rfl n
  have hfinished := h.2
    ⟨fun n _ => by rw [hclosed]; simp [given, Except.toOption], fun n => by rw [hclosed]⟩
  cases hfinished

end ResultCursor

end Searchlight
