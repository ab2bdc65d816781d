import Searchlight.Proofs.Client.Calls
import Searchlight.Proofs.Client.Listing

/-!
# What a failed call loses

A driver may fail at any call and answer the next one. A cursor on hits asks for a page before it
takes anything up, so that a call that fails leaves it as it was (`next_eq_error_iff`), and the calls
that succeed give together what was before it (`Stage.calls`). A cursor on documents takes an id up
before it loads the document: a call that fails to list loses nothing, but one that fails to load
loses the document for good (`Step`). So what calls give and what is still to come then are the
documents that were to come, in order, but for those that failed to load (`failures_lose_iff`).
-/

namespace Searchlight

open Searchlight.Action (calls given)

variable {σ : Type}

/-! ## Hits -/

namespace ResultCursor

variable {fetch : FetchHits σ} {closed : Bool} {c c' : ResultCursor} {s : σ}
  {x : ResultCursor × σ} {e : Error} {q : NativeQuery} {ranked left : List SearchHit} {I : σ → Prop}
  {offset limit size : Nat} {asked : List (Nat × Nat)}

/-- **A call of `next` fails** when there may be more hits and the client is closed or the driver
does not answer, and leaves the cursor as it was. -/
theorem next_eq_error_iff :
    next closed fetch (c, s) = .error e x ↔
      c.buffer = [] ∧ c.finished = false ∧
        if closed then e = .clientClosed ∧ x = (c, s)
        else ∃ s', fetch c.query c.offset c.want s = .error e s' ∧ x = (c, s') := by
  have hstep := step_next closed fetch c s
  generalize next closed fetch (c, s) = r at hstep ⊢
  cases hstep with
  | buffered hbuffer => simp [hbuffer]
  | ended hbuffer hfinished => simp [hfinished]
  | shut hbuffer hgoing hclosed => simp [hbuffer, hgoing, hclosed, eq_comm]
  | refused hbuffer hgoing hopen hfetch =>
    simp only [hbuffer, hgoing, hopen, hfetch, EStateM.Result.error.injEq, true_and,
      Bool.false_eq_true, if_false]
    constructor
    · rintro ⟨rfl, rfl⟩
      exact ⟨_, ⟨rfl, rfl⟩, rfl⟩
    · rintro ⟨_, ⟨rfl, rfl⟩, rfl⟩
      exact ⟨rfl, rfl⟩
  | paged hbuffer hgoing hopen hfetch => simp [hopen, hfetch]

/-- A query is answered, where it is, with windows of one ranked list, from every state that `I`
holds of and that fetching leads to from there. -/
def MayRank (fetch : FetchHits σ) (I : σ → Prop) (q : NativeQuery) (ranked : List SearchHit) :
    Prop :=
  ∀ offset limit, Action.Keeps I (fetch q offset limit) fun page =>
    page.hits = (ranked.drop offset).take limit

/-- The hits that a cursor has not given yet, when these are the ranked ones. -/
def toCome (ranked : List SearchHit) (c : ResultCursor) : List SearchHit :=
  c.buffer ++ if c.finished then [] else (ranked.drop c.offset).take c.remaining

theorem Coherent.stage (h : c.Coherent) (ranked : List SearchHit) :
    Stage c.query ranked c.offset c.remaining c.pageSize [] (c.toCome ranked) c where
  query := rfl
  pageSize := rfl
  pos := h.pageSize
  paged := .nil
  left := by simp [toCome]
  going hgoing := by simpa using h.remaining hgoing

theorem Stage.left_eq_toCome (h : Stage q ranked offset limit size asked left c) :
    left = c.toCome ranked := by
  rw [h.left, toCome]
  cases hc : c.finished with
  | true => rfl
  | false =>
    obtain ⟨hoffset, hremaining, -⟩ := h.going hc
    rw [if_neg Bool.false_ne_true, if_neg Bool.false_ne_true, List.drop_take, List.drop_drop,
      ← hoffset, ← hremaining, Nat.add_sub_cancel]

/-- A call gives the next hit that is left, or leaves them all. -/
theorem Stage.call (hfetch : MayRank fetch I q ranked)
    (h : Stage q ranked offset limit size asked left c) (hs : I s) (closed : Bool) :
    ∃ asked' left', Stage q ranked offset limit size asked' left'
        ((next closed fetch).after (c, s)).1 ∧
      I ((next closed fetch).after (c, s)).2 ∧
      given [(next closed fetch).outcome (c, s)] ++ left' = left ∧
      ((next closed fetch).outcome (c, s) = .ok none → left' = []) := by
  have hstep := step_next closed fetch c s
  rw [Action.outcome, Action.after]
  generalize next closed fetch (c, s) = r at hstep ⊢
  have hpopped : given [.ok left.head?] ++ left.tail = left := by
    rw [Action.given_ok]
    cases left <;> rfl
  cases hstep with
  | buffered hbuffer =>
    obtain ⟨hhead, hstage⟩ := h.pop (by simp [hbuffer])
    rw [hhead, hbuffer] at hpopped
    rw [hbuffer] at hstage
    exact ⟨asked, left.tail, hstage, hs, hpopped, fun hnone => by cases hnone⟩
  | ended hbuffer hfinished =>
    have hleft : left = [] := by simp [h.left, hbuffer, hfinished]
    exact ⟨asked, left, h, hs, rfl, fun _ => hleft⟩
  | shut hbuffer hgoing hclosed =>
    exact ⟨asked, left, h, hs, rfl, fun hnone => by cases hnone⟩
  | refused hbuffer hgoing hopen hrun =>
    rw [h.query] at hrun
    exact ⟨asked, left, h, (hfetch _ _).of_error hs hrun, rfl, fun hnone => by cases hnone⟩
  | @paged page _ hbuffer hgoing hopen hrun =>
    rw [h.query] at hrun
    obtain ⟨hs', hhits⟩ := (hfetch _ _).of_ok hs hrun
    obtain ⟨hits, total⟩ := page
    dsimp only at hhits
    subst hhits
    obtain ⟨hreceived, hempty⟩ := h.receive hbuffer hgoing total
    obtain ⟨hhead, hstage⟩ := hreceived.pop hempty
    have hbuffered : (c.receive ⟨(ranked.drop c.offset).take c.want, total⟩).buffer =
        ((ranked.drop c.offset).take c.want).take c.want := by
      simp [ResultCursor.receive, hbuffer]
    rw [hbuffered] at hhead hstage
    rw [hhead] at hpopped
    refine ⟨_, left.tail, hstage, hs', hpopped, fun hnone => ?_⟩
    have hnil : left.head? = none := by
      rw [hhead]
      exact Option.some.inj (congrArg Except.toOption hnone)
    rw [List.head?_eq_none_iff.1 hnil, List.tail_nil]

/-- **Calls give what is to come**, however many of them fail: what they gave and what is left make
up what was left before. -/
theorem Stage.calls (hfetch : MayRank fetch I q ranked)
    (h : Stage q ranked offset limit size asked left c) (hs : I s) (closings : List Bool) :
    ∃ asked' left', Stage q ranked offset limit size asked' left'
        (calls (fun closed => next closed fetch) closings (c, s)).2.1 ∧
      I (calls (fun closed => next closed fetch) closings (c, s)).2.2 ∧
      given (calls (fun closed => next closed fetch) closings (c, s)).1 ++ left' = left ∧
      (.ok none ∈ (calls (fun closed => next closed fetch) closings (c, s)).1 → left' = []) := by
  refine Action.calls_induction (s := (c, s))
    (P := fun outcomes (x : ResultCursor × σ) => ∃ asked' left',
      Stage q ranked offset limit size asked' left' x.1 ∧ I x.2 ∧ given outcomes ++ left' = left ∧
        (.ok none ∈ outcomes → left' = []))
    ?_ ⟨asked, left, h, hs, rfl, fun hmem => by cases hmem⟩ closings
  rintro outcomes ⟨c', s'⟩ closed ⟨asked', left', h', hs', hgiven, hended⟩
  obtain ⟨asked'', left'', h'', hs'', hcall, hnone⟩ := h'.call hfetch hs' closed
  refine ⟨asked'', left'', h'', hs'', ?_, fun hmem => ?_⟩
  · rw [Action.given_append, List.append_assoc, hcall, hgiven]
  · rcases List.mem_append.1 hmem with hmem | hmem
    · rw [hended hmem] at hcall
      exact (List.append_eq_nil_iff.1 hcall).2
    · exact hnone (List.mem_singleton.1 hmem).symm

end ResultCursor

/-! ## Documents -/

/-- A call of a driver that failed: the id to be loaded, if it was not a listing, and how. -/
structure Failure where
  id? : Option String
  error : Error

def DocumentSource.noting (source : DocumentSource σ) : DocumentSource (List Failure × σ) where
  list offset limit := noted none (source.list offset limit)
  load id := noted (some id) (source.load id)
where
  noted {α : Type} (id? : Option String) (x : Action σ α) : Action (List Failure × σ) α :=
    tryCatch (Action.second x) fun e => do
      modify fun (failures, s) => (failures ++ [⟨id?, e⟩], s)
      throw e

namespace DocumentCursor

variable {source : DocumentSource σ} {shelf : String → Option StoredDocument}
  {listed : List String} {I : σ → Prop} {closed : Bool} {c c' : DocumentCursor} {s : σ}
  {failures : List Failure} {turns : Nat}

/-- A source that may fail, but where it answers lists these ids and loads these documents, from
every state that `I` holds of and that it leads to from there. -/
structure MayServe (source : DocumentSource σ) (I : σ → Prop) (listed : List String)
    (shelf : String → Option StoredDocument) : Prop where
  list : ∀ offset limit, Action.Keeps I (source.list offset limit)
    (· = (listed.drop offset).take limit)
  load : ∀ id, Action.Keeps I (source.load id) (· = shelf id)

def toCome (listed : List String) (shelf : String → Option StoredDocument) (c : DocumentCursor) :
    List StoredDocument :=
  (c.rest listed).filterMap shelf

theorem toCome_of_isUsedUp (h : c.isUsedUp = true) : c.toCome listed shelf = [] := by
  rw [toCome, rest_of_isUsedUp h, List.filterMap_nil]

/-- The documents that failed to load. -/
def lost (shelf : String → Option StoredDocument) (failures : List Failure) :
    List StoredDocument :=
  (failures.filterMap (·.id?)).filterMap shelf

@[simp] theorem lost_append (failures failures' : List Failure) :
    lost shelf (failures ++ failures') = lost shelf failures ++ lost shelf failures' := by
  simp [lost]

@[simp] theorem lost_listing (e : Error) : lost shelf [⟨none, e⟩] = [] := rfl

@[simp] theorem lost_loading (id : String) (e : Error) :
    lost shelf [⟨some id, e⟩] = (shelf id).toList := by
  simp only [lost, List.filterMap_cons, List.filterMap_nil]
  cases shelf id <;> rfl

/-- A cursor and a source that a call finds its document with in so many turns. -/
structure Ready (I : σ → Prop) (listed : List String) (turns : Nat) (c : DocumentCursor) (s : σ) :
    Prop where
  state : I s
  pageSize : 0 < c.pageSize
  turns : c.work listed < turns

/-- What becomes of a call of `next`, when so many calls of the driver failed before. -/
inductive Step (listed : List String) (shelf : String → Option StoredDocument)
    (Q : DocumentCursor → σ → Prop) (closed : Bool) (c : DocumentCursor) (failures : List Failure)
    (s : σ) :
    EStateM.Result Error (DocumentCursor × List Failure × σ) (Option StoredDocument) → Prop where
  /-- The first document that is to come. -/
  | gave {d : StoredDocument} {c' : DocumentCursor} {s' : σ} (hopen : closed = false) (hc' : Q c' s')
      (htoCome : c.toCome listed shelf = d :: c'.toCome listed shelf) :
    Step listed shelf Q closed c failures s (.ok (some d) (c', failures, s'))
  | ended {c' : DocumentCursor} {s' : σ} (hopen : closed = false) (hc' : Q c' s')
      (htoCome : c.toCome listed shelf = []) (husedUp : c'.isUsedUp = true) :
    Step listed shelf Q closed c failures s (.ok none (c', failures, s'))
  | shut (hclosed : closed = true) :
    Step listed shelf Q closed c failures s (.error .clientClosed (c, failures, s))
  /-- A listing that fails takes nothing from what is to come. -/
  | unlisted {e : Error} {c' : DocumentCursor} {s' : σ} (hopen : closed = false) (hc' : Q c' s')
      (htoCome : c'.toCome listed shelf = c.toCome listed shelf) :
    Step listed shelf Q closed c failures s (.error e (c', failures ++ [⟨none, e⟩], s'))
  /-- A document that fails to load is to come no more. -/
  | unloaded {id : String} {e : Error} {c' : DocumentCursor} {s' : σ} (hopen : closed = false)
      (hc' : Q c' s')
      (htoCome : c.toCome listed shelf = (shelf id).toList ++ c'.toCome listed shelf) :
    Step listed shelf Q closed c failures s (.error e (c', failures ++ [⟨some id, e⟩], s'))

theorem noted_run {α : Type} {id? : Option String} {x : Action σ α} :
    DocumentSource.noting.noted id? x (failures, s) =
      match x s with
      | .ok a s' => .ok a (failures, s')
      | .error e s' => .error e (failures ++ [⟨id?, e⟩], s') := by
  rw [DocumentSource.noting.noted, Action.tryCatch_run, Action.second, Action.focus]
  cases x s <;> rfl

theorem load_noting {id : String} :
    source.noting.load id (failures, s) =
      match source.load id s with
      | .ok o s' => .ok o (failures, s')
      | .error e s' => .error e (failures ++ [⟨some id, e⟩], s') := by
  simp only [DocumentSource.noting, noted_run]
  cases source.load id s <;> rfl

theorem list_noting {offset limit : Nat} :
    source.noting.list offset limit (failures, s) =
      match source.list offset limit s with
      | .ok ids s' => .ok ids (failures, s')
      | .error e s' => .error e (failures ++ [⟨none, e⟩], s') := by
  simp only [DocumentSource.noting, noted_run]
  cases source.list offset limit s <;> rfl

theorem next_noting (source : DocumentSource σ) (closed : Bool) (turns : Nat) (c : DocumentCursor)
    (failures : List Failure) (s : σ) :
    ∃ failures', (next closed source.noting turns).outcome (c, failures, s) =
        (next closed source turns).outcome (c, s) ∧
      (next closed source.noting turns).after (c, failures, s) =
        (((next closed source turns).after (c, s)).1, failures',
          ((next closed source turns).after (c, s)).2) := by
  induction turns generalizing c s with
  | zero => exact ⟨failures, rfl, rfl⟩
  | succ turns ih =>
    simp only [Action.outcome, Action.after] at ih ⊢
    cases closed with
    | true => exact ⟨failures, rfl, rfl⟩
    | false =>
      cases hbuffer : c.buffer with
      | cons id ids =>
        rw [next_load hbuffer, next_load hbuffer, load_noting]
        rcases source.load id s with ⟨_ | d, s'⟩ | ⟨e, s'⟩
        · exact ih { c with buffer := ids } s'
        · exact ⟨failures, rfl, rfl⟩
        · exact ⟨_, rfl, rfl⟩
      | nil =>
        cases hfinished : c.finished with
        | true =>
          have husedUp : c.isUsedUp = true := by simp [isUsedUp, hbuffer, hfinished]
          rw [next_of_isUsedUp husedUp, next_of_isUsedUp husedUp]
          exact ⟨failures, rfl, rfl⟩
        | false =>
          rw [next_list hbuffer hfinished, next_list hbuffer hfinished, list_noting]
          rcases source.list c.offset c.pageSize s with ⟨page, s'⟩ | ⟨e, s'⟩
          · exact ih (c.receive page) s'
          · exact ⟨_, rfl, rfl⟩

theorem calls_noting (source : DocumentSource σ) (turns : Nat) (closings : List Bool)
    (c : DocumentCursor) (failures : List Failure) (s : σ) :
    ∃ failures', calls (fun closed => next closed source.noting turns) closings (c, failures, s) =
      ((calls (fun closed => next closed source turns) closings (c, s)).1,
        (calls (fun closed => next closed source turns) closings (c, s)).2.1, failures',
        (calls (fun closed => next closed source turns) closings (c, s)).2.2) := by
  induction closings generalizing c failures s with
  | nil => exact ⟨failures, rfl⟩
  | cons closed closings ih =>
    obtain ⟨failures', houtcome, hafter⟩ := next_noting source closed turns c failures s
    obtain ⟨failures'', hrest⟩ := ih ((next closed source turns).after (c, s)).1 failures'
      ((next closed source turns).after (c, s)).2
    refine ⟨failures'', ?_⟩
    rw [calls, calls, houtcome, hafter, hrest]

/-- A call of a cursor with as much to come becomes the same. -/
theorem Step.congr {Q : DocumentCursor → σ → Prop}
    {r : EStateM.Result Error (DocumentCursor × List Failure × σ) (Option StoredDocument)} {t : σ}
    (h : Step listed shelf Q false c' failures t r)
    (htoCome : c'.toCome listed shelf = c.toCome listed shelf) :
    Step listed shelf Q false c failures s r := by
  cases h with
  | gave hopen hc' h => exact .gave hopen hc' (htoCome ▸ h)
  | ended hopen hc' h husedUp => exact .ended hopen hc' (htoCome ▸ h) husedUp
  | shut hclosed => cases hclosed
  | unlisted hopen hc' h => exact .unlisted hopen hc' (h.trans htoCome)
  | unloaded hopen hc' h => exact .unloaded hopen hc' (htoCome ▸ h)

theorem Ready.mono {more : Nat} (h : Ready I listed turns c s) (hmore : turns ≤ more) :
    Ready I listed more c s := ⟨h.state, h.pageSize, Nat.lt_of_lt_of_le h.turns hmore⟩

/-- **A call of `next`** takes a step. -/
theorem step_next (hsource : MayServe source I listed shelf) (h : Ready I listed turns c s)
    {more : Nat} (hmore : turns ≤ more) (closed : Bool) (failures : List Failure) :
    Step listed shelf (Ready I listed more) closed c failures s
      (next closed source.noting turns (c, failures, s)) := by
  induction turns generalizing c s with
  | zero => exact absurd h.turns (Nat.not_lt_zero _)
  | succ turns ih =>
    cases closed with
    | true => exact .shut rfl
    | false =>
      cases hbuffer : c.buffer with
      | cons id ids =>
        have htoCome : c.toCome listed shelf = (shelf id).toList ++
            ({ c with buffer := ids } : DocumentCursor).toCome listed shelf := by
          simp only [toCome, rest, hbuffer, List.cons_append, List.filterMap_cons]
          cases shelf id <;> rfl
        have hready {s' : σ} (hs' : I s') : Ready I listed turns { c with buffer := ids } s' := by
          refine ⟨hs', h.pageSize, ?_⟩
          have := h.turns
          simp only [work, hbuffer, List.length_cons] at this ⊢
          omega
        rw [next_load hbuffer, load_noting]
        cases hload : source.load id s with
        | error e s' =>
          have hs' := (hsource.load id).of_error h.state hload
          exact .unloaded rfl ((hready hs').mono (by omega)) htoCome
        | ok o s' =>
          obtain ⟨hs', rfl⟩ := (hsource.load id).of_ok h.state hload
          cases hshelf : shelf id with
          | some d =>
            rw [hshelf] at htoCome
            exact .gave rfl ((hready hs').mono (by omega)) htoCome
          | none =>
            -- A document that is gone was not to come, and the call goes on.
            rw [hshelf] at htoCome
            exact (ih (hready hs') (by omega)).congr htoCome.symm
      | nil =>
        cases hfinished : c.finished with
        | true =>
          have husedUp : c.isUsedUp = true := by simp [isUsedUp, hbuffer, hfinished]
          rw [next_of_isUsedUp husedUp]
          exact .ended rfl (h.mono hmore) (toCome_of_isUsedUp husedUp) husedUp
        | false =>
          obtain ⟨hrest, hwork⟩ := receive_page listed hfinished h.pageSize hbuffer
          rw [next_list hbuffer hfinished, list_noting]
          cases hlist : source.list c.offset c.pageSize s with
          | error e s' =>
            have hs' := (hsource.list _ _).of_error h.state hlist
            exact .unlisted rfl ⟨hs', h.pageSize, Nat.lt_of_lt_of_le h.turns hmore⟩ rfl
          | ok page s' =>
            obtain ⟨hs', rfl⟩ := (hsource.list _ _).of_ok h.state hlist
            have hready : Ready I listed turns
                (c.receive ((listed.drop c.offset).take c.pageSize)) s' :=
              ⟨hs', h.pageSize, by have := h.turns; omega⟩
            exact (ih hready (by omega)).congr (congrArg (List.filterMap shelf) hrest)

/-- What became of the documents that were to come, after calls with these outcomes and these
failures of the driver. -/
structure Shared (listed : List String) (shelf : String → Option StoredDocument)
    (before : List StoredDocument) (outcomes : List (Except Error (Option StoredDocument)))
    (c : DocumentCursor) (failures : List Failure) : Prop where
  /-- None is given twice or out of order. -/
  inOrder : (given outcomes ++ c.toCome listed shelf).Sublist before
  /-- Each was given, is lost or is still to come. -/
  all : (given outcomes ++ lost shelf failures ++ c.toCome listed shelf).Perm before
  ended : .ok none ∈ outcomes → c.toCome listed shelf = []

variable {before : List StoredDocument} {outcomes : List (Except Error (Option StoredDocument))}

theorem Shared.step {Q : DocumentCursor → σ → Prop}
    (h : Shared listed shelf before outcomes c failures)
    {x : Action (DocumentCursor × List Failure × σ) (Option StoredDocument)}
    (hstep : Step listed shelf Q closed c failures s (x (c, failures, s))) :
    Shared listed shelf before (outcomes ++ [x.outcome (c, failures, s)])
      (x.after (c, failures, s)).1 (x.after (c, failures, s)).2.1 := by
  obtain ⟨hinOrder, hall, hended⟩ := h
  rw [Action.outcome, Action.after]
  generalize x (c, failures, s) = r at hstep ⊢
  cases hstep with
  | gave hopen hc' htoCome =>
    rw [htoCome] at hinOrder hall hended
    refine ⟨by simpa using hinOrder, ?_, fun hmem => ?_⟩
    · refine List.Perm.trans ?_ hall
      simpa using (List.perm_middle.symm).append_left _
    · have hmem : .ok none ∈ outcomes := by simpa using hmem
      cases hended hmem
  | @ended c' _ hopen hc' htoCome husedUp =>
    have hnil : c'.toCome listed shelf = [] := toCome_of_isUsedUp husedUp
    rw [htoCome] at hinOrder hall
    exact ⟨by simpa [hnil] using hinOrder, by simpa [hnil] using hall, fun _ => hnil⟩
  | shut hclosed =>
    exact ⟨by simpa using hinOrder, by simpa using hall, by simpa using hended⟩
  | unlisted hopen hc' htoCome =>
    rw [← htoCome] at hinOrder hall hended
    exact ⟨by simpa using hinOrder, by simpa using hall, by simpa using hended⟩
  | unloaded hopen hc' htoCome =>
    rw [htoCome] at hinOrder hall hended
    refine ⟨List.Sublist.trans ?_ hinOrder, by simpa using hall, fun hmem => ?_⟩
    · simp
    · have hmem : .ok none ∈ outcomes := by simpa using hmem
      exact (List.append_eq_nil_iff.1 (hended hmem)).2

theorem Step.ready (h : Ready I listed turns c s)
    {x : Action (DocumentCursor × List Failure × σ) (Option StoredDocument)}
    (hstep : Step listed shelf (Ready I listed turns) closed c failures s (x (c, failures, s))) :
    Ready I listed turns (x.after (c, failures, s)).1 (x.after (c, failures, s)).2.2 := by
  rw [Action.after]
  generalize x (c, failures, s) = r at hstep ⊢
  cases hstep <;> assumption

/-- **Calls share out what is to come**, however many of them fail. -/
theorem calls_shared (hsource : MayServe source I listed shelf) (h : Ready I listed turns c s)
    (closings : List Bool) :
    Shared listed shelf (c.toCome listed shelf)
        (calls (fun closed => next closed source.noting turns) closings (c, [], s)).1
        (calls (fun closed => next closed source.noting turns) closings (c, [], s)).2.1
        (calls (fun closed => next closed source.noting turns) closings (c, [], s)).2.2.1 ∧
      Ready I listed turns
        (calls (fun closed => next closed source.noting turns) closings (c, [], s)).2.1
        (calls (fun closed => next closed source.noting turns) closings (c, [], s)).2.2.2 := by
  refine Action.calls_induction
    (P := fun outcomes (x : DocumentCursor × List Failure × σ) =>
      Shared listed shelf (c.toCome listed shelf) outcomes x.1 x.2.1 ∧
        Ready I listed turns x.1 x.2.2)
    ?_ ⟨⟨.refl _, .refl _, fun hmem => by cases hmem⟩, h⟩ closings
  rintro outcomes ⟨c', failures, s'⟩ closed ⟨hshared, hready⟩
  have hstep := step_next hsource hready (Nat.le_refl _) closed failures
  exact ⟨hshared.step hstep, hstep.ready hready⟩

/-- Nothing is left out exactly when nothing is lost. -/
theorem Shared.eq_iff (h : Shared listed shelf before outcomes c failures) :
    given outcomes ++ c.toCome listed shelf = before ↔ lost shelf failures = [] := by
  have hlength := h.all.length_eq
  simp only [List.length_append] at hlength
  constructor
  · rintro rfl
    rw [List.length_append] at hlength
    exact List.length_eq_zero_iff.1 (by omega)
  · intro hlost
    rw [hlost, List.length_nil] at hlength
    exact h.inOrder.eq_of_length (by rw [List.length_append]; omega)

/-- A source that answers from now on gives all that is to come. -/
theorem outcome_drain (hserves : Serves source s listed fun id => .ok (shelf id))
    (h : Ready I listed turns c s) {n : Nat} (hn : (c.rest listed).length < n) :
    (drain false source turns n).outcome (c, s) = .ok (c.toCome listed shelf) := by
  obtain ⟨e, -, hfails, -⟩ | ⟨c', hrun, -⟩ := drain_run hserves.provides h.pageSize
    (Nat.le_max_left _ c.offset) (Nat.le_max_right _ _) (Nat.le_of_lt h.turns) hn
  · exact absurd hfails hserves.not_failsPage
  have hload : ((c.rest listed).mapM fun id => (.ok (shelf id) : Except Error _)).map
      List.reduceOption = .ok (c.toCome listed shelf) := by
    have hmap := List.mapM_pure (m := Except Error) (l := c.rest listed) (f := shelf)
    simp only [pure, Except.pure] at hmap
    rw [hmap, Except.map, List.reduceOption, List.filterMap_map, toCome]
    rfl
  rw [hload] at hrun
  exact Action.outcome_eq_ok.2 ⟨_, hrun⟩

end DocumentCursor

/-! ## What is lost -/

/-- What a cursor on hits loses when calls fail: nothing. -/
structure ResultCursor.Unharmed (fetch : FetchHits σ) (ranked : List SearchHit)
    (closings : List Bool) (c : ResultCursor) (s : σ) : Prop where
  /-- A call fails as the driver does, or for a client that is closed, and leaves the cursor as it
  was. -/
  failed : ∀ closed e x, next closed fetch (c, s) = .error e x ↔
    c.buffer = [] ∧ c.finished = false ∧
      if closed then e = .clientClosed ∧ x = (c, s)
      else ∃ s', fetch c.query c.offset c.want s = .error e s' ∧ x = (c, s')
  /-- Calls give what was to come, in order, up to what is to come then. -/
  given : ∀ os c' s', calls (fun closed => next closed fetch) closings (c, s) = (os, c', s') →
    given os ++ c'.toCome ranked = c.toCome ranked ∧ (.ok none ∈ os → c'.toCome ranked = []) ∧
      -- A driver that answers from then on gives the rest.
      ∀ J, Ranks fetch J c.query ranked → J s' →
        (collectAll false fetch).outcome (c', s') = .ok (c'.toCome ranked)

/-- What a cursor on documents loses when calls fail: the documents that failed to load. -/
structure DocumentCursor.Bereft (source : DocumentSource σ) (I : σ → Prop) (listed : List String)
    (shelf : String → Option StoredDocument) (turns : Nat) (closings : List Bool)
    (c : DocumentCursor) (s : σ) : Prop where
  /-- A call fails as the driver does, or for a client that is closed. It loses something only where
  a document was to be loaded. -/
  step : ∀ closed failures, Step listed shelf (Ready I listed turns) closed c failures s
    (next closed source.noting turns (c, failures, s))
  /-- Calls share out what was to come, and nothing is left out exactly when nothing is lost. -/
  given : ∀ os c' s', calls (fun closed => next closed source turns) closings (c, s) = (os, c', s') →
    ∃ failures,
      calls (fun closed => next closed source.noting turns) closings (c, [], s) =
        (os, c', failures, s') ∧
      Shared listed shelf (c.toCome listed shelf) os c' failures ∧
      (given os ++ c'.toCome listed shelf = c.toCome listed shelf ↔ lost shelf failures = []) ∧
      -- A driver that answers from then on gives the rest.
      ∀ n, (c'.rest listed).length < n →
        Serves source s' listed (fun id => .ok (shelf id)) →
          (drain false source turns n).outcome (c', s') = .ok (c'.toCome listed shelf)

/-- **What failed calls lose.** A cursor on hits loses nothing, and one on documents exactly the
documents that failed to load. -/
theorem failures_lose_iff {τ : Type} {fetch : FetchHits σ} {ranked : List SearchHit}
    {I : σ → Prop} {k : ResultCursor} {s : σ} (hk : k.Coherent) (hs : I s)
    (hfetch : ResultCursor.MayRank fetch I k.query ranked)
    {source : DocumentSource τ} {listed : List String} {shelf : String → Option StoredDocument}
    {J : τ → Prop} {turns : Nat} {c : DocumentCursor} {t : τ}
    (hc : DocumentCursor.Ready J listed turns c t)
    (hsource : DocumentCursor.MayServe source J listed shelf) (closings : List Bool) :
    k.Unharmed fetch ranked closings s ∧ c.Bereft source J listed shelf turns closings t := by
  refine ⟨⟨fun closed e x => ResultCursor.next_eq_error_iff, fun os k' s' hrun => ?_⟩,
    ⟨fun closed failures => DocumentCursor.step_next hsource hc (Nat.le_refl _) closed failures,
      fun os c' t' hrun => ?_⟩⟩
  · obtain ⟨asked, left, hstage, -, hgiven, hended⟩ := (hk.stage ranked).calls hfetch hs closings
    rw [hrun] at hstage hgiven hended
    obtain rfl := hstage.left_eq_toCome
    refine ⟨hgiven, hended, fun J hranks hJ => ?_⟩
    obtain ⟨k'', _, s'', hcollect, -⟩ :=
      ResultCursor.reading_run hranks.after hstage hJ .collect
    exact Action.outcome_eq_ok.2 ⟨_, hcollect⟩
  · obtain ⟨hshared, hready⟩ := DocumentCursor.calls_shared hsource hc closings
    obtain ⟨failures, hnoting⟩ := DocumentCursor.calls_noting source turns closings c [] t
    rw [hrun] at hnoting
    rw [hnoting] at hshared hready
    exact ⟨failures, hnoting, hshared, hshared.eq_iff, fun n hn hserves =>
      DocumentCursor.outcome_drain hserves hready hn⟩

def late {α : Type} (a : α) : Action Bool α := fun asked =>
  if asked then .ok a true else .error (.driverTimeout "redis" 5000) true

theorem keeps_late {α : Type} (a : α) : Action.Keeps (fun _ => True) (late a) (· = a) := by
  rintro (_ | _) - <;> simp [late]

def boat : SearchHit := ⟨"1", .ofNat 1, ⟨[]⟩⟩

def lateHits : FetchHits Bool := fun _ offset limit =>
  late ⟨(([boat] : List SearchHit).drop offset).take limit, none⟩

def blank (id : String) : Option StoredDocument := some ⟨id, ⟨[]⟩⟩

def lateDocuments : DocumentSource Bool where
  list offset limit := pure ((["1", "2"].drop offset).take limit)
  load id := late (blank id)

/-- The hit is given all the same. The first document is not: the second comes after the failure, and
then none. -/
theorem failures_lose_iff_late :
    (ResultCursor.new ⟨"redis", .tokens (.field "title" ["boat"])⟩ 0 5 1).Unharmed lateHits
        [boat] [false, false, false] false ∧
      (DocumentCursor.new 5).Bereft lateDocuments (fun _ => True) ["1", "2"] blank 9
        [false, false, false] false ∧
      ∃ c', calls (fun closed => DocumentCursor.next closed lateDocuments 9) [false, false, false]
          (.new 5, false) =
        ([.error (.driverTimeout "redis" 5000), .ok (blank "2"), .ok none], c', true) := by
  have hfetch : ResultCursor.MayRank lateHits (fun _ => True)
      ⟨"redis", .tokens (.field "title" ["boat"])⟩ [boat] := fun _ _ =>
    (keeps_late _).mono fun _ hpage => by rw [hpage]
  have hsource : DocumentCursor.MayServe lateDocuments (fun _ => True) ["1", "2"] blank :=
    ⟨fun _ _ => .pure rfl, fun _ => keeps_late _⟩
  have hready : DocumentCursor.Ready (fun _ => True) ["1", "2"] 9 (.new 5) false :=
    ⟨trivial, by decide, by decide⟩
  have hlate := failures_lose_iff (s := false)
    (ResultCursor.coherent_new ⟨"redis", .tokens (.field "title" ["boat"])⟩ 0 5 1) trivial hfetch
    hready hsource [false, false, false]
  exact ⟨hlate.1, hlate.2, _, rfl⟩

end Searchlight
