import Searchlight.Proofs.Client.Writing
import Searchlight.Text.Stem

/-!
# What a window of hits gives

A cursor on hits covers a window of the ranked matches and asks for it page by page. As long as the
pages are those of one ranked list, what the cursor has before it is a list of hits (`Stage`): each
call of `next` gives the first of them, and asks for a page only when the last one is used up. So
the cursor gives the window and nothing else, however it is read and whatever the page size is, and
the pages it asks for lie end to end and within the window (`window_exact`).
-/

namespace Searchlight

namespace ResultCursor

variable {σ : Type} {fetch : FetchHits σ} {q : NativeQuery} {ranked left : List SearchHit}
  {I : σ → Prop} {J : List (Nat × Nat) → σ → Prop} {asked : List (Nat × Nat)} {s : σ}
  {c : ResultCursor} {offset limit size : Nat}

/-! ## Ranked lists -/

/-- A query is answered with windows of one ranked list, from every state that `I` holds of and that
fetching leads to from there. -/
def Ranks (fetch : FetchHits σ) (I : σ → Prop) (q : NativeQuery) (ranked : List SearchHit) : Prop :=
  ∀ s, I s → ∀ offset limit, ∃ total s',
    fetch q offset limit s = .ok ⟨(ranked.drop offset).take limit, total⟩ s' ∧ I s'

/-- Fetching that notes each window it is asked for. -/
def noting (fetch : FetchHits σ) : FetchHits (List (Nat × Nat) × σ) := fun q offset limit => do
  modify fun (asked, s) => (asked ++ [(offset, limit)], s)
  Action.second (fetch q offset limit)

def RanksAfter (fetch : FetchHits σ) (J : List (Nat × Nat) → σ → Prop) (q : NativeQuery)
    (ranked : List SearchHit) : Prop :=
  ∀ asked s, J asked s → ∀ offset limit, ∃ total s',
    fetch q offset limit s = .ok ⟨(ranked.drop offset).take limit, total⟩ s' ∧
      J (asked ++ [(offset, limit)]) s'

theorem Ranks.after (h : Ranks fetch I q ranked) : RanksAfter fetch (fun _ => I) q ranked :=
  fun _ => h

theorem Ranks.after_noting (h : Ranks fetch I q ranked) :
    RanksAfter (noting fetch) (fun asked y => y.1 = asked ∧ I y.2) q ranked := by
  rintro _ ⟨asked, s⟩ ⟨rfl, hs⟩ offset limit
  obtain ⟨total, s', hfetch, hs'⟩ := h s hs offset limit
  refine ⟨total, (asked ++ [(offset, limit)], s'), ?_, rfl, hs'⟩
  simp only [noting, Action.bind_run, Action.modify_run, Action.second, Action.focus, hfetch]

/-! ## Pages -/

/-- The page that is asked for after so many full ones: of as many hits as a page has, or as are
still to be given. -/
def pageAt (offset limit size i : Nat) : Nat × Nat :=
  (offset + i * size, min size (limit - i * size))

/-- The pages of a window from its start on, each of at least one hit. -/
structure Paged (offset limit size : Nat) (asked : List (Nat × Nat)) : Prop where
  inOrder : asked = (List.range asked.length).map (pageAt offset limit size)
  pos : ∀ page ∈ asked, 0 < page.2

theorem Paged.nil : Paged offset limit size [] := ⟨rfl, fun _ h => nomatch h⟩

theorem Paged.append (h : Paged offset limit size asked)
    (hpos : 0 < (pageAt offset limit size asked.length).2) :
    Paged offset limit size (asked ++ [pageAt offset limit size asked.length]) where
  inOrder := by
    rw [List.length_append, List.length_singleton, List.range_succ, List.map_append, ← h.inOrder]
    rfl
  pos page hpage := by
    rcases List.mem_append.1 hpage with hpage | hpage
    · exact h.pos page hpage
    · rwa [List.mem_singleton.1 hpage]

theorem Paged.eq_nil (h : Paged offset 0 size asked) : asked = [] := by
  refine List.eq_nil_iff_forall_not_mem.2 fun page hpage => ?_
  have hpos := h.pos page hpage
  rw [h.inOrder] at hpage
  obtain ⟨i, -, rfl⟩ := List.mem_map.1 hpage
  simp [pageAt] at hpos

/-! ## Stages -/

/-- A cursor on a window, after it asked for some pages, and with some hits of the window left. -/
structure Stage (q : NativeQuery) (ranked : List SearchHit) (offset limit size : Nat)
    (asked : List (Nat × Nat)) (left : List SearchHit) (c : ResultCursor) : Prop where
  query : c.query = q
  pageSize : c.pageSize = size
  pos : 0 < size
  paged : Paged offset limit size asked
  left : left = c.buffer ++
    if c.finished then [] else ((ranked.drop offset).take limit).drop (asked.length * size)
  /-- While there may be another page, all pages were full and their hits are not all. -/
  going : c.finished = false → c.offset = offset + asked.length * size ∧
    c.remaining + asked.length * size = limit ∧ 0 < c.remaining

theorem stage_new (q : NativeQuery) (ranked : List SearchHit) (offset limit pageSize : Nat) :
    Stage q ranked offset limit (max pageSize 1) [] ((ranked.drop offset).take limit)
      (new q offset limit pageSize) where
  query := rfl
  pageSize := rfl
  pos := Nat.le_max_right pageSize 1
  paged := .nil
  left := by
    by_cases hlimit : limit = 0 <;> simp [new, hlimit]
  going := by
    simp only [new, List.length_nil, Nat.zero_mul, Nat.add_zero, true_and, beq_eq_false_iff_ne]
    exact Nat.pos_of_ne_zero

theorem Stage.length_le (h : Stage q ranked offset limit size asked left c) :
    left.length ≤ c.buffer.length + c.remaining := by
  rw [h.left, List.length_append]
  cases hc : c.finished
  · obtain ⟨-, hremaining, -⟩ := h.going hc
    simp
    omega
  · simp

/-- What a cursor that used up its pages has left are the next matches, as many as it may give. -/
theorem Stage.left_of_going (h : Stage q ranked offset limit size asked left c)
    (hbuffer : c.buffer = []) (hc : c.finished = false) :
    left = (ranked.drop c.offset).take c.remaining := by
  obtain ⟨hoffset, hremaining, -⟩ := h.going hc
  rw [h.left, hbuffer, hc, List.nil_append, if_neg Bool.false_ne_true, List.drop_take,
    List.drop_drop, ← hoffset, ← hremaining, Nat.add_sub_cancel]

/-- The page that a cursor asks for is the next one of its window. -/
theorem Stage.ask (h : Stage q ranked offset limit size asked left c) (hc : c.finished = false) :
    (c.offset, c.want) = pageAt offset limit size asked.length ∧ 0 < c.want := by
  obtain ⟨hoffset, hremaining, hpos⟩ := h.going hc
  have hsize := h.pos
  have howed : c.remaining = limit - asked.length * size := by omega
  rw [pageAt, want, h.pageSize, hoffset, howed, Nat.min_comm]
  exact ⟨rfl, by omega⟩

/-- **A page** takes nothing from what is left: it is the start of it, and all of it if it was not
full or was the last. -/
theorem Stage.receive (h : Stage q ranked offset limit size asked left c) (hbuffer : c.buffer = [])
    (hc : c.finished = false) (total : Option Nat) :
    Stage q ranked offset limit size (asked ++ [(c.offset, c.want)]) left
        (c.receive ⟨(ranked.drop c.offset).take c.want, total⟩) ∧
      ((c.receive ⟨(ranked.drop c.offset).take c.want, total⟩).buffer = [] →
        (c.receive ⟨(ranked.drop c.offset).take c.want, total⟩).finished = true) := by
  obtain ⟨hask, hwant⟩ := h.ask hc
  have hleft := h.left_of_going hbuffer hc
  obtain ⟨hoffset, hremaining, hpos⟩ := h.going hc
  have hpaged : Paged offset limit size (asked ++ [(c.offset, c.want)]) :=
    hask ▸ h.paged.append (hask ▸ hwant)
  have hlength : ((ranked.drop c.offset).take c.want).length =
      min c.want (ranked.length - c.offset) := by simp
  have hmin : c.want = min c.remaining size := by rw [want, h.pageSize]
  simp only [ResultCursor.receive, hbuffer, hc, List.take_take, Nat.min_self, List.nil_append,
    Bool.false_or, hlength]
  refine ⟨⟨h.query, h.pageSize, h.pos, hpaged, ?_, fun hgoing => ?_⟩, fun hnil => ?_⟩
  · by_cases hlast : ranked.length - c.offset < c.want ∨ c.remaining ≤ c.want
    · -- The page has all that is left.
      have hall : (ranked.drop c.offset).take c.want = left := by
        rw [hleft]
        rcases hlast with hlast | hlast
        · rw [List.take_of_length_le (by simp; omega), List.take_of_length_le (by simp; omega)]
        · rw [show c.want = c.remaining by omega]
      have hfinished : (decide (min c.want (ranked.length - c.offset) < c.want) ||
          c.remaining == min c.want (ranked.length - c.offset)) = true := by
        simp only [Bool.or_eq_true, decide_eq_true_eq, beq_iff_eq]
        omega
      rw [hall, hfinished, if_pos rfl, List.append_nil]
    · have hgoing : (decide (min c.want (ranked.length - c.offset) < c.want) ||
          c.remaining == min c.want (ranked.length - c.offset)) = false := by
        simp only [Bool.or_eq_false_iff, decide_eq_false_iff_not, beq_eq_false_iff_ne]
        omega
      have hfull : c.want = size := by omega
      have hpage : (ranked.drop c.offset).take c.want = left.take size := by
        rw [hleft, List.take_take, hfull, Nat.min_eq_left (by omega)]
      have hrest : ((ranked.drop offset).take limit).drop ((asked ++ [(c.offset, c.want)]).length * size)
          = left.drop size := by
        rw [h.left, hbuffer, hc, List.nil_append, if_neg Bool.false_ne_true, List.drop_drop,
          List.length_append, List.length_singleton, Nat.succ_mul]
      rw [hgoing, if_neg Bool.false_ne_true, hpage, hrest, List.take_append_drop]
  · simp only [Bool.or_eq_false_iff, decide_eq_false_iff_not, beq_eq_false_iff_ne] at hgoing
    rw [List.length_append, List.length_singleton, Nat.succ_mul]
    dsimp only
    omega
  · have hempty : min c.want (ranked.length - c.offset) = 0 := by
      rw [← hlength, hnil, List.length_nil]
    simp only [Bool.or_eq_true, decide_eq_true_eq]
    omega

theorem Stage.pop (h : Stage q ranked offset limit size asked left c)
    (hbuffer : c.buffer = [] → c.finished = true) :
    left.head? = c.buffer.head? ∧
      Stage q ranked offset limit size asked left.tail { c with buffer := c.buffer.tail } := by
  have hleft := h.left
  cases hb : c.buffer with
  | nil =>
    rw [hb, hbuffer hb] at hleft
    subst hleft
    exact ⟨rfl, h.query, h.pageSize, h.pos, h.paged, by simp [hbuffer hb], h.going⟩
  | cons hit hits =>
    rw [hb] at hleft
    subst hleft
    exact ⟨rfl, h.query, h.pageSize, h.pos, h.paged, rfl, h.going⟩

/-! ## Reading -/

theorem pop_run (c : ResultCursor) (s : σ) :
    pop (c, s) = .ok c.buffer.head? ({ c with buffer := c.buffer.tail }, s) := by
  obtain ⟨query, offset, remaining, pageSize, buffer, total, finished⟩ := c
  cases buffer <;> rfl

/-- **The next hit** is the first that is left. -/
theorem next_run (hfetch : RanksAfter fetch J q ranked)
    (h : Stage q ranked offset limit size asked left c) (hs : J asked s) :
    ∃ c' asked' s', next false fetch (c, s) = .ok left.head? (c', s') ∧ J asked' s' ∧
      Stage q ranked offset limit size asked' left.tail c' := by
  by_cases hask : c.buffer = [] ∧ c.finished = false
  · obtain ⟨hbuffer, hc⟩ := hask
    obtain ⟨total, s', hpage, hs'⟩ := hfetch asked s hs c.offset c.want
    obtain ⟨hreceived, hempty⟩ := h.receive hbuffer hc total
    obtain ⟨hhead, hstage⟩ := hreceived.pop hempty
    refine ⟨_, _, s', ?_, hs', hstage⟩
    rw [next, Action.get_bind]
    simp only [hbuffer, hc, List.isEmpty_nil, Bool.not_false, Bool.and_self, if_true,
      Bool.false_eq_true, if_false, Action.bind_run, Action.second, Action.focus,
      h.query, hpage, Action.modify_run]
    rw [pop_run, hhead]
  · have hempty : c.buffer = [] → c.finished = true := fun hb => by simpa [hb] using hask
    obtain ⟨hhead, hstage⟩ := h.pop hempty
    refine ⟨_, asked, s, ?_, hs, hstage⟩
    have hno : (c.buffer.isEmpty && !c.finished) = false := by
      rw [← Bool.not_eq_true]
      simpa using hask
    rw [next, Action.get_bind]
    simp only [hno, Bool.false_eq_true, if_false]
    rw [pop_run, hhead]

/-- So many calls of `next`, one after the other. -/
def nexts (closed : Bool) (fetch : FetchHits σ) :
    Nat → Action (ResultCursor × σ) (List (Option SearchHit))
  | 0 => return []
  | n + 1 => do
    let hit ← next closed fetch
    return hit :: (← nexts closed fetch n)

theorem nexts_run (hfetch : RanksAfter fetch J q ranked)
    (h : Stage q ranked offset limit size asked left c) (hs : J asked s) (n : Nat) :
    ∃ c' asked' s', nexts false fetch n (c, s) = .ok ((List.range n).map (left[·]?)) (c', s') ∧
      J asked' s' ∧ Stage q ranked offset limit size asked' (left.drop n) c' := by
  induction n generalizing left c asked s with
  | zero => exact ⟨c, asked, s, rfl, hs, h⟩
  | succ n ih =>
    obtain ⟨c₁, asked₁, s₁, hnext, hs₁, h₁⟩ := next_run hfetch h hs
    obtain ⟨c', asked', s', hrun, hs', h'⟩ := ih h₁ hs₁
    rw [List.drop_tail] at h'
    refine ⟨c', asked', s', ?_, hs', h'⟩
    rw [nexts, Action.bind_of_ok hnext, Action.bind_of_ok hrun, List.range_succ_eq_map]
    simp [List.head?_eq_getElem?, Function.comp_def]

/-- How a cursor is used up: all hits at once, or some of them as a stream. -/
inductive Reading where
  | collect
  | stream (n : Nat)

namespace Reading

def run (closed : Bool) (fetch : FetchHits σ) :
    Reading → Action (ResultCursor × σ) (List SearchHit)
  | collect => collectAll closed fetch
  | stream n => drain closed fetch n

/-- What is to be given of the hits that are left. -/
def of : Reading → List SearchHit → List SearchHit
  | collect, hits => hits
  | stream n, hits => hits.take n

end Reading

theorem drain_run (hfetch : RanksAfter fetch J q ranked)
    (h : Stage q ranked offset limit size asked left c) (hs : J asked s) (n : Nat) :
    ∃ c' asked' s', drain false fetch n (c, s) = .ok (left.take n) (c', s') ∧ J asked' s' ∧
      Paged offset limit size asked' := by
  induction n generalizing left c asked s with
  | zero => exact ⟨c, asked, s, rfl, hs, h.paged⟩
  | succ n ih =>
    obtain ⟨c₁, asked₁, s₁, hnext, hs₁, h₁⟩ := next_run hfetch h hs
    rw [drain, Action.bind_of_ok hnext]
    cases left with
    | nil => exact ⟨c₁, asked₁, s₁, rfl, hs₁, h₁.paged⟩
    | cons hit left =>
      obtain ⟨c', asked', s', hrun, hs', h'⟩ := ih h₁ hs₁
      refine ⟨c', asked', s', ?_, hs', h'⟩
      dsimp only [List.head?_cons]
      rw [Action.bind_of_ok hrun]
      rfl

theorem reading_run (hfetch : RanksAfter fetch J q ranked)
    (h : Stage q ranked offset limit size asked left c) (hs : J asked s) (reading : Reading) :
    ∃ c' asked' s', reading.run false fetch (c, s) = .ok (reading.of left) (c', s') ∧
      J asked' s' ∧ Paged offset limit size asked' := by
  cases reading with
  | stream n => exact drain_run hfetch h hs n
  | collect =>
    have hrun := drain_run hfetch h hs (c.buffer.length + c.remaining)
    rwa [List.take_of_length_le h.length_le] at hrun

/-- The first call on a cursor asks for the first page, if the window is not empty. -/
theorem next_new {pageSize : Nat} (hlimit : limit ≠ 0) (s : σ) :
    next false fetch (new q offset limit pageSize, s) =
      match fetch q offset (min limit (max pageSize 1)) s with
      | .ok page s' => pop ((new q offset limit pageSize).receive page, s')
      | .error e s' => .error e (new q offset limit pageSize, s') := by
  have hfirst : ((new q offset limit pageSize).buffer.isEmpty &&
      !(new q offset limit pageSize).finished) = true := by simp [new, hlimit]
  rw [next, Action.get_bind]
  simp only [hfirst, if_true, Bool.false_eq_true, if_false, Action.bind_run, Action.second,
    Action.focus]
  have hwant : (new q offset limit pageSize).want = min limit (max pageSize 1) := rfl
  rw [hwant]
  simp only [new]
  cases fetch q offset (min limit (max pageSize 1)) s <;> rfl

/-- A cursor whose first page is empty or refused gives nothing. -/
theorem collectAll_of_first {pageSize : Nat} {answer : Except Error (Option Nat)}
    (hpage : limit ≠ 0 →
      (fetch q offset (min limit (max pageSize 1))).outcome s = answer.map (⟨[], ·⟩)) :
    (collectAll false fetch).outcome (new q offset limit pageSize, s) =
      if limit = 0 then .ok [] else answer.map fun _ => [] := by
  cases limit with
  | zero => rfl
  | succ n =>
    have hturns : (new q offset (n + 1) pageSize).buffer.length +
        (new q offset (n + 1) pageSize).remaining = n + 1 := Nat.zero_add _
    have hnext : next false fetch (new q offset (n + 1) pageSize, s) = _ :=
      next_new (Nat.succ_ne_zero n) s
    rw [if_neg (Nat.succ_ne_zero n), collectAll, Action.outcome, Action.get_bind]
    dsimp only
    rw [hturns, drain]
    cases answer with
    | error e =>
      obtain ⟨s', hfetch⟩ := Action.outcome_eq_error.1 (hpage (Nat.succ_ne_zero n))
      rw [hfetch] at hnext
      simp only [Action.bind_run, hnext]
      rfl
    | ok total =>
      obtain ⟨s', hfetch⟩ := Action.outcome_eq_ok.1 (hpage (Nat.succ_ne_zero n))
      rw [hfetch] at hnext
      dsimp only at hnext
      rw [Action.bind_of_ok (hnext.trans (pop_run _ _))]
      simp [ResultCursor.receive, new, Except.map]

/-- **Windows are exact.** However often `next` is called on a cursor, and whether what is left then
is collected or taken off a stream, it gives the hits of its window and nothing else; and what was
asked for on the way are pages of the window, none if the window is empty. -/
theorem window_exact (h : Ranks fetch I q ranked) (hs : I s) (offset limit pageSize n : Nat)
    (reading : Reading) :
    (∃ x, nexts false fetch n (new q offset limit pageSize, s) =
        .ok ((List.range n).map (((ranked.drop offset).take limit)[·]?)) x ∧
      (reading.run false fetch).outcome x =
        .ok (reading.of (((ranked.drop offset).take limit).drop n))) ∧
    ∀ x, (do
        let _ ← nexts false (noting fetch) n
        reading.run false (noting fetch)).after (new q offset limit pageSize, [], s) = x →
      Paged offset limit (max pageSize 1) x.2.1 ∧ (limit = 0 → x.2.1 = []) := by
  have hnew := stage_new q ranked offset limit pageSize
  constructor
  · obtain ⟨c, asked, s', hnexts, hs', hstage⟩ := nexts_run h.after hnew hs n
    obtain ⟨c', asked', t, hrun, -⟩ := reading_run h.after hstage hs' reading
    exact ⟨_, hnexts, Action.outcome_eq_ok.2 ⟨_, hrun⟩⟩
  · rintro x rfl
    obtain ⟨c, _, y, hnexts, hy, hstage⟩ :=
      nexts_run (s := ([], s)) h.after_noting hnew ⟨rfl, hs⟩ n
    obtain ⟨c', asked, t, hrun, ⟨rfl, -⟩, hpaged⟩ := reading_run h.after_noting hstage hy reading
    rw [Action.after, Action.bind_of_ok hnexts, hrun]
    refine ⟨hpaged, ?_⟩
    rintro rfl
    exact hpaged.eq_nil

end ResultCursor

/-! ## Clients -/

namespace Client

/-! ### Clients in memory -/

/-- A search in memory is answered with windows of the ranking. -/
theorem ranks_memory (s : Memory.Store) (t : Memory.TokenQuery) :
    ResultCursor.Ranks fetchHits (fun x => x.1.driver = .memory s) ⟨Memory.backendName, .tokens t⟩
      ((s.ranking t).map fun m => ⟨m.2.1, m.1, m.2.2.stored⟩) := by
  rintro ⟨c, h⟩ hc offset limit
  dsimp only at hc
  refine ⟨some (s.ranking t).length, ({ c with driver := .memory s }, h), ?_, rfl⟩
  rw [fetchHits, drive_run, hc, ← List.map_drop, ← List.map_take]
  rfl

def shelf : Memory.Store :=
  ["a", "b", "c"].foldl (fun s id => s.index id
    ⟨[⟨"tag", .exactMatch, [.text "red"], [.text id]⟩]⟩) .empty

theorem ranking_shelf :
    (shelf.ranking (.field "tag" ["red"])).map (fun m => (⟨m.2.1, m.1, m.2.2.stored⟩ : SearchHit)) =
      ["a", "b", "c"].map fun id => ⟨id, .ofNat 1, ⟨[("tag", .text id)]⟩⟩ := by
  rw [Memory.Store.ranking, List.mergeSort_of_pairwise]
  · rfl
  · decide +kernel

def ofShelf : Client where
  driver := .memory shelf
  registry := .new .appendOnly .empty false .freeText
  policy := .guess
  pageSize := 1
  readonly := false
  closed := false
  ignored := 0
  cache := .empty
  lease := none

end Client

namespace ResultCursor

/-- The window after the first of three matches, read by one call and then to its end, on pages of
one hit. -/
theorem window_exact_shelf :
    ∃ x, nexts false Client.fetchHits 1 (new ⟨Memory.backendName, .tokens (.field "tag" ["red"])⟩ 1 5
          Client.ofShelf.pageSize, Client.ofShelf, .initial Text.stems [] (.fresh true) "") =
        .ok [some ⟨"b", .ofNat 1, ⟨[("tag", .text "b")]⟩⟩] x ∧
      (collectAll false Client.fetchHits).outcome x =
        .ok [⟨"c", .ofNat 1, ⟨[("tag", .text "c")]⟩⟩] := by
  obtain ⟨x, hnexts, hrest⟩ := (window_exact (I := fun x => x.1.driver = .memory Client.shelf)
    (Client.ranks_memory Client.shelf (.field "tag" ["red"])) (s := (Client.ofShelf,
      .initial Text.stems [] (.fresh true) "")) rfl 1 5 Client.ofShelf.pageSize 1 .collect).1
  rw [Client.ranking_shelf] at hnexts hrest
  exact ⟨x, hnexts, hrest⟩

end ResultCursor

end Searchlight
