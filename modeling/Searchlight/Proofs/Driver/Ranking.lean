import Searchlight.Proofs.Driver.Listing
import Searchlight.Proofs.Memory.Ranking
import Searchlight.Text.Stem

/-!
# Searches in memory

Whatever was registered, indexed, deleted and destroyed, the entries of a store in memory have numbers
of their own. So a query has one ranking, and a search gives a window of it (`memory_ranked`).
-/

namespace Searchlight

open Memory (Entry TokenQuery)

namespace Memory.Store

variable {s : Store} {ids : List String}

/-- Documents come in the order of their arrival, and one that replaces another comes last. -/
theorem Arrived.documents_index (h : Arrived ids s) (id : String) (d : PreparedDocument) :
    (s.index id d).documents = s.documents.filter (·.id ≠ id) ++ [⟨id, d.stored⟩] := by
  obtain ⟨es, haged, -⟩ := h.exists_aged
  rw [documents, documents, (haged.index id d).byAge_eq, haged.byAge_eq, List.map_append,
    List.filter_map]
  rfl

theorem Arrived.nodup_seqs (h : Arrived ids s) : (s.docs.entries.map (·.2.seq)).Nodup := by
  obtain ⟨es, haged, -⟩ := h.exists_aged
  exact ((haged.perm.map _).nodup_iff).1 (List.pairwise_map.2 (haged.ascending.imp Nat.ne_of_lt))

theorem Arrived.seq_lt (h : Arrived ids s) : ∀ e ∈ s.docs.entries, e.2.seq < s.nextSeq := by
  obtain ⟨es, haged, -⟩ := h.exists_aged
  exact fun e he => haged.below e (haged.perm.mem_iff.2 he)

end Memory.Store

namespace Driver

/-- What changes a store. -/
inductive Operation where
  | registerField (name : String) (config : FieldConfig)
  /-- A document is indexed under an id that is given, or under a fresh one. -/
  | index (d : PreparedDocument) (id : Option String)
  | delete (id : String)
  | destroy

def Operation.work : Operation → DriverWork Unit
  | registerField name config => Driver.registerField name config
  | index d id => do let _ ← Driver.index d id
  | delete id => Driver.delete id
  | destroy => Driver.destroy

/-- A driver and its host after some operations, whether they succeed or not. -/
def afterAll (x : Driver × Host) (ops : List Operation) : Driver × Host :=
  ops.foldl (fun x op => op.work.after x) x

variable {s : Memory.Store} {h : Host}

theorem after_delete_memory (id : String) :
    (delete id).after (.memory s, h) = (.memory ((s.delete id).toOption.getD s), h) := by
  rw [Action.after, delete, work_memory, Action.get_bind]
  cases s.delete id <;> rfl

theorem exists_arrived_work (hs : ∃ ids, s.Arrived ids) (op : Operation) :
    ∃ t h', op.work.after (.memory s, h) = (.memory t, h') ∧ ∃ ids, t.Arrived ids := by
  obtain ⟨ids, hs⟩ := hs
  cases op with
  | registerField name config => exact ⟨_, h, rfl, _, hs.registerField name config⟩
  | index d id =>
    cases id with
    | some id => exact ⟨_, h, rfl, _, hs.index id d⟩
    | none =>
      have hrun : Driver.index d none (.memory s, h) =
          .ok h.nextId (.memory (s.index h.nextId d), { h with drawn := h.drawn + 1 }) := by
        simp [Driver.index, work_memory]
      refine ⟨_, { h with drawn := h.drawn + 1 }, ?_, _, hs.index h.nextId d⟩
      rw [Operation.work, Action.after, Action.bind_of_ok hrun]
      rfl
  | delete id =>
    rw [Operation.work, after_delete_memory]
    cases ht : s.delete id with
    | ok t => exact ⟨t, h, rfl, _, hs.delete ht⟩
    | error e => exact ⟨s, h, rfl, _, hs⟩
  | destroy => exact ⟨.empty, h, rfl, [], .empty⟩

theorem exists_arrived_afterAll (h : Host) (ops : List Operation) :
    ∃ s h', afterAll (.memory .empty, h) ops = (.memory s, h') ∧ ∃ ids, s.Arrived ids := by
  induction ops using List.reverseRecOn with
  | nil => exact ⟨.empty, h, rfl, [], .empty⟩
  | append_singleton ops op ih =>
    obtain ⟨s, h', hx, hs⟩ := ih
    have hsplit : afterAll (.memory .empty, h) (ops ++ [op]) =
        op.work.after (afterAll (.memory .empty, h) ops) := by
      rw [afterAll, List.foldl_append]
      rfl
    rw [hsplit, hx]
    exact exists_arrived_work hs op

/-- A search in memory gives a window of the ranking, and counts all of it. -/
theorem search_memory (backend : String) (q : TokenQuery) (offset limit : Nat) :
    search ⟨backend, .tokens q⟩ offset limit (.memory s, h) =
      .ok ⟨(((s.ranking q).drop offset).take limit).map fun m => ⟨m.2.1, m.1, m.2.2.stored⟩,
        some (s.docs.entries.countP fun e => (e.2.score q).isSome)⟩ (.memory s, h) := by
  rw [← Memory.Store.length_ranking, search, work_memory]
  rfl

/-- **Searches in memory are windows of a ranking.** After any operations on a new store in memory,
its entries have different numbers, all of them below the next one. The hits of a query can be ranked
in one way, whatever order the entries are gone through in; a search gives the window that it is asked
for, and the number of all hits. A document that replaces another comes last. -/
theorem memory_ranked (h : Host) (ops : List Operation) :
    ∃ s h', afterAll (.memory .empty, h) ops = (.memory s, h') ∧
      (s.docs.entries.map (·.2.seq)).Nodup ∧ (∀ e ∈ s.docs.entries, e.2.seq < s.nextSeq) ∧
      (∀ q : TokenQuery, ∃ ranked,
        (∀ hits, Memory.Store.IsRanking s.docs.entries q hits ↔ hits = ranked) ∧
        (∀ es, es.Perm s.docs.entries → Memory.Store.rankingOf es q = ranked) ∧
        ∀ backend offset limit, search ⟨backend, .tokens q⟩ offset limit (.memory s, h') =
          .ok ⟨((ranked.drop offset).take limit).map fun m => ⟨m.2.1, m.1, m.2.2.stored⟩,
            some (s.docs.entries.countP fun e => (e.2.score q).isSome)⟩ (.memory s, h')) ∧
      ∀ d id, ∃ t, index d (some id) (.memory s, h') = .ok id (.memory t, h') ∧
        t.documents = s.documents.filter (·.id ≠ id) ++ [⟨id, d.stored⟩] := by
  obtain ⟨s, h', hx, ids, hs⟩ := exists_arrived_afterAll h ops
  have hids : (s.docs.entries.map (·.1)).Nodup := KeyMap.nodup_keys
  refine ⟨s, h', hx, hs.nodup_seqs, hs.seq_lt, fun q => ⟨s.ranking q, fun hits => ?_, fun es hes =>
    Memory.Store.rankingOf_eq_of_perm hids hs.nodup_seqs hes, fun backend offset limit =>
    search_memory backend q offset limit⟩, fun d id => ⟨_, rfl, hs.documents_index id d⟩⟩
  have hranking := Memory.Store.isRanking_rankingOf (q := q) hids hs.nodup_seqs
  constructor
  · exact fun hhits => hhits.eq hranking
  · rintro rfl
    exact hranking

def tagged (title : String) : PreparedDocument :=
  ⟨[⟨"tag", .exactMatch, [.text "red"], [.text title]⟩]⟩

def reshelved : Memory.Store :=
  ((Memory.Store.empty.index "a" (tagged "1st")).index "b" (tagged "2nd")).index "a" (tagged "3rd")

theorem rankingOf_reshelved :
    (Memory.Store.rankingOf reshelved.docs.entries.reverse (.field "tag" ["red"])).map
        (fun m => (⟨m.2.1, m.1, m.2.2.stored⟩ : SearchHit)) =
      [⟨"b", .ofNat 1, ⟨[("tag", .text "2nd")]⟩⟩, ⟨"a", .ofNat 1, ⟨[("tag", .text "3rd")]⟩⟩] := by
  rw [Memory.Store.rankingOf, List.mergeSort_of_pairwise]
  · rfl
  · decide +kernel

def reshelving : List Operation :=
  [.index (tagged "1st") (some "a"), .index (tagged "2nd") (some "b"),
    .index (tagged "3rd") (some "a")]

/-- Hits of the same score come in the order of their documents: the one that was replaced is last,
and the second window of one hit has it. -/
theorem memory_ranked_reshelved :
    search ⟨Memory.backendName, .tokens (.field "tag" ["red"])⟩ 1 1
        (afterAll (.memory .empty, .initial Text.stems [] (.fresh true) "") reshelving) =
      .ok ⟨[⟨"a", .ofNat 1, ⟨[("tag", .text "3rd")]⟩⟩], some 2⟩
        (.memory reshelved, .initial Text.stems [] (.fresh true) "") := by
  obtain ⟨s, h, hx, -, -, hqueries, -⟩ :=
    memory_ranked (.initial Text.stems [] (.fresh true) "") reshelving
  obtain ⟨ranked, -, hranked, hsearch⟩ := hqueries (.field "tag" ["red"])
  obtain ⟨rfl, rfl⟩ : reshelved = s ∧ .initial Text.stems [] (.fresh true) "" = h := by
    cases hx
    exact ⟨rfl, rfl⟩
  have hhits := rankingOf_reshelved
  rw [hranked _ (List.reverse_perm _)] at hhits
  rw [hx, hsearch, List.map_take, List.map_drop, hhits]
  rfl

end Driver

end Searchlight
