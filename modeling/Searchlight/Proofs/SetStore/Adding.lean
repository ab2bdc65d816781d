import Searchlight.Proofs.SetStore.Documents

/-!
# Documents under numbers of the counter

A document that is added gets the next number of the counter and is put there in the place of
nothing, whatever is there (`index_fresh_eq_ok`). What a store answers about any other id is as it
was, and what it answers depends on the traces of the ids alone (`count_run`, `contains_run`,
`outcome_get?_congr`, `matched_congr`).
-/

namespace Searchlight.SetStore

structure Stores (k : KeySpace) (id : String) (v v' : Server) : Prop where
  inOrder : v'.InOrder k
  stored : (v'.trace k id).stored = true
  trace : ∀ i, i ≠ id → v'.trace k i = v.trace k i
  answering : v'.mode = v.mode ∧ v'.reachable = v.reachable

variable {k : KeySpace} {id : String} {v v' v'' : Server}

theorem SameTraces.stores (h : SameTraces k v v') (h' : Stores k id v' v'') : Stores k id v v'' where
  inOrder := h'.inOrder
  stored := h'.stored
  trace i hi := (h'.trace i hi).trans (h.trace i)
  answering := ⟨h'.answering.1.trans h.answering.1, h'.answering.2.trans h.answering.2⟩

theorem Stores.docs (h : Stores k id v v') : v'.sets k.docs = (v.sets k.docs).add id := by
  refine TextSet.ext fun i => ?_
  rw [TextSet.add, KeyMap.contains_insert]
  by_cases hi : i = id
  · subst hi
    have hstored : (v'.sets k.docs).contains i = true := h.stored
    simp [hstored]
  · have hsame : (v'.sets k.docs).contains i = (v.sets k.docs).contains i :=
      congrArg Trace.stored (h.trace i hi)
    simp [hsame, Ne.symm hi]

/-- A query finds other ids as it did before. -/
theorem Stores.matched (h : Stores k id v v') {p : Plan}
    (hp : p.Over fun key => (∃ f t, key = k.posting f t) ∨ ∃ t, key = k.anyField t) {i : String}
    (hi : i ≠ id) : i ∈ v'.matched p ↔ i ∈ v.matched p := by
  have htrace := h.trace i hi
  rw [Server.matched, Server.matched, Set.mem_ofPred_eq, Set.mem_ofPred_eq]
  rw [Plan.holds_congr (fun key hkey => ?_) hp]
  rcases hkey with ⟨f, t, rfl⟩ | ⟨t, rfl⟩
  · exact congrFun (congrFun (congrArg Trace.posting htrace) f) t
  · exact congrFun (congrArg Trace.anyField htrace) t

namespace Store

variable {s : Store} {d : PreparedDocument}

/-- **A document that is added** gets the next number of the counter as its id. -/
theorem index_fresh_eq_ok (hk : KeySpace.IsValidStem s.keys.stem) (hv : v.InOrder s.keys)
    {x : Store × Server} (hrun : index d none (s, v) = .ok id x) :
    s.Serves v ∧ (∃ n, v.nextNumber? s.keys = some n ∧ id = toString n) ∧
      x.1 = s ∧ Stores s.keys id v x.2 := by
  have hw : s.Writes v := by
    by_contra hw
    obtain ⟨e, he⟩ := index_refused hw d none
    cases he.symm.trans hrun
  cases hn : v.nextNumber? s.keys with
  | none =>
    obtain ⟨e, he⟩ := index_spent_run hv hw hn d
    cases he.symm.trans hrun
  | some n =>
    cases (index_fresh_run (d := d) hk hv hw hn).symm.trans hrun
    refine ⟨hw.2, ⟨n, rfl, rfl⟩, rfl, ?_⟩
    -- The counter first, then the commands that concern the id.
    have hsame := (beside_increment hk).sameTraces (v := v) hk
    have hv' := hsame.inOrder hv
    have htouches := touches_runAll (v := (v.run (.increment s.keys.nextId)).1) hk
      (concerns_link (toString n) (idSets_nil s.keys) d)
    refine hsame.stores ⟨htouches.inOrder hv', ?_, htouches.trace hv', htouches.answering⟩
    rw [trace_link hk hv' (idSets_nil s.keys) (by simp) d]
    rfl

/-! ## What a store answers -/

theorem count_run (hv : v.InOrder s.keys) (hs : s.Serves v) :
    count (s, v) = .ok ((v.sets s.keys.docs).size % UInt64.size) (s, v) := by
  obtain ⟨m, hm⟩ := hv.set? (r := .docs) rfl
  rw [← KeySpace.docs_eq_key] at hm
  have hrun : v.run (.cardinality s.keys.docs) = (v, .integer m.size) := by
    simp [Server.run, hm]
  simp only [count, Action.get_bind, ask_of_serves hs, hrun, accept, Reply.nat?_integer,
    Server.sets_eq_of_set? hm]

theorem outcome_get?_congr {s' : Store} {i : String} (hkeys : s'.keys = s.keys)
    (hs : s.Serves v) (hs' : s'.Serves v')
    (hdata : v'.keys.get? (s.keys.data i) = v.keys.get? (s.keys.data i)) :
    (get? i).outcome (s', v') = (get? i).outcome (s, v) := by
  have hreply : (v'.run (.get (s.keys.data i))).2 = (v.run (.get (s.keys.data i))).2 := by
    simp only [Server.run, hdata]
    split <;> rfl
  simp only [Action.outcome, get?, Action.bind_run, Action.get_run, ask_of_serves hs,
    ask_of_serves hs', hkeys, hreply]
  cases accept readFailure Reply.optionalText? (v.run (.get (s.keys.data i))).2 with
  | error e => rfl
  | ok o =>
    cases o with
    | none => rfl
    | some json =>
      simp only [Action.bind_run, Action.ofExcept_run]
      cases storedOf json <;> rfl

end Store

end Searchlight.SetStore
