import Searchlight.Proofs.SetStore.Compiling

/-!
# Documents on file

Stores of one key space register fields, index, delete and search, and some numbers of the counter
may be in use as ids that were given (`Filed`). Whatever was in the place of a document before, the
server then has the ids of the documents that were indexed last and what is stored of each. What it
notes for an id are posting keys, and no search has left anything behind (`Filed.holds`).
-/

namespace Searchlight.SetStore

/-- The documents that stores of a key space were given, as each was indexed last. The stores began
empty, and were asked to register fields, to index, to delete and to search, in any order; they may
be refused. -/
inductive Filed (k : KeySpace) : KeyMap PreparedDocument → Server → Prop where
  | empty {v : Server} (h : ∀ rest, v.keys.get? (k.stem ++ (":" ++ rest)) = none) : Filed k ∅ v
  /-- Others work on other keys, and the server may answer or not. -/
  | others {docs : KeyMap PreparedDocument} {v v' : Server} (h : Filed k docs v)
      (hsame : ∀ rest, v'.keys.get? (k.stem ++ (":" ++ rest)) = v.keys.get? (k.stem ++ (":" ++ rest))) :
      Filed k docs v'
  | registered {docs : KeyMap PreparedDocument} {v : Server} (h : Filed k docs v) {s : Store}
      (hs : s.keys = k) (name : String) (config : FieldConfig) :
      Filed k docs ((Store.registerField name config).after (s, v)).2
  | indexed {docs : KeyMap PreparedDocument} {v : Server} (h : Filed k docs v) {s : Store}
      (hs : s.keys = k) {d : PreparedDocument} {given : Option String} {id : String}
      (hok : (Store.index d given).outcome (s, v) = .ok id) :
      Filed k (docs.insert id d) ((Store.index d given).after (s, v)).2
  | deleted {docs : KeyMap PreparedDocument} {v : Server} (h : Filed k docs v) {s : Store}
      (hs : s.keys = k) {id : String} (hok : (Store.delete id).outcome (s, v) = .ok ()) :
      Filed k (docs.erase id) ((Store.delete id).after (s, v)).2
  | indexRefused {docs : KeyMap PreparedDocument} {v : Server} (h : Filed k docs v) {s : Store}
      (hs : s.keys = k) {d : PreparedDocument} {given : Option String} {e : Error}
      (herr : (Store.index d given).outcome (s, v) = .error e) :
      Filed k docs ((Store.index d given).after (s, v)).2
  | deleteRefused {docs : KeyMap PreparedDocument} {v : Server} (h : Filed k docs v) {s : Store}
      (hs : s.keys = k) {id : String} {e : Error}
      (herr : (Store.delete id).outcome (s, v) = .error e) :
      Filed k docs ((Store.delete id).after (s, v)).2
  | searched {docs : KeyMap PreparedDocument} {v : Server} (h : Filed k docs v) {s : Store}
      (hs : s.keys = k) (plan : Plan) (offset limit : Nat) :
      Filed k docs ((Store.search plan offset limit).after (s, v)).2

/-- The server has the ids of the documents and what is stored of them. What is noted for any id are
posting keys, so that to unlink it leaves everything else, and there are no temporary results. -/
structure Holds (k : KeySpace) (docs : KeyMap PreparedDocument) (v : Server) : Prop where
  inOrder : v.InOrder k
  stored : ∀ id, (v.trace k id).stored = docs.contains id
  data : ∀ id, (v.trace k id).data = (docs.get? id).map fun d => .text d.stored.toJsonText
  noted : ∀ id key, (v.trace k id).terms key = true → k.IsPostingKey key
  temp : ∀ name, v.keys.get? ((Role.temp name).key k) = none

variable {k : KeySpace} {docs docs' : KeyMap PreparedDocument} {v v' : Server} {id : String}

namespace Holds

theorem isPostingKey_of_noted (hv : Holds k docs v) {id key : String}
    (h : key ∈ (v.sets (k.terms id)).keys) : k.IsPostingKey key :=
  hv.noted id key (KeyMap.mem_keys.1 h)

theorem idSets_noted (hv : Holds k docs v) (id : String) : IdSets k (v.sets (k.terms id)).keys := by
  intro key h
  obtain ⟨r, hr, hkey⟩ := hv.isPostingKey_of_noted h
  exact ⟨r, .inr hr, hkey⟩

/-- What a server holds depends on the traces of the ids and the temporary keys. -/
theorem of_traces (hv : Holds k docs v) (horder : v'.InOrder k)
    (h : ∀ i, v'.trace k i = v.trace k i)
    (htemp : ∀ name, v'.keys.get? ((Role.temp name).key k) = v.keys.get? ((Role.temp name).key k)) :
    Holds k docs v' where
  inOrder := horder
  temp name := (htemp name).trans (hv.temp name)
  stored i := by rw [h, hv.stored]
  data i := by rw [h, hv.data]
  noted i := by
    rw [h]
    exact hv.noted i

theorem of_sameTraces (hv : Holds k docs v) (hsame : SameTraces k v v')
    (htemp : ∀ name, v'.keys.get? ((Role.temp name).key k) = v.keys.get? ((Role.temp name).key k)) :
    Holds k docs v' :=
  hv.of_traces (hsame.inOrder hv.inOrder) hsame.trace htemp

theorem not_contains_temp (hv : Holds k docs v) {run : String} (n : Nat) :
    v.keys.contains (k.temp run n) = false := by
  rw [KeySpace.temp_eq_key, KeyMap.contains, hv.temp]
  rfl

/-- Work that touches one id leaves what is held of the others. -/
theorem of_touches (hv : Holds k docs v) (htouches : Touches k id v v')
    (hdocs : ∀ i, i ≠ id → docs'.get? i = docs.get? i)
    (hstored : (v'.trace k id).stored = docs'.contains id)
    (hdata : (v'.trace k id).data = (docs'.get? id).map fun d => .text d.stored.toJsonText)
    (hnoted : ∀ key, (v'.trace k id).terms key = true → k.IsPostingKey key) :
    Holds k docs' v' := by
  have hother {i : String} (hi : i ≠ id) : v'.trace k i = v.trace k i :=
    htouches.trace hv.inOrder i hi
  refine ⟨htouches.inOrder hv.inOrder, fun i => ?_, fun i => ?_, fun i => ?_,
    fun name => (htouches.temp name).trans (hv.temp name)⟩ <;> by_cases hi : i = id
  · rwa [hi]
  · rw [hother hi, hv.stored, KeyMap.contains, KeyMap.contains, hdocs i hi]
  · rwa [hi]
  · rw [hother hi, hv.data, hdocs i hi]
  · rwa [hi]
  · rw [hother hi]
    exact hv.noted i

section
variable (hk : KeySpace.IsValidStem k.stem)
include hk

theorem docs_notMem {keys : List String}
    (h : ∀ key ∈ keys, k.IsPostingKey key) : k.docs ∉ keys := by
  intro hmem
  obtain ⟨r, hr, heq⟩ := h _ hmem
  rw [KeySpace.docs_eq_key, Role.key_eq_key_iff hk] at heq
  subst heq
  simp [Role.IsPosting] at hr

theorem link (hv : Holds k docs v) (id : String) {previous : List String}
    (hprevious : ∀ key ∈ previous, k.IsPostingKey key) (d : PreparedDocument) :
    Holds k (docs.insert id d) (v.runAll (Store.link k id previous d)).1 := by
  have hsets : IdSets k previous := fun key h =>
    (hprevious key h).imp fun _ hr => ⟨.inr hr.1, hr.2⟩
  have htrace : (v.runAll (Store.link k id previous d)).1.trace k id = _ :=
    trace_link hk hv.inOrder hsets (docs_notMem hk hprevious) d
  refine hv.of_touches (touches_runAll hk (concerns_link id hsets d)) (fun i hi => ?_) ?_ ?_
    fun key hkey => ?_
  · rw [KeyMap.get?_insert, if_neg (Ne.symm hi)]
  · simp [htrace, Trace.of]
  · simp [htrace, Trace.of]
  · exact k.exists_role_of_mem_postings (by simpa [htrace, Trace.of] using hkey)

theorem unlink (hv : Holds k docs v) (id : String) :
    Holds k (docs.erase id)
      (v.runAll (Store.unlink k id (v.sets (k.terms id)).keys ++ [.remove k.docs [id]])).1 := by
  have hsets := hv.idSets_noted id
  have htrace : (v.runAll (Store.unlink k id (v.sets (k.terms id)).keys ++
      [.remove k.docs [id]])).1.trace k id = _ :=
    trace_delete hk hv.inOrder hsets (docs_notMem hk fun _ => hv.isPostingKey_of_noted)
  refine hv.of_touches (touches_runAll hk (concerns_delete id hsets)) (fun i hi => ?_) ?_ ?_
    fun key hkey => ?_
  · rw [KeyMap.get?_erase, if_neg (Ne.symm hi)]
  · simp [htrace, Trace.of, KeyMap.contains_erase]
  · simp [htrace, Trace.of]
  · simp [htrace, Trace.of] at hkey

end

end Holds

theorem holds_empty (h : ∀ r : Role, v.keys.get? (r.key k) = none) : Holds k ∅ v := by
  have hsets (r : Role) : v.sets (r.key k) = ∅ := Server.sets_of_get?_eq_none (h r)
  refine ⟨Server.inOrder_of_none h, fun i => ?_, fun i => ?_, fun i key hkey => ?_, fun _ => h _⟩
  · simp [Server.trace, KeySpace.docs_eq_key, hsets]
  · simp [Server.trace, KeySpace.data_eq_key, h]
  · simp [Server.trace, KeySpace.terms_eq_key, hsets] at hkey

/-- **What is held** by every server that is reached. -/
theorem Filed.holds (hk : KeySpace.IsValidStem k.stem) (h : Filed k docs v) : Holds k docs v := by
  induction h with
  | empty h => exact holds_empty fun r => h _
  | others h hsame ih =>
    exact ih.of_traces (fun r x hx => ih.inOrder r x (hsame _ ▸ hx))
      (Server.trace_congr_roles fun r => hsame _) fun name => hsame _
  | registered h hs name config ih =>
    subst hs
    exact ih.of_sameTraces (Store.sameTraces_registerField hk name config)
      fun _ => Store.get?_registerField hk (by simp) name config
  | @indexed docs v h s hs d given id hok ih =>
    subst hs
    rcases Store.index_cases hk ih.inOrder ih.idSets_noted d given with
      ⟨id', v₀, previous, hrun, hcase⟩ | ⟨e, hrun⟩
    · rw [Action.outcome, hrun] at hok
      cases hok
      rw [Action.after, hrun]
      rcases hcase with ⟨-, rfl, rfl⟩ | ⟨-, rfl, rfl⟩
      · exact ih.link hk id (fun _ => ih.isPostingKey_of_noted) d
      · refine (ih.of_sameTraces ((Store.beside_increment hk).sameTraces hk) fun name => ?_).link hk id
          (by simp) d
        refine Server.get?_run_of_notMem ?_
        rw [Command.writes, List.mem_singleton, KeySpace.nextId_eq_key, Role.key_eq_key_iff hk]
        simp
    · rw [Action.outcome, hrun] at hok
      cases hok
  | @deleted docs v h s hs id hok ih =>
    subst hs
    rcases Store.delete_cases hk ih.inOrder ih.idSets_noted id with hrun | ⟨e, hrun⟩
    · rw [Action.after, hrun]
      exact ih.unlink hk id
    · rw [Action.outcome, hrun] at hok
      cases hok
  | @indexRefused docs v h s hs d given e herr ih =>
    subst hs
    rcases Store.index_cases hk ih.inOrder ih.idSets_noted d given with
      ⟨_, _, _, hrun, -⟩ | ⟨_, hrun⟩
    · rw [Action.outcome, hrun] at herr
      cases herr
    · rw [Action.after, hrun]
      exact ih
  | @deleteRefused docs v h s hs id e herr ih =>
    subst hs
    rcases Store.delete_cases hk ih.inOrder ih.idSets_noted id with hrun | ⟨_, hrun⟩
    · rw [Action.outcome, hrun] at herr
      cases herr
    · rw [Action.after, hrun]
      exact ih
  | searched h hs plan offset limit ih =>
    subst hs
    refine ih.of_sameTraces (Store.sameTraces_search hk plan offset limit) fun name => ?_
    rw [Store.keys_search ih.not_contains_temp]

/-- A document that was indexed is on file, and the server goes on to answer. -/
theorem Filed.index_ok {s : Store} (hk : KeySpace.IsValidStem s.keys.stem) (h : Filed s.keys docs v)
    {d : PreparedDocument} {given : Option String} {x : Store × Server}
    (hrun : Store.index d given (s, v) = .ok id x) :
    x.1 = s ∧ s.Serves x.2 ∧ Filed s.keys (docs.insert id d) x.2 := by
  have hv := h.holds hk
  have hfiled := h.indexed rfl (Action.outcome_eq_ok.2 ⟨x, hrun⟩)
  rw [Action.after, hrun] at hfiled
  have hw : s.Writes v := by
    by_contra hw
    obtain ⟨e, he⟩ := Store.index_refused hw d given
    rw [he] at hrun
    cases hrun
  rcases Store.index_cases hk hv.inOrder hv.idSets_noted d given with
    ⟨id', v₀, previous, hindex, hcase⟩ | ⟨e, hindex⟩ <;> rw [hrun] at hindex <;> cases hindex
  refine ⟨rfl, hw.2.congr ?_, hfiled⟩
  have hlink := v₀.answering_runAll (Store.link s.keys id previous d)
  rcases hcase with ⟨-, rfl, -⟩ | ⟨-, rfl, -⟩
  · exact hlink
  · exact ⟨hlink.1.trans (v.answering_run _).1, hlink.2.trans (v.answering_run _).2⟩

end Searchlight.SetStore
