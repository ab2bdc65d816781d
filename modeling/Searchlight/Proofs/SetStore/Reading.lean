import Mathlib.Data.List.ReduceOption
import Searchlight.Proofs.SetStore.Compiling

/-!
# What readers of a store on a key server are given

A store loads what is under the data key of an id (`Server.load`), lists the ids in ascending order
and finds ids by a program over posting sets, in windows that the server takes (`takes`). The hits of a
search are the documents that the ids of its window load, no more and no less: such a search fails
just when one of these cannot be loaded (`outcome_search`).
-/

namespace Searchlight.SetStore

variable {k : KeySpace} {s : Store} {v v' : Server} {id : String} {plan : Plan} {offset limit : Nat}

/-! ## Windows -/

/-- The server takes the numbers of the window, or it is empty and the server is not asked. -/
def takes (offset limit : Nat) : Bool :=
  limit == 0 || decide (offset < Server.numberBound ∧ limit < Server.numberBound)

theorem lt_numberBound_of_takes (h : takes offset limit = true) (hlimit : limit ≠ 0) :
    offset < Server.numberBound ∧ limit < Server.numberBound := by
  simpa [takes, hlimit] using h

theorem sorted_refused (h : takes offset limit = false) :
    limit ≠ 0 ∧ ∀ (v : Server) key, v.run (.sorted key offset limit) = (v, Server.outOfRange) := by
  have hlimit : limit ≠ 0 := by
    rintro rfl
    cases h
  have hbounds : ¬(offset < Server.numberBound ∧ limit < Server.numberBound) := by
    simpa [takes, hlimit] using h
  exact ⟨hlimit, fun v key => by rw [Server.run, if_neg hbounds]⟩

/-! ## Data -/

def Reply.ofText? : Option String → Reply
  | some t => text t
  | none => absent

theorem Reply.listOf?_ofText? (ts : List (Option String)) :
    (list (ts.map ofText?)).listOf? optionalText? = some ts := by
  simp only [listOf?]
  induction ts with
  | nil => rfl
  | cons t ts ih =>
    rw [List.map_cons, List.mapM_cons, ih]
    cases t <;> rfl

namespace Server

def json? (v : Server) (k : KeySpace) (id : String) : Option String :=
  match v.keys.get? (k.data id) with
  | some (.text json) => some json
  | _ => none

/-- What there is to load under an id. -/
def load (v : Server) (k : KeySpace) (id : String) : Except Error (Option StoredDocument) :=
  match v.json? k id with
  | none => .ok none
  | some json => (Store.storedOf json).map fun d => some ⟨id, d⟩

theorem run_getAll (v : Server) (k : KeySpace) (ids : List String) :
    v.run (.getAll (ids.map k.data)) = (v, .list ((ids.map (v.json? k)).map .ofText?)) := by
  simp only [run, List.map_map, Prod.mk.injEq, Reply.list.injEq, true_and]
  refine List.map_congr_left fun i _ => ?_
  simp only [Function.comp_apply, json?]
  rcases v.keys.get? (k.data i) with _ | (_ | _ | _) <;> rfl

theorem load_congr (h : v'.keys.get? (k.data id) = v.keys.get? (k.data id)) :
    v'.load k id = v.load k id := by
  rw [load, load, json?, json?, h]

end Server

def hitOf (d : StoredDocument) : SearchHit := ⟨d.id, .ofNat 1, d.fields⟩

namespace Store

theorem hitsOf_eq (v : Server) (k : KeySpace) (ids : List String) :
    hitsOf (ids.zip (ids.map (v.json? k))) =
      (ids.mapM (v.load k)).map fun ds => ds.reduceOption.map hitOf := by
  induction ids with
  | nil => rfl
  | cons i ids ih =>
    rw [List.map_cons, List.zip_cons_cons, List.mapM_cons]
    rw [hitsOf] at ih ⊢
    cases hjson : v.json? k i with
    | none =>
      rw [List.filterMap_cons_none (by rfl), ih]
      simp only [Server.load, hjson]
      cases ids.mapM (v.load k) <;> rfl
    | some json =>
      rw [List.filterMap_cons_some (b := (i, json)) (by rfl), List.mapM_cons, ih]
      simp only [Server.load, hjson]
      cases storedOf json with
      | error e => rfl
      | ok d => cases ids.mapM (v.load k) <;> rfl

section
variable (hv : v.InOrder s.keys) (hs : s.Serves v)
include hv hs

theorem get?_run (id : String) :
    get? id (s, v) = Action.ofExcept (v.load s.keys id) (s, v) := by
  have hrun : (v.run (.get (s.keys.data id))).1 = v ∧
      accept readFailure Reply.optionalText? (v.run (.get (s.keys.data id))).2 =
        .ok (v.json? s.keys id) := by
    have hkind (x : Datum) (hx : v.keys.get? (s.keys.data id) = some x) : x.kind = .text := by
      rw [KeySpace.data_eq_key] at hx
      exact hv (.data id) x hx
    rw [Server.run, Server.json?]
    cases hx : v.keys.get? (s.keys.data id) with
    | none => exact ⟨rfl, rfl⟩
    | some x =>
      have := hkind x hx
      cases x with
      | text t => exact ⟨rfl, rfl⟩
      | hash => cases this
      | set => cases this
  rw [get?, Action.get_bind]
  dsimp only
  rw [Action.bind_run, ask_of_serves hs]
  simp only [hrun, Server.load]
  cases v.json? s.keys id with
  | none => rfl
  | some json =>
    simp only [Action.bind_run, Action.ofExcept_run]
    cases storedOf json <;> rfl

theorem ids_run (htakes : takes offset limit = true) :
    ids offset limit (s, v) =
      .ok ((((v.sets s.keys.docs).keys).drop offset).take limit) (s, v) := by
  by_cases hlimit : limit = 0
  · simp [ids, hlimit]
  · have hbounds := lt_numberBound_of_takes htakes hlimit
    obtain ⟨m, hm⟩ := hv.set? (r := .docs) rfl
    rw [← KeySpace.docs_eq_key] at hm
    have hrun : v.run (.sorted s.keys.docs offset limit) =
        (v, .list (((m.keys.drop offset).take limit).map .text)) := by
      simp [Server.run, hm, hbounds]
    simp only [ids, if_neg hlimit, Action.get_bind, ask_of_serves hs, hrun, accept,
      Reply.listOf?_text, Server.sets_eq_of_set? hm]

omit hv in
theorem ids_refused (htakes : takes offset limit = false) :
    ∃ e, ids offset limit (s, v) = .error e (s, v) := by
  obtain ⟨hlimit, hrun⟩ := sorted_refused htakes
  simp only [ids, if_neg hlimit, Action.get_bind, ask_of_serves hs, hrun]
  exact ⟨_, rfl⟩

end

end Store

/-! ## Searching -/

namespace KeySpace

def IsSetKey (k : KeySpace) (key : String) : Prop := ∃ r : Role, r.kind = .set ∧ key = r.key k

theorem IsPostingKey.isSetKey {key : String} (h : k.IsPostingKey key) : k.IsSetKey key :=
  h.imp fun _ hr => ⟨hr.1.kind, hr.2⟩

theorem isPostingKey_iff {key : String} :
    k.IsPostingKey key ↔ (∃ f t, key = k.posting f t) ∨ ∃ t, key = k.anyField t := by
  constructor
  · rintro ⟨r, ⟨f, t, rfl⟩ | ⟨t, rfl⟩, rfl⟩
    · exact .inl ⟨f, t, (k.posting_eq_key f t).symm⟩
    · exact .inr ⟨t, (k.anyField_eq_key t).symm⟩
  · rintro (⟨f, t, rfl⟩ | ⟨t, rfl⟩)
    · exact ⟨_, .inl ⟨f, t, rfl⟩, k.posting_eq_key f t⟩
    · exact ⟨_, .inr ⟨t, rfl⟩, k.anyField_eq_key t⟩

end KeySpace

/-- Queries are translated to plans over posting keys. -/
theorem over_of_translate {schema : Schema} {q : Query}
    (h : q.translate capabilities backendName (translator k schema) = .ok plan) :
    plan.Over k.IsPostingKey := by
  have hkeys : k.IsPostingKey = fun key => (∃ f t, key = k.posting f t) ∨ ∃ t, key = k.anyField t :=
    funext fun _ => propext KeySpace.isPostingKey_iff
  rw [hkeys]
  exact Query.fold_hereditary (translator_over k schema) (Query.translate_eq_ok_iff.1 h).2

namespace Program

theorem isSetKey_of_mem_temps {run key : String} (h : key ∈ (compile k run plan).temps) :
    k.IsSetKey key := by
  obtain ⟨n, rfl⟩ := (writes_compileFrom (k.temp run) 0 plan).2 key h
  exact ⟨_, rfl, k.temp_eq_key run n⟩

theorem isSetKey_of_mem_steps (hplan : plan.Over k.IsPostingKey) {run : String} {step : Step}
    (hstep : step ∈ (compile k run plan).steps) :
    k.IsSetKey step.dest ∧ ∀ key ∈ step.sources, k.IsSetKey key := by
  have hdests := (writes_compileFrom (k.temp run) 0 plan).1
  refine ⟨isSetKey_of_mem_temps (hdests step hstep), fun key hkey => ?_⟩
  obtain ⟨before, after, hsteps⟩ := List.append_of_mem hstep
  have hall : Settled _ (compile k run plan).steps := settled_compileFrom hplan 0
  rcases hall before step after hsteps key hkey with (h | h) | h
  · exact h.isSetKey
  · exact isSetKey_of_mem_temps (List.of_mem_zip h).2
  · obtain ⟨step', hstep', rfl⟩ := List.mem_map.1 h
    have hmem : step' ∈ (compile k run plan).steps := by
      rw [hsteps]
      exact List.mem_append_left _ hstep'
    exact isSetKey_of_mem_temps (hdests step' hmem)

end Program

namespace Server

theorem InOrder.isSome_set? (hv : v.InOrder k) {key : String} (h : k.IsSetKey key) :
    ∃ m, v.set? key = some m := by
  obtain ⟨r, hr, rfl⟩ := h
  exact hv.set? hr

theorem length_runAll (v : Server) (cs : List Command) : (v.runAll cs).2.length = cs.length := by
  induction cs generalizing v with
  | nil => rfl
  | cons c cs ih => rw [runAll_cons, List.length_cons, List.length_cons, ih]

theorem InOrder.runAll_store (hv : v.InOrder k) {steps : List Step}
    (h : ∀ step ∈ steps, k.IsSetKey step.dest ∧ ∀ key ∈ step.sources, k.IsSetKey key) :
    (v.runAll (steps.map .store)).1.InOrder k ∧
      ∀ reply ∈ (v.runAll (steps.map .store)).2, reply.Succeeds := by
  induction steps generalizing v with
  | nil => exact ⟨hv, by simp [Server.runAll]⟩
  | cons step steps ih =>
    obtain ⟨⟨⟨r, hr, hdest⟩, hsources⟩, hrest⟩ := List.forall_mem_cons.1 h
    have hfits : (Command.store step).Fits k := by
      intro r' hr'
      rw [← Role.key_injective k (hdest.symm.trans hr'), hr]
    obtain ⟨ms, hms⟩ : ∃ ms, step.sources.mapM v.set? = some ms := by
      rw [← Option.isSome_iff_exists, Option.isSome_mapM, List.all_eq_true]
      exact fun key hkey => Option.isSome_iff_exists.2 (hv.isSome_set? (hsources key hkey))
    obtain ⟨horder, hreplies⟩ := ih (hv.run hfits) hrest
    rw [List.map_cons, runAll_cons]
    refine ⟨horder, List.forall_mem_cons.2 ⟨?_, hreplies⟩⟩
    simp only [Server.run, hms]
    trivial

end Server

namespace Store

/-- What the commands of a search are answered: the size of the result and a window of it that the
server takes. -/
theorem runAll_searchCommands (hv : v.InOrder k) (hplan : plan.Over k.IsPostingKey) {run : String}
    (hfresh : ∀ n, v.keys.contains (k.temp run n) = false) :
    ∃ m : TextSet, (∀ id, m.contains id = plan.holds v.sets id) ∧
      ∀ offset limit, takes offset limit = true →
        let replies := (v.runAll (searchCommands (.compile k run plan) offset limit)).2
        (∀ reply ∈ replies, reply.Succeeds) ∧
          searchAnswer (.compile k run plan) limit replies =
            .ok (m.size % UInt64.size, (m.keys.drop offset).take limit) := by
  obtain ⟨horder, hsteps⟩ := hv.runAll_store
    fun step (hstep : step ∈ (Program.compile k run plan).steps) =>
      Program.isSetKey_of_mem_steps hplan hstep
  obtain ⟨m, hm, hholds⟩ : Program.StoredAt v.sets plan
      (v.runAll ((Program.compile k run plan).steps.map .store)).1
      (Program.compile k run plan).result := by
    refine Program.storedAt_compileFrom (k.temp_injective run) (k.not_isPostingKey_temp run) hplan
      (fun key hkey => ?_) fun n _ => ?_
    · obtain ⟨m, hm⟩ := hv.isSome_set? hkey.isSetKey
      rw [hm, Server.sets_eq_of_set? hm]
    · exact Option.isNone_iff_eq_none.1 (Option.isSome_eq_false_iff.1 (hfresh n))
  refine ⟨m, hholds, fun offset limit htakes => ?_⟩
  generalize hp : Program.compile k run plan = p at *
  generalize hw : v.runAll (p.steps.map .store) = w at *
  generalize hids : (m.keys.drop offset).take limit = ids
  -- The size and the window are read off the result, then it goes.
  have hcount : w.1.runAll [.cardinality p.result] = (w.1, [.integer m.size]) := by
    simp [Server.runAll, Server.run, hm]
  have hwindow : w.1.runAll (if limit = 0 then [] else [.sorted p.result offset limit]) =
      (w.1, if limit = 0 then [] else [.list (ids.map .text)]) := by
    split
    · rfl
    · rename_i hlimit
      simp only [Server.runAll, Server.run, hm, hids, lt_numberBound_of_takes htakes hlimit,
        and_self, if_true]
  obtain ⟨gone, hgone, hdelete⟩ : ∃ gone : List Reply, (∀ reply ∈ gone, reply.Succeeds) ∧
      (w.1.runAll (if p.temps.isEmpty then [] else [.delete p.temps])).2 = gone := by
    refine ⟨_, ?_, rfl⟩
    split
    · exact List.forall_mem_nil _
    · exact List.forall_mem_singleton.2 trivial
  have hlength : w.2.length = p.steps.length := by
    rw [← hw, Server.length_runAll, List.length_map]
  have hanswers : (v.runAll (searchCommands p offset limit)).2 =
      w.2 ++ ([.integer m.size] ++
        ((if limit = 0 then [] else [.list (ids.map .text)]) ++ gone)) := by
    simp only [searchCommands, Server.runAll_append, hw, hcount, hwindow, hdelete, List.append_assoc]
  rw [hanswers]
  refine ⟨?_, ?_⟩
  · simp only [List.forall_mem_append]
    refine ⟨hsteps, List.forall_mem_singleton.2 trivial, ?_, hgone⟩
    split
    · exact List.forall_mem_nil _
    · exact List.forall_mem_singleton.2 trivial
  · rw [searchAnswer, ← hlength, List.drop_left]
    by_cases hlimit : limit = 0
    · simp [hlimit, accept, Reply.nat?_integer, bind, Except.bind, ← hids]
    · simp [hlimit, accept, Reply.nat?_integer, Reply.listOf?_text, bind, Except.bind]

/-- **A search** finds the ids that the plan stands for, and gives what those of a window load. -/
theorem outcome_search (hk : KeySpace.IsValidStem s.keys.stem) (hv : v.InOrder s.keys)
    (hs : s.Serves v) (hplan : plan.Over s.keys.IsPostingKey)
    (hfresh : ∀ n, v.keys.contains (s.keys.temp runLabel n) = false) :
    ∃ found : List String, (∀ i, i ∈ found ↔ i ∈ v.matched plan) ∧ ∀ offset limit,
      takes offset limit = true → (search plan offset limit).outcome (s, v) =
        (((found.drop offset).take limit).mapM (v.load s.keys)).map fun ds =>
          ⟨ds.reduceOption.map hitOf, some (found.length % UInt64.size)⟩ := by
  obtain ⟨m, hholds, hm⟩ := runAll_searchCommands hv hplan hfresh
  refine ⟨m.keys, fun i => ?_, fun offset limit htakes => ?_⟩
  · rw [KeyMap.mem_keys, hholds]
    rfl
  obtain ⟨hsucceeds, hanswer⟩ := hm offset limit htakes
  have hsame : SameTraces s.keys v
      (v.runAll (searchCommands (.compile s.keys runLabel plan) offset limit)).1 :=
    sameTraces_runAll hk (beside_searchCommands hk runLabel plan offset limit)
  rw [Action.outcome, search, Action.get_bind]
  dsimp only
  rw [Action.bind_of_ok (transact_of_succeeds hs _ hsucceeds), hanswer]
  generalize (m.keys.drop offset).take limit = ids
  generalize (v.runAll (searchCommands (.compile s.keys runLabel plan) offset limit)).1 = w at hsame
  have hsize : m.keys.length = m.size := List.length_map _
  have hload : v.load s.keys = w.load s.keys :=
    funext fun i => (Server.load_congr (congrArg Trace.data (hsame.trace i))).symm
  rw [hsize, hload]
  cases ids with
  | nil => rfl
  | cons i ids =>
    have hask : ask readFailure (.getAll ((i :: ids).map s.keys.data))
        (Reply.listOf? Reply.optionalText?) (s, w) =
          .ok ((i :: ids).map (w.json? s.keys)) (s, w) := by
      rw [ask_of_serves (hs.congr hsame.answering), Server.run_getAll]
      simp only [accept, Reply.listOf?_ofText?]
    rw [Action.bind_run, Action.ofExcept_run]
    dsimp only
    rw [if_neg (by simp), Action.bind_run, hask]
    dsimp only
    rw [hitsOf_eq, Action.bind_run, Action.ofExcept_run]
    cases (i :: ids).mapM (w.load s.keys) <;> rfl

theorem search_refused (plan : Plan) (hs : s.Serves v) (htakes : takes offset limit = false) :
    ∃ e x, search plan offset limit (s, v) = .error e x := by
  obtain ⟨hlimit, hrun⟩ := sorted_refused htakes
  have hcs : Server.outOfRange ∈
      (v.runAll (searchCommands (.compile s.keys runLabel plan) offset limit)).2 := by
    simp [searchCommands, if_neg hlimit, Server.runAll_append, Server.runAll, hrun]
  obtain ⟨e, x, htransact⟩ := transact_of_failure hs readFailure hcs
  rw [search, Action.get_bind]
  simp only [Action.bind_run, htransact]
  exact ⟨e, x, rfl⟩

end Store

end Searchlight.SetStore
