import Searchlight.Proofs.Client.Ending
import Searchlight.Proofs.Client.Views
import Searchlight.Proofs.Client.Windows
import Searchlight.Proofs.Driver.Reading
import Searchlight.Proofs.SetStore.Registrations
import Searchlight.Text.Stem

/-!
# Stores that were destroyed

A client that destroys a store on a key server takes the keys of the store away and no others, and a
client that is opened afterwards is shown a store without documents and fields
(`destroy_exact`). The first does not depend on how the server matches patterns and cuts its pages,
as long as it does so as promised.
-/

namespace Searchlight

namespace SetStore

def Server.Vacant (v : Server) (k : KeySpace) : Prop := ∀ key, k.Owns key → v.keys.get? key = none

variable {s : Store} {v : Server} {k : KeySpace}

theorem Server.Vacant.role (hv : v.Vacant k) (r : Role) : v.keys.get? (r.key k) = none :=
  hv _ (KeySpace.owns_key r)

theorem Server.Vacant.load (hv : v.Vacant k) (id : String) : v.load k id = .ok none := by
  rw [Server.load, Server.json?, k.data_eq_key, hv.role]

namespace Store

theorem serves_iff : s.Serves v ↔ (v.reachable = true ∧ v.mode = .normal) ∧ s.timeoutMs ≠ 0 := by
  cases hmode : v.mode <;> simp [Serves, Server.answers, hmode]

theorem loadSchema_of_vacant (hs : s.Serves v) (hv : v.Vacant s.keys) :
    loadSchema (s, v) = .ok .empty ({ s with schema := .empty }, v) := by
  have hhash : v.hash? s.keys.schema = some ∅ := by
    rw [Server.hash?, KeySpace.schema_eq_key, hv.role]
  rw [loadSchema, Action.get_bind]
  simp only [Action.bind_run, ask_of_serves hs, Server.run, hhash]
  rfl

theorem openWith_of_vacant {o : BackendOptions} (ho : ofOptions o = .ok s) (hs : s.Serves v)
    (hv : v.Vacant s.keys) : openWith o v = .ok { s with schema := .empty } v := by
  have hawait : await s.timeoutMs v = .ok () v := by
    simp [await, hs.1]
  rw [openWith, Action.bind_run, ho, Action.ofExcept_run]
  simp only [Action.bind_run, hawait, Action.get_run, loadSchema_of_vacant hs hv]
  rfl

end Store

end SetStore

open SetStore (Server KeySpace Scanner)

/-! ## Empty stores -/

namespace Client

variable {c c' : Client} {h h' : Host} {s : SetStore.Store}

/-- A client that asks for a window gets nothing: the window is empty, or the server refuses it. -/
def GetsNothing {α : Type} (x : Client × Host) (offset limit : Nat)
    (work : Action (Client × Host) (List α)) : Prop :=
  work.outcome x = .ok [] ∨
    x.1.driver.takes offset (min limit (max x.1.pageSize 1)) = false ∧
      ∃ e, work.outcome x = .error e

/-- A client is shown neither a document nor a field. -/
structure ShownNothing (x : Client × Host) : Prop where
  schema : x.1.schema = .empty
  count : documentCount.outcome x = .ok 0
  list : GetsNothing x 0 (max x.1.pageSize 1) allDocuments
  get : ∀ id, (getDocument id).outcome x = .error (.notFound id)
  exist : ∀ id, (documentExists id).outcome x = .ok false
  /-- Whatever can be translated. -/
  search : ∀ q n, x.1.driver.translate q = .ok n → ∀ offset limit,
    GetsNothing x offset limit (searchAll q offset limit)

structure OfVacant (s : SetStore.Store) (x : Client × Host) : Prop where
  driver : x.1.driver = .sets s
  serves : s.Serves x.2.server
  vacant : x.2.server.Vacant s.keys

/-- A search of an empty store has no hits, or its window is refused. -/
theorem fetchHits_vacant {x : Client × Host} (hx : OfVacant s x)
    (hk : KeySpace.IsValidStem s.keys.stem) {q : Query} {n : NativeQuery}
    (hq : (Driver.sets s).translate q = .ok n) (offset limit : Nat) :
    ∃ answer : Except Error (Option Nat),
      (fetchHits n offset limit).outcome x = answer.map (⟨[], ·⟩) ∧
        ((∃ total, answer = .ok total) ∨
          SetStore.takes offset limit = false ∧ ∃ e, answer = .error e) := by
  obtain ⟨c, h⟩ := x
  obtain ⟨hdriver, hserves, hvacant⟩ := hx
  dsimp only at hdriver hserves hvacant
  have hholds := SetStore.holds_empty hvacant.role
  obtain ⟨found, -, hkeys, hsearch⟩ := (Driver.reads_sets hk hholds hserves).finds q n hq
  -- No id loads a document.
  have hnone {fs : Driver.Findings} (hfs : fs ⊆ found) :
      (fs.mapM Prod.snd).map List.reduceOption = .ok [] := by
    induction fs with
    | nil => rfl
    | cons f fs ih =>
      obtain ⟨hf, hrest⟩ := List.cons_subset.1 hfs
      obtain ⟨ds, hds, hnil⟩ := Except.map_eq_ok.1 (ih hrest)
      rw [List.mapM_cons, hkeys f hf, hvacant.load, hds]
      exact congrArg Except.ok hnil
  rw [fetchHits, outcome_drive, hdriver]
  cases htakes : SetStore.takes offset limit with
  | true =>
    have hwindow : (found.drop offset).take limit ⊆ found :=
      List.Subset.trans (List.take_subset _ _) (List.drop_subset _ _)
    obtain ⟨⟨hits, total⟩, hpage, hhits⟩ :=
      Except.map_eq_ok.1 ((hsearch offset limit htakes).trans (hnone hwindow))
    obtain rfl : hits = [] := List.map_eq_nil_iff.1 hhits
    exact ⟨.ok total, hpage, .inl ⟨total, rfl⟩⟩
  | false =>
    obtain ⟨p, -, rfl⟩ := Except.map_eq_ok.1 hq
    obtain ⟨e, x, hrefused⟩ := SetStore.Store.search_refused p hserves htakes
    have hstore : (Driver.search ⟨SetStore.backendName, .plan p⟩ offset limit).outcome (.sets s, h) =
        (SetStore.Store.search p offset limit).outcome (s, h.server) := Driver.outcome_sets
    exact ⟨.error e, hstore.trans (Action.outcome_eq_error.2 ⟨x, hrefused⟩), .inr ⟨rfl, e, rfl⟩⟩

theorem outcome_withCursor {κ α : Type} (k : κ) (x : CursorWork κ α) (y : Client × Host) :
    (withCursor k x).outcome y = x.outcome (k, y) := by
  rw [Action.outcome, Action.outcome, withCursor]
  cases x (k, y) <;> rfl

theorem search_of_translate (hopen : c.closed = false) (hcache : c.cache.entries = []) {q : Query}
    {n : NativeQuery} (hq : c.driver.translate q = .ok n) (offset limit : Nat) :
    ∃ c', search q offset limit (c, h) = .ok (.new n offset limit c.pageSize) (c', h) ∧
      c'.driver = c.driver ∧ c'.closed = false := by
  have hget : (c.cache.forGeneration c.registry.generation).get? q = none := by
    rw [QueryCache.forGeneration]
    split <;> simp [QueryCache.get?, hcache]
  simp [search, translate, ensureOpen, hopen, hget, hq, Action.ofExcept_run]

theorem shownNothing_of_vacant (hx : OfVacant s (c, h)) (hk : KeySpace.IsValidStem s.keys.stem)
    (hopen : c.closed = false) (hschema : c.schema = .empty) (hcache : c.cache.entries = []) :
    ShownNothing (c, h) := by
  have hx' := hx
  obtain ⟨hdriver, hserves, hvacant⟩ := hx
  dsimp only at hdriver
  have hholds := SetStore.holds_empty hvacant.role
  have hlisted : (h.server.sets s.keys.docs).keys = [] := by
    rw [KeySpace.docs_eq_key, Server.sets_of_get?_eq_none (hvacant.role _)]
    rfl
  have htells := Driver.tells_sets hholds hserves
  have hlisting := (Driver.reads_sets hk hholds hserves).listing
  rw [hlisted, ← hdriver] at htells hlisting
  refine ⟨hschema, ?_, ?_, fun id => ?_, fun id => ?_, fun q n hq offset limit => ?_⟩
  · rw [outcome_documentCount_of_tells htells hopen, hdriver]
    rfl
  · obtain hall | ⟨offset, hoffset, hrefused, herror⟩ := outcome_allDocuments hlisting hopen
    · exact .inl hall
    · cases Nat.le_zero.1 hoffset
      exact .inr ⟨by rwa [Nat.min_self], herror⟩
  · rw [outcome_getDocument htells.loads hopen, hvacant.load]
  · obtain ⟨b, hb, hmem⟩ := htells.contains id
    have hexists : (documentExists id).outcome (c, h) = .ok b := by
      rw [documentExists, outcome_ensureOpen hopen, outcome_drive, Action.outcome, hb]
    rw [hexists, documentExists_eq htells hopen (by rw [hdriver]; rfl) hexists,
      isThere_eq_false_iff.2 (hvacant.load id)]
  · obtain ⟨c', hrun, hdriver', hopen'⟩ :=
      search_of_translate (h := h) hopen hcache hq offset limit
    rw [hdriver] at hq hdriver'
    obtain ⟨answer, hfirst, hanswer⟩ := fetchHits_vacant (x := (c', h))
      ⟨hdriver', hserves, hvacant⟩ hk hq offset (min limit (max c.pageSize 1))
    have hall : (searchAll q offset limit).outcome (c, h) =
        if limit = 0 then .ok [] else answer.map fun _ => [] := by
      rw [searchAll, Action.outcome, Action.bind_of_ok hrun]
      refine (outcome_withCursor _ _ _).trans ?_
      rw [remainingHits, Action.outcome, Action.get_bind]
      dsimp only
      rw [hopen']
      exact ResultCursor.collectAll_of_first fun _ => hfirst
    by_cases hlimit : limit = 0
    · exact .inl (hall.trans (if_pos hlimit))
    rw [if_neg hlimit] at hall
    obtain ⟨total, rfl⟩ | ⟨htakes, e, rfl⟩ := hanswer
    · exact .inl hall
    · exact .inr ⟨by rw [hdriver]; exact htakes, e, hall⟩

/-- A store that is empty is opened. -/
theorem connect_of_vacant {catalog : Catalog} {backend : String} {o : BackendOptions}
    (settings : ClientSettings) (hbackend : catalog.backends.get? backend = some .sets)
    (ho : SetStore.Store.ofOptions o = .ok s) (hserves : s.Serves h.server)
    (hvacant : h.server.Vacant s.keys) :
    ∃ c, connect catalog backend o settings h = .ok c h ∧
      c.driver = .sets { s with schema := .empty } ∧ ShownNothing (c, h) := by
  have hk := SetStore.Store.valid_ofOptions ho
  have hopen : catalog.openStore backend o h = .ok (.sets { s with schema := .empty }) h := by
    rw [Catalog.openStore, hbackend]
    simp only [Backend.openWith, Action.focus, Action.map_run,
      SetStore.Store.openWith_of_vacant ho hserves hvacant]
  have hschema : Driver.schemaSnapshot (.sets { s with schema := .empty }, h) =
      .ok .empty (.sets { s with schema := .empty }, h) := by
    rw [Driver.schemaSnapshot, Driver.work_sets,
      SetStore.Store.loadSchema_of_vacant (s := { s with schema := .empty }) hserves hvacant]
  have hstart : start o.readonly settings (.sets { s with schema := .empty }, h) = .ok _ _ :=
    Action.bind_of_ok (Action.orUndo_eq_ok.2 hschema)
  rw [connect, Action.bind_of_ok hopen, Action.get_bind]
  simp only [Action.orUndo_eq_ok.2 hstart]
  exact ⟨_, rfl, rfl, shownNothing_of_vacant (s := { s with schema := .empty })
    ⟨rfl, hserves, hvacant⟩ hk rfl rfl rfl⟩

theorem destroy_eq_ok_sets (hdriver : c.driver = .sets s)
    (hrun : destroy (c, h) = .ok () (c', h')) :
    ∃ s', SetStore.Store.destroy (s, h.server) = .ok () (s', h'.server) := by
  have hwritable : c.closed = false ∧ c.readonly = false := by
    rw [destroy] at hrun
    obtain ⟨_, _, hwritable, -⟩ := Action.bind_eq_ok.1 hrun
    exact (ensureWritable_eq_ok hwritable).2
  rw [destroy_run hwritable.1 hwritable.2, hdriver, Driver.destroy, Driver.work_sets] at hrun
  cases hr : SetStore.Store.destroy (s, h.server) with
  | error e x =>
    rw [hr] at hrun
    cases hrun
  | ok _ x =>
    rw [hr] at hrun
    cases hrun
    exact ⟨x.1, by rw [Host.server_released]⟩

/-- A client may destroy its store on a server that answers. -/
theorem exists_destroy (hdriver : c.driver = .sets s) (hopen : c.closed = false)
    (hwritable : c.readonly = false) (hwrites : s.Writes h.server) :
    ∃ c' h', destroy (c, h) = .ok () (c', h') := by
  obtain ⟨-, -, v', hdestroy, -⟩ | ⟨hwrites', -⟩ := SetStore.Store.destroy_cases s h.server
  · rw [destroy_run hopen hwritable, hdriver, Driver.destroy, Driver.work_sets, hdestroy]
    exact ⟨_, _, rfl⟩
  · exact absurd hwrites hwrites'

/-- **To destroy a store on a key server** removes exactly that store. -/
theorem destroy_exact (hdriver : c.driver = .sets s) (hrun : destroy (c, h) = .ok () (c', h')) :
    -- The keys of the store are gone and no others.
    (∀ key, h'.server.keys.get? key =
      if s.keys.Owns key then none else h.server.keys.get? key) ∧
    -- Page by page, as on any server that matches patterns and scans as is promised.
    (∃ pages, (Server.scanner s.keys.pattern).Clears 0 h.server pages h'.server) ∧
    (∀ {State : Type} (S : Scanner State) (isMatch : List Char → List Char → Bool),
      Text.GlobLaws isMatch →
      S.Lawful (fun key => isMatch s.keys.pattern.toList key.toList = true) →
      ∀ x pages y, S.Clears 0 x pages y → ∀ key, (S.keys y).get? key =
        if s.keys.Owns key then none else (S.keys x).get? key) ∧
    -- Whoever opens the store again is shown an empty one.
    ∀ (catalog : Catalog) (backend : String) (o : BackendOptions) (settings : ClientSettings) s',
      catalog.backends.get? backend = some .sets → SetStore.Store.ofOptions o = .ok s' →
      s'.keys = s.keys → s'.timeoutMs ≠ 0 →
      ∃ c', connect catalog backend o settings h' = .ok c' h' ∧ ShownNothing (c', h') := by
  obtain ⟨s₁, hstore⟩ := destroy_eq_ok_sets hdriver hrun
  obtain ⟨⟨-, hserves⟩, pages, v', hdestroy, hclears, hkeys, hanswers⟩ | ⟨-, e, hfails⟩ :=
    SetStore.Store.destroy_cases s h.server
  swap
  · cases hstore.symm.trans hfails
  cases hstore.symm.trans hdestroy
  refine ⟨hkeys, ⟨pages, hclears⟩, fun S isMatch hglob hlawful x pages y h key => ?_,
    fun catalog backend o settings s' hbackend ho hsame htimeout => ?_⟩
  · rw [← if_congr (KeySpace.pattern_iff hglob) rfl rfl]
    exact hlawful.clears h key
  · have hanswering := (SetStore.Store.serves_iff.1 hserves).1
    have hvacant : h'.server.Vacant s'.keys := fun key hkey => by rw [hkeys, if_pos (hsame ▸ hkey)]
    obtain ⟨c₂, hrun₂, -, hshown⟩ := connect_of_vacant settings hbackend ho
      ((SetStore.Store.serves_iff.2 ⟨hanswering, htimeout⟩).congr hanswers) hvacant
    exact ⟨c₂, hrun₂, hshown⟩

def beside : Server := { Server.fresh true with
  keys := .ofList [("*:docs", .set (.ofList ["1"])), ("*:data:1", .text "{}"),
    ("a:docs", .set (.ofList ["1"])), ("note", .text "")] }

def ofStar : Client :=
  { onEmptyServer with driver := .sets ⟨⟨"*"⟩, "", SetStore.defaultTimeoutMs, false, .empty⟩ }

/-- Neither the store of the other prefix nor a key of nobody goes with the store. -/
theorem destroy_exact_star :
    ∃ c' h', destroy (ofStar, .initial Text.stems [] beside "") = .ok () (c', h') ∧
      h'.server.keys.get? "*:docs" = none ∧ h'.server.keys.get? "*:data:1" = none ∧
      h'.server.keys.get? "a:docs" = some (.set (.ofList ["1"])) ∧
      h'.server.keys.get? "note" = some (.text "") ∧
      ∃ c₂, connect .builtin SetStore.backendName { BackendOptions.none with keyPrefix := some "*" }
        .default h' = .ok c₂ h' ∧ ShownNothing (c₂, h') := by
  obtain ⟨c', h', hrun⟩ := exists_destroy (c := ofStar) (h := .initial Text.stems [] beside "") rfl
    rfl rfl ⟨rfl, SetStore.Store.serves_iff.2 (by decide)⟩
  obtain ⟨hkeys, -, -, hshown⟩ := destroy_exact rfl hrun
  have ho : SetStore.Store.ofOptions { BackendOptions.none with keyPrefix := some "*" } =
      .ok ⟨⟨"*"⟩, SetStore.addressText SetStore.defaultHost SetStore.defaultPort,
        SetStore.defaultTimeoutMs, false, .empty⟩ := by
    with_unfolding_all rfl
  refine ⟨c', h', hrun, ?_, ?_, ?_, ?_, ?_⟩
  · rw [hkeys, if_pos (by decide)]
  · rw [hkeys, if_pos (by decide)]
  · rw [hkeys, if_neg (by decide)]
    decide
  · rw [hkeys, if_neg (by decide)]
    decide
  · exact hshown .builtin SetStore.backendName _ .default _ (by decide) ho rfl (by decide)

end Client

end Searchlight
