import Searchlight.Proofs.Client.Requests
import Searchlight.Proofs.Client.Writing
import Searchlight.Proofs.Document.Grouping
import Searchlight.Proofs.Memory.Matching
import Searchlight.Text.Stem

/-!
# Reading documents back

What a client on an in-memory store wrote under an id it shows to every reader of this id, whether
the document is asked for, found or listed (`Shows`). It is the document field by field: the one
that was written exactly if no field of it was taken up again after another one.
-/

namespace Searchlight

open Searchlight.Action (Keeps)

namespace Memory.Store

def Has (id : String) (d : Document) (s : Store) : Prop :=
  ∃ e, s.docs.get? id = some e ∧ e.stored = d

variable {s : Store} {id : String} {d : Document}

theorem mem_search {q : TokenQuery} {offset limit : Nat} {hit : SearchHit}
    (h : hit ∈ (s.search q offset limit).hits) :
    ∃ e, s.docs.get? hit.id = some e ∧ hit.fields = e.stored := by
  simp only [search, List.mem_map] at h
  obtain ⟨m, hm, rfl⟩ := h
  have hranked : m ∈ s.ranking q := List.mem_of_mem_drop (List.mem_of_mem_take hm)
  simp only [ranking, List.mem_mergeSort, List.mem_filterMap, Option.map_eq_some_iff] at hranked
  obtain ⟨e, he, score, -, rfl⟩ := hranked
  exact ⟨e.2, KeyMap.get?_eq_some_iff.2 he, rfl⟩

theorem Has.of_mem_search (hs : s.Has id d) {q : TokenQuery} {offset limit : Nat} {hit : SearchHit}
    (h : hit ∈ (s.search q offset limit).hits) (hid : hit.id = id) : hit.fields = d := by
  obtain ⟨e, he, rfl⟩ := hs
  obtain ⟨e', he', hfields⟩ := mem_search h
  rw [hid, he, Option.some.injEq] at he'
  rw [hfields, he']

theorem Has.get? (hs : s.Has id d) : s.get? id = some ⟨id, d⟩ := by
  obtain ⟨e, he, rfl⟩ := hs
  simp [Store.get?, he]

end Memory.Store

namespace Client

/-- An open client on an in-memory store has a document under an id. -/
def Shows (id : String) (d : Document) (x : Client × Host) : Prop :=
  x.1.closed = false ∧ ∃ s, x.1.driver = .memory s ∧ s.Has id d

variable {id : String} {d : Document}

/-! ## Readers -/

theorem keeps_shows_drive {α : Type} {Q : α → Prop} {memory : Action Memory.Store α}
    {sets : SetStore.Work α} {disk : Disk.Work α} (hx : Keeps (Memory.Store.Has id d) memory Q) :
    Keeps (Shows id d) (drive (Driver.work memory sets disk)) Q := by
  rintro ⟨c, h⟩ ⟨hopen, s, hs, hhas⟩
  dsimp only at hopen hs
  have := hx s hhas
  rw [drive_run, hs, Driver.work_memory]
  cases hr : memory s <;> rw [hr] at this
  · exact ⟨⟨hopen, _, rfl, this.1⟩, this.2⟩
  · exact ⟨hopen, _, rfl, this⟩

theorem keeps_shows_search (q : NativeQuery) (offset limit : Nat) :
    Keeps (Shows id d) (fetchHits q offset limit)
      fun page => ∀ hit ∈ page.hits, hit.id = id → hit.fields = d :=
  keeps_shows_drive <| Keeps.seq (.ofExcept fun _ _ => trivial) fun _ => Keeps.get.bind fun _ hs =>
    .pure fun _ => hs.of_mem_search

theorem keeps_shows_load (id' : String) :
    Keeps (Shows id d) (source.load id') fun o => ∀ x ∈ o, x.id = id → x.fields = d := by
  refine keeps_shows_drive <| Keeps.get.bind fun s hs => .pure fun x hx hid => ?_
  obtain ⟨e, -, rfl⟩ := Option.map_eq_some_iff.1 hx
  obtain rfl : id' = id := hid
  rw [hs.get?, Option.mem_some_iff] at hx
  rw [← hx]

theorem keeps_shows_list (offset limit : Nat) :
    Keeps (Shows id d) (source.list offset limit) fun _ => True :=
  keeps_shows_drive <| Keeps.get.bind fun _ _ => .pure trivial

theorem keeps_shows_translate (q : Query) : Keeps (Shows id d) (translate q) fun _ => True :=
  keeps_ensureOpen.seq fun _ => Keeps.get.bind fun (c, h) hs => Keeps.seq (.set hs) fun _ => by
    split
    · exact .pure trivial
    · exact Keeps.seq (.ofExcept fun _ _ => trivial) fun _ => Keeps.seq (.set hs) fun _ =>
        .pure trivial

theorem Shows.getDocument {x : Client × Host} (hx : Shows id d x) :
    (getDocument id).outcome x = .ok ⟨id, d⟩ := by
  obtain ⟨c, h⟩ := x
  obtain ⟨hopen, s, hs, hhas⟩ := hx
  dsimp only at hopen hs
  simp [Action.outcome, Client.getDocument, ensureOpen, hopen, drive_run, Driver.get?, hs,
    Driver.work_memory, hhas.get?]

/-- Every hit of a search under the id is the document that is shown. -/
theorem keeps_shows_searchAll (q : Query) (offset limit : Nat) :
    Keeps (Shows id d) (searchAll q offset limit)
      fun hits => ∀ hit ∈ hits, hit.id = id → hit.fields = d := by
  have hsearch : Keeps (Shows id d) (search q offset limit) fun k => k.buffer = [] :=
    keeps_ensureOpen.seq fun _ => (keeps_shows_translate q).seq fun _ => Keeps.get.bind fun _ _ =>
      .pure rfl
  refine hsearch.bind fun k hk =>
    keeps_withCursor (keeps_remainingHits keeps_shows_search) (fun s hs => ⟨?_, hs⟩) fun _ hy => hy.2
  simp [hk]

theorem keeps_shows_allDocuments :
    Keeps (Shows id d) allDocuments fun ds => ∀ x ∈ ds, x.id = id → x.fields = d :=
  Keeps.seq (keeps_ensureOpen.seq fun _ => Keeps.get.bind fun _ _ => .pure trivial) fun _ =>
    keeps_withCursor (keeps_remainingDocuments keeps_shows_list keeps_shows_load) (fun _ hs => hs)
      fun _ hy => hy

/-! ## Writers -/

variable {c c' : Client} {h h' : Host} {target : WriteTarget} {doc : Document}
  {plan : DocumentPlan} {prepared : PreparedDocument}

/-- To place a document on an in-memory store is to have what is stored of it under the id. -/
theorem shows_place {s : Memory.Store} {given : Option String} (hopen : c.closed = false)
    (hs : c.driver = .memory s) (hrun : place plan prepared given (c, h) = .ok id (c', h')) :
    Shows id prepared.stored (c', h') := by
  obtain ⟨id₁, ⟨c₁, h₁⟩, hindex, hrun⟩ := Action.bind_eq_ok.1 hrun
  cases hrun
  rw [drive_run, hs, Driver.index] at hindex
  simp only [Action.bind_run, Action.get_run, Driver.work_memory] at hindex
  have hhas (id : String) : (s.index id prepared).Has id prepared.stored :=
    ⟨_, by rw [Memory.Store.index, KeyMap.get?_insert, if_pos rfl], rfl⟩
  -- A drawn id counts as drawn, which no store looks at.
  cases given with
  | some id' =>
    cases hindex
    exact ⟨hopen, _, rfl, hhas id'⟩
  | none =>
    simp only [Option.isNone_none, Option.getD_none, Action.bind_run, Action.modify_run,
      Action.pure_run, and_self, if_true] at hindex
    cases hindex
    exact ⟨hopen, _, rfl, hhas _⟩

theorem shows_write {s : Memory.Store} (hs : c.driver = .memory s)
    (hplan : c.registry.plan doc c.policy = .ok plan) (hall : ∀ n ∈ doc.names, plan.stores n = true)
    (hrun : write target doc (c, h) = .ok id (c', h')) : Shows id doc.grouped (c', h') := by
  obtain ⟨⟨plan', prepared⟩, ⟨c₁, h₁⟩, hprepare, hplace⟩ := Action.bind_eq_ok.1 hrun
  obtain ⟨hopen, -, hplan', hsettled, ws, hnew⟩ := prepareWrite_eq_ok hprepare
  obtain rfl : plan = plan' := Except.ok.inj (hplan.symm.trans hplan')
  obtain ⟨driver, r, rfl, hregister, -⟩ := registerNew_eq_ok hnew
  rw [← Document.stored_eq_grouped hsettled hall]
  obtain ⟨s', hs'⟩ := Driver.registerFields_memory plan.newFields { h with warnings := ws } s
  rw [hs, hs'] at hregister
  cases hregister
  exact shows_place (c := { c with driver := .memory s', registry := r }) hopen rfl hplace

/-- **Reading back what was written.** After a write every reader of the id is given the document
field by field, with all values of each field in their order. That is the document as it was written
exactly if no field of it is taken up again after another one. -/
theorem write_reads_back {s : Memory.Store} (hs : c.driver = .memory s)
    (hplan : c.registry.plan doc c.policy = .ok plan) (hall : ∀ n ∈ doc.names, plan.stores n = true)
    (hrun : write target doc (c, h) = .ok id (c', h')) :
    (getDocument id).outcome (c', h') = .ok ⟨id, doc.grouped⟩ ∧
      (∀ q offset limit hits, (searchAll q offset limit).outcome (c', h') = .ok hits →
        ∀ hit ∈ hits, hit.id = id → hit.fields = doc.grouped) ∧
      (∀ ds, allDocuments.outcome (c', h') = .ok ds → ∀ d ∈ ds, d.id = id → d.fields = doc.grouped) ∧
      (∀ n, doc.grouped.values n = doc.values n) ∧
      (doc.grouped = doc ↔ ¬doc.Alternates) := by
  have hshows := shows_write hs hplan hall hrun
  refine ⟨hshows.getDocument, fun q offset limit hits hhits => ?_, fun ds hds => ?_,
    doc.values_grouped, doc.grouped_eq_self_iff⟩
  · obtain ⟨x, hx⟩ := Action.outcome_eq_ok.1 hhits
    exact ((keeps_shows_searchAll q offset limit).of_ok hshows hx).2
  · obtain ⟨x, hx⟩ := Action.outcome_eq_ok.1 hds
    exact (keeps_shows_allDocuments.of_ok hshows hx).2

def inMemory : Client where
  driver := .memory .empty
  registry := .new .appendOnly .empty false .freeText
  policy := .guess
  pageSize := ClientConfig.defaultPageSize
  readonly := false
  closed := false
  ignored := 0
  cache := .empty
  lease := none

/-- Two tags with a title between them come back with the title after them. -/
theorem write_reads_back_tags :
    ∃ id x, write .fresh ⟨[("tag", .text "x"), ("title", .text "y"), ("tag", .text "z")]⟩
        (inMemory, .initial Text.stems [] (.fresh true) "") = .ok id x ∧
      (getDocument id).outcome x =
        .ok ⟨id, ⟨[("tag", .text "x"), ("tag", .text "z"), ("title", .text "y")]⟩⟩ := by
  obtain ⟨id, c, h, hrun⟩ : ∃ id c h,
      write .fresh ⟨[("tag", .text "x"), ("title", .text "y"), ("tag", .text "z")]⟩
        (inMemory, .initial Text.stems [] (.fresh true) "") = .ok id (c, h) := ⟨_, _, _, rfl⟩
  have hplan : inMemory.registry.plan
      ⟨[("tag", .text "x"), ("title", .text "y"), ("tag", .text "z")]⟩ inMemory.policy =
        .ok ⟨.ofList [("tag", .field .freeText), ("title", .field .freeText)],
          [("tag", .freeText), ("title", .freeText)], []⟩ := rfl
  exact ⟨id, (c, h), hrun, (write_reads_back rfl hplan (by decide) hrun).1⟩

end Client

end Searchlight
