import Mathlib.Data.List.ReduceOption
import Searchlight.Proofs.Client.Adding
import Searchlight.Proofs.Disk.Reading
import Searchlight.Proofs.Driver.Algebra
import Searchlight.Proofs.SetStore.Filing
import Searchlight.Proofs.SetStore.Reading

/-!
# Reading from a driver

Whatever a driver is asked for comes down to what it loads under single ids (`Reads`): it lists ids,
finds ids, and the hits of a window are what these load. So a document that cannot be loaded makes
fail what would give it, and nothing else does. The exceptions are windows that a key server does not
take (`takes`), and ids that are too long for an index on disk (`isKey`): documents under such ids are
counted, listed and found, but not loaded.
-/

namespace Searchlight

def SearchHit.document (hit : SearchHit) : StoredDocument := ⟨hit.id, hit.fields⟩

namespace Driver

/-- The driver may be asked for the window: a key server takes only numbers of 64 bits. -/
def takes : Driver → Nat → Nat → Bool
  | sets _, offset, limit => SetStore.takes offset limit
  | memory _, _, _ | limited _ _, _, _ | disk _, _, _ => true

/-- A driver loads these documents. -/
def Loads (load : String → Except Error (Option StoredDocument)) (d : Driver) (h : Host) : Prop :=
  ∀ id, get? id (d, h) = Action.ofExcept (load id) (d, h)

structure Offers (load : String → Except Error (Option StoredDocument)) (listed : List String)
    (d : Driver) (h : Host) : Prop where
  loads : Loads load d h
  lists : ∀ offset limit, d.takes offset limit = true →
    ids offset limit (d, h) = .ok ((listed.drop offset).take limit) (d, h)
  refuses : ∀ offset limit, d.takes offset limit = false →
    ∃ e, ids offset limit (d, h) = .error e (d, h)

/-- Who lists is given these ids and documents: the driver offers them, at the latest once it was
asked for ids. -/
structure Listing (load : String → Except Error (Option StoredDocument)) (listed : List String)
    (d : Driver) (h : Host) : Prop where
  offers : ∃ x : Driver × Host, Offers load listed x.1 x.2 ∧ x.1.takes = d.takes ∧
    x.1.isKey = d.isKey ∧ ∀ offset limit, ids offset limit (d, h) = ids offset limit x
  listable : listed.length ≤ Client.listable d h

/-- What a search finds: ids, each with what there is to give under it. -/
abbrev Findings := List (String × Except Error (Option StoredDocument))

/-- A driver loads these documents, lists these ids, and finds the ids that match a query; what it
has to give under an id that it found is told by `gives`. -/
structure Reads (load : String → Except Error (Option StoredDocument)) (listed : List String)
    (gives : String → Except Error (Option StoredDocument) → Prop) (d : Driver) (h : Host) :
    Prop extends Offers load listed d h where
  finds : ∀ q n, d.translate q = .ok n → ∃ found : Findings,
    (∀ id, id ∈ found.map (·.1) ↔ id ∈ d.matched h n) ∧
    (∀ f ∈ found, gives f.1 f.2) ∧
    ∀ offset limit, d.takes offset limit = true →
      ((search n offset limit).outcome (d, h)).map (fun page => page.hits.map SearchHit.document) =
        (((found.drop offset).take limit).mapM Prod.snd).map List.reduceOption
  listable : listed.length ≤ Client.listable d h

theorem Reads.listing {load : String → Except Error (Option StoredDocument)} {listed : List String}
    {gives : String → Except Error (Option StoredDocument) → Prop} {d : Driver} {h : Host}
    (hreads : Reads load listed gives d h) : Listing load listed d h :=
  ⟨⟨(d, h), hreads.toOffers, rfl, rfl, fun _ _ => rfl⟩, hreads.listable⟩

variable {h : Host}

/-! ## Stores on a key server -/

section
open SetStore

/-- A store on a key server reads what the server holds. -/
theorem reads_sets {s : SetStore.Store} {docs : KeyMap PreparedDocument}
    (hk : KeySpace.IsValidStem s.keys.stem) (hv : Holds s.keys docs h.server)
    (hs : s.Serves h.server) :
    Reads (h.server.load s.keys) (h.server.sets s.keys.docs).keys
      (fun id x => x = h.server.load s.keys id) (.sets s) h where
  loads id := by
    rw [get?, work_sets, Store.get?_run hv.inOrder hs, Action.ofExcept_run, Action.ofExcept_run]
    cases h.server.load s.keys id <;> rfl
  lists offset limit htakes := by
    rw [ids, work_sets, Store.ids_run hv.inOrder hs htakes]
  refuses offset limit htakes := by
    obtain ⟨e, he⟩ := Store.ids_refused hs htakes
    exact ⟨e, by rw [ids, work_sets, he]⟩
  finds q n hq := by
    obtain ⟨p, hp, rfl⟩ := Except.map_eq_ok.1 hq
    obtain ⟨found, hmatched, hsearch⟩ :=
      Store.outcome_search hk hv.inOrder hs (over_of_translate hp) hv.not_contains_temp
    refine ⟨found.map fun id => (id, h.server.load s.keys id), fun id => ?_, fun f hf => ?_,
      fun offset limit htakes => ?_⟩
    · rw [List.map_map]
      exact (List.map_id found).symm ▸ hmatched id
    · obtain ⟨id, -, rfl⟩ := List.mem_map.1 hf
      rfl
    · have hstore : (search ⟨backendName, .plan p⟩ offset limit).outcome (.sets s, h) =
          (Store.search p offset limit).outcome (s, h.server) := outcome_sets
      rw [hstore, hsearch offset limit htakes, ← List.map_drop, ← List.map_take, List.mapM_map]
      change _ = (((found.drop offset).take limit).mapM (h.server.load s.keys)).map _
      cases ((found.drop offset).take limit).mapM (h.server.load s.keys) with
      | error e => rfl
      | ok ds => simp [Except.map, hitOf, SearchHit.document, Function.comp_def]
  listable := by
    obtain ⟨m, hm⟩ := hv.inOrder.set? (r := .docs) rfl
    rw [← KeySpace.docs_eq_key] at hm
    simp only [Client.listable, hm, Server.sets_eq_of_set? hm]
    exact (List.length_map _).le

end

/-! ## Stores on disk -/

section
open Disk

def documentOf (r : Record) : Except Error (Option StoredDocument) :=
  r.document.map fun d => some ⟨r.id, d⟩

theorem mapM_hit (found : List (Single × Record)) :
    (found.mapM hit).map (List.map SearchHit.document) =
      (found.mapM fun m => documentOf m.2).map List.reduceOption := by
  induction found with
  | nil => rfl
  | cons m found ih =>
    rw [List.mapM_cons, List.mapM_cons, hit, documentOf]
    generalize found.mapM hit = hits at ih ⊢
    generalize found.mapM (fun m => documentOf m.2) = loaded at ih ⊢
    cases m.2.document with
    | error e => rfl
    | ok d =>
      rcases hits with e | hits <;> rcases loaded with e' | ds
      · cases ih
        rfl
      · cases ih
      · cases ih
      · exact congrArg (fun ds => Except.ok (⟨m.2.id, d⟩ :: ds)) (Except.ok.inj ih)

/-- A store on disk reads the records that it shows. -/
theorem reads_disk {s : Disk.Store} {m : List Record} {path : String}
    (hs : s.LooksAt path h.volume) (hm : Lists m (h.volume.recordsAt path)) :
    Reads s.get? (idsOf m) (fun id x => ∃ r ∈ m, r.id = id ∧ x = documentOf r) (.disk s) h where
  loads id := by
    rw [get?, work_disk]
    simp only [Action.get_bind, Action.ofExcept_run]
    cases s.get? id <;> rfl
  lists offset limit _ := by
    rw [ids, work_disk, (hs.shows hm).ids]
  refuses offset limit htakes := by cases htakes
  finds q n hq := by
    obtain ⟨t, ht, rfl⟩ := Except.map_eq_ok.1 hq
    have hasks : t.asks storedField = false :=
      Query.fold_hereditary (translator_asks hs.isNumbered hs.unreserved s.analyze)
        (Query.translate_eq_ok_iff.1 ht).2
    obtain ⟨found, hperm, hsearch⟩ := (hs.shows hm).search t
    have hfound {f : Single × Record} : f ∈ found → f.2 ∈ m ∧ t.matchesRecord f.2 = true :=
      fun hf => List.mem_filter.1 (hperm.mem_iff.1 (List.mem_map_of_mem hf))
    refine ⟨found.map fun f => (f.2.id, documentOf f.2), fun id => ?_, fun f hf => ?_,
      fun offset limit _ => ?_⟩
    · have hvisible : s.visible.records.Perm m := hs.visible ▸ hm.perm
      change _ ↔ id ∈ s.matched t
      rw [Store.mem_matched, List.map_map, List.mem_map]
      constructor
      · rintro ⟨f, hf, rfl⟩
        obtain ⟨hr, hmatches⟩ := hfound hf
        exact ⟨f.2, hvisible.mem_iff.2 hr, rfl, hmatches⟩
      · rintro ⟨r, hr, rfl, hmatches⟩
        obtain ⟨f, hf, rfl⟩ := List.mem_map.1
          (hperm.mem_iff.2 (List.mem_filter.2 ⟨hvisible.mem_iff.1 hr, hmatches⟩))
        exact ⟨f, hf, rfl⟩
    · obtain ⟨g, hg, rfl⟩ := List.mem_map.1 hf
      exact ⟨g.2, (hfound hg).1, rfl, rfl⟩
    · have hstore : (search ⟨backendName, .terms t⟩ offset limit).outcome (.disk s, h) =
          (Store.search t offset limit).outcome (s, h.volume) := outcome_disk
      rw [hstore, Action.outcome, hsearch, if_neg (by simp [hasks]), ← List.map_drop, ← List.map_take,
        List.mapM_map]
      change _ = (((found.drop offset).take limit).mapM fun f => documentOf f.2).map _
      rw [← mapM_hit]
      cases ((found.drop offset).take limit).mapM hit <;> rfl
  listable := by
    have hcount : s.count = m.length := (hs.shows hm).count
    rw [length_idsOf, Client.listable, Disk.Store.listable, hcount]
    exact Nat.le_max_left _ _

end

end Driver

end Searchlight
