import Searchlight.Proofs.Client.Listing
import Searchlight.Proofs.Disk.Refreshing
import Searchlight.Proofs.Driver.Reading
import Searchlight.Proofs.Driver.Sound
import Searchlight.Proofs.SetStore.OnFile

/-!
# What drivers tell about documents

A driver counts the documents that it loads under single ids (`Tells`), and what a listing gives are
documents under different ids as well (`Names`). Both are told by the same data, except by a store on
disk: one that is open for reading lists what the index has, and tells what it had, and ids that are
too long are counted and listed, while nothing is loaded under them (`Differs`).
-/

namespace Searchlight

/-! ## Documents under ids -/

def isThere (load : String → Except Error (Option StoredDocument)) (id : String) : Bool :=
  match load id with
  | .ok none => false
  | .ok (some _) | .error _ => true

/-- Those of the listed ids that a listing gives the documents of. -/
def given (load : String → Except Error (Option StoredDocument)) (listed : List String) :
    List String := listed.filter (isThere load)

/-- All ids under which something is loaded are listed, each once. -/
structure Names (listed : List String) (load : String → Except Error (Option StoredDocument)) :
    Prop where
  nodup : (given load listed).Nodup
  mem : ∀ id, isThere load id = true → id ∈ listed
  id_eq : ∀ id d, load id = .ok (some d) → d.id = id
  fails : ∀ id e, load id = .error e → e ≠ .notFound id

/-- As many documents are listed the one way as are given the other way, under the same ids, and as
far as they can be loaded they are the same. -/
structure SameNames (listed : List String) (load : String → Except Error (Option StoredDocument))
    (listed' : List String) (load' : String → Except Error (Option StoredDocument)) : Prop where
  length : listed.length = (given load' listed').length
  isThere_eq : ∀ id, isThere load id = isThere load' id
  documents : ∀ id d e, load id = .ok (some d) → load' id = .ok (some e) → d = e

variable {listed listed' : List String} {load load' : String → Except Error (Option StoredDocument)}

theorem isThere_eq_false_iff {id : String} : isThere load id = false ↔ load id = .ok none := by
  rw [isThere]
  rcases load id with _ | (_ | _) <;> simp

theorem isThere_of_eq_some {id : String} {d : StoredDocument} (h : load id = .ok (some d)) :
    isThere load id = true := by
  rw [isThere, h]

theorem Names.mem_given_iff (hn : Names listed load) {id : String} :
    id ∈ given load listed ↔ isThere load id = true := by
  rw [given, List.mem_filter, and_iff_right_of_imp (hn.mem id)]

theorem Names.given_perm (hn : Names listed load) {listed' : List String}
    {load' : String → Except Error (Option StoredDocument)} (hn' : Names listed' load')
    (hthere : ∀ id, isThere load id = isThere load' id) :
    (given load listed).Perm (given load' listed') :=
  (List.perm_ext_iff_of_nodup hn.nodup hn'.nodup).2 fun id => by
    rw [hn.mem_given_iff, hn'.mem_given_iff, hthere]

def loadFrom {α : Type} (m : KeyMap α) (stored : α → Except Error Document) (id : String) :
    Except Error (Option StoredDocument) :=
  match m.get? id with
  | none => .ok none
  | some a => (stored a).map fun d => some ⟨id, d⟩

theorem SameNames.refl (h : given load listed = listed) : SameNames listed load listed load :=
  ⟨by rw [h], fun _ => rfl, fun _ _ _ hd he => Option.some.inj (Except.ok.inj (hd.symm.trans he))⟩

section
variable {α : Type} {m : KeyMap α} {stored : α → Except Error Document} (hnodup : listed.Nodup)
  (hlisted : ∀ id, id ∈ listed ↔ m.contains id = true) (hload : ∀ id, load id = loadFrom m stored id)
include hlisted hload

theorem isThere_of_map (id : String) : isThere load id = true ↔ id ∈ listed := by
  rw [hlisted, KeyMap.contains, isThere, hload, loadFrom]
  cases m.get? id with
  | none => simp
  | some a =>
    dsimp only
    cases stored a <;> simp [Except.map]

theorem given_of_map : given load listed = listed :=
  List.filter_eq_self.2 fun id => (isThere_of_map hlisted hload id).2

include hnodup in
theorem names_of_map (hstored : ∀ a e, stored a = .error e → ∀ id, e ≠ .notFound id) :
    Names listed load where
  nodup := by rwa [given_of_map hlisted hload]
  mem id := (isThere_of_map hlisted hload id).1
  id_eq id d hd := by
    rw [hload, loadFrom] at hd
    split at hd
    · cases hd
    · obtain ⟨_, -, heq⟩ := Except.map_eq_ok.1 hd
      cases heq
      rfl
  fails id e he := by
    rw [hload, loadFrom] at he
    split at he
    · cases he
    · exact hstored _ e (Except.map_eq_error.1 he) id

end

theorem documents_of_mapM (hid : ∀ id d, load id = .ok (some d) → d.id = id)
    {ds : List StoredDocument} (h : (listed.mapM load).map List.reduceOption = .ok ds) :
    ds.map (·.id) = given load listed ∧ ∀ d ∈ ds, load d.id = .ok (some d) := by
  induction listed generalizing ds with
  | nil =>
    cases h
    exact ⟨rfl, fun _ h => nomatch h⟩
  | cons i ids ih =>
    rw [DocumentCursor.mapM_eq_firstOf, DocumentCursor.firstOf] at h
    rw [given, List.filter_cons]
    rcases hload : load i with e | (_ | d)
    · rw [hload] at h
      cases h
    · rw [hload] at h
      rw [isThere_eq_false_iff.2 hload]
      exact ih ((DocumentCursor.mapM_eq_firstOf load ids).trans h)
    · simp only [hload] at h
      obtain ⟨rest, hrest, rfl⟩ := Except.map_eq_ok.1 h
      obtain ⟨hmap, hall⟩ := ih hrest
      obtain rfl := hid i d hload
      rw [isThere_of_eq_some hload]
      exact ⟨congrArg (d.id :: ·) hmap, List.forall_mem_cons.2 ⟨hload, hall⟩⟩

/-- **What a listing gives** are the documents under the ids. -/
theorem Names.documents (hn : Names listed load) {ds : List StoredDocument}
    (h : (listed.mapM load).map List.reduceOption = .ok ds) :
    ds.map (·.id) = given load listed ∧ ∀ d, d ∈ ds ↔ load d.id = .ok (some d) := by
  obtain ⟨hmap, hall⟩ := documents_of_mapM hn.id_eq h
  refine ⟨hmap, fun d => ⟨hall d, fun hd => ?_⟩⟩
  have hmem : d.id ∈ ds.map (·.id) := by
    rw [hmap, hn.mem_given_iff]
    exact isThere_of_eq_some hd
  obtain ⟨e, he, hid⟩ := List.mem_map.1 hmem
  have hload := hall e he
  rw [hid, hd] at hload
  cases hload
  exact he

/-! ## Drivers -/

namespace Driver

/-- The count that a driver gives of so many documents: 64 bits of it on a key server. -/
def counted : Driver → Nat → Nat
  | sets _, n => n % UInt64.size
  | memory _, n | limited _ _, n | disk _, n => n

/-- There are changes that wait for a commit. -/
def hasPending : Driver → Bool
  | disk s => s.hasPending
  | memory _ | limited _ _ | sets _ => false

/-- What a store on disk counts and loads is not what a listing of it gives. -/
def Differs (d : Driver) (h : Host) : Prop := ∃ s, d = .disk s ∧ s.Differs h.volume

structure Tells (listed : List String) (load : String → Except Error (Option StoredDocument))
    (d : Driver) (h : Host) : Prop where
  names : Names listed load
  loads : Loads load d h
  count : Driver.count (d, h) = .ok (d.counted listed.length) (d, h)
  contains : ∀ id, ∃ b, Driver.contains id (d, h) = .ok b (d, h) ∧
    (d.hasPending = false → b = isThere load id)

variable {h : Host}

/-! ### Stores in memory -/

def memory? : Driver → Option Memory.Store
  | memory s | limited _ s => some s
  | sets _ | disk _ => none

section
variable {d : Driver} {s : Memory.Store}

theorem work_of_memory? (hd : d.memory? = some s) {α : Type} {memory : Action Memory.Store α}
    {sets : SetStore.Work α} {disk : Disk.Work α} {a : α} (hs : memory s = .ok a s) :
    work memory sets disk (d, h) = .ok a (d, h) := by
  cases d with
  | memory s =>
    cases hd
    rw [work_memory, hs]
  | limited key s =>
    cases hd
    rw [work_limited, hs]
  | sets s => cases hd
  | disk s => cases hd

theorem mem_byAge {id : String} : id ∈ s.byAge.map (·.1) ↔ s.docs.contains id = true :=
  ((List.mergeSort_perm _ _).map _).mem_iff.trans KeyMap.mem_keys

theorem length_byAge (s : Memory.Store) : (s.byAge.map (·.1)).length = s.count := by
  rw [List.length_map, Memory.Store.byAge, List.length_mergeSort]
  rfl

theorem load_memory (s : Memory.Store) (id : String) :
    .ok (s.get? id) = loadFrom s.docs (fun e => .ok e.stored) id := by
  rw [Memory.Store.get?, loadFrom]
  cases s.docs.get? id <;> rfl

theorem isThere_memory (s : Memory.Store) (id : String) :
    isThere (fun id => .ok (s.get? id)) id = true ↔ id ∈ s.byAge.map (·.1) :=
  isThere_of_map (fun _ => mem_byAge) (load_memory s) id

theorem given_memory (s : Memory.Store) :
    given (fun id => .ok (s.get? id)) (s.byAge.map (·.1)) = s.byAge.map (·.1) :=
  given_of_map (fun _ => mem_byAge) (load_memory s)

theorem names_memory (s : Memory.Store) :
    Names (s.byAge.map (·.1)) fun id => .ok (s.get? id) :=
  names_of_map (((List.mergeSort_perm _ _).map _).nodup_iff.2 KeyMap.nodup_keys)
    (fun _ => mem_byAge) (load_memory s) fun _ _ he => nomatch he

variable (hd : d.memory? = some s)
include hd

theorem tells_memory : Tells (s.byAge.map (·.1)) (fun id => .ok (s.get? id)) d h where
  names := names_memory s
  loads id := work_of_memory? hd rfl
  count := by
    have hcounted : d.counted (s.byAge.map (·.1)).length = s.count := by
      rw [length_byAge]
      cases d <;> first | rfl | cases hd
    rw [hcounted]
    exact work_of_memory? hd rfl
  contains id := by
    refine ⟨s.contains id, work_of_memory? hd rfl, fun _ => ?_⟩
    rw [Bool.eq_iff_iff, isThere_memory, mem_byAge]
    rfl

theorem listing_memory : Listing (fun id => .ok (s.get? id)) (s.byAge.map (·.1)) d h where
  offers := by
    refine ⟨(d, h), ⟨fun _ => work_of_memory? hd rfl, fun _ _ _ => work_of_memory? hd rfl,
      fun _ _ htakes => ?_⟩, rfl, rfl, fun _ _ => rfl⟩
    cases d <;> first | cases htakes | cases hd
  listable := by
    rw [length_byAge]
    cases d <;> first | exact (Option.some.inj hd ▸ le_rfl) | cases hd

end

/-! ### Stores on a key server -/

section
open SetStore

variable {s : SetStore.Store} {docs : KeyMap PreparedDocument}

section
variable (hv : Holds s.keys docs h.server)
include hv

theorem mem_listed_sets (id : String) :
    id ∈ (h.server.sets s.keys.docs).keys ↔ docs.contains id = true :=
  KeyMap.mem_keys.trans (Bool.eq_iff_iff.1 (hv.stored id))

theorem load_sets (id : String) : h.server.load s.keys id =
    loadFrom docs (fun d => Store.storedOf d.stored.toJsonText) id := by
  have hdata : h.server.keys.get? (s.keys.data id) =
      (docs.get? id).map fun d => .text d.stored.toJsonText := hv.data id
  rw [Server.load, Server.json?, hdata, loadFrom]
  cases docs.get? id <;> rfl

theorem isThere_sets (id : String) :
    isThere (h.server.load s.keys) id = true ↔ id ∈ (h.server.sets s.keys.docs).keys :=
  isThere_of_map (mem_listed_sets hv) (load_sets hv) id

theorem given_sets : given (h.server.load s.keys) (h.server.sets s.keys.docs).keys =
    (h.server.sets s.keys.docs).keys :=
  given_of_map (mem_listed_sets hv) (load_sets hv)

theorem names_sets : Names (h.server.sets s.keys.docs).keys (h.server.load s.keys) := by
  refine names_of_map KeyMap.nodup_keys (mem_listed_sets hv) (load_sets hv) fun d e he => ?_
  rw [Store.storedOf] at he
  split at he <;> cases he
  intro _ h
  cases h

end

theorem serves_of_count {n : Nat} (hcount : count.outcome (.sets s, h) = .ok n) :
    s.Serves h.server := by
  by_contra hs
  obtain ⟨e, hfails⟩ :=
    Store.ask_of_not_serves hs Store.readFailure (.cardinality s.keys.docs) Reply.nat?
  have hcounts : Store.count.outcome (s, h.server) = .ok n := outcome_sets.symm.trans hcount
  simp [Store.count, Action.outcome, hfails] at hcounts

theorem tells_sets (hv : Holds s.keys docs h.server) (hs : s.Serves h.server) :
    Tells (h.server.sets s.keys.docs).keys (h.server.load s.keys) (.sets s) h where
  names := names_sets hv
  loads id := by
    rw [get?, work_sets, Store.get?_run hv.inOrder hs, Action.ofExcept_run, Action.ofExcept_run]
    cases h.server.load s.keys id <;> rfl
  count := by
    rw [count, work_sets, Store.count_run hv.inOrder hs, counted, KeyMap.keys, List.length_map]
    rfl
  contains id := by
    refine ⟨(h.server.sets s.keys.docs).contains id, ?_, fun _ => ?_⟩
    · rw [contains, work_sets, Store.contains_run hv.inOrder hs]
    · rw [Bool.eq_iff_iff, isThere_sets hv, KeyMap.mem_keys]

end

/-! ### Stores on disk -/

section
open Disk

variable {s t : Disk.Store} {id : String}

section
variable (hs : OwnIds s.visible.records)
include hs

/-- There is something under the ids of records, apart from those that are no terms. -/
theorem isThere_disk :
    isThere s.get? id = true ↔ ∃ r ∈ s.visible.records, r.id = id ∧ isTerm id = true := by
  rw [isThere, Store.get?_of_lists hs.lists]
  cases hr : lookup? s.visible.records id with
  | none =>
    have hhas := lookup?_eq_none_iff.1 hr
    refine iff_of_false Bool.false_ne_true ?_
    rintro ⟨r, hmem, hid, hterm⟩
    cases (hhas hterm).symm.trans (has_iff.2 ⟨r, hmem, hid⟩)
  | some r =>
    refine iff_of_true ?_ ⟨r, mem_of_lookup? hr⟩
    dsimp only
    cases r.document <;> rfl

theorem get?_eq_some_iff {d : StoredDocument} : s.get? id = .ok (some d) ↔
    ∃ r ∈ s.visible.records, r.id = id ∧ isTerm id = true ∧ ∃ e, r.document = .ok e ∧ d = ⟨id, e⟩ := by
  rw [Store.get?_of_lists hs.lists]
  constructor
  · cases hr : lookup? s.visible.records id with
    | none => exact nofun
    | some r =>
      intro h
      obtain ⟨e, he, heq⟩ := Except.map_eq_ok.1 h
      cases heq
      obtain ⟨hmem, hid, hterm⟩ := mem_of_lookup? hr
      exact ⟨r, hmem, hid, hterm, e, he, rfl⟩
  · rintro ⟨r, hr, rfl, hterm, e, he, rfl⟩
    simp only [hs.lists.lookup?_id hr hterm, he]
    rfl

theorem given_disk :
    given s.get? (idsOf s.visible.records) = (idsOf s.visible.records).filter isTerm := by
  refine List.filter_congr fun id hid => ?_
  obtain ⟨r, hr, hid⟩ := mem_idsOf.1 hid
  rw [Bool.eq_iff_iff, isThere_disk hs]
  exact ⟨fun ⟨_, _, _, hterm⟩ => hterm, fun hterm => ⟨r, hr, hid, hterm⟩⟩

/-- All documents are given exactly if all ids are terms. -/
theorem given_disk_eq_iff : given s.get? (idsOf s.visible.records) = idsOf s.visible.records ↔
    ∀ r ∈ s.visible.records, isTerm r.id = true := by
  rw [given_disk hs, List.filter_eq_self]
  constructor
  · exact fun h r hr => h r.id (mem_idsOf.2 ⟨r, hr, rfl⟩)
  · intro h id hid
    obtain ⟨r, hr, rfl⟩ := mem_idsOf.1 hid
    exact h r hr

theorem isThere_disk_of_terms (hterms : ∀ r ∈ s.visible.records, isTerm r.id = true) :
    isThere s.get? id = true ↔ ∃ r ∈ s.visible.records, r.id = id := by
  rw [isThere_disk hs]
  exact exists_congr fun r => and_congr_right fun hr =>
    ⟨fun hid => hid.1, fun hid => ⟨hid, hid ▸ hterms r hr⟩⟩

theorem names_disk : Names (idsOf s.visible.records) s.get? where
  nodup := by
    rw [given_disk hs]
    exact ((List.mergeSort_perm _ _).filter _).nodup_iff.2 hs.nodup
  mem id hid := by
    obtain ⟨r, hr, hid, -⟩ := (isThere_disk hs).1 hid
    exact mem_idsOf.2 ⟨r, hr, hid⟩
  id_eq id d hd := by
    obtain ⟨r, -, -, -, e, -, rfl⟩ := (get?_eq_some_iff hs).1 hd
    rfl
  fails id e he := by
    rw [Store.get?_of_lists hs.lists] at he
    split at he
    · cases he
    · have hdocument := Except.map_eq_error.1 he
      rw [Record.document] at hdocument
      split at hdocument <;> cases hdocument
      exact nofun

theorem tells_disk : Tells (idsOf s.visible.records) s.get? (.disk s) h where
  names := names_disk hs
  loads id := by
    rw [get?, work_disk]
    simp only [Action.get_bind, Action.ofExcept_run]
    cases s.get? id <;> rfl
  count := by
    rw [count, work_disk, counted, length_idsOf]
    rfl
  contains id := by
    refine ⟨s.contains id, ?_, fun hpending => ?_⟩
    · rw [contains, work_disk]
      rfl
    · simp only [hasPending, Store.hasPending, Bool.or_eq_false_iff, Bool.not_eq_false'] at hpending
      rw [Store.contains, KeyMap.contains_of_isEmpty hpending.1,
        KeyMap.contains_of_isEmpty hpending.2, Bool.not_false, Bool.true_and, Bool.false_or,
        Bool.eq_iff_iff, Store.shows_iff hs.lists, isThere_disk hs]

/-- Records tell the same as ids and documents. -/
theorem sameNames_iff (ht : OwnIds t.visible.records) :
    SameNames (idsOf s.visible.records) s.get? (idsOf t.visible.records) t.get? ↔
      SameStored s.visible.records (t.visible.records.filter fun r => isTerm r.id) := by
  have hlisted {id : String} : isThere t.get? id = true ↔
      ∃ r ∈ t.visible.records.filter fun r => isTerm r.id, r.id = id := by
    rw [isThere_disk ht]
    refine exists_congr fun r => ?_
    rw [List.mem_filter, and_assoc]
    exact and_congr_right fun _ => ⟨fun ⟨hid, hterm⟩ => ⟨hid ▸ hterm, hid⟩,
      fun ⟨hterm, hid⟩ => ⟨hid, hid ▸ hterm⟩⟩
  constructor
  · rintro ⟨hlength, hthere, hdocuments⟩
    -- All that is counted is given, so all ids are terms.
    have hterms : ∀ r ∈ s.visible.records, isTerm r.id = true := by
      have hperm := (names_disk hs).given_perm (names_disk ht) hthere
      exact (given_disk_eq_iff hs).1
        (List.filter_sublist.eq_of_length (hperm.length_eq.trans hlength.symm))
    refine ⟨fun id => ?_, fun r hr r' hr' hid d e hd he => ?_⟩
    · rw [← hlisted, ← hthere, isThere_disk_of_terms hs hterms]
    · obtain ⟨hmem, hterm⟩ := List.mem_filter.1 hr'
      have hsame := hdocuments r.id ⟨r.id, d⟩ ⟨r.id, e⟩
        ((get?_eq_some_iff hs).2 ⟨r, hr, rfl, hterms r hr, d, hd, rfl⟩)
        ((get?_eq_some_iff ht).2 ⟨r', hmem, hid.symm, hid ▸ hterms r hr, e, he, rfl⟩)
      exact congrArg StoredDocument.fields hsame
  · rintro ⟨hids, hdocuments⟩
    have hterms : ∀ r ∈ s.visible.records, isTerm r.id = true := by
      intro r hr
      obtain ⟨r', hr', hid⟩ := (hids r.id).1 ⟨r, hr, rfl⟩
      exact hid ▸ (List.mem_filter.1 hr').2
    have hthere (id : String) : isThere s.get? id = isThere t.get? id := by
      rw [Bool.eq_iff_iff, hlisted, ← hids, isThere_disk_of_terms hs hterms]
    refine ⟨?_, hthere, fun id d e hd he => ?_⟩
    · rw [← (given_disk_eq_iff hs).2 hterms]
      exact ((names_disk hs).given_perm (names_disk ht) hthere).length_eq
    · obtain ⟨r, hr, hid, -, f, hf, rfl⟩ := (get?_eq_some_iff hs).1 hd
      obtain ⟨r', hr', hid', hterm, f', hf', rfl⟩ := (get?_eq_some_iff ht).1 he
      rw [hdocuments r hr r' (List.mem_filter.2 ⟨hr', hid' ▸ hterm⟩) (hid.trans hid'.symm) f f' hf hf']

end

/-- **A listing of a store on disk** gives what the store shows once it has looked at the index. -/
theorem listing_disk (hs : s.Sound) (hv : h.volume.Sound) {offset limit : Nat} {xs : List String}
    (hids : (ids offset limit).outcome (.disk s, h) = .ok xs) :
    ∃ t : Disk.Store, OwnIds t.visible.records ∧
      Listing t.get? (idsOf t.visible.records) (.disk s) h ∧
      t.visible.records = s.listed h.volume := by
  rw [ids, outcome_disk, Action.outcome_eq_ok] at hids
  obtain ⟨_, hrun⟩ := hids
  obtain ⟨_, ⟨t, v⟩, hrefresh, -⟩ := Action.bind_eq_ok.1 hrun
  obtain ⟨ht, -⟩ := (Store.keeps_refresh.of_ok ⟨hs, hv⟩ hrefresh).1
  obtain ⟨hvisible, hsteady⟩ := Store.shown_of_refresh hrefresh
  have hown : OwnIds t.visible.records := ht.visible
  refine ⟨t, hown, ⟨⟨(.disk t, { h with volume := v }), ⟨?_, fun offset limit _ => ?_,
    fun offset limit htakes => ?_⟩, rfl, rfl, fun offset limit => ?_⟩, ?_⟩, hvisible⟩
  · exact (tells_disk hown).loads
  · rw [ids, work_disk, (Store.shows_of_steady hsteady hown.lists).ids]
  · cases htakes
  · rw [ids, work_disk, work_disk, Store.ids, Action.bind_of_ok hrefresh, Action.bind_of_ok hsteady]
  · rw [length_idsOf, hvisible, Store.listed]
    split
    · exact s.length_recordsAt_le_listable h.volume
    · exact Nat.le_max_left _ _

end

/-! ## All drivers -/

/-- **What a driver tells and what it lists** is told by the same data, unless these differ on disk.
Whoever counts the documents and lists ids without a failure is told so. -/
theorem exists_views {d : Driver} (hd : d.Sound) (hk : d.HasValidStem) (hv : h.Sound)
    (hf : h.OnFile) {offset limit n : Nat} {xs : List String}
    (hcount : count.outcome (d, h) = .ok n)
    (hids : (ids offset limit).outcome (d, h) = .ok xs) :
    ∃ listed load listed' load', Tells listed load d h ∧ Names listed' load' ∧
      Listing load' listed' d h ∧ (d.Differs h ↔ ¬SameNames listed load listed' load') := by
  cases d with
  | memory s =>
    exact ⟨_, _, _, _, tells_memory rfl, names_memory s, listing_memory rfl,
      iff_of_false (fun ⟨_, h, _⟩ => nomatch h) (not_not_intro (.refl (given_memory s)))⟩
  | limited key s =>
    exact ⟨_, _, _, _, tells_memory rfl, names_memory s, listing_memory rfl,
      iff_of_false (fun ⟨_, h, _⟩ => nomatch h) (not_not_intro (.refl (given_memory s)))⟩
  | sets s =>
    obtain ⟨docs, hfiled⟩ := hf s.keys hk
    have hholds := hfiled.holds hk
    have hs := serves_of_count hcount
    have htells := tells_sets hholds hs
    exact ⟨_, _, _, _, htells, htells.names, (reads_sets hk hholds hs).listing,
      iff_of_false (fun ⟨_, h, _⟩ => nomatch h) (not_not_intro (.refl (given_sets hholds)))⟩
  | disk s =>
    obtain ⟨t, ht, hlisting, hvisible⟩ := listing_disk hd hv hids
    refine ⟨_, _, _, _, tells_disk hd.visible, names_disk ht, hlisting, ?_⟩
    rw [sameNames_iff hd.visible ht, hvisible]
    constructor
    · rintro ⟨_, hs, hdiffers⟩
      cases hs
      exact hdiffers
    · exact fun hdiffers => ⟨s, rfl, hdiffers⟩

end Driver

end Searchlight
