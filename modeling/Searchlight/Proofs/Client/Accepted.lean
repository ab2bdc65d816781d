import Searchlight.Proofs.Client.Listing
import Searchlight.Proofs.Document.Stored
import Searchlight.Proofs.Driver.Reading
import Searchlight.Text.Stem

/-!
# Accepted documents

A store keeps the text of a document and reads it when the document is asked for. What a write takes
can be written as text, but not all of it can be read again: a document that was accepted is given
to its readers exactly if all numbers that are stored of it are finite, and on disk its id is a term
(`accepted_readable_iff`). Any other number makes the document fail to load, and with it every window
of hits that has it and every listing, while it goes on to be counted and found. Under an id that is
no term nothing is loaded.
-/

namespace Searchlight

/-! ## Stores that have a document -/

def Document.loaded (d : Document) (id : String) : Except Error (Option StoredDocument) :=
  (SetStore.Store.storedOf d.toJsonText).map fun d => some ⟨id, d⟩

namespace Driver

variable {h : Host} {id : String} {d : Document}

/-- The document was the last that was indexed under the id, and it was not deleted since. On a key
server that is what counts, and the server answers; on disk it was committed, by the store itself or
by one whose index it has looked at since. Under an id that is no term an index keeps the documents
that came before as well, and those that were deleted. -/
inductive Has (id : String) (d : Document) : Driver → Host → Prop where
  | sets {s : SetStore.Store} {h : Host} {docs : KeyMap PreparedDocument} {p : PreparedDocument}
      (hk : SetStore.KeySpace.IsValidStem s.keys.stem) (hfiled : SetStore.Filed s.keys docs h.server)
      (hserves : s.Serves h.server) (hp : docs.get? id = some p) (hd : p.stored = d) :
      Has id d (.sets s) h
  | disk {s t : Disk.Store} {h : Host} {l : Disk.Ledger} {r : Disk.Record}
      (htracked : Disk.Store.Tracked l (t, h.volume)) (hlooks : s.LooksAt t.path h.volume)
      (hr : r ∈ l.committed) (hid : r.id = id) (hd : r.stored = d.toJsonText) : Has id d (.disk s) h

/-- What the store was asked for is on record: since the key server had nothing of it, or since it
was opened on disk. -/
inductive OnRecord : Driver → Host → Prop where
  | sets {s : SetStore.Store} {h : Host} {docs : KeyMap PreparedDocument}
      (hk : SetStore.KeySpace.IsValidStem s.keys.stem) (hfiled : SetStore.Filed s.keys docs h.server) :
      OnRecord (.sets s) h
  | disk {s : Disk.Store} {h : Host} {l : Disk.Ledger} (htracked : Disk.Store.Tracked l (s, h.volume)) :
      OnRecord (.disk s) h

inductive Gathers (id : String) (d : Document) : Driver → Host → Prop where
  | disk {s : Disk.Store} {h : Host} {l : Disk.Ledger} {r : Disk.Record}
      (htracked : Disk.Store.Tracked l (s, h.volume)) (hr : r ∈ l.upcoming) (hid : r.id = id)
      (hd : r.stored = d.toJsonText) : Gathers id d (.disk s) h

theorem Gathers.commit {x : Driver} (hx : x.Gathers id d h) :
    ∃ y, Driver.commit (x, h) = .ok () y ∧ y.1.Has id d y.2 := by
  cases hx with
  | @disk s _ l r htracked hr hid hd =>
    obtain ⟨⟨t, v⟩, hrun, hpath, hbooked⟩ := htracked.booked.commit
    have hcommitted := htracked.committed
    rw [Action.after, hrun] at hcommitted
    refine ⟨(.disk t, { h with volume := v }), ?_, .disk hcommitted hbooked.looksAt hr hid hd⟩
    rw [Driver.commit, work_disk, hrun]

/-- A store lists the documents that it has, and loads them from their texts if their ids are such
that it can. Those that it finds are loaded from their texts under any id. -/
theorem Has.reads {x : Driver} (hx : x.Has id d h) :
    ∃ load listed gives, Reads load listed gives x h ∧ id ∈ listed ∧
      load id = (if x.isKey id then d.loaded id else .ok none) ∧
      (∀ i y, x.isKey i = true → gives i y → y = load i) ∧
      (id ∉ x.shared → ∀ y, gives id y → y = d.loaded id) := by
  cases hx with
  | @sets s _ docs p hk hfiled hserves hp hd =>
    have hv := hfiled.holds hk
    have hload : h.server.load s.keys id = d.loaded id := by
      have hdata : h.server.keys.get? (s.keys.data id) = some (.text d.toJsonText) := by
        have hdata := hv.data id
        rw [hp, Option.map_some, hd] at hdata
        exact hdata
      rw [SetStore.Server.load, SetStore.Server.json?, hdata]
      rfl
    refine ⟨_, _, _, reads_sets hk hv hserves, KeyMap.mem_keys.2 ?_, ?_, fun _ _ _ hy => hy,
      fun _ y hy => hy.trans hload⟩
    · have hstored := hv.stored id
      rw [KeyMap.contains, hp] at hstored
      exact hstored
    · rw [isKey, if_pos rfl, hload]
  | @disk s t _ l r htracked hlooks hr hid hd =>
    have hm := htracked.booked.lists_recordsAt
    have hloaded : documentOf r = d.loaded id := by
      rw [documentOf, Disk.Record.document, hd, hid]
      rfl
    have hload {r : Disk.Record} (hr : r ∈ l.committed) (hterm : Disk.isTerm r.id = true) :
        s.get? r.id = documentOf r := by
      rw [(hlooks.shows hm).get?, hm.lookup?_id hr hterm]
      rfl
    refine ⟨_, _, _, reads_disk hlooks hm, Disk.mem_idsOf.2 ⟨r, hr, hid⟩, ?_, ?_, ?_⟩
    · subst hid
      rw [isKey]
      cases hterm : Disk.isTerm r.id with
      | true => rw [if_pos rfl, hload hr hterm, hloaded]
      | false =>
        have hnone : Disk.lookup? l.committed r.id = none :=
          Disk.lookup?_eq_none_iff.2 fun hyes => absurd hyes (by simp [hterm])
        rw [if_neg Bool.false_ne_true, (hlooks.shows hm).get?, hnone]
    · rintro _ _ hkey ⟨r', hr', rfl, rfl⟩
      exact (hload hr' hkey).symm
    · rintro hshared _ ⟨r', hr', hid', rfl⟩
      have hvisible : s.visible.records.Perm l.committed := hlooks.visible ▸ hm.perm
      have hsame : r' = r := by
        by_contra hne
        exact hshared ⟨r', r, ⟨hvisible.mem_iff.2 hr', hid'⟩, ⟨hvisible.mem_iff.2 hr, hid⟩, hne⟩
      rw [hsame, hloaded]

/-! ### Writing -/

section
variable {fields : List (String × FieldConfig)} {y : Driver × Host} {p : PreparedDocument}
  {given : Option String}

theorem filed_registerFields {s : SetStore.Store} {docs : KeyMap PreparedDocument}
    (hfiled : SetStore.Filed s.keys docs h.server)
    (hrun : registerFields fields (.sets s, h) = .ok () y) :
    ∃ t, y.1 = .sets t ∧ t.keys = s.keys ∧ SetStore.Filed s.keys docs y.2.server := by
  induction fields generalizing s h with
  | nil =>
    cases hrun
    exact ⟨s, rfl, rfl, hfiled⟩
  | cons f fields ih =>
    rw [registerFields_cons, Action.bind_eq_ok] at hrun
    obtain ⟨_, z, hf, hrun⟩ := hrun
    have hafter := hfiled.registered rfl f.1 f.2
    rw [registerField, work_sets] at hf
    have hkeys := ((SetStore.Store.keeps_registerField_server (J := fun _ => True) f.1 f.2
      fun _ _ _ => trivial).after (s := (s, h.server)) ⟨rfl, trivial⟩).1
    rw [Action.after] at hafter hkeys
    cases hr : SetStore.Store.registerField f.1 f.2 (s, h.server) with
    | error e x =>
      rw [hr] at hf
      cases hf
    | ok _ x =>
      rw [hr] at hf hafter hkeys
      cases hf
      obtain ⟨t, ht, htkeys, hfiled'⟩ := ih (h := { h with server := x.2 })
        (s := x.1) (by rw [hkeys]; exact hafter) hrun
      rw [hkeys] at htkeys hfiled'
      exact ⟨t, ht, htkeys, hfiled'⟩

theorem tracked_registerFields {s : Disk.Store} {l : Disk.Ledger}
    (htracked : Disk.Store.Tracked l (s, h.volume))
    (hrun : registerFields fields (.disk s, h) = .ok () y) :
    ∃ t, y = (.disk t, h) ∧ Disk.Store.Tracked l (t, h.volume) := by
  induction fields generalizing s with
  | nil =>
    cases hrun
    exact ⟨s, rfl, htracked⟩
  | cons f fields ih =>
    rw [registerFields_cons, Action.bind_eq_ok] at hrun
    obtain ⟨_, z, hf, hrun⟩ := hrun
    rw [registerField_disk] at hf
    cases hs : s.registerField f.1 f.2 with
    | error e =>
      rw [hs] at hf
      cases hf
    | ok s' =>
      rw [hs] at hf
      cases hf
      exact ih (htracked.registered hs) hrun

end

end Driver

/-! ## What clients read -/

namespace Client

variable {c c' : Client} {h h' : Host} {id : String} {d : Document} {target : WriteTarget}
  {doc : Document} {load : String → Except Error (Option StoredDocument)} {listed : List String}

/-- There is no failure when the driver is asked for what is under the id. -/
def Loads (id : String) (x : Client × Host) : Prop :=
  ∃ d, (drive (Driver.get? id)).outcome x = .ok d

/-- Readers are given the document under the id exactly if it is readable and, where it is asked for
by the id, this is such that the driver can load by it. A window of hits that the driver takes fails
exactly for the hits in it that do not load, and a listing exactly for the ids in it, whichever query
or page it is. -/
structure GivenIff (readable : Prop) (id : String) (x : Client × Host) : Prop where
  loads : Loads id x ↔ (x.1.driver.isKey id = true → readable)
  get : (∃ d, (getDocument id).outcome x = .ok d) ↔ x.1.driver.isKey id = true ∧ readable
  search : ∀ q n, x.1.driver.translate q = .ok n → ∃ found : Driver.Findings,
    (∀ i, i ∈ found.map (·.1) ↔ i ∈ x.1.driver.matched x.2 n) ∧
    (∀ f ∈ found, x.1.driver.isKey f.1 = true → (f.2.toBool = true ↔ Loads f.1 x)) ∧
    (id ∉ x.1.driver.shared → ∀ f ∈ found, f.1 = id → (f.2.toBool = true ↔ readable)) ∧
    ∀ offset limit, x.1.driver.takes offset limit = true →
      ((∃ page, (fetchHits n offset limit).outcome x = .ok page) ↔
        ∀ f ∈ (found.drop offset).take limit, f.2.toBool = true)
  list : ∃ listed : List String, id ∈ listed ∧
    (∀ offset limit, x.1.driver.takes offset limit = true →
      (source.list offset limit).outcome x = .ok ((listed.drop offset).take limit)) ∧
    ((∀ offset ≤ listed.length, x.1.driver.takes offset (max x.1.pageSize 1) = true) →
      ((∃ ds, allDocuments.outcome x = .ok ds) ↔ ∀ i ∈ listed, Loads i x))

theorem source_serves (hoffers : Driver.Offers load listed c.driver h) :
    DocumentCursor.Provides source (c, h) listed load where
  list offset limit := by
    simp only [source, drive_run]
    cases htakes : c.driver.takes offset limit with
    | true => exact .inl (by rw [hoffers.lists offset limit htakes])
    | false =>
      obtain ⟨e, he⟩ := hoffers.refuses offset limit htakes
      exact .inr ⟨e, by rw [he]⟩
  load id := by
    change drive (Driver.get? id) (c, h) = _
    rw [drive_run, hoffers.loads, Action.ofExcept_run, Action.ofExcept_run]
    cases load id <;> rfl

theorem takes_eq_false_of_failsPage {x : Driver × Host} {bound size : Nat} {e : Error}
    (hoffers : Driver.Offers load listed x.1 x.2)
    (h : DocumentCursor.FailsPage source ({ c with driver := x.1 }, x.2) bound size e) :
    ∃ offset ≤ bound, x.1.takes offset size = false := by
  obtain ⟨offset, hoffset, hpage⟩ := h
  refine ⟨offset, hoffset, ?_⟩
  rw [← Bool.not_eq_true]
  intro htakes
  simp only [source, drive_run, hoffers.lists _ _ htakes] at hpage
  cases hpage

/-- To ask an open client for all documents is to go through a cursor of its page size. -/
theorem outcome_allDocuments_eq (hopen : c.closed = false) :
    allDocuments.outcome (c, h) = remainingDocuments.outcome (.new c.pageSize, c, h) := by
  rw [allDocuments, iterDocuments, bind_assoc, outcome_ensureOpen hopen]
  simp only [Action.outcome, Action.bind_run, Action.get_run, Action.pure_run, withCursor]
  cases remainingDocuments (.new c.pageSize, c, h) <;> rfl

theorem remainingDocuments_of_failing (hopen : c.closed = false) {pageSize : Nat} {e : Error}
    (hids : (Driver.ids 0 (max pageSize 1)).outcome (c.driver, h) = .error e) :
    remainingDocuments.outcome (.new pageSize, c, h) = .error e := by
  obtain ⟨x, hids⟩ := Action.outcome_eq_error.1 hids
  have hlist : source.list 0 (max pageSize 1) (c, h) = .error e ({ c with driver := x.1 }, x.2) := by
    change drive (Driver.ids 0 (max pageSize 1)) (c, h) = _
    rw [drive_run, hids]
  obtain ⟨n, hn⟩ : ∃ n, turns (.new pageSize) c.driver h = n + 1 := ⟨_, rfl⟩
  have hnext : DocumentCursor.next false source (n + 1) (.new pageSize, c, h) =
      .error e (.new pageSize, { c with driver := x.1 }, x.2) :=
    DocumentCursor.next_of_list_eq_error rfl rfl hlist
  rw [Action.outcome, remainingDocuments, Action.get_bind]
  simp only [hopen, hn, DocumentCursor.drain, Action.bind_run, hnext]

section
variable (hloads : Driver.Loads load c.driver h)
include hloads

theorem outcome_load (id : String) : (drive (Driver.get? id)).outcome (c, h) = load id := by
  rw [outcome_drive, Action.outcome, hloads, Action.ofExcept_run]
  cases load id <;> rfl

theorem outcome_getDocument (hopen : c.closed = false) (id : String) :
    (getDocument id).outcome (c, h) =
      match load id with
      | .error e => .error e
      | .ok none => .error (.notFound id)
      | .ok (some d) => .ok d := by
  have hload := outcome_load hloads id
  rw [getDocument, outcome_ensureOpen hopen]
  rw [Action.outcome] at hload ⊢
  rw [Action.bind_run]
  cases hr : drive (Driver.get? id) (c, h) <;> rw [hr] at hload <;> rw [← hload]
  · rename_i d x
    cases d <;> rfl

theorem loads_iff : Loads id (c, h) ↔ (load id).toBool = true := by
  rw [Loads, outcome_load hloads, Except.toBool_eq_true]

end

section
variable {y : Client × Host} (hopen : c.closed = false)
  (hserves : DocumentCursor.Provides source y listed load)
  (hlist : ∀ offset limit, source.list offset limit (c, h) = source.list offset limit y)
  (hlistable : listed.length ≤ listable c.driver h)
include hopen hserves hlist hlistable

/-- A cursor on documents gives what all ids load that are listed from where it begins, and is used
up then, whatever its page size is, unless a page is not given. -/
theorem remainingDocuments_run (pageSize : Nat) :
    (∃ e k, DocumentCursor.FailsPage source y listed.length (max pageSize 1) e ∧
        remainingDocuments (.new pageSize, c, h) = .error e (k, y)) ∨
      ∃ k, remainingDocuments (.new pageSize, c, h) =
          Action.ofExcept ((listed.mapM load).map List.reduceOption) (k, y) ∧
        (((listed.mapM load).map List.reduceOption).toBool = true → k.isUsedUp = true) := by
  have hrest : (DocumentCursor.new pageSize).rest listed = listed := by
    simp [DocumentCursor.rest, DocumentCursor.new]
  obtain ⟨n, hn⟩ : ∃ n, turns (.new pageSize) c.driver h = n + 1 := ⟨_, rfl⟩
  have hturns : (DocumentCursor.new pageSize).work listed ≤ n + 1 := by
    rw [← hn]
    simp [DocumentCursor.work, DocumentCursor.new, turns]
    omega
  have hall := DocumentCursor.drain_run hserves (c := .new pageSize) (n := n + 1)
    (Nat.le_max_right pageSize 1) (Nat.le_refl _) (Nat.zero_le _) hturns
    (by rw [hrest, ← hn, turns]; omega)
  rw [hrest] at hall
  rw [remainingDocuments, Action.get_bind]
  simp only [hopen, hn]
  rwa [DocumentCursor.drain_congr hlist rfl rfl]

end

/-- A listing gives what all ids load, unless a page is not given. -/
theorem outcome_allDocuments (hlisting : Driver.Listing load listed c.driver h)
    (hopen : c.closed = false) :
    allDocuments.outcome (c, h) = (listed.mapM load).map List.reduceOption ∨
      ∃ offset ≤ listed.length, c.driver.takes offset (max c.pageSize 1) = false ∧
        ∃ e, allDocuments.outcome (c, h) = .error e := by
  obtain ⟨⟨⟨d, h'⟩, hoffers, htakes, -, hsame⟩, hlistable⟩ := hlisting
  rw [outcome_allDocuments_eq hopen, Action.outcome]
  obtain ⟨e, k, hpage, hrun⟩ | ⟨k, hrun, -⟩ := remainingDocuments_run hopen
    (source_serves (c := { c with driver := d }) hoffers)
    (fun offset limit => by simp only [source, drive_run, hsame]) hlistable c.pageSize
  · obtain ⟨offset, hoffset, hrefused⟩ := takes_eq_false_of_failsPage hoffers hpage
    exact .inr ⟨offset, hoffset, htakes ▸ hrefused, e, by rw [hrun]⟩
  · refine .inl ?_
    rw [hrun, Action.ofExcept_run]
    cases (listed.mapM load).map List.reduceOption <;> rfl

/-- **Reading a document that a store has.** -/
theorem givenIff_of_has (hopen : c.closed = false) (hhas : c.driver.Has id d h) (hflat : d.IsFlat) :
    GivenIff d.IsFinite id (c, h) := by
  obtain ⟨load, listed, gives, hreads, hmem, hload, hkeys, hown⟩ := hhas.reads
  have hloaded : (d.loaded id).toBool = true ↔ d.IsFinite := by
    rw [← Document.isSome_ofJsonText?_toJsonText hflat, Document.loaded, SetStore.Store.storedOf]
    cases Document.ofJsonText? d.toJsonText <;> simp [Except.map, Except.toBool]
  have hfinite : (load id).toBool = true ↔ (c.driver.isKey id = true → d.IsFinite) := by
    rw [hload, ← hloaded]
    cases c.driver.isKey id <;> simp [Except.toBool]
  have hmapM {ids : List String} : (ids.mapM load).toBool = true ↔ ∀ i ∈ ids, Loads i (c, h) := by
    simp only [Except.toBool_mapM, List.all_eq_true, loads_iff hreads.loads]
  refine ⟨(loads_iff hreads.loads).trans hfinite, ?_, fun q n hq => ?_, listed, hmem,
    fun offset limit htakes => ?_, fun htakes => ?_⟩
  · rw [outcome_getDocument hreads.loads hopen, hload, ← hloaded]
    cases c.driver.isKey id with
    | false => simp
    | true =>
      rw [if_pos rfl, Document.loaded]
      cases SetStore.Store.storedOf d.toJsonText <;> simp [Except.map, Except.toBool]
  · obtain ⟨found, hmatched, hgives, hpages⟩ := hreads.finds q n hq
    refine ⟨found, hmatched, fun f hf hkey => ?_, fun hshared f hf hid => ?_,
      fun offset limit htakes => ?_⟩
    · rw [hkeys _ _ hkey (hgives f hf), loads_iff hreads.loads]
    · subst hid
      rw [hown hshared _ (hgives f hf), hloaded]
    · have hpage := congrArg Except.toBool (hpages offset limit htakes)
      rw [Except.toBool_map, Except.toBool_map] at hpage
      rw [← Except.toBool_eq_true, fetchHits, outcome_drive, hpage, Except.toBool_mapM,
        List.all_eq_true]
  · change (drive (Driver.ids offset limit)).outcome (c, h) = _
    rw [outcome_drive, Action.outcome, hreads.lists offset limit htakes]
  · obtain hall | ⟨offset, hoffset, hrefused, -⟩ := outcome_allDocuments hreads.listing hopen
    · rw [← Except.toBool_eq_true, hall, Except.toBool_map, hmapM]
    · cases hrefused.symm.trans (htakes offset hoffset)

/-! ## What is accepted -/

/-- A write that succeeded has the document on a key server, or has it wait on disk. -/
theorem has_of_write (hrecord : c.driver.OnRecord h)
    (hwrite : write target doc (c, h) = .ok id (c', h')) :
    ∃ plan p, c.registry.plan doc c.policy = .ok plan ∧
      doc.prepare plan c.driver.capabilities.valueKinds c.driver.name = .ok p ∧
      (c'.driver.Has id p.stored h' ∨ c'.driver.Gathers id p.stored h' ∨
        ∃ e y, Driver.commit (c'.driver, h') = .error e y) := by
  obtain ⟨-, -, plan, p, ws, x, hplan, hp, hregister, hindex⟩ := write_eq_ok hwrite
  refine ⟨plan, p, hplan, hp, ?_⟩
  generalize c.driver = driver at hrecord hregister
  cases hrecord with
  | @sets s _ docs hk hfiled =>
    obtain ⟨t, ht, hkeys, hfiled⟩ := Driver.filed_registerFields (h := { h with warnings := ws })
      hfiled hregister
    obtain ⟨d, host⟩ := x
    subst ht
    obtain ⟨y, hrun, hdriver, hserver⟩ := Driver.index_sets_eq_ok hindex
    rw [← hkeys] at hk hfiled
    obtain ⟨hsame, hserves, hfiled⟩ := hfiled.index_ok hk hrun
    rw [hsame] at hdriver
    rw [← hserver] at hserves hfiled
    have hthere : (Driver.sets t).Has id p.stored h' :=
      .sets hk hfiled hserves (by rw [KeyMap.get?_insert, if_pos rfl]) rfl
    exact .inl (by rwa [← hdriver] at hthere)
  | @disk s _ l htracked =>
    obtain ⟨t, rfl, htracked⟩ := Driver.tracked_registerFields (h := { h with warnings := ws })
      htracked hregister
    obtain ⟨y, hrun, hdriver, hvolume⟩ := Driver.index_disk_eq_ok hindex
    obtain ⟨rfl, ⟨r, hr⟩ | ⟨e, z, hfails⟩⟩ := htracked.booked.index_ok hrun
    · have hindexed := htracked.indexed hr (Action.outcome_eq_ok.2 ⟨y, hrun⟩)
      rw [Action.after, hrun] at hindexed
      dsimp only at hindexed hdriver hvolume
      obtain ⟨s', v'⟩ := y
      dsimp only at hindexed hdriver hvolume
      rw [← hvolume] at hindexed
      have hwaits : (Driver.disk s').Gathers (target.id?.getD ({ h with warnings := ws }).nextId)
          p.stored h' := by
        obtain ⟨hid, hstored, -⟩ := Disk.FieldMap.record?_eq_some htracked.booked.isNumbered
          htracked.booked.unreserved hr
        exact .disk hindexed (List.mem_append_right _ (List.mem_singleton_self _)) hid hstored
      exact .inr (.inl (by rwa [← hdriver] at hwaits))
    · dsimp only at hdriver hvolume
      refine .inr (.inr ⟨e, (.disk z.1, { h' with volume := z.2 }), ?_⟩)
      rw [hdriver, Driver.commit, Driver.work_disk, hvolume, hfails]

/-- **Accepted documents.** A document whose write succeeded is there for readers, on disk once it
is committed; and as long as it is there, it is given to them exactly if its stored numbers are
finite, and by its id only if that is a term where the store is on disk. -/
theorem accepted_readable_iff (hrecord : c.driver.OnRecord h)
    (hwrite : write target doc (c, h) = .ok id (c', h')) :
    ∃ d : Document,
      (∃ plan, c.registry.plan doc c.policy = .ok plan ∧
        d.pairs = doc.grouped.pairs.filter (plan.stores ·.1)) ∧
      (c'.driver.Has id d h' ∨
        (∃ y, Driver.commit (c'.driver, h') = .ok () y ∧ y.1.Has id d y.2) ∨
        ∃ e y, Driver.commit (c'.driver, h') = .error e y) ∧
      (doc.IsFinite → d.IsFinite) ∧
      ∀ c₂ h₂, c₂.closed = false → c₂.driver.Has id d h₂ → GivenIff d.IsFinite id (c₂, h₂) := by
  obtain ⟨plan, p, hplan, hp, hhas⟩ := has_of_write hrecord hwrite
  have hkinds : .document ∉ c.driver.capabilities.valueKinds := by
    generalize c.driver = driver at hrecord
    cases hrecord <;> simp [Driver.capabilities, SetStore.capabilities, Disk.capabilities,
      SetStore.acceptedKinds]
  refine ⟨p.stored, ⟨plan, hplan, Document.stored_of_prepare hp⟩, ?_, (·.stored hp),
    fun c₂ h₂ hopen hthere => givenIff_of_has hopen hthere (Document.isFlat_stored hp hkinds)⟩
  exact hhas.imp_right (.imp_left Driver.Gathers.commit)

def onEmptyServer : Client where
  driver := .sets ⟨⟨"s"⟩, "", SetStore.defaultTimeoutMs, false, .empty⟩
  registry := .new SetStore.capabilities.schemaTier .empty false .freeText
  policy := .guess
  pageSize := ClientConfig.defaultPageSize
  readonly := false
  closed := false
  ignored := 0
  cache := .empty
  lease := none

/-- A document with a number that is none is accepted, and cannot be loaded. -/
theorem accepted_readable_iff_nan :
    onEmptyServer.driver.OnRecord (.initial Text.stems [] (.fresh true) "") ∧
      ∃ c' h', write .fresh ⟨[("x", .number (.nan false))]⟩
            (onEmptyServer, .initial Text.stems [] (.fresh true) "") = .ok "1" (c', h') ∧
        documentCount.outcome (c', h') = .ok 1 ∧ ¬∃ d, (getDocument "1").outcome (c', h') = .ok d := by
  have hrecord : onEmptyServer.driver.OnRecord (.initial Text.stems [] (.fresh true) "") :=
    .sets (by decide) (.empty fun _ => rfl)
  have hrun : (write .fresh ⟨[("x", .number (.nan false))]⟩).passes
      (onEmptyServer, .initial Text.stems [] (.fresh true) "") (fun id x =>
        id = "1" ∧ x.1.closed = false ∧ x.1.driver.name = "redis" ∧
          documentCount.outcome x = .ok 1) = true := by
    decide +kernel
  obtain ⟨id, ⟨c', h'⟩, hwrite, hpasses⟩ := Action.passes_iff.1 hrun
  obtain ⟨rfl, hopen, hname, hcount⟩ := of_decide_eq_true hpasses
  refine ⟨hrecord, c', h', hwrite, hcount, ?_⟩
  obtain ⟨d, ⟨plan, hplan, hd⟩, hthere, -, hgiven⟩ := accepted_readable_iff hrecord hwrite
  have hstored : d.pairs = [("x", .number (.nan false))] := by
    rw [hd]
    cases hplan
    rfl
  have hcommit : Driver.commit (c'.driver, h') = .ok () (c'.driver, h') := by
    cases hdriver : c'.driver with
    | sets s => rfl
    | _ => simp [hdriver, Driver.name, Memory.backendName, Memory.Limited.backendName,
        Disk.backendName] at hname
  have hhas : c'.driver.Has "1" d h' := by
    rcases hthere with h | ⟨y, hy, h⟩ | ⟨e, y, hy⟩
    · exact h
    · rw [hcommit] at hy
      cases hy
      exact h
    · rw [hcommit] at hy
      cases hy
  rw [(hgiven c' h' hopen hhas).get]
  rintro ⟨-, hfinite⟩
  exact absurd (hfinite _ (hstored ▸ List.mem_singleton_self _) _ rfl) (by decide)

end Client

end Searchlight
