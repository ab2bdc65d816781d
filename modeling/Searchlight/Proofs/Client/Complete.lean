import Searchlight.Proofs.Client.Views
import Searchlight.Proofs.Driver.Listing

/-!
# Complete listings

Whoever goes through the documents of a store, by pages of whatever size, is given each document
that is there, and each of them once (`Lists`). That is so because all pages are windows of one list
of ids, and a cursor is not at its end before it was given a page that is not full.
-/

namespace Searchlight

/-! ## Windows of a list -/

/-- Windows that lie end to end make up the list as far as they go. -/
theorem flatten_windows {α : Type} (xs : List α) (size k : Nat) :
    ((List.range k).map fun i => (xs.drop (i * size)).take size).flatten = xs.take (k * size) := by
  induction k with
  | zero => simp
  | succ k ih =>
    rw [List.range_succ, List.map_append, List.flatten_append, ih, Nat.succ_mul, List.take_add]
    simp

namespace Driver

variable {d : Driver} {h : Host} {listed : List String}
  {load : String → Except Error (Option StoredDocument)}

/-- A driver that is asked for one window after the other gives them all. -/
theorem Offers.mapM_ids (hoffers : Offers load listed d h) {windows : List (Nat × Nat)}
    (htakes : ∀ w ∈ windows, d.takes w.1 w.2 = true) :
    (windows.mapM fun w => ids w.1 w.2) (d, h) =
      .ok (windows.map fun w => (listed.drop w.1).take w.2) (d, h) := by
  induction windows with
  | nil => rfl
  | cons w windows ih =>
    obtain ⟨hw, hwindows⟩ := List.forall_mem_cons.1 htakes
    rw [List.mapM_cons, Action.bind_of_ok (hoffers.lists w.1 w.2 hw),
      Action.bind_of_ok (ih hwindows)]
    rfl

theorem Listing.outcome_mapM_ids (hlisting : Listing load listed d h)
    (windows : List (Nat × Nat)) (htakes : ∀ w ∈ windows, d.takes w.1 w.2 = true) :
    (windows.mapM fun w => ids w.1 w.2).outcome (d, h) =
      .ok (windows.map fun w => (listed.drop w.1).take w.2) := by
  obtain ⟨⟨x, hoffers, hx, -, hsame⟩, -⟩ := hlisting
  cases windows with
  | nil => rfl
  | cons w windows =>
    have hrun := hoffers.mapM_ids (hx ▸ htakes)
    rw [List.mapM_cons, Action.bind_run, ← hsame] at hrun
    rw [Action.outcome, List.mapM_cons, Action.bind_run, hrun]

end Driver

namespace Client

variable {c : Client} {h : Host} {listed : List String}
  {load : String → Except Error (Option StoredDocument)}

/-! ## What clients are given -/

/-- A client is told these ids, is given the documents under those of them that are keys, and is in
the second state once it has listed them in the first. -/
structure Lists (listed : List String) (x y : Client × Host) : Prop where
  nodup : (listed.filter x.1.driver.isKey).Nodup
  /-- Every page that may be asked for is a window of the ids. -/
  window : ∀ offset limit, x.1.driver.takes offset limit = true →
    (Driver.ids offset limit).outcome (x.1.driver, x.2) = .ok ((listed.drop offset).take limit)
  refused : ∀ offset limit, x.1.driver.takes offset limit = false →
    ∃ e, (Driver.ids offset limit).outcome (x.1.driver, x.2) = .error e
  /-- Pages that are asked for one after the other lie end to end. -/
  windows : ∀ size k, (∀ i < k, x.1.driver.takes (i * size) size = true) →
    (((List.range k).mapM fun i => Driver.ids (i * size) size).outcome (x.1.driver, x.2)).map
      List.flatten = .ok (listed.take (k * size))
  /-- The keys are those of the documents that are there. -/
  visible : ∀ id, id ∈ listed.filter x.1.driver.isKey ↔
    (getDocument id).outcome y ≠ .error (.notFound id)
  /-- A cursor gives the documents as they are given one by one, whatever its page size is, or fails
  with a page that may not be asked for. -/
  documents : ∀ pageSize,
    remainingDocuments.outcome (.new pageSize, x) =
        (listed.filter x.1.driver.isKey).mapM (fun id => (getDocument id).outcome y) ∨
      ∃ offset ≤ listed.length, x.1.driver.takes offset (max pageSize 1) = false ∧
        ∃ e, remainingDocuments.outcome (.new pageSize, x) = .error e
  once : ∀ pageSize ds, remainingDocuments.outcome (.new pageSize, x) = .ok ds →
    ds.map (·.id) = listed.filter x.1.driver.isKey
  /-- It ends because there are no more. -/
  usedUp : ∀ pageSize ds, remainingDocuments.outcome (.new pageSize, x) = .ok ds →
    (remainingDocuments.after (.new pageSize, x)).1.isUsedUp = true
  after : ∀ pageSize, (remainingDocuments.after (.new pageSize, x)).2 = y

theorem mapM_getDocument {y : Client × Host} (hloads : Driver.Loads load y.1.driver y.2)
    (hopen : y.1.closed = false) (listed : List String) :
    (listed.mapM load).map List.reduceOption =
      (given load listed).mapM fun id => (getDocument id).outcome y := by
  induction listed with
  | nil => rfl
  | cons id ids ih =>
    rw [List.mapM_cons, given, List.filter_cons, isThere]
    rw [given] at ih
    rcases hload : load id with e | (_ | d)
    · rw [if_pos rfl, List.mapM_cons, outcome_getDocument hloads hopen, hload]
      rfl
    · rw [if_neg Bool.false_ne_true, ← ih]
      cases ids.mapM load <;> rfl
    · rw [if_pos rfl, List.mapM_cons, outcome_getDocument hloads hopen, hload, ← ih]
      cases ids.mapM load <;> rfl

/-- **What a driver offers**, a client is given. -/
theorem lists_of_offers {x : Driver × Host} (hopen : c.closed = false) (hnames : Names listed load)
    (hgiven : given load listed = listed.filter c.driver.isKey)
    (hoffers : Driver.Offers load listed x.1 x.2) (htakes : x.1.takes = c.driver.takes)
    (hlisting : Driver.Listing load listed c.driver h)
    (hsame : ∀ offset limit, Driver.ids offset limit (c.driver, h) = Driver.ids offset limit x) :
    Lists listed (c, h) ({ c with driver := x.1 }, x.2) := by
  have hprovides : DocumentCursor.Provides source ({ c with driver := x.1 }, x.2) listed load :=
    source_serves (c := { c with driver := x.1 }) hoffers
  have hrun (pageSize : Nat) := remainingDocuments_run hopen hprovides
    (fun offset limit => by simp only [source, drive_run, hsame]) hlisting.listable pageSize
  -- The documents that are given are those that all ids load.
  have hdocuments (pageSize : Nat) (ds : List StoredDocument)
      (hds : remainingDocuments.outcome (.new pageSize, c, h) = .ok ds) :
      (listed.mapM load).map List.reduceOption = .ok ds ∧
        (remainingDocuments.after (.new pageSize, c, h)).1.isUsedUp = true := by
    obtain ⟨e, k, -, hfails⟩ | ⟨k, hk, hend⟩ := hrun pageSize
    · rw [Action.outcome, hfails] at hds
      cases hds
    · rw [Action.outcome, hk, Action.ofExcept_run] at hds
      rw [Action.after, hk, Action.ofExcept_run]
      cases hloaded : (listed.mapM load).map List.reduceOption with
      | error e =>
        rw [hloaded] at hds
        cases hds
      | ok ds' =>
        rw [hloaded] at hds hend
        cases hds
        exact ⟨rfl, hend rfl⟩
  have hget (id : String) :=
    outcome_getDocument (c := { c with driver := x.1 }) hoffers.loads hopen id
  exact {
    nodup := hgiven ▸ hnames.nodup
    window := fun offset limit htaken => by
      rw [Action.outcome, hsame, hoffers.lists offset limit (htakes ▸ htaken)]
    refused := fun offset limit hrefused => by
      obtain ⟨e, he⟩ := hoffers.refuses offset limit (htakes ▸ hrefused)
      exact ⟨e, by rw [Action.outcome, hsame, he]⟩
    windows := fun size k htaken => by
      have hwindows := hlisting.outcome_mapM_ids ((List.range k).map fun i => (i * size, size))
        (List.forall_mem_map.2 fun i hi => htaken i (List.mem_range.1 hi))
      rw [List.mapM_map, List.map_map] at hwindows
      exact (congrArg (Except.map List.flatten) hwindows).trans
        (congrArg Except.ok (flatten_windows listed size k))
    visible := fun id => by
      dsimp only
      rw [← hgiven, hnames.mem_given_iff, isThere, hget]
      rcases hload : load id with e | (_ | d)
      · simpa using hnames.fails id e hload
      · simp
      · simp
    documents := fun pageSize => by
      obtain ⟨e, k, hpage, hfails⟩ | ⟨k, hk, -⟩ := hrun pageSize
      · obtain ⟨offset, hoffset, hrefused⟩ := takes_eq_false_of_failsPage hoffers hpage
        exact .inr ⟨offset, hoffset, htakes ▸ hrefused, e, by rw [Action.outcome, hfails]⟩
      · refine .inl ?_
        rw [← hgiven, ← mapM_getDocument hoffers.loads hopen, Action.outcome, hk,
          Action.ofExcept_run]
        cases (listed.mapM load).map List.reduceOption <;> rfl
    once := fun pageSize ds hds =>
      hgiven ▸ (hnames.documents (hdocuments pageSize ds hds).1).1
    usedUp := fun pageSize ds hds => (hdocuments pageSize ds hds).2
    after := fun pageSize => by
      obtain ⟨e, k, -, hfails⟩ | ⟨k, hk, -⟩ := hrun pageSize
      · rw [Action.after, hfails]
      · rw [Action.after, hk, Action.ofExcept_run]
        cases (listed.mapM load).map List.reduceOption <;> rfl }

/-- **Listings are complete.** A client that is given a first page of ids is given all documents that
are there. -/
theorem lists_or_fails (hs : c.driver.Sound) (hk : c.driver.HasValidStem) (ha : c.driver.HasArrived)
    (hv : h.Sound) (hf : h.OnFile) (hopen : c.closed = false) :
    (∀ pageSize, ∃ e, (Driver.ids 0 (max pageSize 1)).outcome (c.driver, h) = .error e ∧
      remainingDocuments.outcome (.new pageSize, c, h) = .error e) ∨
    ∃ listed y, Lists listed (c, h) y ∧ c.driver.ListsInOrder listed ∧
      ((∀ s, c.driver = .disk s → s.readonly = false) → y = (c, h)) := by
  rcases Driver.lists_or_fails hs hk ha hv hf with
    hfails | ⟨listed, load, hnames, hgiven, hlisting, horder⟩
  · refine .inl fun pageSize => ?_
    obtain ⟨e, he⟩ := hfails 0 (max pageSize 1) (Nat.le_max_right pageSize 1)
    exact ⟨e, he, remainingDocuments_of_failing hopen he⟩
  · refine .inr ⟨listed, ?_⟩
    -- What is listed from is the store itself, or what it becomes by looking at the index.
    by_cases hreading : ∀ s, c.driver = .disk s → s.readonly = false
    · have hoffers := hlisting.offers_of_not_reading hreading
      exact ⟨(c, h), lists_of_offers (x := (c.driver, h)) hopen hnames hgiven hoffers rfl hlisting
        fun _ _ => rfl, horder, fun _ => rfl⟩
    · obtain ⟨x, hoffers, htakes, -, hsame⟩ := hlisting.offers
      exact ⟨_, lists_of_offers hopen hnames hgiven hoffers htakes hlisting hsame, horder,
        fun h => absurd h hreading⟩

end Client

end Searchlight
