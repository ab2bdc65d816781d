import Searchlight.Proofs.Client.Writing
import Searchlight.Proofs.SetStore.Adding

/-!
# Adding to a store on a key server

To add a document registers its new fields, which leaves all documents, and indexes it under the
next number of the counter. What clients are answered about other documents stays, and so do the
translations of all queries that have one, since the new fields are new to the driver as well.
-/

namespace Searchlight

namespace Driver

variable {h : Host} {s : SetStore.Store} {v : SetStore.Server}
  {fields : List (String × FieldConfig)}

/-- Fields that a store on a key server takes leave the documents and the counter. -/
theorem registerFields_sets_eq_ok (hk : SetStore.KeySpace.IsValidStem s.keys.stem)
    {x : Driver × Host} (hrun : registerFields fields (.sets s, h) = .ok () x) :
    ∃ v, x = (.sets { s with schema := s.schema.insertAll fields }, { h with server := v }) ∧
      SetStore.SameTraces s.keys h.server v ∧
      v.keys.get? s.keys.nextId = h.server.keys.get? s.keys.nextId := by
  induction fields generalizing s h with
  | nil =>
    cases hrun
    exact ⟨h.server, rfl, .refl _ _, rfl⟩
  | cons f fields ih =>
    rw [registerFields_cons, Action.bind_eq_ok] at hrun
    obtain ⟨_, y, hf, hrun⟩ := hrun
    have hsame := SetStore.Store.sameTraces_registerField (v := h.server) hk f.1 f.2
    have hnext := SetStore.Store.get?_registerField (v := h.server) hk (r := .nextId) (by simp)
      f.1 f.2
    rw [← SetStore.KeySpace.nextId_eq_key] at hnext
    by_cases htakes : s.TakesFields h.server
    · obtain ⟨v, hv, -⟩ := SetStore.Store.registerField_of_takesFields f.1 f.2 htakes
      rw [Action.after, hv] at hsame hnext
      rw [registerField, work_sets, hv] at hf
      cases hf
      obtain ⟨v', rfl, hsame', hnext'⟩ := ih (h := { h with server := v })
        (s := { s with schema := s.schema.insert f.1 f.2 }) hk hrun
      exact ⟨v', rfl, hsame.trans hsame', hnext'.trans hnext⟩
    · obtain ⟨e, he⟩ := SetStore.Store.registerField_of_not_takesFields f.1 f.2 htakes
      rw [registerField, work_sets, he] at hf
      cases hf

theorem outcome_sets {α : Type} {memory : Action Memory.Store α} {sets : SetStore.Work α}
    {disk : Disk.Work α} :
    (work memory sets disk).outcome (.sets s, h) = sets.outcome (s, h.server) := by
  rw [Action.outcome, Action.outcome, work_sets]
  cases sets (s, h.server) <;> rfl

theorem index_eq_ok {x : Driver} {d : PreparedDocument} {given : Option String} {id : String}
    {y : Driver × Host} (hrun : index d given (x, h) = .ok id y) :
    ∃ z, work (do modify (·.index (given.getD h.nextId) d); return given.getD h.nextId)
        (SetStore.Store.index d given) (Disk.Store.index d (given.getD h.nextId)) (x, h) = .ok id z ∧
      y.1 = z.1 ∧ y.2.server = z.2.server ∧ y.2.volume = z.2.volume := by
  rw [index, Action.get_bind, Action.bind_eq_ok] at hrun
  obtain ⟨id', z, hwork, hrun⟩ := hrun
  -- What counts as drawn is of no consequence to the store.
  simp only [Action.bind_run, Action.ite_run, Action.modify_run, Action.pure_run] at hrun
  split at hrun <;> cases hrun <;> exact ⟨_, hwork, rfl, rfl, rfl⟩

theorem index_sets_eq_ok {d : PreparedDocument} {given : Option String} {id : String}
    {x : Driver × Host} (hrun : index d given (.sets s, h) = .ok id x) :
    ∃ y, SetStore.Store.index d given (s, h.server) = .ok id y ∧ x.1 = .sets y.1 ∧
      x.2.server = y.2 := by
  obtain ⟨z, hwork, hdriver, hserver, -⟩ := index_eq_ok hrun
  rw [work_sets] at hwork
  split at hwork <;> cases hwork
  exact ⟨_, ‹_›, hdriver, hserver⟩

theorem index_disk_eq_ok {s : Disk.Store} {d : PreparedDocument} {given : Option String}
    {id : String} {x : Driver × Host} (hrun : index d given (.disk s, h) = .ok id x) :
    ∃ y, Disk.Store.index d (given.getD h.nextId) (s, h.volume) = .ok id y ∧ x.1 = .disk y.1 ∧
      x.2.volume = y.2 := by
  obtain ⟨z, hwork, hdriver, -, hvolume⟩ := index_eq_ok hrun
  rw [work_disk] at hwork
  split at hwork <;> cases hwork
  exact ⟨_, ‹_›, hdriver, hvolume⟩

end Driver

namespace Client

variable {c c' : Client} {h h' : Host} {s : SetStore.Store} {doc : Document} {id : String}

theorem outcome_drive {α : Type} (x : DriverWork α) :
    (drive x).outcome (c, h) = x.outcome (c.driver, h) := by
  rw [Action.outcome, Action.outcome, drive_run]
  cases x (c.driver, h) <;> rfl

/-- **What it takes to add a document** to a store on a key server. -/
theorem add_eq_ok (hs : c.driver = .sets s) (hk : SetStore.KeySpace.IsValidStem s.keys.stem)
    (hv : h.server.InOrder s.keys) (hadd : add doc (c, h) = .ok id (c', h')) :
    c.closed = false ∧ c'.closed = false ∧ s.Serves h.server ∧
      (∃ n, h.server.nextNumber? s.keys = some n ∧ id = toString n) ∧
      SetStore.Stores s.keys id h.server h'.server ∧
      ∃ fields : List (String × FieldConfig),
        c'.driver = .sets { s with schema := s.schema.insertAll fields } ∧
          ∀ f ∈ fields, c.registry.schema.get? f.1 = none := by
  obtain ⟨hopen, hopen', plan, prepared, ws, x, hplan, -, hregister, hindex⟩ := write_eq_ok hadd
  rw [hs] at hregister
  obtain ⟨v, rfl, hsame, hnext⟩ := Driver.registerFields_sets_eq_ok hk hregister
  obtain ⟨y, hy, hdriver, hserver⟩ := Driver.index_sets_eq_ok hindex
  obtain ⟨hserves, ⟨n, hn, rfl⟩, hstore, hstores⟩ :=
    SetStore.Store.index_fresh_eq_ok (v := v)
      (s := { s with schema := s.schema.insertAll plan.newFields }) hk (hsame.inOrder hv) hy
  refine ⟨hopen, hopen', hserves.congr ⟨hsame.answering.1.symm, hsame.answering.2.symm⟩,
    ⟨n, ?_, rfl⟩, ?_, plan.newFields, ?_, fun f hf => Registry.plan_unknown hplan hf⟩
  · rw [← hn, SetStore.Server.nextNumber?, SetStore.Server.nextNumber?, hnext]
  · rw [hserver]
    exact hsame.stores hstores
  · rw [hstore] at hdriver
    exact hdriver

/-! ## What clients are answered -/

theorem outcome_ensureOpen {α : Type} {x : ClientWork α} (hopen : c.closed = false) :
    (ensureOpen >>= fun _ => x : ClientWork α).outcome (c, h) = x.outcome (c, h) := by
  simp [Action.outcome, ensureOpen, hopen]

section
variable (hopen : c.closed = false) (hs : c.driver = .sets s) (hserves : s.Serves h.server)
include hopen hs hserves

theorem outcome_documentExists (hv : h.server.InOrder s.keys) (i : String) :
    (documentExists i).outcome (c, h) = .ok ((h.server.sets s.keys.docs).contains i) := by
  rw [documentExists, outcome_ensureOpen hopen, outcome_drive, hs, Driver.contains,
    Driver.outcome_sets, Action.outcome, SetStore.Store.contains_run hv hserves]

theorem outcome_documentCount (hv : h.server.InOrder s.keys) :
    documentCount.outcome (c, h) = .ok ((h.server.sets s.keys.docs).size % UInt64.size) := by
  rw [documentCount, outcome_ensureOpen hopen, outcome_drive, hs, Driver.count,
    Driver.outcome_sets, Action.outcome, SetStore.Store.count_run hv hserves]

/-- What is answered about an id whose data are as they were is as it was. -/
theorem outcome_getDocument_congr {s' : SetStore.Store} (hopen' : c'.closed = false)
    (hs' : c'.driver = .sets s') (hkeys : s'.keys = s.keys) (hserves' : s'.Serves h'.server)
    {i : String} (hdata : h'.server.keys.get? (s.keys.data i) = h.server.keys.get? (s.keys.data i)) :
    (getDocument i).outcome (c', h') = (getDocument i).outcome (c, h) := by
  rw [getDocument, outcome_ensureOpen hopen', outcome_ensureOpen hopen]
  refine Action.outcome_bind_congr ?_ fun d _ _ => by cases d <;> rfl
  rw [outcome_drive, outcome_drive, hs, hs', Driver.get?, Driver.outcome_sets, Driver.outcome_sets]
  exact SetStore.Store.outcome_get?_congr hkeys hserves hserves' hdata

end

end Client

end Searchlight
