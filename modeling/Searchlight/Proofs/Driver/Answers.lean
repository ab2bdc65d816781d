import Searchlight.Proofs.Disk.Following
import Searchlight.Proofs.Driver.Registering

/-!
# What a driver answers about documents

Two states of a driver are alike for whoever asks for documents when every question gets the same
answer (`SameDocuments`). Warnings make no difference, and neither do the fields of a store on disk
as long as it has no index.
-/

namespace Searchlight

namespace Disk.Store

variable {s : Store} {v : Volume} {m : FieldMap}

variable (hs : s.live = none)
include hs

theorem outcome_ids_of_live_none (offset limit : Nat) :
    (ids offset limit).outcome ({ s with fields := m }, v) = (ids offset limit).outcome (s, v) := by
  simp only [Action.outcome, ids, Action.bind_run, refresh_of_live_none hs,
    refresh_of_live_none (s := { s with fields := m }) hs]
  by_cases hload : s.readonly = true ∧ v.hasIndex s.path = true
  · simp only [if_pos hload]
    cases load s.path true defaultWriterMemory v <;> rfl
  · simp [hload, visible, hs]

theorem outcome_search_of_live_none (q : TermQuery) (offset limit : Nat) :
    (search q offset limit).outcome ({ s with fields := m }, v) =
      (search q offset limit).outcome (s, v) := by
  simp only [Action.outcome, search, Action.bind_run, refresh_of_live_none hs,
    refresh_of_live_none (s := { s with fields := m }) hs]
  by_cases hload : s.readonly = true ∧ v.hasIndex s.path = true
  · simp only [if_pos hload]
    cases load s.path true defaultWriterMemory v <;> rfl
  · simp [hload, visible, ranking, Segments.ranking, hs]
    rfl

end Disk.Store

namespace Driver

/-- Every question about documents gets the same answer. -/
structure SameDocuments (x y : Driver × Host) : Prop where
  get? : ∀ id, (Driver.get? id).outcome x = (Driver.get? id).outcome y
  contains : ∀ id, (Driver.contains id).outcome x = (Driver.contains id).outcome y
  count : Driver.count.outcome x = Driver.count.outcome y
  ids : ∀ offset limit, (Driver.ids offset limit).outcome x = (Driver.ids offset limit).outcome y
  search : ∀ q offset limit,
    (Driver.search q offset limit).outcome x = (Driver.search q offset limit).outcome y

variable {α : Type} {d : Driver} {h : Host} {ws : List String}

theorem outcome_work_warnings {memory : Action Memory.Store α} {sets : SetStore.Work α}
    {disk : Disk.Work α} :
    (work memory sets disk).outcome (d, { h with warnings := ws }) =
      (work memory sets disk).outcome (d, h) := by
  cases d with
  | memory s =>
    simp only [Action.outcome, work_memory]
    cases memory s <;> rfl
  | limited key s =>
    simp only [Action.outcome, work_limited]
    cases memory s <;> rfl
  | sets s =>
    simp only [Action.outcome, work_sets]
    cases sets (s, h.server) <;> rfl
  | disk s =>
    simp only [Action.outcome, work_disk]
    cases disk (s, h.volume) <;> rfl

theorem sameDocuments_warnings : SameDocuments (d, { h with warnings := ws }) (d, h) where
  get? _ := outcome_work_warnings
  contains _ := outcome_work_warnings
  count := outcome_work_warnings
  ids _ _ := outcome_work_warnings
  search _ _ _ := outcome_work_warnings

theorem SameDocuments.trans {x y z : Driver × Host} (h : SameDocuments x y)
    (h' : SameDocuments y z) : SameDocuments x z where
  get? id := (h.get? id).trans (h'.get? id)
  contains id := (h.contains id).trans (h'.contains id)
  count := h.count.trans h'.count
  ids offset limit := (h.ids offset limit).trans (h'.ids offset limit)
  search q offset limit := (h.search q offset limit).trans (h'.search q offset limit)

theorem outcome_disk {s : Disk.Store} {memory : Action Memory.Store α} {sets : SetStore.Work α}
    {disk : Disk.Work α} :
    (work memory sets disk).outcome (.disk s, h) = disk.outcome (s, h.volume) := by
  simp only [Action.outcome, work_disk]
  cases disk (s, h.volume) <;> rfl

/-- The fields of a store without an index say nothing about its documents. -/
theorem sameDocuments_fields {s : Disk.Store} {m : Disk.FieldMap} (hs : s.live = none) :
    SameDocuments (.disk { s with fields := m }, h) (.disk s, h) where
  get? id := by
    have hget : Disk.Store.get? { s with fields := m } id = s.get? id := by
      simp [Disk.Store.get?, Disk.Store.ranking, Disk.Store.visible,
        Disk.Segments.ranking, hs]
    rw [get?, outcome_disk, outcome_disk]
    simp only [Action.outcome, Action.get_bind, hget]
    cases s.get? id <;> rfl
  contains id := by
    simp only [contains, outcome_disk]
    rfl
  count := by
    simp only [count, outcome_disk]
    rfl
  ids offset limit := by
    simp only [ids, outcome_disk]
    exact Disk.Store.outcome_ids_of_live_none hs offset limit
  search q offset limit := by
    simp only [search, outcome_disk]
    cases q.terms Disk.backendName with
    | error e => rfl
    | ok t => exact Disk.Store.outcome_search_of_live_none hs t offset limit

end Driver

end Searchlight
