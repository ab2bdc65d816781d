import Mathlib.Data.List.Nodup
import Searchlight.Disk.Store
import Searchlight.Proofs.Action
import Searchlight.Proofs.FileTree

/-!
# Records have ids of their own

An id finds the records that have it, unless it is too long for a term: such an id finds nothing. No
two records of an index have the same id that is a term, because a writer removes what is found by an
id before it adds a record with it; and no record is found by the id of another one. What carries this
through commits, failures and restarts is that it holds of every list of records that a store may come
to show: what is visible, what the writer committed last, what its next commit would leave
(`Writer.upcoming`), and every index on the volume (`Volume.Sound`).
-/

namespace Searchlight.Disk

open Searchlight.Action (Keeps)

/-! ## Ids -/

def finds (id name : String) : Bool := name == id && isTerm id

theorem finds_iff {id name : String} : finds id name = true ↔ name = id ∧ isTerm id = true := by
  rw [finds, Bool.and_eq_true, beq_iff_eq]

/-- The things that an id does not find by their names. -/
def without {α : Type} (name : α → String) (id : String) (xs : List α) : List α :=
  xs.filter fun x => !finds id (name x)

theorem mem_textTerms {field : Nat} {texts : List String} {t : Term} :
    t ∈ textTerms field texts ↔ ∃ s ∈ texts, isTerm s = true ∧ t = ⟨field, .text s⟩ := by
  simp only [textTerms, List.mem_map, List.mem_filter, and_assoc, eq_comm (a := t)]

theorem ofId_mem_textTerms {id name : String} :
    .ofId id ∈ textTerms idField [name] ↔ finds id name = true := by
  rw [mem_textTerms, finds_iff]
  constructor
  · rintro ⟨s, hs, hterm, heq⟩
    cases List.mem_singleton.1 hs
    cases heq
    exact ⟨rfl, hterm⟩
  · rintro ⟨rfl, hterm⟩
    exact ⟨name, List.mem_singleton_self _, hterm, rfl⟩

/-! ## Records -/

structure OwnIds (rs : List Record) : Prop where
  found : ∀ r ∈ rs, ∀ id, .ofId id ∈ r.terms ↔ finds id r.id = true
  nodup : ((rs.map (·.id)).filter isTerm).Nodup

namespace OwnIds

variable {rs ss : List Record}

theorem nil : OwnIds [] := ⟨by simp, List.nodup_nil⟩

theorem contains_ofId (h : OwnIds rs) {r : Record} (hr : r ∈ rs) (id : String) :
    r.terms.contains (.ofId id) = finds id r.id := by
  rw [Bool.eq_iff_iff, List.contains_iff_mem, h.found r hr]

/-- A record is told by its id if that is a term. -/
theorem eq_of_id_eq (h : OwnIds rs) {r s : Record} (hr : r ∈ rs) (hs : s ∈ rs)
    (hterm : isTerm r.id = true) (hid : r.id = s.id) : r = s := by
  have hnodup := h.nodup
  rw [List.filter_map] at hnodup
  exact List.inj_on_of_nodup_map hnodup (List.mem_filter.2 ⟨hr, hterm⟩)
    (List.mem_filter.2 ⟨hs, (congrArg isTerm hid).symm.trans hterm⟩) hid

theorem filter (h : OwnIds rs) (p : Record → Bool) : OwnIds (rs.filter p) :=
  ⟨fun r hr => h.found r (List.mem_filter.1 hr).1,
    h.nodup.sublist ((List.filter_sublist.map _).filter _)⟩

theorem perm (h : OwnIds rs) (hp : ss.Perm rs) : OwnIds ss :=
  ⟨fun r hr => h.found r (hp.mem_iff.1 hr), ((hp.map _).filter _).nodup_iff.2 h.nodup⟩

theorem append (h : OwnIds rs) {r : Record} (hr : ∀ id, .ofId id ∈ r.terms ↔ finds id r.id = true)
    (hnew : ∀ s ∈ rs, .ofId r.id ∉ s.terms) : OwnIds (rs ++ [r]) := by
  refine ⟨fun s hs => ?_, ?_⟩
  · rcases List.mem_append.1 hs with hs | hs
    · exact h.found s hs
    · rw [List.mem_singleton.1 hs]
      exact hr
  · rw [List.map_append, List.filter_append, List.map_singleton, List.filter_cons]
    split
    · rename_i hterm
      rw [List.filter_nil, List.nodup_append_comm, List.singleton_append, List.nodup_cons]
      refine ⟨fun hid => ?_, h.nodup⟩
      obtain ⟨s, hs, hsid⟩ := List.mem_map.1 (List.mem_filter.1 hid).1
      exact hnew s hs ((h.found s hs _).2 (finds_iff.2 ⟨hsid, hterm⟩))
    · rw [List.filter_nil, List.append_nil]
      exact h.nodup

end OwnIds

/-! ## Commits -/

def Write.applyTo (rs : List Record) : Write → List Record
  | remove id => rs.filter fun r => !r.terms.contains (.ofId id)
  | add r => rs ++ [r]

theorem Segments.records_append (ss ts : Segments) :
    Segments.records (ss ++ ts) = ss.records ++ ts.records := List.flatMap_append

theorem Segments.records_map_remove (ss : Segments) (t : Term) :
    Segments.records (ss.map (·.remove t)) =
      ss.records.filter fun r => !r.terms.contains t := by
  induction ss with
  | nil => rfl
  | cons s ss ih =>
    rw [List.map_cons, records, List.flatMap_cons, ← records, ih, Segment.records_remove]
    simp [records]

theorem records_foldl_apply (ws : List Write) (old : Segments) (new : Segment) :
    (ws.foldl Write.apply (old, new)).1.records ++ (ws.foldl Write.apply (old, new)).2.records =
      ws.foldl Write.applyTo (old.records ++ new.records) := by
  induction ws generalizing old new with
  | nil => rfl
  | cons w ws ih =>
    cases w with
    | remove id =>
      rw [List.foldl_cons, Write.apply, ih, Segments.records_map_remove, Segment.records_remove,
        ← List.filter_append]
      rfl
    | add r =>
      rw [List.foldl_cons, Write.apply, ih, Segment.records_add, ← List.append_assoc]
      rfl

/-- A commit leaves what the changes make of the records; it may sort them anew. -/
theorem Segments.records_commit (ss : Segments) (ws : List Write) :
    (ss.commit ws).records.Perm (ws.foldl Write.applyTo ss.records) := by
  have hfilter (ts : Segments) : Segments.records (ts.filter fun s => !s.records.isEmpty) =
      ts.records := by
    induction ts with
    | nil => rfl
    | cons t ts ih =>
      rw [List.filter_cons]
      split
      · simp only [records, List.flatMap_cons] at ih ⊢
        rw [ih]
      · rename_i ht
        have ht : t.records = [] := by simpa using ht
        simp only [records, List.flatMap_cons, ht, List.nil_append] at ih ⊢
        exact ih
  have hfold := records_foldl_apply ws ss []
  rw [show Segment.records [] = [] from rfl, List.append_nil] at hfold
  refine ((List.mergeSort_perm _ _).flatMap_right _).trans ?_
  rw [← hfold]
  change (Segments.records (List.filter _ _)).Perm _
  rw [hfilter, records_append]
  simp [records]

namespace Writer

/-- The records that the next commit leaves. -/
def upcoming (w : Writer) : List Record := w.waiting.foldl Write.applyTo w.committed.records

structure Sound (w : Writer) : Prop where
  committed : OwnIds w.committed.records
  upcoming : OwnIds w.upcoming

theorem upcoming_remove (w : Writer) (id : String) :
    (w.remove id).upcoming = w.upcoming.filter fun r => !r.terms.contains (.ofId id) := by
  simp [upcoming, remove, Write.applyTo]

theorem Sound.remove {w : Writer} (h : w.Sound) (id : String) : (w.remove id).Sound :=
  ⟨h.committed, by rw [upcoming_remove]; exact h.upcoming.filter _⟩

theorem Sound.add {w w' : Writer} {id : String} (h : w.Sound) {r : Option Record}
    (hr : ∀ r', r = some r' → r'.id = id ∧ ∀ id', .ofId id' ∈ r'.terms ↔ finds id' r'.id = true)
    (hw : (w.remove id).add? r = some w') : w'.Sound := by
  have hs := h.remove id
  unfold add? at hw
  split at hw <;> cases hw
  · rename_i r' _
    obtain ⟨rfl, hfound⟩ := hr r' rfl
    refine ⟨hs.committed, ?_⟩
    have hnew : ∀ s ∈ (w.remove r'.id).upcoming, .ofId r'.id ∉ s.terms := by
      intro s hmem
      rw [upcoming_remove, List.mem_filter] at hmem
      simpa using hmem.2
    rw [Writer.upcoming, List.foldl_append]
    exact hs.upcoming.append hfound hnew
  · exact ⟨hs.committed, hs.upcoming⟩
  · exact hs
  · exact hs

theorem Sound.of_segments {ss : Segments} (h : OwnIds ss.records) {i : Intake} {mark : Nat} :
    Sound ⟨ss, [], i, mark⟩ := ⟨h, h⟩

theorem Sound.afterFailure {w : Writer} (h : w.Sound) : w.afterFailure.Sound := by
  have removals (ws : List Write) (rs : List Record) (hrs : OwnIds rs) :
      OwnIds ((ws.filter Write.isRemoval).foldl Write.applyTo rs) := by
    induction ws generalizing rs with
    | nil => exact hrs
    | cons w ws ih =>
      cases w with
      | remove id => exact ih _ (hrs.filter _)
      | add r => exact ih rs hrs
  rw [Writer.afterFailure]
  split
  · exact ⟨h.committed, removals _ _ h.committed⟩
  · exact h

/-- What a commit leaves has ids of its own. -/
theorem Sound.result {w : Writer} (h : w.Sound) {ss : Segments} (hr : w.result? = some ss) :
    OwnIds ss.records := by
  rw [result?] at hr
  split at hr <;> cases hr <;> exact h.upcoming.perm (Segments.records_commit _ _)

end Writer

end Searchlight.Disk
