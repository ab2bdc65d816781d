import Mathlib.Data.Set.Basic
import Searchlight.Memory.Limited
import Searchlight.Proofs.Query.Algebra

/-!
# What in-memory queries match

An entry matches a query when it has a score for it. Which number the score is does not matter:
each node of a query asks only which of its parts have one (`matches_and` and its siblings), so
in-memory queries are set algebra over entries (`translator_isAlgebra`).
-/

namespace Searchlight.Memory

/-! ## Entries -/

/-- The entry has a score for the query. -/
def Entry.matchesQuery (e : Entry) (q : TokenQuery) : Bool := (e.score q).isSome

namespace Entry

theorem scores_eq_map (e : Entry) (qs : List TokenQuery) : e.scores qs = qs.map e.score := by
  induction qs with
  | nil => rfl
  | cons q qs ih => rw [scores, ih, List.map_cons]

theorem length_filterMap_id {α : Type} (xs : List (Option α)) :
    (xs.filterMap id).length = xs.countP Option.isSome := by
  induction xs with
  | nil => rfl
  | cons x xs ih =>
    rw [List.countP_cons, ← ih]
    cases x <;> rfl

theorem isSome_sumMatching_filterMap_id (xs : List (Option Single)) :
    (sumMatching (xs.filterMap id)).isSome = xs.any Option.isSome := by
  induction xs with
  | nil => rfl
  | cons x xs ih =>
    rw [List.any_cons, ← ih]
    cases x <;> rfl

variable (e : Entry)

@[simp] theorem matches_nothing : e.matchesQuery .nothing = false := rfl

@[simp] theorem matches_and (parts : List TokenQuery) :
    e.matchesQuery (.and parts) = parts.all e.matchesQuery := by
  simp only [matchesQuery, score, Option.isSome_map, Option.isSome_mapM, scores_eq_map, List.all_map]
  rfl

@[simp] theorem matches_or (parts : List TokenQuery) :
    e.matchesQuery (.or parts) = parts.any e.matchesQuery := by
  simp only [matchesQuery, score, isSome_sumMatching_filterMap_id, scores_eq_map, List.any_map]
  rfl

@[simp] theorem matches_not (p n : TokenQuery) :
    e.matchesQuery (.not p n) = (e.matchesQuery p && !e.matchesQuery n) := by
  simp only [matchesQuery, score]
  cases e.score n <;> simp

@[simp] theorem matches_xor (parts : List TokenQuery) :
    e.matchesQuery (.xor parts) = decide (parts.countP e.matchesQuery % 2 = 1) := by
  simp only [matchesQuery, score, scores_eq_map, length_filterMap_id, List.countP_map]
  change Option.isSome (if parts.countP e.matchesQuery % 2 = 1 then _ else _) =
    decide (parts.countP e.matchesQuery % 2 = 1)
  split <;> simp [*]

@[simp] theorem matches_weight (q : TokenQuery) (x : Single) :
    e.matchesQuery (.weight q x) = e.matchesQuery q := by
  simp [matchesQuery, score]

end Entry

/-! ## Translators -/

/-- **In-memory queries are set algebra over entries.** -/
theorem translator_isAlgebra (schema : Schema) :
    (translator schema).IsAlgebra Entry.matchesQuery where
  and _ := ⟨_, rfl, fun e => e.matches_and _⟩
  or _ := ⟨_, rfl, fun e => e.matches_or _⟩
  not _ _ := ⟨_, rfl, fun e => e.matches_not _ _⟩
  xor _ := ⟨_, rfl, fun e => e.matches_xor _⟩

theorem supported (q : Query) : q.Supported capabilities := fun n _ => by cases n <;> rfl

/-! ## Stores -/

namespace Store

/-- The ids of all hits of a query. -/
def matched (s : Store) (q : TokenQuery) : Set String := {id | ∃ m ∈ s.ranking q, m.2.1 = id}

/-- A query finds the ids whose entries match it. -/
theorem mem_matched {s : Store} {q : TokenQuery} {id : String} :
    id ∈ s.matched q ↔ ∃ e, s.docs.get? id = some e ∧ e.matchesQuery q = true := by
  simp only [matched, ranking, Set.mem_ofPred_eq, List.mem_mergeSort, List.mem_filterMap,
    Entry.matchesQuery, Option.isSome_iff_exists, KeyMap.get?_eq_some_iff, Option.map_eq_some_iff]
  constructor
  · rintro ⟨m, ⟨⟨k, e⟩, hmem, score, hs, rfl⟩, rfl⟩
    exact ⟨e, hmem, score, hs⟩
  · rintro ⟨e, hmem, score, hs⟩
    exact ⟨(score, id, e), ⟨(id, e), hmem, score, hs, rfl⟩, rfl⟩

end Store

end Searchlight.Memory
