import Mathlib.Data.Set.Basic
import Searchlight.Disk.Store
import Searchlight.Proofs.Query.Algebra

/-!
# What queries on disk match

Queries over the terms of an index are made of required, optional and excluded clauses. With the
clauses that the translator makes they are set algebra over records (`translator_isAlgebra`).
-/

namespace Searchlight.Disk

namespace TermQuery

variable {r : Record}

theorem matchesRecord_nothing : matchesRecord r nothing = false := rfl

theorem matchesRecord_boost (q : TermQuery) (x : Single) :
    matchesRecord r (boost q x) = matchesRecord r q := rfl

theorem allMatch_eq_all (qs : List TermQuery) : allMatch r qs = qs.all (matchesRecord r) := by
  induction qs with
  | nil => rfl
  | cons q qs ih => exact congrArg (matchesRecord r q && ·) ih

theorem anyMatches_eq_any (qs : List TermQuery) : anyMatches r qs = qs.any (matchesRecord r) := by
  induction qs with
  | nil => rfl
  | cons q qs ih => exact congrArg (matchesRecord r q || ·) ih

theorem matchesRecord_clauses (required optional excluded : List TermQuery) :
    matchesRecord r (clauses required optional excluded) =
      (required.all (matchesRecord r) && (!required.isEmpty || optional.any (matchesRecord r)) &&
        !excluded.any (matchesRecord r)) := by
  rw [← allMatch_eq_all, ← anyMatches_eq_any, ← anyMatches_eq_any]
  rfl

theorem matches_required {qs : List TermQuery} (h : qs ≠ []) :
    matchesRecord r (clauses qs [] []) = qs.all (matchesRecord r) := by
  simp [matchesRecord_clauses, h]

theorem matches_optional (qs : List TermQuery) :
    matchesRecord r (clauses [] qs []) = qs.any (matchesRecord r) := by
  simp [matchesRecord_clauses]

theorem matches_excluding (p n : TermQuery) :
    matchesRecord r (clauses [p] [] [n]) = (matchesRecord r p && !matchesRecord r n) := by
  simp [matchesRecord_clauses]

theorem matches_exclusive (a b : TermQuery) :
    matchesRecord r (exclusive a b) = (matchesRecord r a ^^ matchesRecord r b) := by
  cases ha : matchesRecord r a <;> cases hb : matchesRecord r b <;>
    simp [exclusive, matchesRecord_clauses, ha, hb]

theorem matches_oddOf (qs : List TermQuery) :
    matchesRecord r (oddOf qs) = decide (qs.countP (matchesRecord r) % 2 = 1) := by
  cases qs with
  | nil => rfl
  | cons q qs => exact foldl_exclusive matches_exclusive q qs

theorem matches_term {t : Term} : matchesRecord r (term t) = true ↔ t ∈ r.terms :=
  List.contains_iff_mem

theorem matches_allOf {qs : List TermQuery} :
    matchesRecord r (allOf qs) = true ↔ qs ≠ [] ∧ ∀ q ∈ qs, matchesRecord r q = true := by
  unfold allOf
  split
  · simp [matchesRecord_nothing]
  · simp
  · rename_i hnil _
    rw [matches_required hnil, List.all_eq_true, and_iff_right hnil]

theorem matches_anyOf {qs : List TermQuery} :
    matchesRecord r (anyOf qs) = true ↔ ∃ q ∈ qs, matchesRecord r q = true := by
  unfold anyOf
  split
  · simp [matchesRecord_nothing]
  · simp
  · rw [matches_optional, List.any_eq_true]

end TermQuery

/-- **Queries on disk are set algebra over records.** -/
theorem translator_isAlgebra (m : FieldMap) (analyze : Analyzer) :
    (translator m analyze).IsAlgebra TermQuery.matchesRecord where
  and h := ⟨_, rfl, fun _ => TermQuery.matches_required h⟩
  or _ := ⟨_, rfl, fun _ => TermQuery.matches_optional _⟩
  not _ _ := ⟨_, rfl, fun _ => TermQuery.matches_excluding _ _⟩
  xor _ := ⟨_, rfl, fun _ => TermQuery.matches_oddOf _⟩

theorem supported (q : Query) : q.Supported capabilities := fun n _ => by cases n <;> rfl

/-! ## Stores -/

theorem Segments.mem_ranking {ss : Segments} {l : Layout} {q : TermQuery} {r : Record} :
    (∃ m ∈ ss.ranking l q, m.2 = r) ↔ r ∈ ss.records ∧ q.matchesRecord r = true := by
  simp only [ranking, records, List.mem_mergeSort, List.mem_flatMap, List.mem_map,
    List.mem_filter]
  constructor
  · rintro ⟨m, ⟨s, hs, r, ⟨hr, hq⟩, rfl⟩, rfl⟩
    exact ⟨⟨s, hs, hr⟩, hq⟩
  · rintro ⟨⟨s, hs, hr⟩, hq⟩
    exact ⟨_, ⟨s, hs, r, ⟨hr, hq⟩, rfl⟩, rfl⟩

/-- The ids of all hits of a query. -/
def Store.matched (s : Store) (q : TermQuery) : Set String :=
  {id | ∃ m ∈ s.ranking q, m.2.id = id}

/-- A query finds the ids of the visible records that match it. -/
theorem Store.mem_matched {s : Store} {q : TermQuery} {id : String} :
    id ∈ s.matched q ↔ ∃ r ∈ s.visible.records, r.id = id ∧ q.matchesRecord r = true := by
  simp only [matched, ranking, Set.mem_ofPred_eq]
  constructor
  · rintro ⟨m, hm, rfl⟩
    obtain ⟨hr, hq⟩ := Segments.mem_ranking.1 ⟨m, hm, rfl⟩
    exact ⟨m.2, hr, rfl, hq⟩
  · rintro ⟨r, hr, rfl, hq⟩
    obtain ⟨m, hm, rfl⟩ := Segments.mem_ranking.2 ⟨hr, hq⟩
    exact ⟨m, hm, rfl⟩

end Searchlight.Disk
