import Searchlight.Proofs.Memory.Arriving

/-!
# The order of hits in memory

The hits of a query come by score and then by age. As no two entries of a store have the same number,
no two hits have the same place, so there is one list of all hits in that order (`IsRanking.eq`), and
it does not matter in which order the entries are gone through (`rankingOf_eq_of_perm`).
-/

namespace Searchlight.Memory.Store

variable {s : Store} {q : TokenQuery} {es fs : List (String × Entry)}
  {xs ys : List (Single × String × Entry)} {a b c m : Single × String × Entry}

/-- The hits of a query among entries that are gone through in this order. -/
def rankingOf (es : List (String × Entry)) (q : TokenQuery) : List (Single × String × Entry) :=
  (es.filterMap fun e => (e.2.score q).map (·, e)).mergeSort ranksBefore

/-- The first has the higher score, or it is the older one of two with the same score. -/
def Precedes (a b : Single × String × Entry) : Prop :=
  b.1.rank < a.1.rank ∨ a.1 = b.1 ∧ a.2.2.seq < b.2.2.seq

/-- Each entry that matches comes once, with its score, and in its place. -/
structure IsRanking (es : List (String × Entry)) (q : TokenQuery)
    (ranked : List (Single × String × Entry)) : Prop where
  mem_iff : ∀ m, m ∈ ranked ↔ m.2 ∈ es ∧ m.2.2.score q = some m.1
  nodup : (ranked.map (·.2.1)).Nodup
  ordered : ranked.Pairwise Precedes

theorem not_precedes_of_precedes (h : Precedes a b) : ¬Precedes b a := by
  rintro h'
  simp only [Precedes] at h h'
  rcases h with h | ⟨hscore, h⟩ <;> rcases h' with h' | ⟨hscore', h'⟩
  · omega
  · rw [hscore'] at h
    omega
  · rw [hscore] at h'
    omega
  · omega

/-- **There is one ranking.** -/
theorem IsRanking.eq (hx : IsRanking es q xs) (hy : IsRanking es q ys) : xs = ys := by
  have hperm : xs.Perm ys := (List.perm_ext_iff_of_nodup (.of_map _ hx.nodup)
    (.of_map _ hy.nodup)).2 fun m => (hx.mem_iff m).trans (hy.mem_iff m).symm
  exact hperm.eq_of_pairwise
    (fun a b _ _ hab hba => (not_precedes_of_precedes hab hba).elim) hx.ordered hy.ordered

theorem IsRanking.of_perm (h : IsRanking es q xs) (hperm : es.Perm fs) : IsRanking fs q xs where
  mem_iff m := by rw [h.mem_iff, hperm.mem_iff]
  nodup := h.nodup
  ordered := h.ordered

/-! ## Sorting -/

theorem ranksBefore_trans (hab : ranksBefore a b = true) (hbc : ranksBefore b c = true) :
    ranksBefore a c = true := by
  simp only [ranksBefore] at *
  split at hab <;> split at hbc <;> split <;> simp only [decide_eq_true_eq] at * <;> omega

theorem ranksBefore_total (a b : Single × String × Entry) :
    (ranksBefore a b || ranksBefore b a) = true := by
  simp only [ranksBefore, Bool.or_eq_true]
  split <;> split <;> simp only [decide_eq_true_eq] <;> omega

/-- Two hits of different age are ranked strictly. -/
theorem precedes_of_ranksBefore (h : ranksBefore a b = true) (hne : a.2.2.seq ≠ b.2.2.seq) :
    Precedes a b := by
  rw [ranksBefore] at h
  split at h <;> rw [decide_eq_true_eq] at h
  · rename_i hrank
    exact .inr ⟨Binary.rank_inj hrank, by omega⟩
  · exact .inl (by omega)

theorem sublist_map_filterMap (es : List (String × Entry)) (q : TokenQuery) :
    ((es.filterMap fun e => (e.2.score q).map (·, e)).map (·.2)).Sublist es := by
  induction es with
  | nil => exact .slnil
  | cons e es ih =>
    cases hscore : e.2.score q with
    | none =>
      rw [List.filterMap_cons_none (by simp [hscore])]
      exact ih.cons e
    | some score =>
      rw [List.filterMap_cons_some (b := (score, e)) (by simp [hscore])]
      exact ih.cons_cons e

/-- **Hits are ranked** if the entries have different ids and different numbers. -/
theorem isRanking_rankingOf (hids : (es.map (·.1)).Nodup) (hseqs : (es.map (·.2.seq)).Nodup) :
    IsRanking es q (rankingOf es q) := by
  have hperm := List.mergeSort_perm (es.filterMap fun e => (e.2.score q).map (·, e)) ranksBefore
  have hsub := sublist_map_filterMap es q
  -- What tells the entries apart also tells the hits apart.
  have hnodup {α : Type} {f : String × Entry → α} (h : (es.map f).Nodup) :
      ((rankingOf es q).map fun m => f m.2).Nodup := by
    rw [rankingOf, (hperm.map _).nodup_iff]
    have hmapped := h.sublist (hsub.map f)
    rwa [List.map_map] at hmapped
  refine ⟨fun m => ?_, hnodup hids, ?_⟩
  · simp only [rankingOf, List.mem_mergeSort, List.mem_filterMap, Option.map_eq_some_iff]
    constructor
    · rintro ⟨e, he, score, hscore, rfl⟩
      exact ⟨he, hscore⟩
    · rintro ⟨he, hscore⟩
      exact ⟨m.2, he, m.1, hscore, rfl⟩
  · have hsorted : (rankingOf es q).Pairwise fun a b => ranksBefore a b = true := by
      refine List.pairwise_mergeSort ?_ ranksBefore_total _
      exact fun _ _ _ => ranksBefore_trans
    exact hsorted.imp₂ (fun _ _ => precedes_of_ranksBefore) (List.pairwise_map.1 (hnodup hseqs))

/-- **It does not matter in which order the entries are gone through.** -/
theorem rankingOf_eq_of_perm (hids : (es.map (·.1)).Nodup) (hseqs : (es.map (·.2.seq)).Nodup)
    (hperm : fs.Perm es) : rankingOf fs q = rankingOf es q :=
  ((isRanking_rankingOf ((hperm.map _).nodup_iff.2 hids) ((hperm.map _).nodup_iff.2 hseqs)).of_perm
    hperm).eq (isRanking_rankingOf hids hseqs)

theorem length_ranking (s : Store) (q : TokenQuery) :
    (s.ranking q).length = s.docs.entries.countP fun e => (e.2.score q).isSome := by
  rw [ranking, List.length_mergeSort, List.length_filterMap_eq_countP]
  simp

end Searchlight.Memory.Store
