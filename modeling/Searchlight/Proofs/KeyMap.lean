import Searchlight.KeyMap

/-!
# Members of key maps

Which keys a map has after it was changed, and the members of sets of texts.
-/

namespace Searchlight

namespace KeyMap

variable {α : Type} {m : KeyMap α} {k k' : String}

@[simp] theorem contains_empty : (∅ : KeyMap α).contains k = false := rfl

@[simp] theorem get?_emptyCollection : (∅ : KeyMap α).get? k = none := rfl

@[simp] theorem contains_insert (v : α) :
    (m.insert k v).contains k' = (decide (k = k') || m.contains k') := by
  by_cases h : k = k' <;> simp [contains, h]

theorem contains_erase : (m.erase k).contains k' = (!decide (k = k') && m.contains k') := by
  by_cases h : k = k' <;> simp [contains, h]

theorem erase_of_not_contains (h : m.contains k = false) : m.erase k = m := by
  refine ext fun k' => ?_
  rw [get?_erase]
  split
  · rename_i hk
    rw [contains, Option.isSome_eq_false_iff, Option.isNone_iff_eq_none] at h
    rw [← hk, h]
  · rfl

theorem isEmpty_of_contains (h : m.contains k = true) : m.isEmpty = false := by
  obtain ⟨v, hv⟩ := contains_eq_true_iff.1 h
  rw [isEmpty, List.isEmpty_eq_false_iff]
  exact List.ne_nil_of_mem (get?_eq_some_iff.1 hv)

theorem contains_of_isEmpty (h : m.isEmpty = true) : m.contains k = false := by
  rw [← Bool.not_eq_true]
  intro hk
  rw [isEmpty_of_contains hk] at h
  cases h

theorem mem_keys : k ∈ m.keys ↔ m.contains k = true := by
  rw [contains_eq_true_iff, keys, List.mem_map]
  constructor
  · rintro ⟨e, he, rfl⟩
    exact ⟨e.2, get?_eq_some_iff.2 he⟩
  · rintro ⟨v, hv⟩
    exact ⟨(k, v), get?_eq_some_iff.1 hv, rfl⟩

theorem nodup_keys : m.keys.Nodup := (List.pairwise_map.2 m.sorted).imp String.ne_of_lt

theorem contains_foldl_insert (es : List (String × α)) (m : KeyMap α) :
    (es.foldl (fun m e => m.insert e.1 e.2) m).contains k =
      (decide (k ∈ es.map (·.1)) || m.contains k) := by
  induction es generalizing m with
  | nil => simp
  | cons e es ih =>
    rw [List.foldl_cons, ih, contains_insert]
    by_cases he : e.1 = k <;> by_cases hes : k ∈ es.map (·.1) <;>
      simp_all [eq_comm (a := k) (b := e.1)]

@[simp] theorem contains_ofList (es : List (String × α)) :
    (ofList es).contains k = decide (k ∈ es.map (·.1)) := by
  rw [ofList, contains_foldl_insert]
  simp [contains, get?_empty]

theorem mem_of_get?_ofList {es : List (String × α)} {v : α} (h : (ofList es).get? k = some v) :
    (k, v) ∈ es := by
  have hfold (fs : List (String × α)) (m : KeyMap α)
      (hm : (fs.foldl (fun m e => m.insert e.1 e.2) m).get? k = some v) :
      (k, v) ∈ fs ∨ m.get? k = some v := by
    induction fs generalizing m with
    | nil => exact .inr hm
    | cons e fs ih =>
      rcases ih _ hm with hmem | hget
      · exact .inl (List.mem_cons_of_mem _ hmem)
      · rw [get?_insert] at hget
        split at hget
        · rename_i hk
          cases hget
          exact .inl (hk ▸ List.mem_cons_self)
        · exact .inr hget
  exact (hfold es empty h).resolve_right (by simp)

@[simp] theorem get?_map {β : Type} (f : String → α → β) :
    (m.map f).get? k = (m.get? k).map (f k) := by
  apply Option.ext
  intro v
  simp only [get?_eq_some_iff, map, List.mem_map, Prod.mk.injEq, Option.map_eq_some_iff]
  constructor
  · rintro ⟨e, he, rfl, rfl⟩
    exact ⟨e.2, he, rfl⟩
  · rintro ⟨a, ha, rfl⟩
    exact ⟨(k, a), ha, rfl, rfl⟩

/-- The entries of a map make it up again. -/
theorem ofList_entries (m : KeyMap α) : ofList m.entries = m := by
  have hfold (es : List (String × α)) (hes : es.Pairwise (·.1 < ·.1)) (m : KeyMap α) (k : String) :
      (es.foldl (fun m e => m.insert e.1 e.2) m).get? k = (find k es).or (m.get? k) := by
    induction es generalizing m with
    | nil => simp [find]
    | cons e es ih =>
      obtain ⟨he, hes⟩ := List.pairwise_cons.1 hes
      rw [List.foldl_cons, ih hes, get?_insert, find]
      by_cases hk : e.1 = k
      · have hnone : find k es = none := by
          rw [Option.eq_none_iff_forall_ne_some]
          intro v hv
          have hmem := (find_eq_some_iff hes).1 hv
          exact String.lt_irrefl _ (hk ▸ he _ hmem)
        simp [hk, hnone]
      · simp [hk]
  refine ext fun k => ?_
  rw [ofList, hfold m.entries m.sorted, get?_empty, Option.or_none]
  rfl

theorem length_set (k : String) (v : α) {es : List (String × α)} (hes : es.Pairwise (·.1 < ·.1)) :
    (set k v es).length = es.length + if (find k es).isSome then 0 else 1 := by
  induction es with
  | nil => rfl
  | cons e es ih =>
    obtain ⟨he, hes'⟩ := List.pairwise_cons.1 hes
    by_cases hlt : k < e.1
    · -- The key stands before all others.
      have hnone : find k (e :: es) = none := by
        refine Option.eq_none_iff_forall_ne_some.2 fun w hw => ?_
        rcases List.mem_cons.1 ((find_eq_some_iff hes).1 hw) with rfl | hmem
        · exact String.lt_irrefl _ hlt
        · exact String.lt_irrefl _ (String.lt_trans hlt (he _ hmem))
      rw [set, if_pos hlt, hnone]
      rfl
    · by_cases heq : k = e.1
      · rw [set, if_neg hlt, if_pos heq, find, if_pos heq.symm]
        rfl
      · rw [set, if_neg hlt, if_neg heq, find, if_neg (Ne.symm heq), List.length_cons, ih hes',
          List.length_cons]
        omega

theorem size_insert (k : String) (v : α) :
    (m.insert k v).size = m.size + if m.contains k then 0 else 1 :=
  length_set k v m.sorted

end KeyMap

namespace TextSet

variable {x : String}

theorem ext {s t : TextSet} (h : ∀ x, s.contains x = t.contains x) : s = t := by
  refine KeyMap.ext fun x => ?_
  have hx := h x
  simp only [KeyMap.contains] at hx
  cases hs : s.get? x <;> cases ht : t.get? x <;> simp_all

@[simp] theorem contains_ofList (xs : List String) :
    (ofList xs).contains x = decide (x ∈ xs) := by
  rw [ofList, KeyMap.contains_ofList]
  simp

end TextSet

end Searchlight
