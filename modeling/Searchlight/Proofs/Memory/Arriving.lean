import Mathlib.Data.List.Nodup
import Searchlight.Memory.Store
import Searchlight.Proofs.KeyMap

/-!
# The order of documents in memory

A store in memory lists its documents by the numbers that they were given. As these come from a
counter that only grows, that is the order in which the documents arrived, one that replaces another
arriving anew (`Arrived.ids_byAge`).
-/

namespace Searchlight.Memory.Store

variable {s t : Store} {ids : List String} {es : List (String × Entry)} {id : String}

/-- The documents of the store arrived in the order of these ids. -/
inductive Arrived : List String → Store → Prop where
  | empty : Arrived [] empty
  | registerField {ids : List String} {s : Store} (h : Arrived ids s) (name : String)
      (config : FieldConfig) : Arrived ids (s.registerField name config)
  | index {ids : List String} {s : Store} (h : Arrived ids s) (id : String) (d : PreparedDocument) :
      Arrived (ids.filter (· ≠ id) ++ [id]) (s.index id d)
  | delete {ids : List String} {s t : Store} {id : String} (h : Arrived ids s)
      (ht : s.delete id = .ok t) : Arrived (ids.filter (· ≠ id)) t

structure Aged (es : List (String × Entry)) (s : Store) : Prop where
  perm : es.Perm s.docs.entries
  ascending : es.Pairwise (·.2.seq < ·.2.seq)
  below : ∀ e ∈ es, e.2.seq < s.nextSeq

theorem Aged.filter (h : Aged es s) (id : String) :
    Aged (es.filter (·.1 ≠ id)) { s with docs := s.docs.erase id } where
  perm := by
    refine (h.perm.filter _).trans (.of_eq (List.filter_congr fun e _ => ?_))
    by_cases he : e.1 = id <;> simp [he]
  ascending := h.ascending.filter _
  below e he := h.below e (List.mem_filter.1 he).1

theorem nodup_entries {α : Type} (m : KeyMap α) : m.entries.Nodup :=
  .of_map Prod.fst KeyMap.nodup_keys

/-- An entry is put behind all others. -/
theorem Aged.index (h : Aged es s) (id : String) (d : PreparedDocument) :
    Aged (es.filter (·.1 ≠ id) ++ [(id, Entry.build s.nextSeq d)]) (s.index id d) where
  perm := by
    have hnodup : (es.filter (·.1 ≠ id) ++ [(id, Entry.build s.nextSeq d)]).Nodup := by
      rw [List.nodup_append_comm, List.singleton_append, List.nodup_cons]
      exact ⟨by simp, (h.perm.nodup_iff.2 (nodup_entries _)).filter _⟩
    refine (List.perm_ext_iff_of_nodup hnodup (nodup_entries _)).2 fun ⟨k, e⟩ => ?_
    rw [Store.index, ← KeyMap.get?_eq_some_iff, KeyMap.get?_insert, List.mem_append, List.mem_filter,
      h.perm.mem_iff, ← KeyMap.get?_eq_some_iff]
    by_cases hk : id = k
    · simp [hk, eq_comm]
    · simp [hk, Ne.symm hk]
  ascending := by
    rw [List.pairwise_append]
    refine ⟨h.ascending.filter _, List.pairwise_singleton _ _, fun a ha b hb => ?_⟩
    rw [List.mem_singleton.1 hb]
    exact h.below a (List.mem_filter.1 ha).1
  below e he := by
    rcases List.mem_append.1 he with he | he
    · exact Nat.lt_succ_of_lt (h.below e (List.mem_filter.1 he).1)
    · rw [List.mem_singleton.1 he]
      exact Nat.lt_succ_self _

theorem Aged.byAge_eq (h : Aged es s) : s.byAge = es := by
  have hperm : s.byAge.Perm es := (List.mergeSort_perm _ _).trans h.perm.symm
  have hsorted : s.byAge.Pairwise (·.2.seq ≤ ·.2.seq) :=
    (List.pairwise_mergeSort (fun a b c => by simpa using Nat.le_trans)
      (fun a b => by simpa using Nat.le_total _ _) _).imp of_decide_eq_true
  have hnodup : (es.map (·.2.seq)).Nodup := List.pairwise_map.2 (h.ascending.imp Nat.ne_of_lt)
  -- No two entries have the same number, so there is one way to put them in order.
  refine List.Perm.eq_of_pairwise (fun a b ha hb hab hba => ?_) hsorted
    (h.ascending.imp Nat.le_of_lt) hperm
  exact List.inj_on_of_nodup_map hnodup (hperm.mem_iff.1 ha) hb (Nat.le_antisymm hab hba)

theorem map_fst_filter (es : List (String × Entry)) (id : String) :
    (es.filter (·.1 ≠ id)).map (·.1) = (es.map (·.1)).filter (· ≠ id) := by
  rw [List.filter_map]
  rfl

theorem Arrived.exists_aged (h : Arrived ids s) : ∃ es, Aged es s ∧ es.map (·.1) = ids := by
  induction h with
  | empty => exact ⟨[], ⟨.nil, .nil, nofun⟩, rfl⟩
  | registerField _ name config ih =>
    obtain ⟨es, haged, hids⟩ := ih
    exact ⟨es, ⟨haged.perm, haged.ascending, haged.below⟩, hids⟩
  | index _ id d ih =>
    obtain ⟨es, haged, rfl⟩ := ih
    exact ⟨_, haged.index id d, by rw [List.map_append, map_fst_filter]; rfl⟩
  | @delete _ s _ id _ ht ih =>
    obtain ⟨es, haged, rfl⟩ := ih
    rw [Store.delete] at ht
    split at ht <;> cases ht
    exact ⟨_, haged.filter id, map_fst_filter es id⟩

/-- **Documents are listed as they arrived.** -/
theorem Arrived.ids_byAge (h : Arrived ids s) : s.byAge.map (·.1) = ids := by
  obtain ⟨es, haged, rfl⟩ := h.exists_aged
  rw [haged.byAge_eq]

end Searchlight.Memory.Store
