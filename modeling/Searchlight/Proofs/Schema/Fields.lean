import Searchlight.Schema.Basic

/-!
# Schemas with fields inserted

A schema is told by what it finds under each name. Inserting a field that is there in this form
changes nothing, and so does a batch of such fields, and only such a batch.
-/

namespace Searchlight

namespace Schema

@[simp] theorem get?_insert (s : Schema) (name name' : String) (config : FieldConfig) :
    (s.insert name config).get? name' = if name = name' then some config else s.get? name' :=
  KeyMap.get?_insert _ _ _ _

theorem ext {s t : Schema} (h : ∀ name, s.get? name = t.get? name) : s = t := by
  cases s; cases t
  exact congrArg Schema.mk (KeyMap.ext h)

theorem insert_of_get? {s : Schema} {name : String} {config : FieldConfig}
    (h : s.get? name = some config) : s.insert name config = s :=
  ext fun name' => by
    rw [get?_insert]
    split
    · rename_i hname
      rw [← hname, h]
    · rfl

theorem insertAll_cons (s : Schema) (f : String × FieldConfig) (fs : List (String × FieldConfig)) :
    s.insertAll (f :: fs) = (s.insert f.1 f.2).insertAll fs := rfl

theorem get?_insertAll_of_notMem {s : Schema} {fs : List (String × FieldConfig)} {name : String}
    (h : name ∉ fs.map (·.1)) : (s.insertAll fs).get? name = s.get? name := by
  induction fs generalizing s with
  | nil => rfl
  | cons f fs ih =>
    simp only [List.map_cons, List.mem_cons, not_or] at h
    rw [insertAll_cons, ih h.2, get?_insert, if_neg (Ne.symm h.1)]

theorem get?_insertAll_of_mem {s : Schema} {fs : List (String × FieldConfig)}
    (hfs : (fs.map (·.1)).Nodup) {f : String × FieldConfig} (h : f ∈ fs) :
    (s.insertAll fs).get? f.1 = some f.2 := by
  induction fs generalizing s with
  | nil => cases h
  | cons g fs ih =>
    obtain ⟨hg, hfs⟩ := List.nodup_cons.1 hfs
    rw [insertAll_cons]
    rcases List.mem_cons.1 h with rfl | h
    · rw [get?_insertAll_of_notMem hg, get?_insert, if_pos rfl]
    · exact ih hfs h

/-- A batch of fields that are there changes nothing. -/
theorem insertAll_of_known {s : Schema} {fs : List (String × FieldConfig)}
    (h : ∀ f ∈ fs, s.get? f.1 = some f.2) : s.insertAll fs = s := by
  induction fs with
  | nil => rfl
  | cons f fs ih =>
    rw [insertAll_cons, insert_of_get? (h f List.mem_cons_self)]
    exact ih fun g hg => h g (List.mem_cons_of_mem _ hg)

/-- A batch of different fields changes nothing when all of them are there already, and only
then. -/
theorem insertAll_eq_self_iff {s : Schema} {fs : List (String × FieldConfig)}
    (hfs : (fs.map (·.1)).Nodup) :
    s.insertAll fs = s ↔ ∀ f ∈ fs, s.get? f.1 = some f.2 := by
  refine ⟨fun h f hf => ?_, insertAll_of_known⟩
  rw [← get?_insertAll_of_mem (s := s) hfs hf, h]

def Within (s t : Schema) : Prop :=
  ∀ name config, s.get? name = some config → t.get? name = some config

/-- Inserting the same fields keeps a schema within another. -/
theorem Within.insertAll {s t : Schema} (h : s.Within t) (fs : List (String × FieldConfig)) :
    (s.insertAll fs).Within (t.insertAll fs) := by
  induction fs generalizing s t with
  | nil => exact h
  | cons f fs ih =>
    refine ih fun name config hname => ?_
    rw [get?_insert] at hname ⊢
    split at hname
    · rename_i hf
      rw [if_pos hf, hname]
    · rename_i hf
      rw [if_neg hf, h name config hname]

theorem within_insertAll {s : Schema} {fs : List (String × FieldConfig)}
    (h : ∀ f ∈ fs, s.get? f.1 = none) : s.Within (s.insertAll fs) := by
  intro name config hname
  rw [get?_insertAll_of_notMem, hname]
  intro hmem
  obtain ⟨f, hf, rfl⟩ := List.mem_map.1 hmem
  rw [h f hf] at hname
  cases hname

end Schema

end Searchlight
