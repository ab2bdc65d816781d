import Searchlight.Field.Coercion
import Searchlight.Proofs.Action

/-!
# What coercion comes to

A value that a field accepts is brought to the one form that fields of its kind index
(`FieldConfig.takes_of_coerce`): a text, a number or an instant.
-/

namespace Searchlight

def FieldKind.Takes : FieldKind → IndexValue → Prop
  | freeText, x | exactMatch, x => ∃ s, x = .text s
  | numeric, x => ∃ n, x = .number n
  | date, x => ∃ t, x = .date t
  | ignored, _ => False

namespace FieldConfig

variable {name : String} {v : Value} {x : IndexValue}

theorem exists_of_coerceNumber (h : coerceNumber name v = .ok x) : ∃ n, x = .number n := by
  unfold coerceNumber at h
  split at h
  · cases h
    exact ⟨_, rfl⟩
  · split at h <;> cases h
    exact ⟨_, rfl⟩
  · cases h

theorem exists_of_coerceDate (h : coerceDate name v = .ok x) : ∃ t, x = .date t := by
  unfold coerceDate at h
  split at h
  · cases h
    exact ⟨_, rfl⟩
  · split at h <;> cases h
    exact ⟨_, rfl⟩
  · cases h

/-- **What a field is given to index** is in the form that fields of its kind index. -/
theorem takes_of_coerce {c : FieldConfig} (h : c.coerce name v = .ok (some x)) : c.kind.Takes x := by
  rw [coerce] at h
  cases hkind : c.kind <;> rw [hkind] at h
  case freeText | exactMatch =>
    cases h
    exact ⟨_, rfl⟩
  case numeric =>
    obtain ⟨y, hy, hx⟩ := Except.map_eq_ok.1 h
    cases hx
    exact exists_of_coerceNumber hy
  case date =>
    obtain ⟨y, hy, hx⟩ := Except.map_eq_ok.1 h
    cases hx
    exact exists_of_coerceDate hy
  case ignored => cases h

end FieldConfig

end Searchlight
