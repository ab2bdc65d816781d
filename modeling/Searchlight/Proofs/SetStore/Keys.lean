import Std.Data.String.ToNat
import Mathlib.Data.List.Basic
import Searchlight.Proofs.KeyMap
import Searchlight.Proofs.Text.Telling
import Searchlight.SetStore.KeySpace

/-!
# Keys tell their parts

Names and tokens may hold colons, so a colon does not always end a part of a key. The size of the
field name does: two posting keys of a store are the same only for the same name and token
(`posting_inj`), and no posting key is one over all fields (`posting_ne_anyField`).
-/

namespace Searchlight.SetStore.KeySpace

/-! ## Texts one after the other -/

/-- A text of known size that others follow can be told. -/
theorem append_inj_of_size {s t u v : String} (h : s ++ u = t ++ v)
    (hsize : s.utf8ByteSize = t.utf8ByteSize) : s = t ∧ u = v := by
  have hb : s.toByteArray ++ u.toByteArray = t.toByteArray ++ v.toByteArray := by
    rw [← String.toByteArray_append, ← String.toByteArray_append, h]
  obtain rfl : s = t := String.toByteArray_inj.1 (ByteArray.append_inj_left hb hsize)
  exact ⟨rfl, (String.append_right_inj s).1 h⟩

theorem colon_notMem_digits (n : Nat) : ':' ∉ (toString n).toList := by
  intro h
  have hdigit : Char.isDigit ':' = true := by
    rw [Nat.toString_eq_repr, Nat.toList_repr] at h
    exact Nat.isDigit_of_mem_toDigits (by decide) (by decide) h
  exact absurd hdigit (by decide)

theorem digits_inj {m n : Nat} {u v : String}
    (h : toString m ++ (":" ++ u) = toString n ++ (":" ++ v)) : m = n ∧ u = v := by
  have hl : (toString m).toList ++ ':' :: u.toList = (toString n).toList ++ ':' :: v.toList := by
    simpa using congrArg String.toList h
  obtain ⟨hmn, huv⟩ := Text.append_cons_inj (colon_notMem_digits m) (colon_notMem_digits n) hl
  exact ⟨Nat.repr_injective (String.toList_injective hmn), String.toList_injective huv⟩

/-! ## Posting keys -/

variable {k : KeySpace}

theorem posting_eq (field token : String) :
    k.posting field token =
      k.stem ++ (":docs:" ++ (toString field.utf8ByteSize ++ (":" ++ (field ++ (":" ++ token))))) := by
  rw [show ":docs:" = ":" ++ "docs" ++ ":" from rfl]
  simp only [posting, key, String.intercalate_cons_cons, String.intercalate_singleton,
    String.append_assoc]

theorem anyField_eq (token : String) : k.anyField token = k.stem ++ (":any:" ++ token) := by
  rw [show ":any:" = ":" ++ "any" ++ ":" from rfl]
  simp only [anyField, key, String.intercalate_cons_cons, String.intercalate_singleton,
    String.append_assoc]

/-- **Posting keys tell the field and the token.** -/
theorem posting_inj {f g t u : String} : k.posting f t = k.posting g u ↔ f = g ∧ t = u := by
  constructor
  · intro h
    rw [posting_eq, posting_eq, String.append_right_inj, String.append_right_inj] at h
    -- The size is read first and tells where the name ends.
    obtain ⟨hsize, hrest⟩ := digits_inj h
    obtain ⟨rfl, htoken⟩ := append_inj_of_size hrest hsize
    exact ⟨rfl, (String.append_right_inj _).1 htoken⟩
  · rintro ⟨rfl, rfl⟩
    rfl

theorem anyField_inj {t u : String} : k.anyField t = k.anyField u ↔ t = u := by
  rw [anyField_eq, anyField_eq, String.append_right_inj, String.append_right_inj]

theorem posting_ne_anyField (field token t : String) : k.posting field token ≠ k.anyField t := by
  rw [posting_eq, anyField_eq, Ne, String.append_right_inj]
  intro h
  have hl := congrArg String.toList h
  simp at hl

/-- The keys of a document: those of the tokens of its indexed fields. -/
theorem mem_postings {d : PreparedDocument} {key : String} :
    key ∈ k.postings d ↔
      ∃ f ∈ d.fields, f.config.indexed = true ∧
        ∃ t ∈ f.values.flatMap f.config.kind.valueTokens, key ∈ k.tokenKeys f t := by
  simp only [postings, KeyMap.mem_keys, KeyMap.contains_ofList, List.map_map]
  simp [fieldKeys, and_assoc]

end Searchlight.SetStore.KeySpace
