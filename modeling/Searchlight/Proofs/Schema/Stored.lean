import Searchlight.Proofs.Json.RoundTrip
import Searchlight.Proofs.KeyMap
import Searchlight.Proofs.Schema.Fields

/-!
# Stored schemas

A schema is read back from the text that it is stored as.
-/

namespace Searchlight

open Json (Readable)

/-- What is read back item by item is read back as a list. -/
theorem mapM_map_of_inverse {α β : Type} {f : β → Option α} {g : α → β}
    (h : ∀ a, f (g a) = some a) (xs : List α) : (xs.map g).mapM f = some xs := by
  induction xs with
  | nil => rfl
  | cons x xs ih => simp [List.mapM_cons, h, ih]

theorem Json.entries?_record (members : List (String × Json)) :
    (record members).entries? = some members :=
  mapM_map_of_inverse (g := fun m : String × Json => (some m.1, m.2)) (fun _ => rfl) members

theorem FieldKind.ofKey?_key (k : FieldKind) : ofKey? k.key = some k := by cases k <;> decide

namespace FieldConfig

theorem readable_toJson (c : FieldConfig) : Readable c.toJson := by
  refine .record fun m hm => ?_
  simp only [List.mem_cons, List.not_mem_nil, or_false] at hm
  rcases hm with rfl | rfl | rfl
  · exact .string _
  · exact .bool _
  · exact .bool _

theorem ofJson?_toJson (c : FieldConfig) : ofJson? c.toJson = some c := by
  simp [ofJson?, toJson, Json.fields?, Json.record, Json.member?, Json.Field.required,
    Json.choice?, Json.ofString, Json.bool?, FieldKind.ofKey?_key]

end FieldConfig

namespace Schema

theorem readable_toJson (s : Schema) : Readable s.toJson := by
  refine .record fun m hm => ?_
  simp only [List.mem_cons, List.not_mem_nil, or_false] at hm
  rcases hm with rfl | rfl
  · exact .number (Json.Number.readable_ofNat _)
  · refine .record fun f hf => ?_
    obtain ⟨field, -, rfl⟩ := List.mem_map.1 hf
    exact field.2.readable_toJson

theorem ofList_toList (s : Schema) : ofList s.toList = s :=
  congrArg Schema.mk (KeyMap.ofList_entries s.fields)

theorem ofJson?_toJson (s : Schema) : ofJson? s.toJson = some (formatVersion, s) := by
  have hfields : s.toJson.fields? ["format_version", "fields"] false =
      some [.present (.ofNat formatVersion),
        .present (.record (s.toList.map fun f => (f.1, f.2.toJson)))] := by
    simp [toJson, Json.fields?, Json.record, Json.member?]
  have hversion : (Json.ofNat formatVersion).nat? 32 = some formatVersion := by decide
  have hentries : (s.toList.map fun f => (f.1, f.2.toJson)).mapM
      (fun e => (FieldConfig.ofJson? e.2).map (e.1, ·)) = some s.toList :=
    mapM_map_of_inverse (fun f => by simp [FieldConfig.ofJson?_toJson]) s.toList
  simp only [ofJson?, hfields, Option.bind_eq_bind, Option.bind_some, Json.Field.required, hversion,
    Json.entries?_record, hentries, ofList_toList]

theorem isEmpty_trim_of_brace {t : String} {cs : List Char} (h : t.toList = '\x7b' :: cs) :
    (Text.trim t).isEmpty = false := by
  have hblank : Text.isWhiteSpace '\x7b' = false := by decide
  have hne : Text.trimChars ('\x7b' :: cs) ≠ [] := by
    simp only [Text.trimChars, List.dropWhile_cons, hblank, Bool.false_eq_true, if_false,
      List.reverse_cons, List.dropWhile_append]
    split <;> simp
  simpa [Text.trim, h] using hne

/-- **A stored schema is read back.** -/
theorem ofJsonText_toJsonText (s : Schema) : ofJsonText s.toJsonText = .ok s := by
  have hbrace : ∃ cs, s.toJsonText.toList = '\x7b' :: cs :=
    ⟨_, by rw [toJsonText, Json.write, String.toList_ofList, toJson, Json.writeChars_record]⟩
  obtain ⟨cs, hcs⟩ := hbrace
  have hread : Json.read? s.toJsonText = some s.toJson := Json.read?_write s.readable_toJson
  simp [ofJsonText, isEmpty_trim_of_brace hcs, hread, ofJson?_toJson]

end Schema

end Searchlight
