import Mathlib.Data.List.TakeWhile
import Searchlight.Proofs.Schema.Stored
import Searchlight.Proofs.SetStore.Registrations
import Searchlight.Proofs.Text.Runs

/-!
# What is stored of a schema

A schema is stored as one text, or as one text for each of its fields, which come back in any order.
Both forms give back the schema (`stored_lossless`), and a text of another version of the format
gives none. This is so wherever the text says its version, in an object, even if it says it twice,
or in front of an array (`Versioned`); a text that says its version is not blank
(`Json.read?_of_blank`), so it is never taken for the empty schema.
-/

namespace Searchlight

/-! ## Blank texts -/

theorem Text.isWhiteSpace_of_isEmpty_trim {t : String} (h : (trim t).isEmpty = true) :
    ∀ c ∈ t.toList, isWhiteSpace c = true := by
  have hchars : trimChars t.toList = [] := by simpa [trim] using h
  rw [trimChars, List.reverse_eq_nil_iff, List.dropWhile_eq_nil_iff] at hchars
  rw [← List.dropWhile_eq_nil_iff]
  cases hdrop : t.toList.dropWhile isWhiteSpace with
  | nil => rfl
  | cons c cs =>
    have hc := List.head?_dropWhile_not isWhiteSpace t.toList
    rw [hdrop] at hc hchars
    simp [hchars c (by simp)] at hc

theorem Json.read?_of_blank {t : String} (h : ∀ c ∈ t.toList, Text.isWhiteSpace c = true) :
    read? t = none := by
  have hskip (c : Char) (cs : List Char) (heq : skipBlanks t.toList = c :: cs) :
      Text.isWhiteSpace c = true :=
    h c ((List.dropWhile_sublist _).mem (heq ▸ List.mem_cons_self))
  have hvalue : readValue (2 * t.toList.length + 2) t.toList = none := by
    rw [readValue]
    split
    case h_1 => rfl
    case h_9 =>
      cases hcs : skipBlanks t.toList with
      | nil => rfl
      | cons c cs => simp [readMagnitude, Text.isDigit_of_isWhiteSpace (hskip c cs hcs)]
    -- No other value begins with what is blank.
    all_goals exact absurd (hskip _ _ ‹_›) (by decide)
  rw [read?, readChars, hvalue]
  rfl

/-! ## Versions -/

namespace Schema

/-- The number that a value says as the version of its format. -/
inductive Versioned (n : Json.Number) : Json → Prop where
  | member {members : List (Json.Text × Json)} (h : (some "format_version", .number n) ∈ members) :
    Versioned n (.object members)
  | item (items : List Json) : Versioned n (.array (.number n :: items))

theorem ofJsonText_eq_ok {text : String} {s : Schema} (h : ofJsonText text = .ok s) :
    (Text.trim text).isEmpty = true ∨
      ∃ j, Json.read? text = some j ∧ ofJson? j = some (formatVersion, s) := by
  rw [ofJsonText] at h
  split at h
  · exact .inl ‹_›
  · refine .inr ?_
    split at h
    · cases h
    · rename_i version schema hread
      split at h
      · rename_i hversion
        cases h
        exact Option.bind_eq_some_iff.1 (hversion ▸ hread)
      · cases h

/-- The first field of what says its version is that version. -/
theorem Versioned.fields?_eq_some {n : Json.Number} {j : Json} {names : List String}
    {first : Json.Field} {rest : List Json.Field} (hj : Versioned n j)
    (h : j.fields? ("format_version" :: names) false = some (first :: rest)) :
    first = .present (.number n) := by
  cases hj with
  | item items =>
    rw [Json.fields?] at h
    split at h
    · cases h
      rfl
    · cases h
  | @member members hmem =>
    rw [Json.fields?] at h
    split at h
    · rw [List.mapM_cons] at h
      obtain ⟨field, hfield, h⟩ := Option.bind_eq_some_iff.1 h
      obtain ⟨fields, -, h⟩ := Option.bind_eq_some_iff.1 h
      cases h
      have hfilter : (some "format_version", .number n) ∈
          members.filter fun m => m.1 == some "format_version" :=
        List.mem_filter.2 ⟨hmem, by simp⟩
      rw [Json.member?] at hfield
      split at hfield
      · simp_all
      · rename_i m hm
        cases hfield
        rw [hm, List.mem_singleton] at hfilter
        rw [← hfilter]
      · cases hfield
    · cases h

/-- **A schema of another version is refused.** -/
theorem Versioned.toNat?_of_ofJsonText {n : Json.Number} {j : Json} {text : String} {s : Schema}
    (hj : Versioned n j) (hread : Json.read? text = some j) (h : ofJsonText text = .ok s) :
    n.toNat? = some formatVersion := by
  rcases ofJsonText_eq_ok h with hblank | ⟨j', hread', h⟩
  · rw [Json.read?_of_blank (Text.isWhiteSpace_of_isEmpty_trim hblank)] at hread
    cases hread
  · cases hread.symm.trans hread'
    obtain ⟨fields, hfields, h⟩ := Option.bind_eq_some_iff.1 h
    split at h
    · obtain ⟨version, hversion, h⟩ := Option.bind_eq_some_iff.1 h
      obtain ⟨entries, -, h⟩ := Option.bind_eq_some_iff.1 h
      obtain ⟨fields, -, h⟩ := Option.bind_eq_some_iff.1 h
      cases h
      cases hj.fields?_eq_some hfields
      exact (Option.filter_eq_some_iff.1 hversion).1
    · cases h

end Schema

/-! ## Fields on a key server -/

theorem KeyMap.ofList_of_perm {α : Type} {es : List (String × α)} {m : KeyMap α}
    (h : es.Perm m.entries) : ofList es = m := by
  refine ext fun k => Option.ext fun v => ⟨fun hv => ?_, fun hv => ?_⟩
  · exact get?_eq_some_iff.2 (h.mem_iff.1 (mem_of_get?_ofList hv))
  · have hmem : (k, v) ∈ es := h.mem_iff.2 (get?_eq_some_iff.1 hv)
    have hcontains : (ofList es).contains k = true := by
      rw [contains_ofList, decide_eq_true_iff]
      exact List.mem_map_of_mem (f := Prod.fst) hmem
    obtain ⟨w, hw⟩ := contains_eq_true_iff.1 hcontains
    -- What is found is an entry of the map too, which has one for each key.
    have hfound := get?_eq_some_iff.2 (h.mem_iff.1 (mem_of_get?_ofList hw))
    rw [hw, ← hfound, hv]

/-- The configurations that are stored of some fields are read field by field. -/
theorem SetStore.Store.schemaOf_map_write (fields : List (String × FieldConfig)) :
    schemaOf (fields.map fun f => (f.1, f.2.toJson.write)) = .ok (.ofList fields) := by
  have hread (c : FieldConfig) : (Json.read? c.toJson.write).bind FieldConfig.ofJson? = some c :=
    readConfig?_write c
  have hfields : (fields.mapM fun f => (pure f : Except Error (String × FieldConfig))) =
      .ok fields := by
    rw [List.mapM_pure, List.map_id']
    rfl
  simp only [schemaOf, List.mapM_map, Function.comp_def, hread]
  exact congrArg (Except.map Schema.ofList) hfields

/-! ## Stored forms -/

namespace Schema

/-- **Schemas are stored without loss**, whatever the names and configurations of their fields are. A
schema is read back from its text, so different schemas have different texts, and from the texts of
its fields in any order. A text that says another version than the one that is written is no schema. -/
theorem stored_lossless (s : Schema) :
    ofJsonText s.toJsonText = .ok s ∧
    (∀ t : Schema, t.toJsonText = s.toJsonText → t = s) ∧
    (∀ fields : List (String × FieldConfig), fields.Perm s.toList →
      SetStore.Store.schemaOf (fields.map fun f => (f.1, f.2.toJson.write)) = .ok s) ∧
    ∀ text j n, Json.read? text = some j → Versioned n j → n.toNat? ≠ some formatVersion →
      ∃ e, ofJsonText text = .error e := by
  refine ⟨ofJsonText_toJsonText s, fun t ht => ?_, fun fields hfields => ?_,
    fun text j n hread hj hn => ?_⟩
  · have hread := ofJsonText_toJsonText t
    rw [ht, ofJsonText_toJsonText] at hread
    exact (Except.ok.inj hread).symm
  · rw [SetStore.Store.schemaOf_map_write, ofList, KeyMap.ofList_of_perm hfields]
  · cases h : ofJsonText text with
    | error e => exact ⟨e, rfl⟩
    | ok t => exact absurd (hj.toNat?_of_ofJsonText hread h) hn

def oddly : Schema :=
  ofList [("", ⟨.date, false, true⟩), ("\"\\\x01", ⟨.ignored, true, true⟩), ("é", .freeText)]

theorem stored_lossless_oddly :
    SetStore.Store.schemaOf (oddly.toList.reverse.map fun f => (f.1, f.2.toJson.write)) =
        .ok oddly ∧
      ∃ e, ofJsonText "[2,\x7b\x7d]" = .error e := by
  obtain ⟨-, -, hfields, hversion⟩ := stored_lossless oddly
  exact ⟨hfields _ (List.reverse_perm _),
    hversion "[2,\x7b\x7d]" (.array [.ofNat 2, .object []]) _ rfl (.item _) (by decide)⟩

end Schema

end Searchlight
