import Searchlight.Proofs.Driver.Finding
import Searchlight.Proofs.Text.Runs

/-!
# Whole values that are found

An exact-match field is asked for by the words of a text, joined by spaces, while its values are kept
as they are. So a text finds what has its words with single spaces between them
(`Driver.literal_found_iff`): itself if it is spaced so, and else not itself but perhaps another
value.
-/

namespace Searchlight.Driver

open Text (SingleSpaced words)

section
variable {dr : Driver} {h : Host} {id name q : String} {doc : Document} {c : FieldConfig}
  (hdoc : dr.Indexes h id doc name c) (hkind : c.kind = .exactMatch)
  (hq : ∃ ch ∈ q.toList, Text.isWhiteSpace ch = false)
include hdoc hkind hq

theorem Indexes.findsIff_literal :
    dr.FindsIff h (.fieldTerm name q) id
      (∃ v ∈ doc.values name, v.toText = " ".intercalate (words q)) := by
  have htokens : c.kind.queryTokens name (words q) = .ok [" ".intercalate (words q)] := by
    rw [hkind]
    rfl
  refine (hdoc.findsIff_field (hkind ▸ nofun) (Text.words_ne_nil_iff.2 hq) htokens).congr ?_
  simp only [Document.gives_text_iff (.inr hkind)]
  rw [hkind]
  constructor
  · rintro ⟨-, hmem⟩
    obtain ⟨_, ⟨v, hv, rfl⟩, ht⟩ := hmem _ (List.mem_singleton_self _)
    exact ⟨v, hv, (List.mem_singleton.1 ht).symm⟩
  · rintro ⟨v, hv, htext⟩
    refine ⟨List.cons_ne_nil _ _, fun t ht => ⟨_, ⟨v, hv, rfl⟩, ?_⟩⟩
    rw [List.mem_singleton.1 ht, ← htext]
    exact List.mem_singleton_self _

/-- **Which values are found as a whole.** A text finds the documents with a value that is spaced
singly and has the words of the text. If the text is spaced singly these are the documents with
just this value, and else it finds no document for being its value. -/
theorem literal_found_iff :
    dr.FindsIff h (.fieldTerm name q) id
        (∃ v ∈ doc.values name, words v.toText = words q ∧ SingleSpaced v.toText.toList) ∧
      (SingleSpaced q.toList →
        dr.FindsIff h (.fieldTerm name q) id (∃ v ∈ doc.values name, v.toText = q)) ∧
      (doc.values name ≠ [] → (∀ v ∈ doc.values name, v.toText = q) →
        dr.FindsIff h (.fieldTerm name q) id (SingleSpaced q.toList)) := by
  have hfinds := hdoc.findsIff_literal hkind hq
  refine ⟨?_, fun hspaced => ?_, fun hne hall => ?_⟩
  · simpa only [Text.eq_intercalate_words_iff] using hfinds
  · rwa [(Text.intercalate_words_eq_iff q).2 hspaced] at hfinds
  · refine hfinds.congr ⟨?_, fun hspaced => ?_⟩
    · rintro ⟨v, hv, htext⟩
      rw [hall v hv] at htext
      exact (Text.intercalate_words_eq_iff q).1 htext.symm
    · obtain ⟨v, hv⟩ := List.exists_mem_of_ne_nil _ hne
      rw [(Text.intercalate_words_eq_iff q).2 hspaced]
      exact ⟨v, hv, hall v hv⟩

end

def wideCity : Document := ⟨[("city", .text "New  York")]⟩

def preparedWideCity : PreparedDocument :=
  ⟨[⟨"city", .exactMatch, [.text "New  York"], [.text "New  York"]⟩]⟩

/-- A city with two spaces in its name is not found by its name. -/
theorem literal_found_iff_wideCity :
    (∀ h, (memoryOf "city" .exactMatch preparedWideCity).FindsIff h
        (.fieldTerm "city" "New  York") "1" False) ∧
      (Driver.sets (setsOf "city" .exactMatch)).FindsIff
        (serverOf "city" .exactMatch preparedWideCity) (.fieldTerm "city" "New  York") "1"
        False := by
  have hd : wideCity.prepare ⟨KeyMap.empty.insert "city" (.field .exactMatch), [], []⟩
      ValueKind.all "memory" = .ok preparedWideCity := by
    rfl
  have hok : (SetStore.Store.index preparedWideCity (some "1")).outcome
      (setsOf "city" .exactMatch, .fresh true) = .ok "1" := by
    rfl
  have hq : ∃ ch ∈ ("New  York" : String).toList, Text.isWhiteSpace ch = false :=
    ⟨'N', by decide, by decide⟩
  have hne : wideCity.values "city" ≠ [] := List.cons_ne_nil _ _
  have hall : ∀ v ∈ wideCity.values "city", v.toText = "New  York" := fun v hv => by
    rw [List.mem_singleton.1 hv]
    rfl
  have hspaced : ¬SingleSpaced ("New  York" : String).toList := fun hspaced =>
    absurd ((Text.intercalate_words_eq_iff _).2 hspaced) (by decide)
  refine ⟨fun h => ?_, ?_⟩
  · exact ((literal_found_iff (indexes_memoryOf hd rfl h) rfl hq).2.2 hne hall).congr
      (iff_false_intro hspaced)
  · exact ((literal_found_iff (indexes_setsOf hd rfl hok) rfl hq).2.2 hne hall).congr
      (iff_false_intro hspaced)

end Searchlight.Driver
