import Searchlight.Proofs.Driver.Finding
import Searchlight.Proofs.Text.Tokens

/-!
# Words that are found

A free-text field is asked for by the tokens of a text, whether it was cut into words before or not.
So a document is found by the text of a value and by every part of it that cuts no token
(`Driver.part_found`). It is found by its own tokens if these are tokens of themselves, which those
with a dot above are not (`Driver.token_found_iff`).
-/

namespace Searchlight.Driver

open Text (tokenize words IsPart)

section
variable {dr : Driver} {h : Host} {id name : String} {doc : Document} {c : FieldConfig}
  (hdoc : dr.Indexes h id doc name c) (hkind : c.kind = .freeText)
include hdoc hkind

/-- A text finds in a field what has all its tokens there. -/
theorem Indexes.findsIff_words {s : String} (hs : tokenize s ≠ []) :
    dr.FindsIff h (.fieldTerm name s) id
      (∀ t ∈ tokenize s, ∃ v ∈ doc.values name, t ∈ tokenize v.toText) := by
  have htokens : c.kind.queryTokens name (words s) = .ok (tokenize s) := by
    rw [hkind, ← Text.flatMap_tokenize_words]
    rfl
  refine (hdoc.findsIff_field (hkind ▸ nofun) (Text.words_ne_nil_of_tokenize hs) htokens).congr ?_
  simp only [Document.gives_text_iff (.inl hkind), and_iff_right hs]
  rw [hkind]
  refine forall₂_congr fun t _ => ?_
  constructor
  · rintro ⟨_, ⟨v, hv, rfl⟩, ht⟩
    exact ⟨v, hv, ht⟩
  · rintro ⟨v, hv, ht⟩
    exact ⟨_, ⟨v, hv, rfl⟩, ht⟩

/-- A text finds what has a value with all its tokens, in any field and in that of the value. -/
theorem Indexes.finds_of_subset {s : String} (hs : tokenize s ≠ []) {v : Value}
    (hv : v ∈ doc.values name) (hsub : tokenize s ⊆ tokenize v.toText) :
    dr.FindsIff h (.term s) id True ∧ dr.FindsIff h (.fieldTerm name s) id True := by
  obtain ⟨ts, hts, hfinds⟩ := hdoc.exists_freeTokens hkind
  constructor
  · refine (hfinds _ (Text.words_ne_nil_of_tokenize hs)).congr (iff_true_intro ?_)
    rw [tokenizeTerms, Text.flatMap_tokenize_words]
    have hgives : doc.Gives name c (.text v.toText) :=
      (Document.gives_text_iff (.inl hkind)).2 ⟨v, hv, rfl⟩
    exact ⟨hs, fun t ht => hts v.toText hgives t (hsub ht)⟩
  · exact (hdoc.findsIff_words hkind hs).congr (iff_true_intro fun t ht => ⟨v, hv, hsub ht⟩)

end

/-- **A document is found by its own text** and by its words, in their own case: by every part of a
value of an indexed free-text field that begins and ends where tokens do and has one. For a text has
the tokens of its words, and a part of it has some of its tokens. -/
theorem part_found (s : String) :
    tokenizeTerms (words s) = tokenize s ∧ IsPart s s ∧ (∀ w ∈ words s, IsPart w s) ∧
      ∀ {dr : Driver} {h : Host} {id name : String} {doc : Document} {c : FieldConfig},
        dr.Indexes h id doc name c → c.kind = .freeText →
        ∀ v ∈ doc.values name, v.toText = s →
        ∀ part, IsPart part s → tokenize part ≠ [] →
          dr.FindsIff h (.term part) id True ∧ dr.FindsIff h (.fieldTerm name part) id True := by
  refine ⟨Text.flatMap_tokenize_words s, Text.isPart_self s, fun w hw => Text.isPart_of_mem_words hw,
    fun hdoc hkind v hv htext part hpart hne => ?_⟩
  exact hdoc.finds_of_subset hkind hne hv (htext ▸ hpart.tokenize_infix.subset)

def ferry : Document := ⟨[("title", .text "Ferry-BOAT  No. 7")]⟩

def preparedFerry : PreparedDocument :=
  ⟨[⟨"title", .freeText, [.text "Ferry-BOAT  No. 7"], [.text "Ferry-BOAT  No. 7"]⟩]⟩

/-- The title is found by a word of it, and by a part with a word and a half. -/
theorem part_found_ferry :
    (∀ h, (memoryOf "title" .freeText preparedFerry).FindsIff h (.term "Ferry-BOAT") "1" True) ∧
      (Driver.sets (setsOf "title" .freeText)).FindsIff (serverOf "title" .freeText preparedFerry)
        (.fieldTerm "title" "BOAT  No.") "1" True := by
  have hd : ferry.prepare ⟨KeyMap.empty.insert "title" (.field .freeText), [], []⟩ ValueKind.all
      "memory" = .ok preparedFerry := by
    rfl
  have hok : (SetStore.Store.index preparedFerry (some "1")).outcome
      (setsOf "title" .freeText, .fresh true) = .ok "1" := by
    decide +kernel
  have hv : .text "Ferry-BOAT  No. 7" ∈ ferry.values "title" := List.mem_singleton_self _
  obtain ⟨-, -, hwords, hfound⟩ := part_found "Ferry-BOAT  No. 7"
  refine ⟨fun h => ?_, ?_⟩
  · have hword : "Ferry-BOAT" ∈ words "Ferry-BOAT  No. 7" := by decide +kernel
    exact (hfound (indexes_memoryOf hd rfl h) rfl _ hv rfl _ (hwords _ hword)
      (by decide +kernel)).1
  · have hpart : IsPart "BOAT  No." "Ferry-BOAT  No. 7" :=
      ⟨"Ferry-", " 7", by decide, Text.parted_of_last (by rintro _ ⟨⟩; decide +kernel),
        Text.parted_of_last (by rintro _ ⟨⟩; decide +kernel)⟩
    exact (hfound (indexes_setsOf hd rfl hok) rfl _ hv rfl _ hpart (by decide +kernel)).2

/-- **Which tokens find their document.** A token of a text is the one token of itself if it has no
dot above, and the tokens of a text joined by spaces are its tokens again if it has no dotted capital
I. Such a token finds each document with the text in an indexed free-text field; of any token it is
its own tokens that have to be there. -/
theorem token_found_iff (s : String) :
    (∀ t ∈ tokenize s, tokenize t = [t] ↔ '\u0307' ∉ t.toList) ∧
      (tokenize (" ".intercalate (tokenize s)) = tokenize s ↔ 'İ' ∉ s.toList) ∧
      ∀ {dr : Driver} {h : Host} {id name : String} {doc : Document} {c : FieldConfig},
        dr.Indexes h id doc name c → c.kind = .freeText →
        ∀ v ∈ doc.values name, v.toText = s → ∀ t ∈ tokenize s,
          dr.FindsIff h (.fieldTerm name t) id
              (∀ u ∈ tokenize t, ∃ v ∈ doc.values name, u ∈ tokenize v.toText) ∧
            ('\u0307' ∉ t.toList →
              dr.FindsIff h (.term t) id True ∧ dr.FindsIff h (.fieldTerm name t) id True) := by
  refine ⟨fun t ht => Text.tokenize_token_iff ht, Text.tokenize_intercalate_tokenize_iff s,
    fun hdoc hkind v hv htext t ht => ⟨hdoc.findsIff_words hkind (Text.tokenize_token_ne_nil ht),
      fun hdot => ?_⟩⟩
  refine hdoc.finds_of_subset hkind (Text.tokenize_token_ne_nil ht) hv ?_
  rw [(Text.tokenize_token_iff ht).2 hdot, htext]
  exact List.cons_subset.2 ⟨ht, List.nil_subset _⟩

def istanbul : Document := ⟨[("title", .text "İstanbul")]⟩

def preparedIstanbul : PreparedDocument :=
  ⟨[⟨"title", .freeText, [.text "İstanbul"], [.text "İstanbul"]⟩]⟩

/-- The name is indexed under one token, which finds nothing. -/
theorem token_found_iff_istanbul :
    tokenize "İstanbul" = ["i\u0307stanbul"] ∧
      (∀ h, (memoryOf "title" .freeText preparedIstanbul).FindsIff h
        (.fieldTerm "title" "i\u0307stanbul") "1" False) ∧
      (Driver.sets (setsOf "title" .freeText)).FindsIff
        (serverOf "title" .freeText preparedIstanbul) (.fieldTerm "title" "i\u0307stanbul") "1"
        False := by
  have hd : istanbul.prepare ⟨KeyMap.empty.insert "title" (.field .freeText), [], []⟩ ValueKind.all
      "memory" = .ok preparedIstanbul := by
    rfl
  have hok : (SetStore.Store.index preparedIstanbul (some "1")).outcome
      (setsOf "title" .freeText, .fresh true) = .ok "1" := by
    decide +kernel
  have htokens : tokenize "İstanbul" = ["i\u0307stanbul"] := by decide +kernel
  have hv : .text "İstanbul" ∈ istanbul.values "title" := List.mem_singleton_self _
  have ht : "i\u0307stanbul" ∈ tokenize "İstanbul" := htokens ▸ List.mem_singleton_self _
  have hnone : ¬∀ u ∈ tokenize "i\u0307stanbul", ∃ v ∈ istanbul.values "title",
      u ∈ tokenize v.toText := by
    decide +kernel
  obtain ⟨-, -, hfound⟩ := token_found_iff "İstanbul"
  refine ⟨htokens, fun h => ?_, ?_⟩
  · exact (hfound (indexes_memoryOf hd rfl h) rfl _ hv rfl _ ht).1.congr (iff_false_intro hnone)
  · exact (hfound (indexes_setsOf hd rfl hok) rfl _ hv rfl _ ht).1.congr (iff_false_intro hnone)

end Searchlight.Driver
