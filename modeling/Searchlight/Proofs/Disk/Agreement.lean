import Searchlight.Proofs.Disk.Stocking
import Searchlight.Proofs.Query.Refusing
import Searchlight.Text.Stem

/-!
# Tokens on disk and in memory

A leaf on free text asks an index for each of its tokens in any of the free-text fields; a leaf on a
text field asks for each of its tokens in that field. With the analyzer of the store in the place of
its own the in-memory store asks the same of the documents (`matches_freeTextLeaf`,
`matches_fieldTerms`), although it has counted the tokens of all free-text fields together. It has
counted tokens too that are too long to be terms, though. So both find the same documents by all
queries whose leaves are on such fields exactly if the documents have no such tokens
(`Store.finds_alike_iff`).
-/

namespace Searchlight.Disk

open Memory (translatorBy)

variable {schema : Schema} {analyze : Analyzer}

namespace FieldMap

theorem mem_freeTextFields {m : FieldMap} {n : Nat} :
    n ∈ m.freeTextFields ↔
      ∃ name c, m.numbered.get? name = some (n, c) ∧ c.kind = .freeText := by
  simp only [freeTextFields, List.mem_map, List.mem_filter, beq_iff_eq, KeyMap.get?_eq_some_iff]
  constructor
  · rintro ⟨⟨name, n, c⟩, ⟨hmem, hkind⟩, rfl⟩
    exact ⟨name, c, hmem, hkind⟩
  · rintro ⟨name, c, hmem, hkind⟩
    exact ⟨(name, n, c), ⟨hmem, hkind⟩, rfl⟩

end FieldMap

section
variable {id : String} {d : PreparedDocument} {r : Record}
  (hu : (FieldMap.build schema).Unreserved)
  (hr : (FieldMap.build schema).record? analyze id d = some r) (hd : d.Resolved schema)
include hu hr hd

/-- The terms of free text are the tokens of some free-text field. -/
theorem free_mem_terms_iff {t : String} :
    (∃ n ∈ (FieldMap.build schema).freeTextFields, ⟨n, .text t⟩ ∈ r.terms) ↔
      isTerm t = true ∧ t ∈ d.freeTokensBy analyze := by
  rw [PreparedDocument.mem_freeTokensBy]
  constructor
  · rintro ⟨n, hn, ht⟩
    obtain ⟨name, c, hname, hkind⟩ := FieldMap.mem_freeTextFields.1 hn
    rw [FieldMap.text_mem_terms_iff hu hname hr hd (.inl hkind),
      PreparedDocument.mem_tokensInBy] at ht
    obtain ⟨hterm, f, hf, hindexed, hfname, ht⟩ := ht
    have hconfig := hd.config_eq (FieldMap.of_get?_numbered rfl hname).1 hf hfname
    exact ⟨hterm, f, hf, hindexed, hconfig ▸ hkind, ht⟩
  · rintro ⟨hterm, f, hf, hindexed, hkind, ht⟩
    have hsearchable : f.config.isSearchable = true := by
      rw [FieldConfig.isSearchable, hindexed, hkind]
      rfl
    obtain ⟨n, hname⟩ := FieldMap.complete_build schema f.name f.config (hd.config f hf) hsearchable
    refine ⟨n, FieldMap.mem_freeTextFields.2 ⟨f.name, f.config, hname, hkind⟩, ?_⟩
    rw [FieldMap.text_mem_terms_iff hu hname hr hd (.inl hkind), PreparedDocument.mem_tokensInBy]
    exact ⟨hterm, f, hf, hindexed, rfl, ht⟩

/-- **A leaf on free text** asks for some token, and for each of them in some free-text field. -/
theorem matches_freeTextLeaf {terms : List String} :
    (freeTextLeaf (FieldMap.build schema) analyze terms).matchesRecord r = true ↔
      terms.flatMap analyze ≠ [] ∧
        ∀ t ∈ terms.flatMap analyze, isTerm t = true ∧ t ∈ d.freeTokensBy analyze := by
  simp only [← free_mem_terms_iff hu hr hd]
  rw [freeTextLeaf]
  generalize terms.flatMap analyze = tokens
  split
  · rename_i hempty
    rw [List.isEmpty_iff] at hempty
    refine iff_of_false Bool.false_ne_true ?_
    rintro ⟨hne, hall⟩
    obtain ⟨t, ht⟩ := List.exists_mem_of_ne_nil _ hne
    obtain ⟨n, hn, -⟩ := hall t ht
    rw [hempty] at hn
    cases hn
  · rw [TermQuery.matches_allOf]
    simp [TermQuery.matches_anyOf, TermQuery.matches_term]

/-- **A leaf on a text field** asks for some token, and for all of them in the field. -/
theorem matches_fieldTerms {name : String} {n : Nat} {c : FieldConfig}
    (hname : (FieldMap.build schema).numbered.get? name = some (n, c))
    (htext : c.kind = .freeText ∨ c.kind = .exactMatch) (tokens : List String) :
    (TermQuery.allOf (tokens.map fun t => .term ⟨n, .text t⟩)).matchesRecord r = true ↔
      tokens ≠ [] ∧ ∀ t ∈ tokens, isTerm t = true ∧ t ∈ d.tokensInBy analyze name := by
  rw [TermQuery.matches_allOf]
  simp [TermQuery.matches_term, FieldMap.text_mem_terms_iff hu hname hr hd htext]

end

/-- The tokens that a leaf on a text field asks for are those that the in-memory store would ask
for. -/
theorem exists_tokens (analyze : Analyzer) (name : String) {kind : FieldKind}
    (htext : kind = .freeText ∨ kind = .exactMatch) (terms : List String) :
    ∃ tokens, kind.queryTokensBy analyze name terms = .ok tokens ∧
      fieldValues analyze name kind terms = .ok (tokens.map .text) := by
  rcases htext with rfl | rfl
  · exact ⟨terms.flatMap analyze, rfl, rfl⟩
  · exact ⟨[" ".intercalate terms], rfl, rfl⟩

/-! ## Two stores -/

/-- The leaves of the query that are on searched fields are on text fields. -/
def OnText (schema : Schema) (q : Query) : Prop :=
  ∀ name terms, .field name terms ∈ q.nodes → ∀ c, schema.get? name = some c →
    c.isSearchable = true → c.kind = .freeText ∨ c.kind = .exactMatch

structure HasTerms (schema : Schema) (analyze : Analyzer) (d : PreparedDocument)
    (e : Memory.Entry) : Prop where
  freeText : ∀ t, e.freeText.contains t = true ↔
    isTerm t = true ∧ t ∈ d.freeTokensBy analyze
  field : ∀ {name c}, schema.get? name = some c → c.kind = .freeText ∨ c.kind = .exactMatch →
    ∀ t, ((e.fields.get? name).getD ∅).contains t = true ↔
      isTerm t = true ∧ t ∈ d.tokensInBy analyze name

/-- A text field of the document has no tokens but terms. -/
def AllTerms (analyze : Analyzer) (d : PreparedDocument) : Prop :=
  ∀ f ∈ d.fields, f.config.indexed = true →
    f.config.kind = .freeText ∨ f.config.kind = .exactMatch →
      ∀ t ∈ Memory.fieldTokensBy analyze f, isTerm t = true

theorem hasTerms_keep (schema : Schema) (analyze : Analyzer) (n : Nat) (d : PreparedDocument) :
    HasTerms schema analyze d ((Memory.Entry.buildBy analyze n d).keep isTerm) where
  freeText t := by
    rw [Memory.Entry.contains_freeText_keep, Bool.and_eq_true, Memory.Entry.contains_freeText]
  field _ _ t := by
    rw [Memory.Entry.contains_fields_keep, Bool.and_eq_true, Memory.Entry.contains_fields]

theorem hasTerms_build {d : PreparedDocument} (hd : d.Resolved schema) (hall : AllTerms analyze d)
    (n : Nat) : HasTerms schema analyze d (Memory.Entry.buildBy analyze n d) where
  freeText t := by
    rw [Memory.Entry.contains_freeText, iff_and_self, PreparedDocument.mem_freeTokensBy]
    rintro ⟨f, hf, hindexed, hkind, ht⟩
    exact hall f hf hindexed (.inl hkind) t ht
  field hschema htext t := by
    rw [Memory.Entry.contains_fields, iff_and_self, PreparedDocument.mem_tokensInBy]
    rintro ⟨f, hf, hindexed, hfname, ht⟩
    exact hall f hf hindexed (hd.config_eq hschema hf hfname ▸ htext) t ht

/-- A document with its record on disk and its entry in memory. -/
structure Filed (schema : Schema) (analyze : Analyzer) where
  id : String
  doc : PreparedDocument
  record : Record
  entry : Memory.Entry
  resolved : doc.Resolved schema
  isRecord : (FieldMap.build schema).record? analyze id doc = some record
  hasTerms : HasTerms schema analyze doc entry

section
variable (hu : (FieldMap.build schema).Unreserved)
include hu

theorem agree_freeText (terms : List String) :
    Query.Agree (fun i : Filed schema analyze => TermQuery.matchesRecord i.record)
      (fun i => i.entry.matchesQuery) ((translator (.build schema) analyze).freeText terms)
      ((translatorBy analyze schema).freeText terms) := by
  intro i
  dsimp only [translatorBy]
  rw [Bool.eq_iff_iff, matches_freeTextLeaf hu i.isRecord i.resolved,
    Memory.Entry.matches_freeText_iff]
  simp only [i.hasTerms.freeText]

theorem agree_field {name : String} (terms : List String)
    (htext : ∀ c, schema.get? name = some c → c.isSearchable = true →
      c.kind = .freeText ∨ c.kind = .exactMatch) :
    Query.Agree (fun i : Filed schema analyze => TermQuery.matchesRecord i.record)
      (fun i => i.entry.matchesQuery) ((translator (.build schema) analyze).field name terms)
      ((translatorBy analyze schema).field name terms) := by
  change Query.Agree _ _ (fieldLeaf _ analyze name terms)
    (Memory.fieldLeafBy analyze schema name terms)
  have hnumbered := FieldMap.isNumbered_build schema
  cases hschema : schema.get? name with
  | none =>
    rw [fieldLeaf_of_unknown hnumbered hschema, Memory.fieldLeafBy, hschema]
    rfl
  | some c =>
    by_cases hsearchable : c.isSearchable = true
    · obtain ⟨n, hname⟩ := FieldMap.complete_build schema name c hschema hsearchable
      have hkind := htext c hschema hsearchable
      obtain ⟨tokens, htokens, hvalues⟩ := exists_tokens analyze name hkind terms
      rw [fieldLeaf, hname, Memory.fieldLeafBy, hschema]
      dsimp only
      rw [if_pos (Bool.and_eq_true_iff.1 hsearchable).1, hvalues, htokens]
      intro i
      dsimp only
      rw [List.map_map, Bool.eq_iff_iff]
      refine (matches_fieldTerms hu i.isRecord i.resolved hname hkind tokens).trans ?_
      rw [Memory.Entry.matches_field_iff]
      simp only [i.hasTerms.field hschema hkind]
    · rw [fieldLeaf_of_not_isSearchable hnumbered hschema hsearchable,
        Memory.fieldLeafBy_of_not_isSearchable analyze hschema hsearchable]
      exact fun _ => rfl

theorem agreeAt {n : Query}
    (htext : ∀ name terms, n = .field name terms → ∀ c, schema.get? name = some c →
      c.isSearchable = true → c.kind = .freeText ∨ c.kind = .exactMatch) :
    Query.AgreeAt (translator (.build schema) analyze) (translatorBy analyze schema)
      (fun i : Filed schema analyze => TermQuery.matchesRecord i.record)
      (fun i => i.entry.matchesQuery) n := by
  cases n with
  | freeText terms => exact agree_freeText hu terms
  | field name terms => exact agree_field hu terms (htext name terms rfl)
  | weight q x =>
    intro t p htp i
    change TermQuery.matchesRecord i.record (.boost t x) = i.entry.matchesQuery (.weight p x)
    rw [TermQuery.matchesRecord_boost, Memory.Entry.matches_weight]
    exact htp i
  | all _ | any _ | odd _ | except _ _ => trivial

end

namespace Store

section
variable {docs : List (String × PreparedDocument)} {s : Store} (h : s.Displays schema docs)
include h

/-- A query whose leaves are on text fields fails alike, or finds the documents whose entries it
matches, when these have the tokens that are terms. -/
theorem Displays.finds_same {q : Query} (hq : q.Built) (htext : OnText schema q)
    (entry : PreparedDocument → Memory.Entry)
    (hentry : ∀ e ∈ docs, HasTerms schema s.analyze e.2 (entry e.2)) :
    match q.translate capabilities backendName (translator (.build schema) s.analyze),
      q.translate Memory.capabilities Memory.backendName (translatorBy s.analyze schema) with
    | .ok t, .ok p =>
      s.matched t = {id | ∃ d, (id, d) ∈ docs ∧ (entry d).matchesQuery p = true}
    | .error e, .error f => e = f
    | _, _ => False := by
  rw [Query.translate_of_supported (supported q),
    Query.translate_of_supported (Memory.supported q)]
  have hagree := Query.fold_agree_of_nodes ((translator_isAlgebra _ _).comap Filed.record)
    ((Memory.translatorBy_isAlgebra s.analyze schema).comap Filed.entry) hq.full fun n hn =>
      agreeAt h.unreserved fun name terms heq => htext name terms (heq ▸ hn)
  revert hagree
  cases Query.fold (translator (.build schema) s.analyze) q <;>
    cases Query.fold (translatorBy s.analyze schema) q
  · exact id
  · exact id
  · exact id
  rename_i t p
  intro htp
  ext id
  rw [h.mem_matched]
  refine exists_congr fun d => ?_
  constructor
  · rintro ⟨r, hd, hr, hmatch⟩
    exact ⟨hd, (htp ⟨id, d, r, entry d, h.resolved _ hd, hr, hentry _ hd⟩).symm.trans hmatch⟩
  · rintro ⟨hd, hmatch⟩
    obtain ⟨r, hr⟩ := h.exists_record hd
    exact ⟨r, hd, hr, (htp ⟨id, d, r, entry d, h.resolved _ hd, hr, hentry _ hd⟩).trans hmatch⟩

theorem Displays.finds_freeText {terms : List String} (hterms : terms ≠ []) :
    ∃ t, (Query.freeText terms).translate capabilities backendName
        (translator (.build schema) s.analyze) = .ok t ∧
      ∀ id, id ∈ s.matched t ↔ ∃ d, (id, d) ∈ docs ∧ terms.flatMap s.analyze ≠ [] ∧
        ∀ w ∈ terms.flatMap s.analyze, isTerm w = true ∧ w ∈ d.freeTokensBy s.analyze := by
  refine ⟨freeTextLeaf (.build schema) s.analyze terms, ?_, fun id =>
    h.mem_matched_iff fun hr hd => matches_freeTextLeaf h.unreserved hr hd⟩
  rw [Query.translate_freeText (supported _) hterms]
  rfl

theorem Displays.finds_field {name : String} {terms : List String} {c : FieldConfig}
    (hterms : terms ≠ []) (hschema : schema.get? name = some c) (hindexed : c.indexed = true)
    (htext : c.kind = .freeText ∨ c.kind = .exactMatch) :
    ∃ t tokens,
      (Query.field name terms).translate capabilities backendName
        (translator (.build schema) s.analyze) = .ok t ∧
      c.kind.queryTokensBy s.analyze name terms = .ok tokens ∧
      ∀ id, id ∈ s.matched t ↔ ∃ d, (id, d) ∈ docs ∧ tokens ≠ [] ∧
        ∀ w ∈ tokens, isTerm w = true ∧ w ∈ d.tokensInBy s.analyze name := by
  have hsearchable : c.isSearchable = true := by
    rcases htext with hkind | hkind <;> rw [FieldConfig.isSearchable, hindexed, hkind] <;> rfl
  obtain ⟨n, hname⟩ := FieldMap.complete_build schema name c hschema hsearchable
  obtain ⟨tokens, htokens, hvalues⟩ := exists_tokens s.analyze name htext terms
  refine ⟨_, tokens, ?_, htokens, fun id => h.mem_matched_iff fun hr hd =>
    matches_fieldTerms h.unreserved hr hd hname htext tokens⟩
  rw [Query.translate_field (supported _) hterms]
  change fieldLeaf _ _ name terms = _
  rw [fieldLeaf, hname]
  dsimp only
  rw [hvalues, Except.map, List.map_map]
  rfl

/-- The text that a token came from finds the token's document in memory. It does on disk if the
token is a term. -/
theorem Displays.isTerm_of_finds
    (halike : ∀ q : Query, q.Built → OnText schema q → ∀ t p,
      q.translate capabilities backendName (translator (.build schema) s.analyze) = .ok t →
      q.translate Memory.capabilities Memory.backendName (translatorBy s.analyze schema) = .ok p →
      s.matched t = Memory.found s.analyze docs p)
    {e : String × PreparedDocument} (he : e ∈ docs) : AllTerms s.analyze e.2 := by
  intro f hf hindexed htext w hw
  have hschema := (h.resolved e he).config f hf
  obtain ⟨x, hx, hwx⟩ := List.mem_flatMap.1 hw
  have htakes := (h.resolved e he).takes hschema hf rfl hx
  obtain ⟨u, rfl⟩ : ∃ u, x = .text u := by
    rcases htext with hkind | hkind <;> rw [hkind] at htakes <;> exact htakes
  obtain ⟨t, tokens, ht, htokens, hfinds⟩ := h.finds_field (List.cons_ne_nil u []) hschema hindexed
    htext
  -- The tokens of the value are the tokens of a query for it.
  obtain rfl : f.config.kind.valueTokensBy s.analyze (.text u) = tokens := by
    rcases htext with hkind | hkind <;> rw [hkind] at htokens ⊢ <;> cases htokens
    · simp [FieldKind.valueTokensBy]
    · rfl
  have hp : (Query.field f.name [u]).translate Memory.capabilities Memory.backendName
      (translatorBy s.analyze schema) = .ok (if
        (f.config.kind.valueTokensBy s.analyze (.text u)).isEmpty then .nothing
          else .field f.name (f.config.kind.valueTokensBy s.analyze (.text u))) := by
    rw [Query.translate_field (Memory.supported _) (List.cons_ne_nil u [])]
    change Memory.fieldLeafBy _ _ _ _ = _
    rw [Memory.fieldLeafBy, hschema]
    dsimp only
    rw [if_pos hindexed, htokens]
    rfl
  have hfound : e.1 ∈ s.matched t := by
    rw [halike (.field f.name [u]) (.field _ _) ?_ t _ ht hp]
    · refine ⟨e.2, he, Memory.Entry.matches_fieldBy.2 ⟨List.ne_nil_of_mem hwx, fun v hv => ?_⟩⟩
      exact PreparedDocument.mem_tokensInBy.2
        ⟨f, hf, hindexed, rfl, List.mem_flatMap.2 ⟨_, hx, hv⟩⟩
    · intro name terms hmem c hc _
      cases List.mem_singleton.1 hmem
      cases hschema.symm.trans hc
      exact htext
  obtain ⟨d, -, -, hall⟩ := (hfinds e.1).1 hfound
  exact (hall w hwx).1

end

/-- **Tokens find the same on disk as in memory, but for those that are too long.** Whatever a store
was given, a query whose leaves are on text fields or on fields that are not searched fails alike, or
finds the committed documents that it matches in memory when their long tokens are left out there. A
leaf on free text finds those that have each of its tokens in some free-text field, a leaf on a text
field those that have each of its tokens in the field; where there are none to ask for, or one that is
no term, nothing is found. All queries find the documents that the in-memory store finds exactly when
all tokens of the documents are terms. -/
theorem finds_alike_iff {committed upcoming : List (String × PreparedDocument)} {s : Store}
    {v : Volume} (h : Stocked committed upcoming (s, v)) :
    (∀ q : Query, q.Built → OnText s.fields.schema q →
      match q.translate capabilities backendName (translator s.fields s.analyze),
        q.translate Memory.capabilities Memory.backendName
          (translatorBy s.analyze s.fields.schema) with
      | .ok t, .ok p =>
        s.matched t = {id | ∃ d, (id, d) ∈ committed ∧
          ((Memory.Entry.buildBy s.analyze 0 d).keep isTerm).matchesQuery p = true}
      | .error e, .error f => e = f
      | _, _ => False) ∧
    ((∀ q : Query, q.Built → OnText s.fields.schema q → ∀ t p,
        q.translate capabilities backendName (translator s.fields s.analyze) = .ok t →
        q.translate Memory.capabilities Memory.backendName
          (translatorBy s.analyze s.fields.schema) = .ok p →
        s.matched t = Memory.found s.analyze committed p) ↔
      ∀ e ∈ committed, AllTerms s.analyze e.2) ∧
    -- With ids apart, this is what a store of the documents finds.
    ((committed.map (·.1)).Nodup → ∀ p, Memory.found s.analyze committed p =
      (Memory.Store.holdingBy s.analyze s.fields.schema committed).matched p) ∧
    (∀ terms, terms ≠ [] → ∃ t,
      (Query.freeText terms).translate capabilities backendName
          (translator s.fields s.analyze) = .ok t ∧
        ∀ id, id ∈ s.matched t ↔ ∃ d, (id, d) ∈ committed ∧ terms.flatMap s.analyze ≠ [] ∧
          ∀ w ∈ terms.flatMap s.analyze, isTerm w = true ∧ ∃ f ∈ d.fields,
            f.config.indexed = true ∧ f.config.kind = .freeText ∧
              w ∈ Memory.fieldTokensBy s.analyze f) ∧
    ∀ name terms c, terms ≠ [] → s.fields.schema.get? name = some c → c.indexed = true →
      c.kind = .freeText ∨ c.kind = .exactMatch → ∃ t tokens,
        (Query.field name terms).translate capabilities backendName
            (translator s.fields s.analyze) = .ok t ∧
          c.kind.queryTokensBy s.analyze name terms = .ok tokens ∧
          ∀ id, id ∈ s.matched t ↔ ∃ d, (id, d) ∈ committed ∧ tokens ≠ [] ∧
            ∀ w ∈ tokens, isTerm w = true ∧ ∃ f ∈ d.fields, f.config.indexed = true ∧
              f.name = name ∧ w ∈ Memory.fieldTokensBy s.analyze f := by
  have hdisplays := h.displays
  refine ⟨fun q hq htext => ?_, ⟨fun halike e he => ?_, fun hall q hq htext t p ht hp => ?_⟩,
    fun hnodup p => Memory.found_eq_matched s.analyze _ hnodup, fun terms hterms => ?_,
    fun name terms c hterms hc hindexed htext => ?_⟩
  · have hfinds := hdisplays.finds_same hq htext
      (fun d => (Memory.Entry.buildBy s.analyze 0 d).keep isTerm)
      fun e _ => hasTerms_keep s.fields.schema s.analyze 0 e.2
    rw [← hdisplays.fields] at hfinds
    exact hfinds
  · rw [hdisplays.fields] at halike
    exact hdisplays.isTerm_of_finds halike he
  · have hfinds := hdisplays.finds_same hq htext (Memory.Entry.buildBy s.analyze 0)
      fun e he => hasTerms_build (hdisplays.resolved e he) (hall e he) 0
    rw [← hdisplays.fields, ht, hp] at hfinds
    exact hfinds
  · have hfinds := hdisplays.finds_freeText hterms
    rw [← hdisplays.fields] at hfinds
    simpa only [PreparedDocument.mem_freeTokensBy] using hfinds
  · have hfinds := hdisplays.finds_field hterms hc hindexed htext
    rw [← hdisplays.fields] at hfinds
    simpa only [PreparedDocument.mem_tokensInBy] using hfinds

def boatFields : List (String × FieldConfig) :=
  [("body", .freeText), ("code", .exactMatch), ("notes", ⟨.freeText, false, true⟩),
    ("skipped", ⟨.ignored, true, false⟩), ("title", .freeText)]

def redBoat : PreparedDocument :=
  ⟨[⟨"title", .freeText, [.text "Red boats"], []⟩, ⟨"code", .exactMatch, [.text "A 7"], []⟩,
    ⟨"notes", ⟨.freeText, false, true⟩, [.text "running"], []⟩,
    ⟨"skipped", ⟨.ignored, true, false⟩, [], []⟩]⟩

def blueBoat : PreparedDocument :=
  ⟨[⟨"title", .freeText, [.text "Blue boat"], []⟩, ⟨"body", .freeText, [.text "runs aground"], []⟩]⟩

def boats : List (String × PreparedDocument) := [("blue", blueBoat), ("red", redBoat)]

def runningBoats : Query :=
  ((Query.freeText ["Running", "boats"]).or (.weight (.field "code" ["A", "7"]) (.ofNat 2))).not
    (.field "notes" ["running"])

theorem stocked_boats :
    ∃ s v, Stocked boats boats (s, v) ∧ s.fields.schema = .ofList boatFields ∧
      s.analyze = Text.stems := by
  have hred : redBoat.Resolved (.ofList boatFields) := .of_texts (by decide) (by decide)
  have hblue : blueBoat.Resolved (.ofList boatFields) := .of_texts (by decide) (by decide)
  have hboats : ∀ e ∈ boats, e.2.Resolved (.ofList boatFields) := by
    rw [boats, List.forall_mem_cons, List.forall_mem_singleton]
    exact ⟨hblue, hred⟩
  exact exists_stocked Text.stems (o := { BackendOptions.none with path := some "d" })
    (v := ⟨.ofDirectories ["d"], 0⟩) rfl hboats rfl (by decide +kernel)

/-- The boats are committed, and found alike: the red one by its code, the blue one by the tokens of
two of its fields. -/
theorem finds_alike_boats : ∃ s v t p running coded,
    Stocked boats boats (s, v) ∧
    runningBoats.translate capabilities backendName (translator s.fields s.analyze) = .ok t ∧
    runningBoats.translate Memory.capabilities Memory.backendName
      (translatorBy s.analyze s.fields.schema) = .ok p ∧
    s.matched t = (Memory.Store.holdingBy s.analyze s.fields.schema boats).matched p ∧
    (Query.freeText ["Running", "boats"]).translate capabilities backendName
      (translator s.fields s.analyze) = .ok running ∧
    "blue" ∈ s.matched running ∧ "red" ∉ s.matched running ∧
    (Query.field "code" ["A", "7"]).translate capabilities backendName
      (translator s.fields s.analyze) = .ok coded ∧
    "red" ∈ s.matched coded := by
  obtain ⟨s, v, hstocked, hschema, hanalyze⟩ := stocked_boats
  obtain ⟨hsame, halike, hstore, hfree, hfield⟩ := finds_alike_iff hstocked
  rw [hanalyze] at hsame halike hstore hfree hfield
  have hterms : ∀ e ∈ boats, AllTerms Text.stems e.2 := by
    unfold AllTerms
    decide +kernel
  obtain ⟨running, hrunning, hfinds⟩ := hfree ["Running", "boats"] (by decide)
  obtain ⟨coded, tokens, hcoded, htokens, hfindsCode⟩ := hfield "code" ["A", "7"] .exactMatch
    (by decide) (by rw [hschema]; rfl) rfl (.inr rfl)
  cases htokens
  have hbuilt : runningBoats.Built :=
    .not (.or (.freeText _) (.weight (.field _ _) _)) (.field _ _)
  have htext : OnText s.fields.schema runningBoats := by
    intro name terms hmem c hc _
    have hleaf : name = "code" ∧ terms = ["A", "7"] ∨ name = "notes" ∧ terms = ["running"] := by
      simpa [runningBoats, Query.or, Query.not, Query.disjuncts, Query.nodes, Query.nodesAll]
        using hmem
    rw [hschema] at hc
    rcases hleaf with ⟨rfl, -⟩ | ⟨rfl, -⟩ <;> cases hc
    · exact .inr rfl
    · exact .inl rfl
  obtain ⟨p, hp⟩ : ∃ p, runningBoats.translate Memory.capabilities Memory.backendName
      (translatorBy Text.stems s.fields.schema) = .ok p := by
    rw [hschema]
    exact ⟨_, rfl⟩
  specialize hsame runningBoats hbuilt htext
  rw [hp] at hsame
  cases ht : runningBoats.translate capabilities backendName (translator s.fields Text.stems) with
  | error e =>
    rw [ht] at hsame
    exact hsame.elim
  | ok t =>
    have hfound := halike.2 hterms runningBoats hbuilt htext t p ht hp
    rw [hstore (by decide) p] at hfound
    refine ⟨s, v, t, p, running, coded, hstocked, ?_⟩
    rw [hanalyze]
    refine ⟨ht, hp, hfound, hrunning, ?_, ?_, hcoded, ?_⟩
    · exact (hfinds "blue").2 ⟨blueBoat, List.mem_cons_self, by decide +kernel, by decide +kernel⟩
    · rintro hred
      obtain ⟨d, hd, -, hall⟩ := (hfinds "red").1 hred
      obtain rfl : d = redBoat := by simpa [boats] using hd
      revert hall
      decide +kernel
    · exact (hfindsCode "red").2
        ⟨redBoat, .tail _ List.mem_cons_self, by decide +kernel, by decide +kernel⟩

end Store

end Searchlight.Disk
