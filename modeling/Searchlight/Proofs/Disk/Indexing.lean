import Searchlight.Proofs.Disk.Listing
import Searchlight.Proofs.Document.Grouping
import Searchlight.Proofs.Memory.Analyzing

/-!
# What a document is found by on disk

A document whose values were coerced as a schema says (`PreparedDocument.Resolved`) has, in an index
that was made for the schema, the terms of its own values under the numbers of their fields
(`mem_terms_iff`). Under a text field these are the tokens that an in-memory store of the same
analyzer would file, less those that are no terms (`text_mem_terms_iff`), under a field of dates the
seconds that its instants are indexed by (`date_mem_terms_iff`).
-/

namespace Searchlight

/-- The fields of the document are fields of the schema, and its values were coerced for them. -/
structure PreparedDocument.Resolved (schema : Schema) (d : PreparedDocument) : Prop where
  config : ∀ f ∈ d.fields, schema.get? f.name = some f.config
  values : ∀ f ∈ d.fields, ∀ x ∈ f.values, ∃ v, f.config.coerce f.name v = .ok (some x)

namespace PreparedDocument.Resolved

variable {schema : Schema} {d : PreparedDocument} {name : String} {c : FieldConfig}
  {f : PreparedField}

theorem config_eq (hd : d.Resolved schema) (hschema : schema.get? name = some c)
    (hf : f ∈ d.fields) (hname : f.name = name) : f.config = c := by
  have hconfig := hd.config f hf
  rw [hname] at hconfig
  exact Option.some.inj (hconfig.symm.trans hschema)

theorem takes (hd : d.Resolved schema) (hschema : schema.get? name = some c) (hf : f ∈ d.fields)
    (hname : f.name = name) {x : IndexValue} (hx : x ∈ f.values) : c.kind.Takes x := by
  obtain ⟨v, hv⟩ := hd.values f hf x hx
  exact hd.config_eq hschema hf hname ▸ FieldConfig.takes_of_coerce hv

/-- Values that are texts were coerced for fields of text. -/
theorem of_texts (hconfig : ∀ f ∈ d.fields, schema.get? f.name = some f.config)
    (htext : ∀ f ∈ d.fields, f.values = [] ∨
      (f.config.kind = .freeText ∨ f.config.kind = .exactMatch) ∧ f.values = f.texts.map .text) :
    d.Resolved schema := by
  refine ⟨hconfig, fun f hf x hx => ?_⟩
  rcases htext f hf with hnil | ⟨hkind, hvalues⟩
  · rw [hnil] at hx
    cases hx
  · rw [hvalues] at hx
    obtain ⟨t, -, rfl⟩ := List.mem_map.1 hx
    refine ⟨.text t, ?_⟩
    rw [FieldConfig.coerce]
    rcases hkind with hkind | hkind <;> rw [hkind] <;> rfl

end PreparedDocument.Resolved

namespace Disk

/-! ## Terms of values -/

namespace FieldType

variable {kind : FieldKind} {type : FieldType} {number : Nat} {x : IndexValue}

theorem terms?_text (htype : ofKind? kind = some type)
    (htext : kind = .freeText ∨ kind = .exactMatch) (hx : kind.Takes x) (analyze : Analyzer) :
    type.terms? analyze number x = some (textTerms number (kind.valueTokensBy analyze x)) := by
  rcases htext with rfl | rfl
  · obtain ⟨s, rfl⟩ := hx
    cases htype
    rfl
  · obtain ⟨s, rfl⟩ := hx
    cases htype
    rfl

end FieldType

/-! ## Terms of documents -/

namespace FieldMap

variable {s : Schema} {analyze : Analyzer} (hu : (build s).Unreserved)

section
include hu

/-- **A document that is resolved has a record.** -/
theorem exists_record_of_resolved {d : PreparedDocument} (hd : d.Resolved s) (id : String) :
    ∃ r, (build s).record? analyze id d = some r :=
  exists_record? hu id fun f hf c hc x hx => by
    cases (hd.config f hf).symm.trans hc
    exact hd.values f hf x hx

theorem mem_fieldTerms? {f : PreparedField} {ts : List Term}
    (h : (build s).fieldTerms? analyze f = some ts) {t : Term} :
    t ∈ ts ↔ ∃ n c type, (build s).numbered.get? f.name = some (n, c) ∧
      FieldType.ofKind? c.kind = some type ∧ ∃ x ∈ f.values, ∃ us,
        type.terms? analyze n x = some us ∧ t ∈ us := by
  rw [fieldTerms?] at h
  cases hname : (build s).numbered.get? f.name with
  | none =>
    rw [hname] at h
    cases h
    simp
  | some e =>
    obtain ⟨n, c⟩ := e
    have htype := (type?_build hu hname).2
    rw [hname, Option.bind_some, htype] at h
    cases hkind : FieldType.ofKind? c.kind with
    | none =>
      rw [hkind] at h
      cases h
      simp [hkind]
    | some type =>
      rw [hkind] at h
      obtain ⟨uss, huss, rfl⟩ := Option.map_eq_some_iff.1 h
      simp only [List.mem_flatten, Option.mem_mapM_iff huss, Option.some.injEq, Prod.mk.injEq]
      constructor
      · rintro ⟨us, ⟨x, hx, hus⟩, ht⟩
        exact ⟨n, c, type, ⟨rfl, rfl⟩, hkind, x, hx, us, hus, ht⟩
      · rintro ⟨_, _, type', ⟨rfl, rfl⟩, htype', x, hx, us, hus, ht⟩
        cases hkind.symm.trans htype'
        exact ⟨us, ⟨x, hx, hus⟩, ht⟩

end

section
variable {name : String} {n : Nat} {c : FieldConfig}
  (hname : (build s).numbered.get? name = some (n, c))
include hname

theorem indexed_of_number : c.indexed = true :=
  (Bool.and_eq_true_iff.1 (isSearchable_of_get?_numbered (isNumbered_build s) hname)).1

theorem name_of_number {name' : String} {c' : FieldConfig}
    (hname' : (build s).numbered.get? name' = some (n, c')) : name' = name := by
  have h := getElem?_of_number? (of_get?_numbered rfl hname).2
  have h' := getElem?_of_number? (of_get?_numbered rfl hname').2
  exact Option.some.inj (h'.symm.trans h)

variable {id : String} {d : PreparedDocument} {r : Record}
  (hr : (build s).record? analyze id d = some r)
include hu hr

/-- **The terms under the number of a field** are those of the values in the fields of its name. -/
theorem mem_terms_iff {type : FieldType} (htype : FieldType.ofKind? c.kind = some type)
    {v : TermValue} :
    ⟨n, v⟩ ∈ r.terms ↔
      ∃ f ∈ d.fields, f.name = name ∧ ∃ x ∈ f.values, ∃ us,
        type.terms? analyze n x = some us ∧ ⟨n, v⟩ ∈ us := by
  obtain ⟨terms, hterms, rfl⟩ := Option.map_eq_some_iff.1 hr
  -- The term of the id is under a number that is no field's.
  have hid : (⟨n, v⟩ : Term) ∉ textTerms idField [id] := fun hmem => by
    obtain ⟨_, -, -, heq⟩ := mem_textTerms.1 hmem
    have htwo := two_le_number (isNumbered_build s) hu hname
    rw [show n = idField from congrArg Term.field heq, idField] at htwo
    omega
  rw [List.mem_append, or_iff_right hid, List.mem_flatten]
  constructor
  · rintro ⟨ts, hts, ht⟩
    obtain ⟨f, hf, hfield⟩ := (Option.mem_mapM_iff hterms).1 hts
    obtain ⟨n', c', type', hname', htype', x, hx, us, hus, ht⟩ := (mem_fieldTerms? hu hfield).1 ht
    -- The number that the term has is that of the field that it came from.
    obtain rfl : n = n' := FieldType.field_of_terms? hus ht
    have hf' := name_of_number hname hname'
    rw [hf'] at hname'
    cases hname.symm.trans hname'
    cases htype.symm.trans htype'
    exact ⟨f, hf, hf', x, hx, us, hus, ht⟩
  · rintro ⟨f, hf, rfl, x, hx, us, hus, ht⟩
    have hall : (d.fields.mapM ((build s).fieldTerms? analyze)).isSome = true := by rw [hterms]; rfl
    rw [Option.isSome_mapM, List.all_eq_true] at hall
    obtain ⟨ts, hfield⟩ := Option.isSome_iff_exists.1 (hall f hf)
    exact ⟨ts, (Option.mem_mapM_iff hterms).2 ⟨f, hf, hfield⟩,
      (mem_fieldTerms? hu hfield).2 ⟨n, c, type, hname, htype, x, hx, us, hus, ht⟩⟩

variable (hd : d.Resolved s)
include hd

/-- **A text field** has the tokens that the in-memory store would file, where they are terms. -/
theorem text_mem_terms_iff (htext : c.kind = .freeText ∨ c.kind = .exactMatch) {t : String} :
    ⟨n, .text t⟩ ∈ r.terms ↔ isTerm t = true ∧ t ∈ d.tokensInBy analyze name := by
  have hschema := (of_get?_numbered rfl hname).1
  have hindexed := indexed_of_number hname
  obtain ⟨type, htype⟩ : ∃ type, FieldType.ofKind? c.kind = some type := by
    rcases htext with htext | htext <;> rw [htext] <;> exact ⟨_, rfl⟩
  rw [mem_terms_iff hu hname hr htype, PreparedDocument.mem_tokensInBy]
  constructor
  · rintro ⟨f, hf, hfname, x, hx, us, hus, ht⟩
    have hconfig := hd.config_eq hschema hf hfname
    rw [FieldType.terms?_text htype htext (hd.takes hschema hf hfname hx)] at hus
    cases hus
    obtain ⟨u, hmem, hterm, heq⟩ := mem_textTerms.1 ht
    cases heq
    exact ⟨hterm, f, hf, hconfig ▸ hindexed, hfname, List.mem_flatMap.2 ⟨x, hx, hconfig ▸ hmem⟩⟩
  · rintro ⟨hterm, f, hf, -, hfname, ht⟩
    have hconfig := hd.config_eq hschema hf hfname
    obtain ⟨x, hx, ht⟩ := List.mem_flatMap.1 ht
    exact ⟨f, hf, hfname, x, hx, _,
      FieldType.terms?_text htype htext (hd.takes hschema hf hfname hx) analyze,
      mem_textTerms.2 ⟨t, hconfig ▸ ht, hterm, rfl⟩⟩

/-- **A field of dates** has the seconds that its instants are indexed by. -/
theorem date_mem_terms_iff (hdate : c.kind = .date) {k : Int} :
    ⟨n, .date k⟩ ∈ r.terms ↔
      ∃ f ∈ d.fields, f.name = name ∧ ∃ t, .date t ∈ f.values ∧ indexedSeconds t = k := by
  have htype : FieldType.ofKind? c.kind = some .date := by rw [hdate]; rfl
  rw [mem_terms_iff hu hname hr htype]
  refine exists_congr fun f => and_congr_right fun hf => and_congr_right fun hfname => ?_
  constructor
  · rintro ⟨x, hx, us, hus, hk⟩
    have htakes := hd.takes (of_get?_numbered rfl hname).1 hf hfname hx
    rw [hdate] at htakes
    obtain ⟨t, rfl⟩ := htakes
    cases hus
    cases List.mem_singleton.1 hk
    exact ⟨t, hx, rfl⟩
  · rintro ⟨t, ht, rfl⟩
    exact ⟨_, ht, _, rfl, List.mem_singleton_self _⟩

end

end FieldMap

end Disk

end Searchlight
