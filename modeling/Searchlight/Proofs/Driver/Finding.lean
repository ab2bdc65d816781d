import Searchlight.Proofs.Document.Preparing
import Searchlight.Proofs.Driver.Algebra
import Searchlight.Proofs.Driver.Registering
import Searchlight.Proofs.SetStore.Exact
import Searchlight.Text.Stem

/-!
# What a driver finds a document by

A document that is in a store in memory or on a key server, whatever was indexed or deleted before
and beside it, is found by the tokens of its own fields (`Driver.Stocks.findsIff_freeText`,
`findsIff_field`). With the document as it was given, a query for terms in an indexed field asks for
what the values of that field come to (`Driver.Indexes.findsIff_field`).
-/

namespace Searchlight

/-! ## Documents in memory -/

namespace Memory.Store

/-- The store came to hold these documents. -/
inductive Stocked : KeyMap PreparedDocument → Store → Prop where
  | empty : Stocked ∅ empty
  | registerField {docs : KeyMap PreparedDocument} {s : Store} (h : Stocked docs s) (name : String)
      (config : FieldConfig) : Stocked docs (s.registerField name config)
  | index {docs : KeyMap PreparedDocument} {s : Store} (h : Stocked docs s) (id : String)
      (d : PreparedDocument) : Stocked (docs.insert id d) (s.index id d)
  | delete {docs : KeyMap PreparedDocument} {s t : Store} (h : Stocked docs s) {id : String}
      (ht : s.delete id = .ok t) : Stocked (docs.erase id) t

theorem Stocked.get?_docs {docs : KeyMap PreparedDocument} {s : Store} (h : Stocked docs s)
    {id : String} {d : PreparedDocument} (hd : docs.get? id = some d) :
    ∃ n, s.docs.get? id = some (Entry.build n d) := by
  induction h with
  | empty => cases hd
  | registerField _ name config ih => exact ih hd
  | @index _ s _ id' d' ih =>
    rw [KeyMap.get?_insert] at hd
    rw [Store.index, KeyMap.get?_insert]
    split at hd
    · rename_i hid
      cases hd
      exact ⟨s.nextSeq, if_pos hid⟩
    · rename_i hid
      rw [if_neg hid]
      exact ih hd
  | delete _ ht ih =>
    rw [Store.delete] at ht
    split at ht <;> cases ht
    rw [KeyMap.get?_erase] at hd ⊢
    split at hd
    · cases hd
    · rename_i hid
      rw [if_neg hid]
      exact ih hd

end Memory.Store

namespace Driver

variable {dr : Driver} {h : Host} {id name : String} {d : PreparedDocument} {c : FieldConfig}
  {terms tokens : List String} {q : Query} {p p' : Prop}

/-- The driver takes the query, which finds the id just when `p`. -/
def FindsIff (dr : Driver) (h : Host) (q : Query) (id : String) (p : Prop) : Prop :=
  ∃ n, dr.translate q = .ok n ∧ (id ∈ dr.matched h n ↔ p)

theorem FindsIff.congr (hfinds : dr.FindsIff h q id p) (hp : p ↔ p') : dr.FindsIff h q id p' := by
  obtain ⟨n, hn, hiff⟩ := hfinds
  exact ⟨n, hn, hiff.trans hp⟩

/-- A query finds a document just when one thing is so. -/
theorem FindsIff.unique (hfinds : dr.FindsIff h q id p) (hfinds' : dr.FindsIff h q id p') :
    p ↔ p' := by
  obtain ⟨n, hn, hiff⟩ := hfinds
  obtain ⟨n', hn', hiff'⟩ := hfinds'
  obtain rfl : n = n' := Except.ok.inj (hn.symm.trans hn')
  exact hiff.symm.trans hiff'

/-- The document is in a store in memory or on a key server. -/
inductive Stocks (h : Host) (id : String) (d : PreparedDocument) : Driver → Prop where
  | memory {docs : KeyMap PreparedDocument} {s : Memory.Store} (hs : s.Stocked docs)
      (hd : docs.get? id = some d) : Stocks h id d (.memory s)
  | sets {docs : KeyMap PreparedDocument} {s : SetStore.Store}
      (hk : SetStore.KeySpace.IsValidStem s.keys.stem) (hs : SetStore.Reached s.keys docs h.server)
      (hd : docs.get? id = some d) : Stocks h id d (.sets s)

/-! ## Tokens -/

theorem matched_memory {docs : KeyMap PreparedDocument} {s : Memory.Store} (hs : s.Stocked docs)
    (hd : docs.get? id = some d) {t : Memory.TokenQuery} :
    ∃ n, id ∈ s.matched t ↔ (Memory.Entry.build n d).matchesQuery t = true := by
  obtain ⟨n, hn⟩ := hs.get?_docs hd
  refine ⟨n, Memory.Store.mem_matched.trans ?_⟩
  simp [hn]

theorem matched_sets {docs : KeyMap PreparedDocument} {k : SetStore.KeySpace}
    {v : SetStore.Server} (hv : SetStore.Exact k docs v) (hd : docs.get? id = some d)
    {key : String → String} {has : String → Prop}
    (hkey : ∀ t, (∃ f u, key t = k.posting f u) ∨ ∃ u, key t = k.anyField u)
    (hhas : ∀ t, key t ∈ k.postings d ↔ has t) :
    id ∈ v.matched (SetStore.Plan.interOf (tokens.map key)) ↔
      tokens ≠ [] ∧ ∀ t ∈ tokens, has t := by
  rw [SetStore.Server.matched, Set.mem_ofPred_eq, SetStore.Plan.holds_interOf]
  simp [hv.contains_posting (hkey _), hd, hhas]

namespace Stocks

variable (hs : Stocks h id d dr)
include hs

/-- **A document is found by its free text.** -/
theorem findsIff_freeText (hterms : terms ≠ []) :
    dr.FindsIff h (.freeText terms) id
      (tokenizeTerms terms ≠ [] ∧ ∀ t ∈ tokenizeTerms terms, t ∈ d.freeTokens) := by
  cases hs with
  | memory hs hd =>
    obtain ⟨n, hn⟩ := matched_memory hs hd
    refine ⟨_, Except.map_eq_ok.2 ⟨_, Query.translate_freeText (Memory.supported _) hterms, rfl⟩,
      hn.trans Memory.Entry.matches_freeText⟩
  | @sets _ s hk hs hd =>
    have hsupported : (Query.freeText terms).Supported SetStore.capabilities := by
      simp [Query.Supported, Query.nodes]
      rfl
    refine ⟨_, Except.map_eq_ok.2 ⟨_, Query.translate_freeText hsupported hterms, rfl⟩,
      matched_sets (hs.exact hk) hd (fun t => .inr ⟨t, rfl⟩) fun t =>
        SetStore.anyField_mem_postings⟩

/-- **A document is found by the tokens of a field.** -/
theorem findsIff_field (hschema : dr.schema.get? name = some c) (hindexed : c.indexed = true)
    (hterms : terms ≠ []) (htokens : c.kind.queryTokens name terms = .ok tokens) :
    dr.FindsIff h (.field name terms) id (tokens ≠ [] ∧ ∀ t ∈ tokens, t ∈ d.tokensIn name) := by
  cases hs with
  | @memory _ s hs hd =>
    obtain ⟨n, hn⟩ := matched_memory hs hd
    have hleaf : Memory.fieldLeaf s.schema name terms =
        .ok (if tokens.isEmpty then .nothing else .field name tokens) := by
      rw [schema] at hschema
      rw [Memory.fieldLeaf, hschema]
      dsimp only
      rw [if_pos hindexed, htokens]
      rfl
    refine ⟨_, Except.map_eq_ok.2
      ⟨_, (Query.translate_field (Memory.supported _) hterms).trans hleaf, rfl⟩,
      hn.trans Memory.Entry.matches_field⟩
  | @sets _ s hk hs hd =>
    have hsupported : (Query.field name terms).Supported SetStore.capabilities := by
      simp [Query.Supported, Query.nodes]
      rfl
    have hleaf : SetStore.fieldLeaf s.keys s.schema name terms =
        .ok (SetStore.Plan.interOf (tokens.map (s.keys.posting name))) := by
      rw [schema] at hschema
      rw [SetStore.fieldLeaf, hschema]
      dsimp only
      rw [if_pos hindexed, htokens]
      rfl
    refine ⟨_, Except.map_eq_ok.2
      ⟨_, (Query.translate_field hsupported hterms).trans hleaf, rfl⟩,
      matched_sets (hs.exact hk) hd (fun t => .inl ⟨name, t, rfl⟩) fun t =>
        SetStore.posting_mem_postings⟩

end Stocks

/-! ## Values -/

/-- The document is in the store, settled by a plan that has a field as the driver has it, and the
field is indexed. -/
structure Indexes (dr : Driver) (h : Host) (id : String) (doc : Document) (name : String)
    (c : FieldConfig) : Prop where
  exists_prepared : ∃ (plan : DocumentPlan) (kinds : List ValueKind) (backend : String)
    (d : PreparedDocument), plan.fields.get? name = some (.field c) ∧
      doc.prepare plan kinds backend = .ok d ∧ dr.Stocks h id d
  schema : dr.schema.get? name = some c
  indexed : c.indexed = true

namespace Indexes

variable {doc : Document} (hdoc : dr.Indexes h id doc name c)
include hdoc

/-- **What a field is asked for** are the tokens of what its values come to. -/
theorem findsIff_field (hkind : c.kind ≠ .ignored) (hterms : terms ≠ [])
    (htokens : c.kind.queryTokens name terms = .ok tokens) :
    dr.FindsIff h (.field name terms) id
      (tokens ≠ [] ∧ ∀ t ∈ tokens, ∃ x, doc.Gives name c x ∧ t ∈ c.kind.valueTokens x) := by
  obtain ⟨plan, kinds, backend, d, hplan, hd, hstocks⟩ := hdoc.exists_prepared
  have hkept := Document.keptConfig_of_indexed hplan hkind hdoc.indexed
  refine (hstocks.findsIff_field hdoc.schema hdoc.indexed hterms htokens).congr ?_
  simp only [Document.mem_tokensIn_of_prepare hd hkept hdoc.indexed]

/-- The tokens of free text are among those that the document is found by in any field. -/
theorem exists_freeTokens (hkind : c.kind = .freeText) :
    ∃ ts : List String, (∀ s, doc.Gives name c (.text s) → ∀ t ∈ Text.tokenize s, t ∈ ts) ∧
      ∀ terms ≠ [], dr.FindsIff h (.freeText terms) id
        (tokenizeTerms terms ≠ [] ∧ ∀ t ∈ tokenizeTerms terms, t ∈ ts) := by
  obtain ⟨plan, kinds, backend, d, hplan, hd, hstocks⟩ := hdoc.exists_prepared
  have hkept := Document.keptConfig_of_indexed hplan (hkind ▸ nofun) hdoc.indexed
  refine ⟨d.freeTokens, fun s hs t ht => ?_, fun terms hterms => hstocks.findsIff_freeText hterms⟩
  refine Document.mem_freeTokens_of_prepare hd hkept hdoc.indexed hkind hs ?_
  rw [hkind]
  exact ht

end Indexes

/-! ## One document on its own -/

def memoryOf (name : String) (c : FieldConfig) (d : PreparedDocument) : Driver :=
  .memory ((Memory.Store.empty.registerField name c).index "1" d)

def setsOf (name : String) (c : FieldConfig) : SetStore.Store :=
  { SetStore.boatStore with schema := Schema.empty.insert name c }

def serverOf (name : String) (c : FieldConfig) (d : PreparedDocument) : Host :=
  .initial Text.stems [] ((SetStore.Store.index d (some "1")).after (setsOf name c, .fresh true)).2 ""

section
variable {doc : Document} {kinds : List ValueKind} {backend : String}
  (hd : doc.prepare ⟨KeyMap.empty.insert name (.field c), [], []⟩ kinds backend = .ok d)
  (hindexed : c.indexed = true)
include hd hindexed

theorem indexes_memoryOf (h : Host) : Indexes (memoryOf name c d) h "1" doc name c where
  exists_prepared := by
    have hs := (Memory.Store.Stocked.empty.registerField name c).index "1" d
    exact ⟨_, kinds, backend, d, by simp, hd, .memory hs (by simp)⟩
  schema := by simp [memoryOf, schema, Memory.Store.index, Memory.Store.registerField]
  indexed := hindexed

theorem indexes_setsOf
    (hok : (SetStore.Store.index d (some "1")).outcome (setsOf name c, .fresh true) = .ok "1") :
    Indexes (.sets (setsOf name c)) (serverOf name c d) "1" doc name c where
  exists_prepared := by
    have hvalid : SetStore.KeySpace.IsValidStem (setsOf name c).keys.stem := by
      change SetStore.KeySpace.IsValidStem "s"
      decide
    have hs : SetStore.Reached (setsOf name c).keys ∅ (.fresh true) := .empty fun _ => rfl
    exact ⟨_, kinds, backend, d, by simp, hd,
      .sets hvalid (hs.index rfl d (some "1") hok nofun) (by simp)⟩
  schema := by simp [schema, setsOf]
  indexed := hindexed

end

end Driver

end Searchlight
