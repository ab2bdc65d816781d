import Searchlight.Proofs.Memory.Analyzing
import Searchlight.Proofs.SetStore.Keys
import Searchlight.Proofs.SetStore.Matching
import Searchlight.SetStore.Store

/-!
# Token counts and posting sets

The in-memory store counts the tokens of each document, a store on a key server puts the document
into a set per token. Both ask the same of a document in the end: whether a token is among the
tokens of a field, or among those of its free text (`PreparedDocument.tokensIn`, `freeTokens`).
So the leaves of a query mean the same to both, and with them all queries without weights do
(`finds_alike`).
-/

namespace Searchlight

namespace PreparedDocument

def freeTokens (d : PreparedDocument) : List String := d.freeTokensBy Text.tokenize

def tokensIn (d : PreparedDocument) (name : String) : List String := d.tokensInBy Text.tokenize name

variable {d : PreparedDocument} {name t : String}

theorem mem_freeTokens :
    t ∈ d.freeTokens ↔
      ∃ f ∈ d.fields, f.config.indexed = true ∧ f.config.kind = .freeText ∧
        t ∈ Memory.fieldTokens f := by
  rw [freeTokens, mem_freeTokensBy, Memory.fieldTokensBy_tokenize]

theorem mem_tokensIn :
    t ∈ d.tokensIn name ↔
      ∃ f ∈ d.fields, f.config.indexed = true ∧ f.name = name ∧ t ∈ Memory.fieldTokens f := by
  rw [tokensIn, mem_tokensInBy, Memory.fieldTokensBy_tokenize]

end PreparedDocument

/-! ## Counts -/

namespace Memory

namespace Entry

variable {n : Nat} {d : PreparedDocument} {name : String} {ts : List String}

theorem matches_freeText :
    (build n d).matchesQuery (if ts.isEmpty then .nothing else .freeText ts) = true ↔
      ts ≠ [] ∧ ∀ t ∈ ts, t ∈ d.freeTokens := by
  rw [← buildBy_tokenize]
  exact matches_freeTextBy

theorem matches_field :
    (build n d).matchesQuery (if ts.isEmpty then .nothing else .field name ts) = true ↔
      ts ≠ [] ∧ ∀ t ∈ ts, t ∈ d.tokensIn name := by
  rw [← buildBy_tokenize]
  exact matches_fieldBy

end Entry

/-! ## Stores -/

namespace Store

/-- A store with documents that were indexed one after the other. -/
def holding (schema : Schema) (docs : List (String × PreparedDocument)) : Store :=
  docs.foldl (fun s e => s.index e.1 e.2) ⟨schema, ∅, 0⟩

theorem holdingBy_tokenize : holdingBy Text.tokenize = holding := by
  funext schema docs
  rw [holdingBy, indexBy_tokenize, holding]

theorem get?_holding (schema : Schema) {docs : List (String × PreparedDocument)}
    (hdocs : (docs.map (·.1)).Nodup) {id : String} {d : PreparedDocument} (h : (id, d) ∈ docs) :
    ∃ n, (holding schema docs).docs.get? id = some (Entry.build n d) := by
  rw [← holdingBy_tokenize, ← Entry.buildBy_tokenize]
  exact get?_holdingBy schema hdocs h

theorem mem_of_get?_holding {schema : Schema} {docs : List (String × PreparedDocument)}
    {id : String} {e : Entry} (h : (holding schema docs).docs.get? id = some e) :
    id ∈ docs.map (·.1) := by
  rw [← holdingBy_tokenize] at h
  exact mem_of_get?_holdingBy h

end Store

end Memory

/-! ## Posting sets -/

namespace SetStore

variable {k : KeySpace} {d : PreparedDocument} {name t : String}

theorem anyField_mem_postings : k.anyField t ∈ k.postings d ↔ t ∈ d.freeTokens := by
  rw [KeySpace.mem_postings, PreparedDocument.mem_freeTokens]
  refine exists_congr fun f => and_congr_right fun _ => and_congr_right fun _ => ?_
  constructor
  · rintro ⟨u, hu, hk⟩
    rw [KeySpace.tokenKeys] at hk
    split at hk
    · rename_i hkind
      rcases List.mem_cons.1 hk with hk | hk
      · rw [KeySpace.anyField_inj] at hk
        exact ⟨hkind, hk ▸ hu⟩
      · exact absurd (List.mem_singleton.1 hk).symm (KeySpace.posting_ne_anyField _ _ _)
    · exact absurd (List.mem_singleton.1 hk).symm (KeySpace.posting_ne_anyField _ _ _)
  · rintro ⟨hkind, ht⟩
    exact ⟨t, ht, by rw [KeySpace.tokenKeys, if_pos hkind]; exact List.mem_cons_self⟩

theorem posting_mem_postings : k.posting name t ∈ k.postings d ↔ t ∈ d.tokensIn name := by
  have mem_tokenKeys (f : PreparedField) (u : String) :
      k.posting name t ∈ k.tokenKeys f u ↔ f.name = name ∧ u = t := by
    rw [KeySpace.tokenKeys, eq_comm (a := f.name), eq_comm (a := u)]
    split <;> simp [KeySpace.posting_inj, KeySpace.posting_ne_anyField]
  simp only [KeySpace.mem_postings, PreparedDocument.mem_tokensIn, mem_tokenKeys]
  refine exists_congr fun f => and_congr_right fun _ => and_congr_right fun _ => ?_
  constructor
  · rintro ⟨_, ht, hname, rfl⟩
    exact ⟨hname, ht⟩
  · rintro ⟨hname, ht⟩
    exact ⟨t, ht, hname, rfl⟩

/-- The set under a key: the ids of the documents that have the key among their posting keys. -/
def postingSets (k : KeySpace) (docs : List (String × PreparedDocument)) (key : String) :
    TextSet :=
  .ofList ((docs.filter fun e => (k.postings e.2).contains key).map (·.1))

theorem contains_postingSets {docs : List (String × PreparedDocument)}
    (hdocs : (docs.map (·.1)).Nodup) {id key : String} (h : (id, d) ∈ docs) :
    (postingSets k docs key).contains id = true ↔ key ∈ k.postings d := by
  rw [postingSets, TextSet.contains_ofList, decide_eq_true_iff, List.mem_map]
  constructor
  · rintro ⟨e, he, hid⟩
    obtain ⟨he, hk⟩ := List.mem_filter.1 he
    have : e = (id, d) := List.inj_on_of_nodup_map hdocs he h hid
    rw [this] at hk
    simpa using hk
  · intro hk
    exact ⟨(id, d), List.mem_filter.2 ⟨h, by simpa using hk⟩, rfl⟩

/-- No set has an id that no document has. -/
theorem contains_postingSets_eq_false {docs : List (String × PreparedDocument)} {id key : String}
    (h : id ∉ docs.map (·.1)) : (postingSets k docs key).contains id = false := by
  rw [postingSets, TextSet.contains_ofList, decide_eq_false_iff_not]
  exact fun hid => h (List.map_subset _ (List.filter_subset_self _) hid)

end SetStore

/-! ## The two backends -/

structure Indexed (docs : List (String × PreparedDocument)) where
  id : String
  doc : PreparedDocument
  seq : Nat
  mem : (id, doc) ∈ docs

def Indexed.entry {docs : List (String × PreparedDocument)} (i : Indexed docs) : Memory.Entry :=
  .build i.seq i.doc

section
variable (schema : Schema) (keys : SetStore.KeySpace) {docs : List (String × PreparedDocument)}

theorem agreeOnLeaves (hdocs : (docs.map (·.1)).Nodup) :
    Query.AgreeOnLeaves (Memory.translator schema) (SetStore.translator keys schema)
      (fun i : Indexed docs => i.entry.matchesQuery)
      (fun i => SetStore.Plan.holds (SetStore.postingSets keys docs) i.id) where
  freeText terms := by
    intro i
    show (Memory.Entry.build i.seq i.doc).matchesQuery _ = SetStore.Plan.holds _ i.id _
    rw [Bool.eq_iff_iff, Memory.Entry.matches_freeText, SetStore.Plan.holds_interOf]
    simp [SetStore.contains_postingSets hdocs i.mem, SetStore.anyField_mem_postings]
  field name terms := by
    simp only [Memory.translator, SetStore.translator, Memory.fieldLeaf, SetStore.fieldLeaf]
    rcases schema.get? name with _ | config
    · rfl
    dsimp only
    split
    · cases config.kind.queryTokens name terms with
      | error e => rfl
      | ok tokens =>
        intro i
        show (Memory.Entry.build i.seq i.doc).matchesQuery _ = SetStore.Plan.holds _ i.id _
        rw [Bool.eq_iff_iff, Memory.Entry.matches_field, SetStore.Plan.holds_interOf]
        simp [SetStore.contains_postingSets hdocs i.mem, SetStore.posting_mem_postings]
    · exact fun _ => rfl

/-- **The in-memory store and posting sets find alike.** Over the same documents a query without
weights fails alike on both backends or finds the same ids. -/
theorem finds_alike (hdocs : (docs.map (·.1)).Nodup) {q : Query} (hq : q.Built)
    (hw : q.Weightless) :
    match q.translate Memory.capabilities Memory.backendName (Memory.translator schema),
      q.translate SetStore.capabilities SetStore.backendName (SetStore.translator keys schema) with
    | .ok t, .ok p =>
      (Memory.Store.holding schema docs).matched t =
        {id | p.holds (SetStore.postingSets keys docs) id = true}
    | .error e, .error f => e = f
    | _, _ => False := by
  have hs : q.Supported SetStore.capabilities := fun n hn => by
    have hne := hw.operator_ne n hn
    cases n <;> first | rfl | exact absurd rfl hne
  rw [Query.translate_of_supported (Memory.supported q), Query.translate_of_supported hs]
  have h := Query.fold_agree ((Memory.translator_isAlgebra schema).comap Indexed.entry)
    ((SetStore.translator_isAlgebra keys schema _).comap Indexed.id)
    (agreeOnLeaves schema keys hdocs) hq.full hw
  revert h
  cases Query.fold (Memory.translator schema) q <;>
    cases Query.fold (SetStore.translator keys schema) q
  · exact id
  · exact id
  · exact id
  rename_i t p
  intro h
  ext id
  rw [Memory.Store.mem_matched, Set.mem_ofPred_eq]
  -- An id of no document has no entry on one side and is in no posting set on the other.
  by_cases hid : id ∈ docs.map (·.1)
  · obtain ⟨⟨id, d⟩, hmem, rfl⟩ := List.mem_map.1 hid
    obtain ⟨n, hn⟩ := Memory.Store.get?_holding schema hdocs hmem
    simp only [hn, Option.some.injEq, exists_eq_left']
    exact Bool.eq_iff_iff.1 (h ⟨id, d, n, hmem⟩)
  · refine iff_of_false ?_ ?_
    · rintro ⟨e, he, -⟩
      exact hid (Memory.Store.mem_of_get?_holding he)
    · rw [SetStore.Plan.holds_eq_false fun key => ?_]
      · simp
      · exact SetStore.contains_postingSets_eq_false hid

end

def titledBoats : List (String × PreparedDocument) :=
  [("red", ⟨[⟨"title", .freeText, [.text "red boat"], []⟩]⟩),
    ("blue", ⟨[⟨"title", .freeText, [.text "blue boat"], []⟩]⟩)]

/-- Both backends find the same to be a boat or red but not both. -/
theorem finds_alike_titledBoats :
    (Memory.Store.holding (.ofList [("title", .freeText)]) titledBoats).matched
        (.xor [.freeText ["boat"], .freeText ["red"]]) =
      {id | (SetStore.Plan.exclusive (.key "s:any:boat") (.key "s:any:red")).holds
        (SetStore.postingSets ⟨"s"⟩ titledBoats) id = true} := by
  have hq : ((Query.term "boat").xor (.term "red")).Built := .xor (.freeText _) (.freeText _)
  have hdocs : (titledBoats.map (·.1)).Nodup := by decide
  have h := finds_alike (.ofList [("title", .freeText)]) ⟨"s"⟩ hdocs hq ⟨trivial, trivial, trivial⟩
  have hmemory : ((Query.term "boat").xor (.term "red")).translate Memory.capabilities
      Memory.backendName (Memory.translator (.ofList [("title", .freeText)])) =
        .ok (.xor [.freeText ["boat"], .freeText ["red"]]) := rfl
  have hsets : ((Query.term "boat").xor (.term "red")).translate SetStore.capabilities
      SetStore.backendName (SetStore.translator ⟨"s"⟩ (.ofList [("title", .freeText)])) =
        .ok (.exclusive (.key "s:any:boat") (.key "s:any:red")) := rfl
  rw [hmemory, hsets] at h
  exact h

end Searchlight
