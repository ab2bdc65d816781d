import Mathlib.Data.List.Nodup
import Searchlight.Proofs.KeyMap
import Searchlight.Proofs.Memory.Matching

/-!
# Evaluation with another analyzer

The in-memory store takes free text apart with `Text.tokenize`, in documents as well as in queries.
Here the analyzer is a parameter: a definition `..By analyze` is the one of the store with `analyze`
in its place, and with `Text.tokenize` it is the one of the store itself (`Entry.buildBy_tokenize`,
`translatorBy_tokenize`, `Store.indexBy_tokenize`). Whatever the analyzer is, an entry is asked
whether tokens are among the tokens of a field, or among those of its free text.
-/

namespace Searchlight

variable (analyze : String → List String)

/-! ## Tokens -/

namespace FieldKind

def valueTokensBy (kind : FieldKind) (x : IndexValue) : List String :=
  match kind, x with
  | freeText, .text s => analyze s
  | _, _ => kind.valueTokens x

def queryTokensBy (field : String) (kind : FieldKind) (terms : List String) :
    Except Error (List String) :=
  match kind with
  | freeText => .ok (terms.flatMap analyze)
  | _ => kind.queryTokens field terms

theorem valueTokensBy_tokenize : valueTokensBy Text.tokenize = valueTokens := by
  funext kind x
  cases kind <;> cases x <;> rfl

theorem queryTokensBy_tokenize : queryTokensBy Text.tokenize = queryTokens := by
  funext field kind terms
  cases kind <;> rfl

end FieldKind

namespace Memory

def fieldTokensBy (f : PreparedField) : List String :=
  f.values.flatMap (f.config.kind.valueTokensBy analyze)

theorem fieldTokensBy_tokenize : fieldTokensBy Text.tokenize = fieldTokens := by
  funext f
  rw [fieldTokensBy, FieldKind.valueTokensBy_tokenize, fieldTokens]

end Memory

namespace PreparedDocument

def freeTokensBy (d : PreparedDocument) : List String :=
  ((d.fields.filter (·.config.indexed)).filter (·.config.kind == .freeText)).flatMap
    (Memory.fieldTokensBy analyze)

def tokensInBy (d : PreparedDocument) (name : String) : List String :=
  ((d.fields.filter (·.config.indexed)).filter (·.name == name)).flatMap
    (Memory.fieldTokensBy analyze)

variable {analyze} {d : PreparedDocument} {name t : String}

theorem mem_freeTokensBy :
    t ∈ d.freeTokensBy analyze ↔
      ∃ f ∈ d.fields, f.config.indexed = true ∧ f.config.kind = .freeText ∧
        t ∈ Memory.fieldTokensBy analyze f := by
  simp only [freeTokensBy, List.mem_flatMap, List.mem_filter, beq_iff_eq, and_assoc]

theorem mem_tokensInBy :
    t ∈ d.tokensInBy analyze name ↔
      ∃ f ∈ d.fields, f.config.indexed = true ∧ f.name = name ∧
        t ∈ Memory.fieldTokensBy analyze f := by
  simp only [tokensInBy, List.mem_flatMap, List.mem_filter, beq_iff_eq, and_assoc]

end PreparedDocument

namespace Memory

/-! ## Counts -/

theorem contains_countTokens {c : TermCounts} {ts : List String} {t : String} :
    (Entry.countTokens c ts).contains t = true ↔ t ∈ ts ∨ c.contains t = true := by
  induction ts generalizing c with
  | nil => simp [Entry.countTokens]
  | cons u ts ih =>
    have hadd : (c.add u).contains t = true ↔ t = u ∨ c.contains t = true := by
      rw [TermCounts.add, KeyMap.contains_insert, Bool.or_eq_true, decide_eq_true_iff, eq_comm]
    rw [Entry.countTokens, List.foldl_cons, ← Entry.countTokens, ih, hadd, List.mem_cons]
    tauto

theorem isSome_scoreTokens (c : TermCounts) (ts : List String) :
    (scoreTokens c ts).isSome = ts.all c.contains := by
  rw [scoreTokens, Option.isSome_map]
  induction ts with
  | nil => rfl
  | cons t ts ih =>
    rw [List.mapM_cons, List.all_cons, ← ih, KeyMap.contains]
    cases c.get? t <;> cases ts.mapM (m := Option) _ <;> rfl

namespace Entry

def buildBy (seq : Nat) (d : PreparedDocument) : Entry :=
  let indexed := d.fields.filter (·.config.indexed)
  { seq
    fields := indexed.foldl (fun m f =>
      m.insert f.name (countTokens ((m.get? f.name).getD ∅) (fieldTokensBy analyze f))) ∅
    freeText := (indexed.filter (·.config.kind == .freeText)).foldl
      (fun c f => countTokens c (fieldTokensBy analyze f)) ∅
    stored := d.stored }

theorem buildBy_tokenize : buildBy Text.tokenize = build := by
  funext seq d
  rw [buildBy, fieldTokensBy_tokenize, build]

variable {analyze} {n : Nat} {d : PreparedDocument} {name t : String} {ts : List String}

theorem contains_freeText :
    (buildBy analyze n d).freeText.contains t = true ↔ t ∈ d.freeTokensBy analyze := by
  have count (fs : List PreparedField) (c : TermCounts) :
      (fs.foldl (fun c f => countTokens c (fieldTokensBy analyze f)) c).contains t = true ↔
        t ∈ fs.flatMap (fieldTokensBy analyze) ∨ c.contains t = true := by
    induction fs generalizing c with
    | nil => simp
    | cons f fs ih =>
      rw [List.foldl_cons, ih, contains_countTokens, List.flatMap_cons, List.mem_append]
      tauto
  rw [buildBy, count]
  simp [PreparedDocument.freeTokensBy]

theorem contains_fields :
    (((buildBy analyze n d).fields.get? name).getD ∅).contains t = true ↔
      t ∈ d.tokensInBy analyze name := by
  have count (fs : List PreparedField) (m : KeyMap TermCounts) :
      (((fs.foldl (fun m f =>
          m.insert f.name (countTokens ((m.get? f.name).getD ∅) (fieldTokensBy analyze f))) m).get?
            name).getD ∅).contains t = true ↔
        t ∈ (fs.filter (·.name == name)).flatMap (fieldTokensBy analyze) ∨
          ((m.get? name).getD ∅).contains t = true := by
    induction fs generalizing m with
    | nil => simp
    | cons f fs ih =>
      rw [List.foldl_cons, ih, KeyMap.get?_insert]
      by_cases hn : f.name = name
      · rw [if_pos hn, Option.getD_some, contains_countTokens, List.filter_cons_of_pos (by simpa),
          List.flatMap_cons, List.mem_append, hn]
        tauto
      · rw [if_neg hn, List.filter_cons_of_neg (by simpa)]
  rw [buildBy, count]
  simp [PreparedDocument.tokensInBy]

/-- A leaf on free text asks for some token, and for all of them among those of free text. -/
theorem matches_freeText_iff {e : Entry} :
    e.matchesQuery (if ts.isEmpty then .nothing else .freeText ts) = true ↔
      ts ≠ [] ∧ ∀ t ∈ ts, e.freeText.contains t = true := by
  cases ts with
  | nil => simp
  | cons t ts =>
    simp only [List.isEmpty_cons, Bool.false_eq_true, ↓reduceIte, matchesQuery, score,
      isSome_scoreTokens, List.all_eq_true]
    simp

theorem matches_freeTextBy :
    (buildBy analyze n d).matchesQuery (if ts.isEmpty then .nothing else .freeText ts) = true ↔
      ts ≠ [] ∧ ∀ t ∈ ts, t ∈ d.freeTokensBy analyze := by
  simp only [matches_freeText_iff, contains_freeText]

/-- A leaf on a field asks for some token, and for all of them among those of the field. -/
theorem matches_field_iff {e : Entry} :
    e.matchesQuery (if ts.isEmpty then .nothing else .field name ts) = true ↔
      ts ≠ [] ∧ ∀ t ∈ ts, ((e.fields.get? name).getD ∅).contains t = true := by
  cases ts with
  | nil => simp
  | cons t ts =>
    simp only [List.isEmpty_cons, Bool.false_eq_true, ↓reduceIte, matchesQuery, score]
    cases e.fields.get? name with
    | none => exact iff_of_false (by simp) fun h => by simpa using h.2 t List.mem_cons_self
    | some c => simp [isSome_scoreTokens]

theorem matches_fieldBy :
    (buildBy analyze n d).matchesQuery (if ts.isEmpty then .nothing else .field name ts) = true ↔
      ts ≠ [] ∧ ∀ t ∈ ts, t ∈ d.tokensInBy analyze name := by
  simp only [matches_field_iff, contains_fields]

/-! ### Fewer tokens -/

/-- The entry with the counts of these tokens only. -/
def keep (e : Entry) (kept : String → Bool) : Entry :=
  { e with
    fields := e.fields.map fun _ c => c.filter fun t _ => kept t
    freeText := e.freeText.filter fun t _ => kept t }

variable {e : Entry} {kept : String → Bool}

theorem contains_filter {c : TermCounts} :
    (c.filter fun t _ => kept t).contains t = (kept t && c.contains t) := by
  rw [KeyMap.contains, KeyMap.contains, KeyMap.get?_filter]
  cases c.get? t <;> cases kept t <;> simp [*]

theorem contains_freeText_keep :
    (e.keep kept).freeText.contains t = (kept t && e.freeText.contains t) := contains_filter

theorem contains_fields_keep :
    (((e.keep kept).fields.get? name).getD ∅).contains t =
      (kept t && ((e.fields.get? name).getD ∅).contains t) := by
  rw [keep, KeyMap.get?_map]
  cases e.fields.get? name with
  | none => simp
  | some c => exact contains_filter

mutual

theorem score_seq (e : Entry) (n : Nat) : ∀ q, ({ e with seq := n }).score q = e.score q
  | .freeText _ | .field _ _ | .nothing => rfl
  | .and parts => by rw [score, score, scores_seq e n parts]
  | .or parts => by rw [score, score, scores_seq e n parts]
  | .not p q => by rw [score, score, score_seq e n p, score_seq e n q]
  | .xor parts => by rw [score, score, scores_seq e n parts]
  | .weight q x => by rw [score, score, score_seq e n q]

theorem scores_seq (e : Entry) (n : Nat) : ∀ qs, ({ e with seq := n }).scores qs = e.scores qs
  | [] => rfl
  | q :: qs => by rw [scores, scores, score_seq e n q, scores_seq e n qs]

end

end Entry

/-! ## Queries -/

def fieldLeafBy (schema : Schema) (name : String) (terms : List String) :
    Except Error TokenQuery :=
  match schema.get? name with
  | none => .error (.unknownField name)
  | some config =>
    if config.indexed then do
      let tokens ← config.kind.queryTokensBy analyze name terms
      .ok (if tokens.isEmpty then .nothing else .field name tokens)
    else .ok .nothing

theorem fieldLeafBy_of_not_isSearchable {schema : Schema} {name : String} {c : FieldConfig}
    (hschema : schema.get? name = some c) (h : ¬ c.isSearchable = true) (terms : List String) :
    fieldLeafBy analyze schema name terms = .ok .nothing := by
  rw [fieldLeafBy, hschema]
  dsimp only
  split
  · rename_i hindexed
    have hkind : c.kind = .ignored := by simpa [FieldConfig.isSearchable, hindexed] using h
    rw [hkind]
    rfl
  · rfl

def translatorBy (schema : Schema) : Translator TokenQuery :=
  { translator schema with
    freeText := fun terms =>
      let tokens := terms.flatMap analyze
      .ok (if tokens.isEmpty then .nothing else .freeText tokens)
    field := fieldLeafBy analyze schema }

theorem translatorBy_tokenize : translatorBy Text.tokenize = translator := by
  funext schema
  have hleaf : fieldLeafBy Text.tokenize schema = fieldLeaf schema := by
    funext name terms
    rw [fieldLeafBy, FieldKind.queryTokensBy_tokenize]
    rfl
  rw [translatorBy, hleaf]
  rfl

theorem translatorBy_isAlgebra (schema : Schema) :
    (translatorBy analyze schema).IsAlgebra Entry.matchesQuery :=
  ⟨(translator_isAlgebra schema).and, (translator_isAlgebra schema).or,
    (translator_isAlgebra schema).not, (translator_isAlgebra schema).xor⟩

/-! ## Stores -/

namespace Store

/-- The store with a document under an id, whatever was there before. -/
def indexBy (s : Store) (id : String) (d : PreparedDocument) : Store :=
  { s with docs := s.docs.insert id (Entry.buildBy analyze s.nextSeq d), nextSeq := s.nextSeq + 1 }

/-- A store with documents that were indexed one after the other. -/
def holdingBy (schema : Schema) (docs : List (String × PreparedDocument)) : Store :=
  docs.foldl (fun s e => indexBy analyze s e.1 e.2) ⟨schema, ∅, 0⟩

theorem indexBy_tokenize : indexBy Text.tokenize = index := by
  funext s id d
  rw [indexBy, Entry.buildBy_tokenize, index]

variable {analyze} {docs : List (String × PreparedDocument)} {id : String}

theorem get?_foldl_indexBy {s : Store} (h : id ∉ docs.map (·.1)) :
    (docs.foldl (fun s e => indexBy analyze s e.1 e.2) s).docs.get? id = s.docs.get? id := by
  induction docs generalizing s with
  | nil => rfl
  | cons e docs ih =>
    simp only [List.map_cons, List.mem_cons, not_or] at h
    rw [List.foldl_cons, ih h.2, indexBy, KeyMap.get?_insert, if_neg (Ne.symm h.1)]

theorem get?_holdingBy (schema : Schema) (hdocs : (docs.map (·.1)).Nodup) {d : PreparedDocument}
    (h : (id, d) ∈ docs) :
    ∃ n, (holdingBy analyze schema docs).docs.get? id = some (Entry.buildBy analyze n d) := by
  have go (docs : List (String × PreparedDocument)) (hdocs : (docs.map (·.1)).Nodup)
      (h : (id, d) ∈ docs) (s : Store) :
      ∃ n, (docs.foldl (fun s e => indexBy analyze s e.1 e.2) s).docs.get? id =
        some (Entry.buildBy analyze n d) := by
    induction docs generalizing s with
    | nil => simp at h
    | cons e docs ih =>
      obtain ⟨he, hdocs⟩ := List.nodup_cons.1 hdocs
      rcases List.mem_cons.1 h with rfl | h
      · exact ⟨s.nextSeq, by rw [List.foldl_cons, get?_foldl_indexBy he, indexBy,
          KeyMap.get?_insert, if_pos rfl]⟩
      · exact ih hdocs h (indexBy analyze s e.1 e.2)
  exact go docs hdocs h _

theorem mem_of_get?_holdingBy {schema : Schema} {e : Entry}
    (h : (holdingBy analyze schema docs).docs.get? id = some e) : id ∈ docs.map (·.1) := by
  by_contra hid
  rw [holdingBy, get?_foldl_indexBy hid] at h
  cases h

end Store

/-- The ids of the documents whose entries match the query. -/
def found (analyze : String → List String) (docs : List (String × PreparedDocument))
    (q : TokenQuery) : Set String :=
  {id | ∃ d, (id, d) ∈ docs ∧ (Entry.buildBy analyze 0 d).matchesQuery q = true}

/-- A store of documents with ids of their own finds those that match. -/
theorem found_eq_matched {docs : List (String × PreparedDocument)} (schema : Schema)
    (hdocs : (docs.map (·.1)).Nodup) {q : TokenQuery} :
    found analyze docs q = (Store.holdingBy analyze schema docs).matched q := by
  have hmatches {n : Nat} {d : PreparedDocument} :
      (Entry.buildBy analyze n d).matchesQuery q = (Entry.buildBy analyze 0 d).matchesQuery q :=
    congrArg Option.isSome (Entry.score_seq (Entry.buildBy analyze 0 d) n q)
  have hentry {id : String} {d : PreparedDocument} (hd : (id, d) ∈ docs) :
      ∃ n, (Store.holdingBy analyze schema docs).docs.get? id = some (Entry.buildBy analyze n d) :=
    Store.get?_holdingBy schema hdocs hd
  ext id
  rw [Store.mem_matched]
  constructor
  · rintro ⟨d, hd, hmatch⟩
    obtain ⟨n, hn⟩ := hentry hd
    exact ⟨_, hn, hmatches.trans hmatch⟩
  · rintro ⟨e, he, hmatch⟩
    obtain ⟨⟨id', d⟩, hd, rfl⟩ := List.mem_map.1 (Store.mem_of_get?_holdingBy he)
    obtain ⟨n, hn⟩ := hentry hd
    cases he.symm.trans hn
    exact ⟨d, hd, hmatches.symm.trans hmatch⟩

end Memory

end Searchlight
