import Mathlib.Data.List.Perm.Basic
import Mathlib.Data.List.Sort
import Searchlight.Proofs.Disk.Identity
import Searchlight.Proofs.Disk.Matching
import Searchlight.Proofs.Field.Coercion
import Searchlight.Proofs.KeyMap
import Searchlight.Proofs.Schema.Fields

/-!
# Records by their ids

The record of a document is found by its id and by no other, since the fields of a schema are
numbered after those that every index has (`FieldMap.record?_eq_some`). A writer that takes what an
id finds out of the records and adds one with that id keeps ids apart (`Lists.put`), and what a store
counts, lists, loads and ranks is told by the records that it shows in any order (`Store.Shows`).
-/

namespace Searchlight.Disk

/-! ## Records of documents -/

theorem FieldType.field_of_terms? {type : FieldType} {analyze : Analyzer} {number : Nat}
    {x : IndexValue} {ts : List Term} (h : type.terms? analyze number x = some ts) {t : Term}
    (ht : t ∈ ts) : t.field = number := by
  have htexts {texts : List String} (hts : textTerms number texts = ts) : t.field = number := by
    obtain ⟨s, -, -, rfl⟩ := mem_textTerms.1 (hts ▸ ht)
    rfl
  have hone {u : Term} (hu : [u] = ts) (hfield : u.field = number) : t.field = number := by
    subst hu
    rw [List.mem_singleton.1 ht, hfield]
  unfold terms? at h
  split at h <;> cases h
  · exact htexts rfl
  · exact htexts rfl
  · cases ht
  · cases ht
  · exact hone rfl rfl
  · exact hone rfl rfl

theorem FieldType.isSome_terms? {c : FieldConfig} {type : FieldType} {name : String} {v : Value}
    {x : IndexValue} (htype : ofKind? c.kind = some type) (h : c.coerce name v = .ok (some x))
    (analyze : Analyzer) (number : Nat) : (type.terms? analyze number x).isSome = true := by
  have htakes := FieldConfig.takes_of_coerce h
  cases hkind : c.kind <;> rw [hkind] at htakes htype <;> cases htype <;>
    (obtain ⟨_, rfl⟩ := htakes; rfl)

namespace FieldMap

variable {m : FieldMap} {analyze : Analyzer} {id name : String} {d : PreparedDocument} {r : Record}

def IsNumbered (m : FieldMap) : Prop :=
  ∃ layout, m.numbered = numbering layout m.schema

theorem isNumbered_build (schema : Schema) : (build schema).IsNumbered := ⟨_, rfl⟩

theorem isNumbered_of_ofLayout {layout : Layout} {schema : Schema}
    (h : ofLayout layout schema = .ok m) : m.IsNumbered := by
  rw [ofLayout] at h
  split at h <;> cases h
  exact ⟨layout, rfl⟩

theorem schema_of_ofLayout {layout : Layout} {schema : Schema}
    (h : ofLayout layout schema = .ok m) : m.schema = schema := by
  rw [ofLayout] at h
  split at h <;> cases h
  rfl

/-- No field of the schema has the name of a field that every index has. -/
def Unreserved (m : FieldMap) : Prop := ∀ name ∈ Layout.reservedNames, m.schema.get? name = none

theorem unreserved_empty : (build .empty).Unreserved := fun _ _ => rfl

theorem Unreserved.insert (hu : m.Unreserved) (hname : name ∉ Layout.reservedNames)
    (config : FieldConfig) : (build (m.schema.insert name config)).Unreserved := by
  intro reserved hreserved
  change (m.schema.insert name config).get? reserved = none
  have hne : name ≠ reserved := fun heq => hname (heq ▸ hreserved)
  rw [Schema.get?_insert, if_neg hne]
  exact hu reserved hreserved

theorem of_get?_numbered {layout : Layout} (hm : m.numbered = numbering layout m.schema) {n : Nat}
    {c : FieldConfig} (h : m.numbered.get? name = some (n, c)) :
    m.schema.get? name = some c ∧ layout.number? name = some n := by
  rw [hm, numbering] at h
  obtain ⟨f, hf, hnumber⟩ := List.mem_filterMap.1 (KeyMap.mem_of_get?_ofList h)
  split at hnumber
  · obtain ⟨k, hk, heq⟩ := Option.map_eq_some_iff.1 hnumber
    cases heq
    exact ⟨KeyMap.get?_eq_some_iff.2 hf, hk⟩
  · cases hnumber

theorem isSearchable_of_get?_numbered (hm : m.IsNumbered) {n : Nat} {c : FieldConfig}
    (h : m.numbered.get? name = some (n, c)) : c.isSearchable = true := by
  obtain ⟨layout, hlayout⟩ := hm
  rw [hlayout, numbering] at h
  obtain ⟨f, -, hnumber⟩ := List.mem_filterMap.1 (KeyMap.mem_of_get?_ofList h)
  split at hnumber
  · rename_i hsearchable
    obtain ⟨k, -, heq⟩ := Option.map_eq_some_iff.1 hnumber
    cases heq
    exact hsearchable
  · cases hnumber

def Complete (m : FieldMap) : Prop :=
  ∀ (name : String) (c : FieldConfig), m.schema.get? name = some c → c.isSearchable = true →
    ∃ n, m.numbered.get? name = some (n, c)

theorem complete_of_number? {layout : Layout} (hm : m.numbered = numbering layout m.schema)
    (h : ∀ f ∈ indexedFields m.schema, (layout.number? f.1).isSome = true) : m.Complete := by
  intro name c hschema hsearchable
  have hmem : (name, c) ∈ m.schema.toList := KeyMap.get?_eq_some_iff.1 hschema
  obtain ⟨hindexed, hkind⟩ := Bool.and_eq_true_iff.1 hsearchable
  obtain ⟨type, htype⟩ : ∃ type, FieldType.ofKind? c.kind = some type := by
    revert hkind
    cases c.kind <;> simp [FieldType.ofKind?]
  have hfield : (name, type) ∈ indexedFields m.schema := by
    refine List.mem_filterMap.2 ⟨(name, c), hmem, ?_⟩
    rw [if_pos hindexed, htype]
    rfl
  obtain ⟨n, hn⟩ := Option.isSome_iff_exists.1 (h _ hfield)
  have hcontains : m.numbered.contains name = true := by
    rw [hm, numbering, KeyMap.contains_ofList, decide_eq_true_iff]
    refine List.mem_map.2 ⟨(name, n, c), List.mem_filterMap.2 ⟨(name, c), hmem, ?_⟩, rfl⟩
    have htaken : (c.indexed && c.kind != .ignored) = true := hsearchable
    rw [if_pos htaken, hn]
    rfl
  obtain ⟨⟨k, c'⟩, hget⟩ := KeyMap.contains_eq_true_iff.1 hcontains
  -- What has the name's number is the field of that name, of which there is only one.
  obtain ⟨hschema', -⟩ := of_get?_numbered hm hget
  cases hschema.symm.trans hschema'
  exact ⟨k, hget⟩

theorem complete_build (s : Schema) : (build s).Complete := by
  refine complete_of_number? rfl fun f hf => ?_
  rw [Layout.number?, List.findIdx?_isSome, List.any_eq_true]
  exact ⟨f.1, List.mem_append_right _ (List.mem_map_of_mem hf), beq_self_eq_true _⟩

theorem complete_of_ofLayout {layout : Layout} {schema : Schema}
    (h : ofLayout layout schema = .ok m) : m.Complete := by
  rw [ofLayout] at h
  split at h <;> cases h
  rename_i hfind
  refine complete_of_number? rfl fun f hf => ?_
  have hnone := List.find?_eq_none.1 hfind f hf
  rwa [Option.isNone_iff_eq_none, ← ne_eq, Option.ne_none_iff_isSome] at hnone

theorem getElem?_of_number? {layout : Layout} {n : Nat} (h : layout.number? name = some n) :
    (Layout.reservedNames ++ layout.map (·.1))[n]? = some name := by
  obtain ⟨hlt, hbeq, -⟩ := List.findIdx?_eq_some_iff_getElem.1 h
  rw [List.getElem?_eq_getElem hlt, beq_iff_eq.1 hbeq]

/-- The fields of a schema are numbered after those that every index has. -/
theorem two_le_number (hm : m.IsNumbered) (hu : m.Unreserved) {n : Nat} {c : FieldConfig}
    (h : m.numbered.get? name = some (n, c)) : 2 ≤ n := by
  obtain ⟨layout, hlayout⟩ := hm
  obtain ⟨hschema, hnumber⟩ := of_get?_numbered hlayout h
  have hname := getElem?_of_number? hnumber
  by_contra hlt
  have hreserved : name ∈ Layout.reservedNames := by
    rcases (by omega : n = 0 ∨ n = 1) with rfl | rfl
    · cases hname
      decide
    · cases hname
      decide
  rw [hu _ hreserved] at hschema
  cases hschema

theorem type?_build {s : Schema} (hu : (build s).Unreserved) {n : Nat} {c : FieldConfig}
    (h : (build s).numbered.get? name = some (n, c)) :
    s.get? name = some c ∧ (build s).layout.type? n = FieldType.ofKind? c.kind := by
  obtain ⟨hschema, hnumber⟩ := of_get?_numbered rfl h
  have htwo := two_le_number (isNumbered_build s) hu h
  obtain ⟨k, rfl⟩ : ∃ k, n = k + 2 := ⟨n - 2, by omega⟩
  refine ⟨hschema, ?_⟩
  have hname : ((indexedFields s : Layout).map (·.1))[k]? = some name := getElem?_of_number? hnumber
  obtain ⟨e, he, rfl⟩ := Option.map_eq_some_iff.1 (List.getElem?_map ▸ hname)
  obtain ⟨g, hg, hfield⟩ := List.mem_filterMap.1 (List.mem_of_getElem? he)
  split at hfield
  · obtain ⟨type, htype, rfl⟩ := Option.map_eq_some_iff.1 hfield
    have hsame : some g.2 = some c :=
      (KeyMap.get?_eq_some_iff.2 hg : s.get? g.1 = some g.2).symm.trans hschema
    cases hsame
    change ((indexedFields s)[k]?).map (·.2) = _
    rw [he, htype]
    rfl
  · cases hfield

/-- **An index takes every document** whose values were coerced as the schema says that it was made
for. -/
theorem exists_record? {s : Schema} (hu : (build s).Unreserved) (id : String)
    (hd : ∀ f ∈ d.fields, ∀ c, s.get? f.name = some c → ∀ x ∈ f.values,
      ∃ v, c.coerce f.name v = .ok (some x)) : ∃ r, (build s).record? analyze id d = some r := by
  suffices h : ∃ terms, d.fields.mapM ((build s).fieldTerms? analyze) = some terms by
    obtain ⟨terms, hterms⟩ := h
    exact ⟨_, by rw [record?, hterms]; rfl⟩
  rw [← Option.isSome_iff_exists, Option.isSome_mapM, List.all_eq_true]
  intro f hf
  rw [fieldTerms?]
  split
  · rename_i n type hnumber
    obtain ⟨⟨k, c⟩, hc, htype⟩ := Option.bind_eq_some_iff.1 hnumber
    obtain ⟨type, htype, heq⟩ := Option.map_eq_some_iff.1 htype
    cases heq
    obtain ⟨hschema, hkind⟩ := type?_build hu hc
    rw [Option.isSome_map]
    rw [Option.isSome_mapM, List.all_eq_true]
    intro x hx
    obtain ⟨v, hv⟩ := hd f hf c hschema x hx
    exact FieldType.isSome_terms? (hkind.symm.trans htype) hv _ _
  · rfl

/-- The record of a document is found by its id and by no other, and has the stored part of the
document. -/
theorem record?_eq_some (hm : m.IsNumbered) (hu : m.Unreserved)
    (h : m.record? analyze id d = some r) :
    r.id = id ∧ r.stored = d.stored.toJsonText ∧
      ∀ id', .ofId id' ∈ r.terms ↔ finds id' r.id = true := by
  obtain ⟨terms, hterms, rfl⟩ := Option.map_eq_some_iff.1 h
  refine ⟨rfl, rfl, fun id' => ?_⟩
  rw [List.mem_append, ofId_mem_textTerms]
  refine or_iff_left fun hterm => ?_
  obtain ⟨ts, hts, hterm⟩ := List.mem_flatten.1 hterm
  obtain ⟨f, -, hf⟩ := Option.exists_of_mem_mapM hterms hts
  rw [fieldTerms?] at hf
  split at hf
  · rename_i n type hnumber
    obtain ⟨c, hc, htype⟩ := Option.bind_eq_some_iff.1 hnumber
    obtain ⟨type, -, heq⟩ := Option.map_eq_some_iff.1 htype
    cases heq
    obtain ⟨tss, htss, rfl⟩ := Option.map_eq_some_iff.1 hf
    obtain ⟨us, hus, hterm⟩ := List.mem_flatten.1 hterm
    obtain ⟨x, -, hx⟩ := Option.exists_of_mem_mapM htss hus
    have hfield : idField = c.1 := FieldType.field_of_terms? hx hterm
    have htwo : 2 ≤ c.1 := two_le_number hm hu hc
    rw [← hfield, idField] at htwo
    omega
  · cases hf
    cases hterm

end FieldMap

/-! ## Lists of records -/

/-- The ids of records in ascending order. -/
def idsOf (rs : List Record) : List String := (rs.map (·.id)).mergeSort fun a b => a ≤ b

theorem mem_idsOf {rs : List Record} {id : String} : id ∈ idsOf rs ↔ ∃ r ∈ rs, r.id = id :=
  (List.mergeSort_perm _ _).mem_iff.trans List.mem_map

theorem length_idsOf (rs : List Record) : (idsOf rs).length = rs.length := by
  rw [idsOf, List.length_mergeSort, List.length_map]

theorem pairwise_idsOf (rs : List Record) : (idsOf rs).Pairwise (· ≤ ·) :=
  (List.pairwise_mergeSort (by simpa using fun a b c => String.le_trans)
    (by simpa using String.le_total) _).imp (by simp)

theorem idsOf_perm {rs ss : List Record} (h : rs.Perm ss) : idsOf rs = idsOf ss := by
  have hperm : (idsOf rs).Perm (idsOf ss) :=
    (List.mergeSort_perm _ _).trans ((h.map _).trans (List.mergeSort_perm _ _).symm)
  exact hperm.eq_of_pairwise (fun a b _ _ hab hba => String.le_antisymm hab hba)
    (pairwise_idsOf rs) (pairwise_idsOf ss)

/-- Some record has the id. -/
def has (rs : List Record) (id : String) : Bool := rs.any (·.id == id)

theorem has_iff {rs : List Record} {id : String} : has rs id = true ↔ ∃ r ∈ rs, r.id = id := by
  simp [has]

theorem has_append {rs ss : List Record} {id : String} :
    has (rs ++ ss) id = (has rs id || has ss id) := List.any_append

theorem has_singleton {r : Record} {id : String} : has [r] id = decide (r.id = id) := by
  rw [has, List.any_cons, List.any_nil, Bool.or_false, beq_eq_decide]

theorem has_without {rs : List Record} {id id' : String} (hterm : isTerm id' = true) :
    has (without (·.id) id rs) id' = (!decide (id = id') && has rs id') := by
  rw [Bool.eq_iff_iff, Bool.and_eq_true, has_iff, has_iff]
  simp only [without, List.mem_filter, finds, Bool.not_eq_true', Bool.and_eq_false_iff,
    beq_eq_false_iff_ne, decide_eq_false_iff_not]
  constructor
  · rintro ⟨r, ⟨hr, hne⟩, rfl⟩
    refine ⟨?_, r, hr, rfl⟩
    rintro rfl
    simp [hterm] at hne
  · rintro ⟨hne, r, hr, rfl⟩
    exact ⟨r, ⟨hr, .inl fun h => hne h.symm⟩, rfl⟩

/-- The record that the id finds. -/
def lookup? (rs : List Record) (id : String) : Option Record := rs.find? fun r => finds id r.id

theorem mem_of_lookup? {rs : List Record} {id : String} {r : Record} (h : lookup? rs id = some r) :
    r ∈ rs ∧ r.id = id ∧ isTerm id = true :=
  ⟨List.mem_of_find?_eq_some h,
    finds_iff.1 (List.find?_some (p := fun r : Record => finds id r.id) h)⟩

theorem lookup?_eq_none_iff {rs : List Record} {id : String} :
    lookup? rs id = none ↔ isTerm id = true → has rs id = false := by
  rw [lookup?, List.find?_eq_none, ← Bool.not_eq_true, has_iff]
  simp only [finds_iff, not_and, not_exists]
  exact ⟨fun h hterm r hr hid => h r hr hid hterm, fun h r hr hid hterm => h hterm r hr hid⟩

/-- The records are these in some order, and ids are kept apart. -/
structure Lists (m rs : List Record) : Prop where
  own : OwnIds rs
  perm : rs.Perm m

theorem OwnIds.lists {rs : List Record} (h : OwnIds rs) : Lists rs rs := ⟨h, .refl _⟩

namespace Lists

variable {m rs ss : List Record} {id : String} {r : Record}

theorem empty : Lists [] [] := OwnIds.nil.lists

theorem trans (h : Lists m rs) (hp : ss.Perm rs) : Lists m ss := ⟨h.own.perm hp, hp.trans h.perm⟩

theorem mem_iff (h : Lists m rs) : r ∈ rs ↔ r ∈ m := h.perm.mem_iff

theorem ownIds (h : Lists m rs) : OwnIds m := h.own.perm h.perm.symm

theorem remove (h : Lists m rs) (id : String) :
    Lists (without (·.id) id m) (rs.filter fun r => !r.terms.contains (.ofId id)) := by
  refine ⟨h.own.filter _, ?_⟩
  have hfilter : rs.filter (fun r => !r.terms.contains (.ofId id)) = without (·.id) id rs :=
    List.filter_congr fun r hr => by rw [h.own.contains_ofId hr]
  rw [hfilter]
  exact h.perm.filter _

/-- A record that takes the place of what its id finds. -/
theorem put (h : Lists m rs) (hr : ∀ id, .ofId id ∈ r.terms ↔ finds id r.id = true) :
    Lists (without (·.id) r.id m ++ [r])
      (rs.filter (fun s => !s.terms.contains (.ofId r.id)) ++ [r]) := by
  have hremoved := h.remove r.id
  refine ⟨hremoved.own.append hr fun s hs => ?_, hremoved.perm.append_right _⟩
  simpa using (List.mem_filter.1 hs).2

theorem lookup?_id (h : Lists m rs) (hr : r ∈ m) (hterm : isTerm r.id = true) :
    lookup? m r.id = some r := by
  cases hs : lookup? m r.id with
  | none => exact absurd (has_iff.2 ⟨r, hr, rfl⟩) (by simp [lookup?_eq_none_iff.1 hs hterm])
  | some s =>
    obtain ⟨hmem, hid, -⟩ := mem_of_lookup? hs
    rw [h.ownIds.eq_of_id_eq hr hmem hterm hid.symm]

theorem filter_ofId (h : Lists m rs) (id : String) :
    rs.filter (fun r => r.terms.contains (.ofId id)) = (lookup? m id).toList := by
  have hfound : rs.filter (fun r => r.terms.contains (.ofId id)) =
      rs.filter fun r => finds id r.id :=
    List.filter_congr fun r hr => h.own.contains_ofId hr id
  -- Of the records in a list that an id finds there is one at most, so that it is the first.
  have hfilter {ts : List Record} (hts : OwnIds ts) :
      ts.filter (fun r => finds id r.id) = (lookup? ts id).toList := by
    cases hlookup : lookup? ts id with
    | none => exact List.filter_eq_nil_iff.2 fun r hr => List.find?_eq_none.1 hlookup r hr
    | some r =>
      obtain ⟨hr, rfl, hterm⟩ := mem_of_lookup? hlookup
      obtain ⟨front, back, rfl⟩ := List.append_of_mem hr
      have hothers : ∀ s ∈ front ++ back, ¬finds r.id s.id = true := by
        intro s hs hfinds
        have hnodup := hts.nodup
        rw [List.map_append, List.map_cons, List.filter_append, List.filter_cons_of_pos hterm,
          List.nodup_middle, List.nodup_cons, ← List.filter_append, ← List.map_append] at hnodup
        obtain ⟨hid, -⟩ := finds_iff.1 hfinds
        exact hnodup.1 (List.mem_filter.2 ⟨hid ▸ List.mem_map_of_mem hs, hterm⟩)
      rw [List.filter_append,
        List.filter_cons_of_pos (p := fun s : Record => finds r.id s.id)
          (finds_iff.2 ⟨rfl, hterm⟩),
        List.filter_eq_nil_iff.2 fun s hs => hothers s (List.mem_append_left _ hs),
        List.filter_eq_nil_iff.2 fun s hs => hothers s (List.mem_append_right _ hs)]
      rfl
  have hperm := h.perm.filter fun r => finds id r.id
  rw [hfilter h.ownIds] at hperm
  rw [hfound]
  cases hlookup : lookup? m id with
  | none => simpa [hlookup] using hperm
  | some r => simpa [hlookup, List.perm_singleton] using hperm

end Lists

/-! ## Readers -/

/-- What a query finds is what it matches, in some order. -/
theorem Segments.ranking_perm (ss : Segments) (l : Layout) (q : TermQuery) :
    ((ss.ranking l q).map (·.2)).Perm (ss.records.filter fun r => q.matchesRecord r) := by
  refine ((List.mergeSort_perm _ _).map _).trans (.of_eq ?_)
  rw [records, List.map_flatMap, List.filter_flatMap]
  simp [Function.comp_def]

/-- The hit for a match. -/
def hit (m : Single × Record) : Except Error SearchHit :=
  m.2.document.map fun d => ⟨m.2.id, m.1, d⟩

namespace Store

variable {s : Store} {v : Volume} {m : List Record}

/-- Whoever counts, lists, loads or searches sees these records, one for each id that is a term, and
changes nothing. -/
structure Shows (m : List Record) (x : Store × Volume) : Prop where
  nodup : ((m.map (·.id)).filter isTerm).Nodup
  count : x.1.count = m.length
  ids : ∀ offset limit, ids offset limit x = .ok (((idsOf m).drop offset).take limit) x
  get? : ∀ id, x.1.get? id =
    match lookup? m id with
    | none => .ok none
    | some r => r.document.map fun d => some ⟨id, d⟩
  search : ∀ q, ∃ found : List (Single × Record),
    (found.map (·.2)).Perm (m.filter fun r => q.matchesRecord r) ∧
      ∀ offset limit, search q offset limit x =
        if x.1.live.isSome ∧ q.asks storedField then
          .error (.query "search failed" (some "the field is not indexed")) x
        else
          match ((found.drop offset).take limit).mapM hit with
          | .ok hits => .ok ⟨hits, some found.length⟩ x
          | .error e => .error e x

theorem refresh_of_writable (h : s.readonly = false) : refresh (s, v) = .ok () (s, v) := by
  rw [refresh, Action.get_bind]
  simp [h]

theorem shows_iff (h : Lists m s.visible.records) {id : String} :
    s.shows id = true ↔ ∃ r ∈ m, r.id = id ∧ isTerm id = true := by
  rw [shows, List.any_eq_true]
  refine exists_congr fun r => ?_
  rw [← h.mem_iff]
  refine and_congr_right fun hr => ?_
  rw [h.own.contains_ofId hr, finds_iff]

/-- An id that is a term finds a record just when one has it. -/
theorem shows_eq (h : Lists m s.visible.records) {id : String} (hterm : isTerm id = true) :
    s.shows id = has m id := by
  rw [Bool.eq_iff_iff, shows_iff h, has_iff]
  simp only [hterm, and_true]

/-- What is loaded under an id is the record that it finds. -/
theorem get?_of_lists (h : Lists m s.visible.records) (id : String) :
    s.get? id =
      match lookup? m id with
      | none => .ok none
      | some r => r.document.map fun d => some ⟨id, d⟩ := by
  have hperm := s.visible.ranking_perm s.fields.layout (.term (.ofId id))
  simp only [TermQuery.matchesRecord] at hperm
  rw [h.filter_ofId] at hperm
  rw [Store.get?, ranking]
  cases hm : lookup? m id with
  | none =>
    have hnone : s.visible.ranking s.fields.layout (.term (.ofId id)) = [] := by
      simpa [hm] using hperm
    rw [hnone]
  | some r =>
    obtain ⟨score, hfound⟩ : ∃ score,
        s.visible.ranking s.fields.layout (.term (.ofId id)) = [(score, r)] := by
      simpa [hm, List.map_eq_singleton_iff] using hperm
    rw [hfound]

theorem shows_of_steady (hsteady : refresh (s, v) = .ok () (s, v)) (h : Lists m s.visible.records) :
    Shows m (s, v) where
  nodup := h.ownIds.nodup
  count := h.perm.length_eq
  ids offset limit := by
    rw [← idsOf_perm h.perm, Store.ids, Action.bind_of_ok hsteady]
    rfl
  get? := get?_of_lists h
  search q := by
    refine ⟨s.ranking q, ?_, fun offset limit => ?_⟩
    · exact (s.visible.ranking_perm _ q).trans (h.perm.filter _)
    · rw [Store.search, Action.bind_of_ok hsteady, Action.get_bind]
      by_cases hasks : s.live.isSome ∧ q.asks storedField
      · rw [if_pos hasks]
        simp [hasks]
      · rw [if_neg hasks]
        simp only [hasks, if_false, Action.bind_run, Action.ofExcept_run]
        rw [show hit = fun m => m.2.document.map fun d => (⟨m.2.id, m.1, d⟩ : SearchHit) from rfl]
        generalize List.mapM (m := Except Error) _ _ = hits
        cases hits <;> rfl

theorem shows_of_lists (hwritable : s.readonly = false) (h : Lists m s.visible.records) :
    Shows m (s, v) := shows_of_steady (refresh_of_writable hwritable) h

end Store

end Searchlight.Disk
