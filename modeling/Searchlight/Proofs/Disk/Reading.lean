import Searchlight.Proofs.Disk.Ledger

/-!
# Reading an index

A store that has looked at the directory shows the records of the index there (`LooksAt`), whether
it is the one that writes them or is open for reading. Queries ask for terms of the fields of a
schema (`translator_asks`), which all indexes search, and never for stored fields.
-/

namespace Searchlight.Disk

/-! ## What queries ask for -/

namespace TermQuery

variable {field : Nat}

theorem anyAsks_eq_any (qs : List TermQuery) : anyAsks field qs = qs.any (asks field) := by
  induction qs with
  | nil => rfl
  | cons q qs ih => rw [anyAsks, ih, List.any_cons]

theorem asks_clauses {required optional excluded : List TermQuery}
    (hrequired : ∀ q ∈ required, q.asks field = false)
    (hoptional : ∀ q ∈ optional, q.asks field = false)
    (hexcluded : ∀ q ∈ excluded, q.asks field = false) :
    (clauses required optional excluded).asks field = false := by
  simp only [asks, anyAsks_eq_any, Bool.or_eq_false_iff, List.any_eq_false, Bool.not_eq_true]
  exact ⟨⟨hrequired, hoptional⟩, hexcluded⟩

theorem asks_allOf {qs : List TermQuery} (h : ∀ q ∈ qs, q.asks field = false) :
    (allOf qs).asks field = false := by
  rcases qs with _ | ⟨q, _ | ⟨q', qs⟩⟩
  · rfl
  · exact h q List.mem_cons_self
  · exact asks_clauses h (by simp) (by simp)

theorem asks_anyOf {qs : List TermQuery} (h : ∀ q ∈ qs, q.asks field = false) :
    (anyOf qs).asks field = false := by
  rcases qs with _ | ⟨q, _ | ⟨q', qs⟩⟩
  · rfl
  · exact h q List.mem_cons_self
  · exact asks_clauses (by simp) h (by simp)

theorem asks_exclusive {a b : TermQuery} (ha : a.asks field = false) (hb : b.asks field = false) :
    (exclusive a b).asks field = false :=
  asks_clauses (by simp) (by simp [ha, hb])
    (by simpa using asks_clauses (by simp [ha, hb]) (by simp) (by simp))

theorem asks_oddOf {qs : List TermQuery} (h : ∀ q ∈ qs, q.asks field = false) :
    (oddOf qs).asks field = false := by
  cases qs with
  | nil => rfl
  | cons q qs =>
    obtain ⟨hq, hqs⟩ := List.forall_mem_cons.1 h
    rw [oddOf]
    clear h
    induction qs generalizing q with
    | nil => exact hq
    | cons q' qs ih =>
      obtain ⟨hq', hqs⟩ := List.forall_mem_cons.1 hqs
      exact ih (exclusive q q') (asks_exclusive hq hq') hqs

end TermQuery

/-- **Queries ask for no field that every index has.** -/
theorem translator_asks {m : FieldMap} (hm : m.IsNumbered) (hu : m.Unreserved)
    (analyze : Analyzer) : (translator m analyze).Hereditary fun q => q.asks storedField = false where
  freeText {terms x} h := by
    cases h
    rw [freeTextLeaf]
    split
    · rfl
    · refine TermQuery.asks_allOf fun q hq => ?_
      obtain ⟨t, -, rfl⟩ := List.mem_map.1 hq
      refine TermQuery.asks_anyOf fun q hq => ?_
      obtain ⟨n, hn, rfl⟩ := List.mem_map.1 hq
      obtain ⟨e, he, rfl⟩ := List.mem_map.1 hn
      have htwo := FieldMap.two_le_number hm hu
        (KeyMap.get?_eq_some_iff.2 (List.mem_filter.1 he).1 : m.numbered.get? e.1 = some (e.2.1, e.2.2))
      simp [TermQuery.asks, storedField]
      omega
  field {name terms x} h := by
    simp only [translator, fieldLeaf] at h
    split at h
    · rename_i n config hn
      obtain ⟨vs, -, rfl⟩ := Except.map_eq_ok.1 h
      refine TermQuery.asks_allOf fun q hq => ?_
      obtain ⟨t, -, rfl⟩ := List.mem_map.1 hq
      have htwo := FieldMap.two_le_number hm hu hn
      simp [TermQuery.asks, storedField]
      omega
    · split at h <;> cases h
      rfl
  and hxs h := by
    cases h
    exact TermQuery.asks_clauses hxs (by simp) (by simp)
  or hxs h := by
    cases h
    exact TermQuery.asks_clauses (by simp) hxs (by simp)
  not hp hn h := by
    cases h
    exact TermQuery.asks_clauses (by simpa using hp) (by simp) (by simpa using hn)
  xor hxs h := by
    cases h
    exact TermQuery.asks_oddOf hxs
  weight hy h := by
    cases h
    exact hy

/-! ## Who shows the index -/

namespace Store

variable {l : Ledger} {s : Store} {v : Volume} {path : String} {m : List Record}

/-- The store shows the index that a path leads to, and to look there again changes nothing. -/
structure LooksAt (s : Store) (path : String) (v : Volume) : Prop where
  isNumbered : s.fields.IsNumbered
  unreserved : s.fields.Unreserved
  visible : s.visible.records = v.recordsAt path
  steady : refresh (s, v) = .ok () (s, v)

/-- A store that writes an index shows it. -/
theorem Booked.looksAt (h : Booked l s v) : s.LooksAt s.path v where
  isNumbered := h.isNumbered
  unreserved := h.unreserved
  steady := refresh_of_writable h.readonly
  visible := by
    rcases h.records with ⟨hlive, -, -, hrecords⟩ | ⟨hserves, -, -⟩
    · rw [visible, hlive, hrecords]
      rfl
    · rw [hserves.visible, hserves.recordsAt]

theorem LooksAt.shows (h : s.LooksAt path v) (hm : Lists m (v.recordsAt path)) : Shows m (s, v) :=
  shows_of_steady h.steady (h.visible ▸ hm)

end Store

end Searchlight.Disk
