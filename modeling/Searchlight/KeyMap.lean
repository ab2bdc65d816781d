/-!
# Maps keyed by text

A key map is a list of entries in strictly ascending order of their keys, so that two maps
with the same entries are the same map (`ext`). Keys are ordered by code points. Everything
about a map follows from what `get?` finds in it.
-/

namespace Searchlight

/-- A map from texts, its entries in the order of their keys. -/
structure KeyMap (α : Type) where
  entries : List (String × α)
  sorted : entries.Pairwise (·.1 < ·.1)
  deriving DecidableEq

namespace KeyMap

variable {α β : Type}

def empty : KeyMap α := ⟨[], .nil⟩

instance : EmptyCollection (KeyMap α) := ⟨empty⟩
instance : Inhabited (KeyMap α) := ⟨empty⟩

def find (k : String) : List (String × α) → Option α
  | [] => none
  | e :: es => if e.1 = k then some e.2 else find k es

def set (k : String) (v : α) : List (String × α) → List (String × α)
  | [] => [(k, v)]
  | e :: es =>
    if k < e.1 then (k, v) :: e :: es
    else if k = e.1 then (k, v) :: es
    else e :: set k v es

theorem lt_of_not_lt_of_ne {a b : String} (h : ¬a < b) (hn : a ≠ b) : b < a :=
  Classical.byContradiction fun hba =>
    hn (String.le_antisymm (String.not_lt.1 hba) (String.not_lt.1 h))

theorem mem_set {k : String} {v : α} {es : List (String × α)} {x : String × α}
    (h : x ∈ set k v es) : x = (k, v) ∨ x ∈ es := by
  induction es with
  | nil => simpa [set] using h
  | cons e es ih =>
    simp only [set] at h
    split at h
    · simpa using h
    · split at h
      · rcases List.mem_cons.1 h with h | h
        · exact .inl h
        · exact .inr (List.mem_cons_of_mem _ h)
      · rcases List.mem_cons.1 h with h | h
        · exact .inr (h ▸ List.mem_cons_self)
        · exact (ih h).imp_right (List.mem_cons_of_mem _)

theorem pairwise_set (k : String) (v : α) {es : List (String × α)}
    (h : es.Pairwise (·.1 < ·.1)) : (set k v es).Pairwise (·.1 < ·.1) := by
  induction es with
  | nil => simp [set]
  | cons e es ih =>
    obtain ⟨he, hes⟩ := List.pairwise_cons.1 h
    simp only [set]
    split
    · rename_i hk
      refine List.pairwise_cons.2 ⟨fun x hx => ?_, h⟩
      rcases List.mem_cons.1 hx with rfl | hx
      · exact hk
      · exact String.lt_trans hk (he x hx)
    · rename_i hk
      split
      · rename_i hke
        exact List.pairwise_cons.2 ⟨fun x hx => hke ▸ he x hx, hes⟩
      · rename_i hke
        refine List.pairwise_cons.2 ⟨fun x hx => ?_, ih hes⟩
        rcases mem_set hx with rfl | hx
        · exact lt_of_not_lt_of_ne hk hke
        · exact he x hx

/-- What the map holds under a key. -/
def get? (m : KeyMap α) (k : String) : Option α := find k m.entries

def contains (m : KeyMap α) (k : String) : Bool := (m.get? k).isSome

def insert (m : KeyMap α) (k : String) (v : α) : KeyMap α :=
  ⟨set k v m.entries, pairwise_set k v m.sorted⟩

def filter (m : KeyMap α) (p : String → α → Bool) : KeyMap α :=
  ⟨m.entries.filter fun e => p e.1 e.2, m.sorted.filter _⟩

def erase (m : KeyMap α) (k : String) : KeyMap α := m.filter fun k' _ => k' != k

def map (m : KeyMap α) (f : String → α → β) : KeyMap β :=
  ⟨m.entries.map fun e => (e.1, f e.1 e.2), by
    rw [List.pairwise_map]; exact m.sorted⟩

/-- The map of a list of entries, a later entry replacing an earlier one. -/
def ofList (es : List (String × α)) : KeyMap α := es.foldl (fun m e => m.insert e.1 e.2) empty

def keys (m : KeyMap α) : List String := m.entries.map (·.1)

def size (m : KeyMap α) : Nat := m.entries.length

def isEmpty (m : KeyMap α) : Bool := m.entries.isEmpty

/-! ## What the operations find -/

@[simp] theorem get?_empty (k : String) : (empty : KeyMap α).get? k = none := rfl

theorem find_set (k k' : String) (v : α) (es : List (String × α)) :
    find k' (set k v es) = if k = k' then some v else find k' es := by
  induction es with
  | nil => simp [set, find]
  | cons e es ih =>
    simp only [set]
    split
    · simp [find]
    · split
      · rename_i hke
        by_cases hk : k = k' <;> simp_all [find]
      · rename_i hke
        by_cases he : e.1 = k'
        · have : k ≠ k' := fun h => hke (h.trans he.symm)
          simp [find, he, this]
        · simp [find, he, ih]

@[simp] theorem get?_insert (m : KeyMap α) (k k' : String) (v : α) :
    (m.insert k v).get? k' = if k = k' then some v else m.get? k' :=
  find_set k k' v m.entries

theorem find_eq_some_iff {k : String} {v : α} {es : List (String × α)}
    (h : es.Pairwise (·.1 < ·.1)) : find k es = some v ↔ (k, v) ∈ es := by
  induction es with
  | nil => simp [find]
  | cons e es ih =>
    obtain ⟨he, hes⟩ := List.pairwise_cons.1 h
    simp only [find, List.mem_cons]
    split
    · rename_i hk
      constructor
      · intro hv; exact .inl (by cases hv; rw [← hk])
      · rintro (rfl | hm)
        · rfl
        · exact absurd (he _ hm) (by rw [hk]; exact String.lt_irrefl _)
    · rename_i hk
      rw [ih hes]
      exact ⟨.inr, fun hm => hm.resolve_left fun h => hk (by rw [← h])⟩

theorem get?_eq_some_iff {m : KeyMap α} {k : String} {v : α} :
    m.get? k = some v ↔ (k, v) ∈ m.entries := find_eq_some_iff m.sorted

@[simp] theorem get?_filter (m : KeyMap α) (p : String → α → Bool) (k : String) :
    (m.filter p).get? k = (m.get? k).filter (p k) := by
  apply Option.ext
  intro v
  rw [get?_eq_some_iff, Option.filter_eq_some_iff, get?_eq_some_iff]
  simp [filter]

@[simp] theorem get?_erase (m : KeyMap α) (k k' : String) :
    (m.erase k).get? k' = if k = k' then none else m.get? k' := by
  rw [erase, get?_filter]
  by_cases h : k = k'
  · cases hm : m.get? k' <;> simp [h]
  · cases hm : m.get? k' <;> simp [h, Ne.symm h]

theorem contains_eq_true_iff {m : KeyMap α} {k : String} :
    m.contains k = true ↔ ∃ v, m.get? k = some v := by
  simp [contains, Option.isSome_iff_exists]

theorem entries_ext {es fs : List (String × α)} (he : es.Pairwise (·.1 < ·.1))
    (hf : fs.Pairwise (·.1 < ·.1)) (h : ∀ x, x ∈ es ↔ x ∈ fs) : es = fs := by
  induction es generalizing fs with
  | nil =>
    cases fs with
    | nil => rfl
    | cons f fs => exact absurd ((h f).2 List.mem_cons_self) (by simp)
  | cons e es ih =>
    cases fs with
    | nil => exact absurd ((h e).1 List.mem_cons_self) (by simp)
    | cons f fs =>
      obtain ⟨he1, he2⟩ := List.pairwise_cons.1 he
      obtain ⟨hf1, hf2⟩ := List.pairwise_cons.1 hf
      have hef : e = f := by
        rcases List.mem_cons.1 ((h e).1 List.mem_cons_self) with h1 | h1
        · exact h1
        · rcases List.mem_cons.1 ((h f).2 List.mem_cons_self) with h2 | h2
          · exact h2.symm
          · exact absurd (String.lt_trans (hf1 e h1) (he1 f h2)) (String.lt_irrefl _)
      subst hef
      congr 1
      apply ih he2 hf2
      intro x
      constructor
      · intro hx
        rcases List.mem_cons.1 ((h x).1 (List.mem_cons_of_mem _ hx)) with h1 | h1
        · exact absurd (he1 x hx) (by rw [h1]; exact String.lt_irrefl _)
        · exact h1
      · intro hx
        rcases List.mem_cons.1 ((h x).2 (List.mem_cons_of_mem _ hx)) with h1 | h1
        · exact absurd (hf1 x hx) (by rw [h1]; exact String.lt_irrefl _)
        · exact h1

/-- Two maps that hold the same under every key are the same. -/
theorem ext {m n : KeyMap α} (h : ∀ k, m.get? k = n.get? k) : m = n := by
  have : m.entries = n.entries := entries_ext m.sorted n.sorted fun x => by
    rw [← get?_eq_some_iff, ← get?_eq_some_iff, h]
  cases m; cases n; simp_all

end KeyMap

/-! ## Sets of texts -/

/-- A set of texts is a key map without values, so that two sets with the same members are the same
set. -/
abbrev TextSet := KeyMap Unit

namespace TextSet

def ofList (xs : List String) : TextSet := KeyMap.ofList (xs.map (·, ()))

def add (s : TextSet) (x : String) : TextSet := s.insert x ()

def inter (a b : TextSet) : TextSet := a.filter fun k _ => b.contains k

def diff (a b : TextSet) : TextSet := a.filter fun k _ => !b.contains k

def union (a b : TextSet) : TextSet := b.entries.foldl (fun s e => s.insert e.1 ()) a

end TextSet

end Searchlight
