import Mathlib.Data.Set.SymmDiff
import Mathlib.Order.ConditionallyCompleteLattice.Basic
import Searchlight.Proofs.Disk.Matching
import Searchlight.Proofs.Driver.Sound
import Searchlight.Proofs.Memory.Matching
import Searchlight.Proofs.SetStore.Matching

/-!
# Queries of a driver are set algebra

What a backend matches are its own elements: entries, ids or records. Where an id stands for at most
one of them, the algebra of elements is one of ids; an id that several share is matched by more or
by less (`SetAlgebra.of_isAlgebra`). On disk only an id that is no term is shared, because ids that
are terms are kept apart.
-/

namespace Searchlight

open Query

/-- The public operations on queries that translate are set operations on the ids that they match, so
far as the backend has them and apart from `shared` ids. Of these, an intersection may lack some that
both parts match, and a difference may have some that the second part matches. -/
structure SetAlgebra {ν : Type} (caps : Capabilities) (translate : Query → Except Error ν)
    (ids : ν → Set String) (shared : Set String) : Prop where
  and {a b : Query} {x y : ν} : a.Built → b.Built → translate a = .ok x → translate b = .ok y →
    ∃ z, translate (a.and b) = .ok z ∧ (ids x ∩ ids y) \ shared ⊆ ids z ∧ ids z ⊆ ids x ∩ ids y
  or {a b : Query} {x y : ν} : a.Built → b.Built → translate a = .ok x → translate b = .ok y →
    ∃ z, translate (a.or b) = .ok z ∧ ids z = ids x ∪ ids y
  not {a b : Query} {x y : ν} : a.Built → b.Built → translate a = .ok x → translate b = .ok y →
    caps.supportsOperator .not = true →
    ∃ z, translate (a.not b) = .ok z ∧ ids x \ ids y ⊆ ids z ∧ ids z ⊆ ids x \ (ids y \ shared)
  xor {a b : Query} {x y : ν} : a.Built → b.Built → translate a = .ok x → translate b = .ok y →
    caps.supportsOperator .xor = true →
    ∃ z, translate (a.xor b) = .ok z ∧ symmDiff (ids x) (ids y) ⊆ ids z ∧
      ids z ⊆ symmDiff (ids x) (ids y) ∪ ids x ∩ ids y ∩ shared
  weight {a : Query} {x : ν} {w : Single} : a.Built → translate a = .ok x → w.isWeight = true →
    caps.supportsOperator .weight = true →
    ∃ z, translate (a.weight w) = .ok z ∧ ids z = ids x

namespace SetAlgebra

variable {β ι : Type} {caps : Capabilities} {backend : String} {t : Translator β}
  {m : ι → β → Bool} {R : String → ι → Prop} {x y z : β}

/-- The ids that stand for something that a native query matches. -/
def idsOf (R : String → ι → Prop) (m : ι → β → Bool) (x : β) : Set String :=
  {id | ∃ i, R id i ∧ m i x = true}

/-- The ids that stand for several elements. -/
def sharedBy (R : String → ι → Prop) : Set String := {id | ∃ i j, R id i ∧ R id j ∧ i ≠ j}

/-! ## Elements and ids -/

/-- An id that is not shared is matched as its element is. -/
theorem eq_of_not_mem_sharedBy {id : String} (h : id ∉ sharedBy R) {i j : ι} (hi : R id i)
    (hj : R id j) : i = j := by
  by_contra hne
  exact h ⟨i, j, hi, hj, hne⟩

theorem idsOf_and (h : ∀ i, m i z = (m i x && m i y)) :
    (idsOf R m x ∩ idsOf R m y) \ sharedBy R ⊆ idsOf R m z ∧
      idsOf R m z ⊆ idsOf R m x ∩ idsOf R m y := by
  constructor
  · rintro id ⟨⟨⟨i, hi, hx⟩, j, hj, hy⟩, hid⟩
    cases eq_of_not_mem_sharedBy hid hi hj
    exact ⟨i, hi, by rw [h, hx, hy]; rfl⟩
  · rintro id ⟨i, hi, hz⟩
    obtain ⟨hx, hy⟩ := Bool.and_eq_true_iff.1 (h i ▸ hz)
    exact ⟨⟨i, hi, hx⟩, i, hi, hy⟩

theorem idsOf_or (h : ∀ i, m i z = (m i x || m i y)) :
    idsOf R m z = idsOf R m x ∪ idsOf R m y := by
  ext id
  simp only [idsOf, h, Bool.or_eq_true, Set.mem_union, Set.mem_ofPred_eq, and_or_left, exists_or]

theorem idsOf_not (h : ∀ i, m i z = (m i x && !m i y)) :
    idsOf R m x \ idsOf R m y ⊆ idsOf R m z ∧
      idsOf R m z ⊆ idsOf R m x \ (idsOf R m y \ sharedBy R) := by
  constructor
  · rintro id ⟨⟨i, hi, hx⟩, hy⟩
    have hy : m i y = false := Bool.eq_false_iff.2 fun hm => hy ⟨i, hi, hm⟩
    exact ⟨i, hi, by rw [h, hx, hy]; rfl⟩
  · rintro id ⟨i, hi, hz⟩
    obtain ⟨hx, hy⟩ := Bool.and_eq_true_iff.1 (h i ▸ hz)
    refine ⟨⟨i, hi, hx⟩, ?_⟩
    rintro ⟨⟨j, hj, hm⟩, hid⟩
    cases eq_of_not_mem_sharedBy hid hi hj
    simp [hm] at hy

theorem idsOf_xor (h : ∀ i, m i z = (m i x ^^ m i y)) :
    symmDiff (idsOf R m x) (idsOf R m y) ⊆ idsOf R m z ∧
      idsOf R m z ⊆
        symmDiff (idsOf R m x) (idsOf R m y) ∪ idsOf R m x ∩ idsOf R m y ∩ sharedBy R := by
  constructor
  · rintro id (⟨⟨i, hi, hm⟩, hn⟩ | ⟨⟨i, hi, hm⟩, hn⟩)
    · have hn : m i y = false := Bool.eq_false_iff.2 fun hy => hn ⟨i, hi, hy⟩
      exact ⟨i, hi, by rw [h, hm, hn]; rfl⟩
    · have hn : m i x = false := Bool.eq_false_iff.2 fun hx => hn ⟨i, hi, hx⟩
      exact ⟨i, hi, by rw [h, hm, hn]; rfl⟩
  · rintro id ⟨i, hi, hz⟩
    rw [h] at hz
    by_cases hboth : id ∈ idsOf R m x ∧ id ∈ idsOf R m y
    · -- Both match the id, though only one of them matches this element of it.
      obtain ⟨⟨j, hj, hx⟩, k, hk, hy⟩ := hboth
      refine .inr ⟨⟨⟨j, hj, hx⟩, k, hk, hy⟩, ?_⟩
      by_contra hid
      cases eq_of_not_mem_sharedBy hid hi hj
      cases eq_of_not_mem_sharedBy hid hi hk
      simp [hx, hy] at hz
    · refine .inl ?_
      cases hx : m i x with
      | true => exact .inl ⟨⟨i, hi, hx⟩, fun hy => hboth ⟨⟨i, hi, hx⟩, hy⟩⟩
      | false =>
        have hy : m i y = true := by simpa [hx] using hz
        exact .inr ⟨⟨i, hi, hy⟩, fun hx => hboth ⟨hx, i, hi, hy⟩⟩

/-- A node of queries that translate does so as well, and is matched as its parts are. -/
theorem exists_node {a b q : Query} {g : Bool → Bool → Bool}
    (hq : a.Supported caps → b.Supported caps → q.Supported caps)
    (hfold : ∀ {x y}, fold t a = .ok x → fold t b = .ok y →
      ∃ z, fold t q = .ok z ∧ ∀ i, m i z = g (m i x) (m i y))
    (hx : a.translate caps backend t = .ok x) (hy : b.translate caps backend t = .ok y) :
    ∃ z, q.translate caps backend t = .ok z ∧ ∀ i, m i z = g (m i x) (m i y) := by
  obtain ⟨sa, hx⟩ := translate_eq_ok_iff.1 hx
  obtain ⟨sb, hy⟩ := translate_eq_ok_iff.1 hy
  obtain ⟨z, hz, hm⟩ := hfold hx hy
  exact ⟨z, translate_eq_ok_iff.2 ⟨hq sa sb, hz⟩, hm⟩

/-- **Algebra over elements is algebra over ids**, apart from ids that stand for several elements. -/
theorem of_isAlgebra (ht : t.IsAlgebra m) (hand : caps.supportsOperator .and = true)
    (hor : caps.supportsOperator .or = true)
    (hweight : caps.supportsOperator .weight = true →
      ∀ x w, ∃ z, t.weight x w = .ok z ∧ ∀ i, m i z = m i x) :
    SetAlgebra caps (fun q => q.translate caps backend t) (idsOf R m) (sharedBy R) where
  and ha hb hx hy := by
    obtain ⟨z, hz, hm⟩ := exists_node (.and hand) (fold_and ht ha.full hb.full) hx hy
    exact ⟨z, hz, idsOf_and hm⟩
  or _ _ hx hy := by
    obtain ⟨z, hz, hm⟩ := exists_node (.or hor) (fold_or ht) hx hy
    exact ⟨z, hz, idsOf_or hm⟩
  not _ _ hx hy hop := by
    obtain ⟨z, hz, hm⟩ := exists_node (g := fun p n => p && !n) (.not hop) (fold_not ht) hx hy
    exact ⟨z, hz, idsOf_not hm⟩
  xor _ _ hx hy hop := by
    obtain ⟨z, hz, hm⟩ := exists_node (.xor hop) (fold_xor ht) hx hy
    exact ⟨z, hz, idsOf_xor hm⟩
  weight {_ _ w} _ hx hw hop := by
    obtain ⟨sa, hx⟩ := translate_eq_ok_iff.1 hx
    obtain ⟨z, hz, hm⟩ := fold_weight hw (hweight hop _ w) hx
    refine ⟨z, translate_eq_ok_iff.2 ⟨.weight hop sa w, hz⟩, ?_⟩
    simp only [idsOf, hm]

section
variable {ν ξ : Type} {translate : Query → Except Error ν} {ids : ν → Set String} {f : ν → ξ}
  {ids' : ξ → Set String} {shared : Set String} (hf : ∀ x, ids' (f x) = ids x)
include hf

theorem exists_map {a b q : Query} {P : Set String → Set String → Set String → Prop}
    (h : ∀ {x y}, translate a = .ok x → translate b = .ok y →
      ∃ z, translate q = .ok z ∧ P (ids z) (ids x) (ids y)) {x y : ξ}
    (hx : (translate a).map f = .ok x) (hy : (translate b).map f = .ok y) :
    ∃ z, (translate q).map f = .ok z ∧ P (ids' z) (ids' x) (ids' y) := by
  obtain ⟨x, hx', rfl⟩ := Except.map_eq_ok.1 hx
  obtain ⟨y, hy', rfl⟩ := Except.map_eq_ok.1 hy
  obtain ⟨z, hz, hids⟩ := h hx' hy'
  refine ⟨f z, Except.map_eq_ok.2 ⟨z, hz, rfl⟩, ?_⟩
  rwa [hf, hf, hf]

theorem map (h : SetAlgebra caps translate ids shared) :
    SetAlgebra caps (fun q => (translate q).map f) ids' shared where
  and ha hb := exists_map hf (P := fun z x y => (x ∩ y) \ shared ⊆ z ∧ z ⊆ x ∩ y) (h.and ha hb)
  or ha hb := exists_map hf (P := fun z x y => z = x ∪ y) (h.or ha hb)
  not ha hb hx hy hop := exists_map hf (P := fun z x y => x \ y ⊆ z ∧ z ⊆ x \ (y \ shared))
    (fun hx hy => h.not ha hb hx hy hop) hx hy
  xor ha hb hx hy hop :=
    exists_map hf (P := fun z x y => symmDiff x y ⊆ z ∧ z ⊆ symmDiff x y ∪ x ∩ y ∩ shared)
      (fun hx hy => h.xor ha hb hx hy hop) hx hy
  weight ha hx hw hop :=
    exists_map hf (P := fun z x _ => z = x) (fun hx _ => h.weight ha hx hw hop) hx hx

end

section
variable {ν ξ : Type} {check : Query → Except Error ξ} {translate : Query → Except Error ν}
  {ids : ν → Set String} {none : ξ → Set String} {caps' : Capabilities} {shared shared' : Set String}

theorem exists_after {a b q : Query} {P : ν → Prop} {Q : ξ → ξ → ξ → Prop}
    (hcheck : ∀ {x y}, check a = .ok x → check b = .ok y → ∃ z, check q = .ok z ∧ Q x y z)
    {x y : ν} (h : translate a = .ok x → translate b = .ok y → ∃ z, translate q = .ok z ∧ P z)
    (hx : (check a >>= fun _ => translate a) = .ok x)
    (hy : (check b >>= fun _ => translate b) = .ok y) :
    ∃ z, (check q >>= fun _ => translate q) = .ok z ∧ P z := by
  obtain ⟨u, hu, hx⟩ := Except.bind_eq_ok.1 hx
  obtain ⟨v, hv, hy⟩ := Except.bind_eq_ok.1 hy
  obtain ⟨w, hw, -⟩ := hcheck hu hv
  obtain ⟨z, hz, hids⟩ := h hx hy
  exact ⟨z, Except.bind_eq_ok.2 ⟨w, hw, hz⟩, hids⟩

theorem after_check (hcheck : SetAlgebra caps check none shared')
    (h : SetAlgebra caps' translate ids shared)
    (hcaps : ∀ op, caps.supportsOperator op = true → caps'.supportsOperator op = true) :
    SetAlgebra caps (fun q => check q >>= fun _ => translate q) ids shared where
  and ha hb := exists_after (hcheck.and ha hb) (h.and ha hb)
  or ha hb := exists_after (hcheck.or ha hb) (h.or ha hb)
  not ha hb hx hy hop :=
    exists_after (fun hx hy => hcheck.not ha hb hx hy hop)
      (fun hx hy => h.not ha hb hx hy (hcaps _ hop)) hx hy
  xor ha hb hx hy hop :=
    exists_after (fun hx hy => hcheck.xor ha hb hx hy hop)
      (fun hx hy => h.xor ha hb hx hy (hcaps _ hop)) hx hy
  weight ha hx hw hop :=
    exists_after (fun hx _ => hcheck.weight ha hx hw hop)
      (fun hx _ => h.weight ha hx hw (hcaps _ hop)) hx hx

end

end SetAlgebra

namespace Driver

/-- The ids of the documents that a native query matches; a query of another backend has none. -/
def matched (d : Driver) (h : Host) (q : NativeQuery) : Set String :=
  match d, q.content with
  | memory s, .tokens t | limited _ s, .tokens t => s.matched t
  | sets _, .plan p => h.server.matched p
  | disk s, .terms t => s.matched t
  | _, _ => ∅

/-- Documents are loaded under the id, if there are any: an index on disk has only ids that are
terms. -/
def isKey : Driver → String → Bool
  | disk _, id => Disk.isTerm id
  | memory _, _ | limited _ _, _ | sets _, _ => true

/-- The ids of several documents: on disk, of different records. -/
def shared : Driver → Set String
  | disk s => SetAlgebra.sharedBy fun id r => r ∈ s.visible.records ∧ r.id = id
  | memory _ | limited _ _ | sets _ => ∅

/-- Whether the driver has nothing but documents that can be loaded. -/
def hasKeysOnly : Driver → Bool
  | disk s => s.visible.records.all fun r => Disk.isTerm r.id
  | memory _ | limited _ _ | sets _ => true

theorem shared_eq_empty {d : Driver} (hd : d.hasKeysOnly = true)
    (hshared : ∀ id ∈ d.shared, d.isKey id = false) : d.shared = ∅ := by
  refine Set.eq_empty_of_forall_notMem fun id hid => ?_
  have hkey := hshared id hid
  cases d with
  | memory | limited | sets => cases hid
  | disk s =>
    obtain ⟨r, -, ⟨hr, rfl⟩, -⟩ := hid
    cases hkey.symm.trans (List.all_eq_true.1 hd r hr)

/-- **An id that documents share** is one that no document can be loaded by. -/
theorem isKey_of_mem_shared {d : Driver} (hd : d.Sound) {id : String} (hid : id ∈ d.shared) :
    d.isKey id = false := by
  cases d with
  | memory | limited | sets => cases hid
  | disk s =>
    obtain ⟨r, r', ⟨hr, rfl⟩, ⟨hr', hid⟩, hne⟩ := hid
    rw [isKey, ← Bool.not_eq_true]
    exact fun hterm => hne (hd.visible.eq_of_id_eq hr hr' hterm hid.symm)

theorem sharedBy_eq_empty {ι : Type} {R : String → ι → Prop}
    (hR : ∀ id i j, R id i → R id j → i = j) : SetAlgebra.sharedBy R = ∅ :=
  Set.eq_empty_of_forall_notMem fun id ⟨i, j, hi, hj, hne⟩ => hne (hR id i j hi hj)

theorem setAlgebra_memory (s : Memory.Store) :
    SetAlgebra Memory.capabilities
      (fun q => q.translate Memory.capabilities Memory.backendName (Memory.translator s.schema))
      s.matched ∅ := by
  have hids : s.matched =
      SetAlgebra.idsOf (fun id e => s.docs.get? id = some e) Memory.Entry.matchesQuery :=
    funext fun t => Set.ext fun id => Memory.Store.mem_matched
  rw [hids, ← sharedBy_eq_empty (R := fun id e => s.docs.get? id = some e)
    fun id i j hi hj => Option.some.inj (hi.symm.trans hj)]
  exact .of_isAlgebra (Memory.translator_isAlgebra s.schema) rfl rfl
    fun _ x w => ⟨_, rfl, fun e => e.matches_weight x w⟩

theorem setAlgebra_sets (s : SetStore.Store) (v : SetStore.Server) :
    SetAlgebra SetStore.capabilities
      (fun q => q.translate SetStore.capabilities SetStore.backendName
        (SetStore.translator s.keys s.schema)) v.matched ∅ := by
  have hids : v.matched = SetAlgebra.idsOf Eq (SetStore.Plan.holds v.sets) :=
    funext fun p => Set.ext fun id => by simp [SetStore.Server.matched, SetAlgebra.idsOf]
  rw [hids, ← sharedBy_eq_empty (R := Eq) fun id i j hi hj => hi.symm.trans hj]
  exact .of_isAlgebra (SetStore.translator_isAlgebra s.keys s.schema v.sets) rfl rfl nofun

theorem setAlgebra_disk (s : Disk.Store) :
    SetAlgebra Disk.capabilities
      (fun q => q.translate Disk.capabilities Disk.backendName (Disk.translator s.fields s.analyze))
      s.matched (shared (.disk s)) := by
  have hids : s.matched = SetAlgebra.idsOf (fun id r => r ∈ s.visible.records ∧ r.id = id)
      Disk.TermQuery.matchesRecord :=
    funext fun t => Set.ext fun id => by
      rw [Disk.Store.mem_matched]
      simp [SetAlgebra.idsOf, and_assoc]
  rw [hids]
  exact .of_isAlgebra (Disk.translator_isAlgebra s.fields s.analyze) rfl rfl
    fun _ x w => ⟨_, rfl, fun r => rfl⟩

/-- A store that checks the shape of a query first takes fewer queries and matches the same. -/
theorem setAlgebra_limited (s : Memory.Store) :
    SetAlgebra Memory.Limited.capabilities (Memory.Limited.translate s) s.matched ∅ := by
  have hshape : Memory.Limited.shapeCheck.IsAlgebra fun (i : Empty) _ => i.elim :=
    ⟨fun _ => ⟨(), rfl, nofun⟩, fun _ => ⟨(), rfl, nofun⟩, fun _ _ => ⟨(), rfl, nofun⟩,
      fun _ => ⟨(), rfl, nofun⟩⟩
  have hcheck : SetAlgebra Memory.Limited.capabilities
      (fun q => q.translate Memory.Limited.capabilities Memory.Limited.backendName
        Memory.Limited.shapeCheck)
      (SetAlgebra.idsOf (fun _ _ => True) fun (i : Empty) _ => i.elim) _ :=
    .of_isAlgebra hshape rfl rfl fun _ _ _ => ⟨(), rfl, nofun⟩
  exact hcheck.after_check (setAlgebra_memory s) fun op _ => by cases op <;> rfl

/-- **Queries of a driver are set algebra** over the ids of what they match. -/
theorem setAlgebra (d : Driver) (h : Host) :
    SetAlgebra d.capabilities d.translate (d.matched h) d.shared := by
  cases d with
  | memory s => exact (setAlgebra_memory s).map fun _ => rfl
  | limited key s => exact (setAlgebra_limited s).map fun _ => rfl
  | sets s => exact (setAlgebra_sets s h.server).map fun _ => rfl
  | disk s => exact (setAlgebra_disk s).map fun _ => rfl

end Driver

end Searchlight
