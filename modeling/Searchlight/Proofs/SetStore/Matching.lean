import Mathlib.Data.Set.Basic
import Searchlight.Proofs.Query.Algebra
import Searchlight.Proofs.Schema.Fields
import Searchlight.SetStore.Server

/-!
# What plans match

A plan stands for a set of ids, made of the sets under keys (`Plan.holds`). An odd number of parts
is told pair by pair, which comes to the same as counting them (`holds_oddOf`), so plans are set
algebra over ids whatever the keys hold (`translator_isAlgebra`).
-/

namespace Searchlight.SetStore

namespace Plan

mutual

/-- The id is in the set that the plan stands for. An intersection of nothing is empty. -/
def holds (sets : String → TextSet) (id : String) : Plan → Bool
  | key k => (sets k).contains id
  | nothing => false
  | inter parts => !parts.isEmpty && allHold sets id parts
  | union parts => anyHolds sets id parts
  | diff p n => holds sets id p && !holds sets id n

def allHold (sets : String → TextSet) (id : String) : List Plan → Bool
  | [] => true
  | p :: ps => holds sets id p && allHold sets id ps

def anyHolds (sets : String → TextSet) (id : String) : List Plan → Bool
  | [] => false
  | p :: ps => holds sets id p || anyHolds sets id ps

end

variable {sets : String → TextSet} {id : String}

theorem allHold_eq_all (ps : List Plan) : allHold sets id ps = ps.all (holds sets id) := by
  induction ps with
  | nil => rfl
  | cons p ps ih => rw [allHold, ih, List.all_cons]

theorem anyHolds_eq_any (ps : List Plan) : anyHolds sets id ps = ps.any (holds sets id) := by
  induction ps with
  | nil => rfl
  | cons p ps ih => rw [anyHolds, ih, List.any_cons]

theorem holds_inter {ps : List Plan} (h : ps ≠ []) :
    holds sets id (inter ps) = ps.all (holds sets id) := by
  simp [holds, allHold_eq_all, h]

theorem holds_union (ps : List Plan) :
    holds sets id (union ps) = ps.any (holds sets id) := by
  rw [holds, anyHolds_eq_any]

theorem holds_exclusive (a b : Plan) :
    holds sets id (exclusive a b) = (holds sets id a ^^ holds sets id b) := by
  rw [exclusive, holds, holds_union, holds_inter (by simp)]
  cases ha : holds sets id a <;> cases hb : holds sets id b <;> simp [ha, hb]

theorem holds_oddOf (ps : List Plan) :
    holds sets id (oddOf ps) = decide (ps.countP (holds sets id) % 2 = 1) := by
  cases ps with
  | nil => simp [oddOf, holds]
  | cons p ps => exact foldl_exclusive holds_exclusive p ps

/-- An intersection of keys asks for some key, and for the id under all of them. -/
theorem holds_interOf (ks : List String) :
    holds sets id (interOf ks) = (!ks.isEmpty && ks.all fun k => (sets k).contains id) := by
  rcases ks with _ | ⟨k, _ | ⟨l, ks⟩⟩
  · rfl
  · simp [interOf, holds]
  · change holds sets id (inter ((k :: l :: ks).map key)) = _
    rw [holds_inter (by simp), List.all_map]
    rfl

mutual

theorem holds_eq_false (h : ∀ k, (sets k).contains id = false) (p : Plan) :
    holds sets id p = false :=
  match p with
  | key k => h k
  | nothing => rfl
  | inter [] => rfl
  | inter (p :: ps) => by simp [holds, allHold, holds_eq_false h p]
  | union ps => anyHolds_eq_false h ps
  | diff p n => by simp [holds, holds_eq_false h p]

theorem anyHolds_eq_false (h : ∀ k, (sets k).contains id = false) (ps : List Plan) :
    anyHolds sets id ps = false :=
  match ps with
  | [] => rfl
  | p :: ps => by simp [anyHolds, holds_eq_false h p, anyHolds_eq_false h ps]

end

/-! ## The keys of a plan -/

mutual

/-- All keys of the plan are of some sort. -/
def Over (P : String → Prop) : Plan → Prop
  | key k => P k
  | nothing => True
  | inter parts => OverAll P parts
  | union parts => OverAll P parts
  | diff p n => Over P p ∧ Over P n

def OverAll (P : String → Prop) : List Plan → Prop
  | [] => True
  | p :: ps => Over P p ∧ OverAll P ps

end

variable {P : String → Prop}

theorem overAll_iff {ps : List Plan} : OverAll P ps ↔ ∀ p ∈ ps, p.Over P := by
  induction ps with
  | nil => simp [OverAll]
  | cons p ps ih => rw [OverAll, ih, List.forall_mem_cons]

theorem over_interOf {ks : List String} (h : ∀ k ∈ ks, P k) : (interOf ks).Over P := by
  rcases ks with _ | ⟨k, _ | ⟨l, ks⟩⟩
  · trivial
  · exact h k List.mem_cons_self
  · refine overAll_iff.2 fun p hp => ?_
    obtain ⟨k', hk', rfl⟩ := List.mem_map.1 hp
    exact h k' hk'

theorem over_oddOf {ps : List Plan} (h : ∀ p ∈ ps, p.Over P) : (oddOf ps).Over P := by
  cases ps with
  | nil => trivial
  | cons p ps =>
    obtain ⟨hp, hps⟩ := List.forall_mem_cons.1 h
    rw [oddOf]
    clear h
    induction ps generalizing p with
    | nil => exact hp
    | cons q ps ih =>
      obtain ⟨hq, hps⟩ := List.forall_mem_cons.1 hps
      exact ih (exclusive p q) ⟨⟨hp, hq, trivial⟩, hp, hq, trivial⟩ hps

mutual

theorem holds_congr {sets' : String → TextSet}
    (h : ∀ k, P k → (sets k).contains id = (sets' k).contains id) {p : Plan} (hp : p.Over P) :
    holds sets id p = holds sets' id p :=
  match p with
  | key k => h k hp
  | nothing => rfl
  | inter ps => by rw [holds, holds, (all_any_congr h hp).1]
  | union ps => (all_any_congr h hp).2
  | diff p n => by rw [holds, holds, holds_congr h hp.1, holds_congr h hp.2]

theorem all_any_congr {sets' : String → TextSet}
    (h : ∀ k, P k → (sets k).contains id = (sets' k).contains id) {ps : List Plan}
    (hps : OverAll P ps) :
    allHold sets id ps = allHold sets' id ps ∧ anyHolds sets id ps = anyHolds sets' id ps :=
  match ps with
  | [] => ⟨rfl, rfl⟩
  | p :: ps => by
    obtain ⟨hall, hany⟩ := all_any_congr h hps.2
    rw [allHold, allHold, anyHolds, anyHolds, holds_congr h hps.1, hall, hany]
    exact ⟨rfl, rfl⟩

end

end Plan

/-- The plans that queries are translated to are over keys of posting sets. -/
theorem translator_over (keys : KeySpace) (schema : Schema) :
    (translator keys schema).Hereditary
      (Plan.Over fun key => (∃ f t, key = keys.posting f t) ∨ ∃ t, key = keys.anyField t) where
  freeText {terms x} h := by
    cases h
    refine Plan.over_interOf fun k hk => ?_
    obtain ⟨t, -, rfl⟩ := List.mem_map.1 hk
    exact .inr ⟨t, rfl⟩
  field {name terms x} h := by
    simp only [translator, fieldLeaf] at h
    split at h
    · cases h
    split at h
    · obtain ⟨tokens, -, h⟩ := Except.bind_eq_ok.1 h
      cases h
      refine Plan.over_interOf fun k hk => ?_
      obtain ⟨t, -, rfl⟩ := List.mem_map.1 hk
      exact .inl ⟨name, t, rfl⟩
    · cases h
      trivial
  and hxs h := by
    cases h
    exact Plan.overAll_iff.2 hxs
  or hxs h := by
    cases h
    exact Plan.overAll_iff.2 hxs
  not hp hn h := by
    cases h
    exact ⟨hp, hn⟩
  xor hxs h := by
    cases h
    exact Plan.over_oddOf hxs
  weight _ h := by cases h

/-- A schema with more fields translates alike what was translated without them. -/
theorem translator_preserves (keys : KeySpace) {schema schema' : Schema}
    (h : schema.Within schema') :
    Query.Preserves (translator keys schema) (translator keys schema') where
  freeText h := h
  field {name terms x} hx := by
    simp only [translator, fieldLeaf] at hx ⊢
    cases hname : schema.get? name with
    | none =>
      rw [hname] at hx
      cases hx
    | some config => rwa [h name config hname, ← hname]
  and _ := rfl
  or _ := rfl
  not _ _ := rfl
  xor _ := rfl
  weight _ _ := rfl

/-- **Plans are set algebra over ids.** -/
theorem translator_isAlgebra (keys : KeySpace) (schema : Schema) (sets : String → TextSet) :
    (translator keys schema).IsAlgebra (Plan.holds sets) where
  and h := ⟨_, rfl, fun _ => Plan.holds_inter h⟩
  or _ := ⟨_, rfl, fun _ => Plan.holds_union _⟩
  not _ _ := ⟨_, rfl, fun _ => rfl⟩
  xor _ := ⟨_, rfl, fun _ => Plan.holds_oddOf _⟩

/-- The set under a key; empty when the key holds no set. -/
def Server.sets (s : Server) (key : String) : TextSet := (s.set? key).getD ∅

/-- The ids in the set that a plan stands for on a server. -/
def Server.matched (s : Server) (p : Plan) : Set String := {id | p.holds s.sets id = true}

end Searchlight.SetStore
