import Mathlib.Data.List.Basic
import Searchlight.Proofs.Action
import Searchlight.Query.Translator

/-!
# Queries as set algebra

A backend takes queries as set algebra (`Translator.IsAlgebra`) when a node of its native queries
matches what the node's parts match together: all of them, some of them, one and not the other, or
an odd number of them. Two things follow for every such backend at once:

* `fold_and`, `fold_or`, `fold_not`, `fold_xor`: the public operations are intersection, union,
  difference and symmetric difference, although they build flat nodes;
* `fold_agree_of_nodes`, `fold_agree`: two backends that agree on leaves agree on whole trees.

Both need that no node is without parts (`Query.Full`), which holds of every query that was built
by the operations (`Query.Built`). What every node passes on holds of all native queries
(`fold_hereditary`), built or not.
-/

namespace Searchlight

namespace Query

/-- A query that is made of leaves by the operations. -/
inductive Built : Query → Prop where
  | freeText (terms : List String) : Built (.freeText terms)
  | field (name : String) (terms : List String) : Built (.field name terms)
  | and {a b : Query} (ha : Built a) (hb : Built b) : Built (a.and b)
  | or {a b : Query} (ha : Built a) (hb : Built b) : Built (a.or b)
  | not {a b : Query} (ha : Built a) (hb : Built b) : Built (a.not b)
  | xor {a b : Query} (ha : Built a) (hb : Built b) : Built (a.xor b)
  | weight {a : Query} (ha : Built a) (x : Single) : Built (a.weight x)

mutual

def Full : Query → Prop
  | freeText _ | field _ _ => True
  | all parts | any parts | odd parts => parts ≠ [] ∧ FullAll parts
  | except p n => p.Full ∧ n.Full
  | weight q _ => q.Full

def FullAll : List Query → Prop
  | [] => True
  | q :: qs => q.Full ∧ FullAll qs

end

mutual

/-- The tree has no weights. -/
def Weightless : Query → Prop
  | freeText _ | field _ _ => True
  | all parts | any parts | odd parts => WeightlessAll parts
  | except p n => p.Weightless ∧ n.Weightless
  | weight _ _ => False

def WeightlessAll : List Query → Prop
  | [] => True
  | q :: qs => q.Weightless ∧ WeightlessAll qs

end

attribute [grind =] Full FullAll nodes nodesAll conjuncts disjuncts exclusives fold foldAll

/-! ## What the operations build -/

theorem fullAll_append {ps qs : List Query} :
    FullAll (ps ++ qs) ↔ FullAll ps ∧ FullAll qs := by
  induction ps with
  | nil => simp [FullAll]
  | cons p ps ih => simp [FullAll, ih, and_assoc]

theorem Full.conjuncts {q : Query} (h : q.Full) : q.conjuncts ≠ [] ∧ FullAll q.conjuncts := by
  cases q <;> grind

theorem Full.disjuncts {q : Query} (h : q.Full) : q.disjuncts ≠ [] ∧ FullAll q.disjuncts := by
  cases q <;> grind

theorem Full.exclusives {q : Query} (h : q.Full) : q.exclusives ≠ [] ∧ FullAll q.exclusives := by
  cases q <;> grind

theorem Built.full {q : Query} (h : q.Built) : q.Full := by
  induction h with
  | freeText | field => trivial
  | and _ _ ha hb =>
    exact ⟨by simp [ha.conjuncts.1], fullAll_append.2 ⟨ha.conjuncts.2, hb.conjuncts.2⟩⟩
  | or _ _ ha hb =>
    exact ⟨by simp [ha.disjuncts.1], fullAll_append.2 ⟨ha.disjuncts.2, hb.disjuncts.2⟩⟩
  | not _ _ ha hb => exact ⟨ha, hb⟩
  | xor _ _ ha hb =>
    exact ⟨by simp [ha.exclusives.1], fullAll_append.2 ⟨ha.exclusives.2, hb.exclusives.2⟩⟩
  | weight _ _ ha => exact ha

/-! ## Operators -/

def Supported (caps : Capabilities) (q : Query) : Prop :=
  ∀ n ∈ q.nodes, caps.supportsOperator n.operator = true

theorem firstUnsupported_eq_none_iff {caps : Capabilities} {q : Query} :
    q.firstUnsupported caps = none ↔ q.Supported caps := by
  simp [firstUnsupported, Supported]

theorem nodesAll_append (ps qs : List Query) : nodesAll (ps ++ qs) = nodesAll ps ++ nodesAll qs := by
  induction ps with
  | nil => rfl
  | cons p ps ih => simp [nodesAll, ih]

theorem nodesAll_conjuncts_subset (q : Query) : nodesAll q.conjuncts ⊆ q.nodes := by
  cases q <;> grind

theorem nodesAll_disjuncts_subset (q : Query) : nodesAll q.disjuncts ⊆ q.nodes := by
  cases q <;> grind

theorem nodesAll_exclusives_subset (q : Query) : nodesAll q.exclusives ⊆ q.nodes := by
  cases q <;> grind

theorem forall_mem_nodes_node {P : Query → Prop} {a b : Query} (root : Query) {ps qs : List Query}
    (hroot : root.nodes = root :: nodesAll (ps ++ qs)) (h : P root) (hps : nodesAll ps ⊆ a.nodes)
    (hqs : nodesAll qs ⊆ b.nodes) (ha : ∀ n ∈ a.nodes, P n) (hb : ∀ n ∈ b.nodes, P n) :
    ∀ n ∈ root.nodes, P n := by
  rw [hroot, nodesAll_append, List.forall_mem_cons, List.forall_mem_append]
  exact ⟨h, fun n hn => ha n (hps hn), fun n hn => hb n (hqs hn)⟩

section
variable {caps : Capabilities} {a b : Query}

theorem Supported.and (hop : caps.supportsOperator .and = true) (ha : a.Supported caps)
    (hb : b.Supported caps) : (a.and b).Supported caps :=
  forall_mem_nodes_node (.all _) rfl hop (nodesAll_conjuncts_subset a)
    (nodesAll_conjuncts_subset b) ha hb

theorem Supported.or (hop : caps.supportsOperator .or = true) (ha : a.Supported caps)
    (hb : b.Supported caps) : (a.or b).Supported caps :=
  forall_mem_nodes_node (.any _) rfl hop (nodesAll_disjuncts_subset a)
    (nodesAll_disjuncts_subset b) ha hb

theorem Supported.xor (hop : caps.supportsOperator .xor = true) (ha : a.Supported caps)
    (hb : b.Supported caps) : (a.xor b).Supported caps :=
  forall_mem_nodes_node (.odd _) rfl hop (nodesAll_exclusives_subset a)
    (nodesAll_exclusives_subset b) ha hb

theorem Supported.not (hop : caps.supportsOperator .not = true) (ha : a.Supported caps)
    (hb : b.Supported caps) : (a.not b).Supported caps := by
  intro n hn
  simp only [Query.not, nodes, List.mem_cons, List.mem_append] at hn
  rcases hn with rfl | hn | hn
  · exact hop
  · exact ha n hn
  · exact hb n hn

theorem Supported.weight (hop : caps.supportsOperator .weight = true) (ha : a.Supported caps)
    (x : Single) : (a.weight x).Supported caps := by
  intro n hn
  simp only [nodes, List.mem_cons] at hn
  rcases hn with rfl | hn
  · exact hop
  · exact ha n hn

end

mutual

theorem Weightless.operator_ne {q : Query} (h : q.Weightless) :
    ∀ n ∈ q.nodes, n.operator ≠ .weight :=
  match q with
  | .freeText _ | .field _ _ => by simp [nodes, operator]
  | .all parts | .any parts | .odd parts => by
    intro n hn
    simp only [nodes, List.mem_cons] at hn
    rcases hn with rfl | hn
    · simp [operator]
    · exact WeightlessAll.operator_ne h n hn
  | .except p q => by
    intro n hn
    simp only [nodes, List.mem_cons, List.mem_append] at hn
    rcases hn with rfl | hn | hn
    · simp [operator]
    · exact h.1.operator_ne n hn
    · exact h.2.operator_ne n hn
  | .weight _ _ => h.elim

theorem WeightlessAll.operator_ne {qs : List Query} (h : WeightlessAll qs) :
    ∀ n ∈ nodesAll qs, n.operator ≠ .weight :=
  match qs with
  | [] => by simp [nodesAll]
  | q :: qs => by
    intro n hn
    rcases List.mem_append.1 hn with hn | hn
    · exact h.1.operator_ne n hn
    · exact WeightlessAll.operator_ne h.2 n hn

end

end Query

theorem foldl_exclusive {β : Type} {f : β → β → β} {m : β → Bool}
    (hf : ∀ a b, m (f a b) = (m a ^^ m b)) (x : β) (xs : List β) :
    m (xs.foldl f x) = decide ((x :: xs).countP m % 2 = 1) := by
  induction xs generalizing x with
  | nil => cases hx : m x <;> simp [hx]
  | cons y ys ih =>
    rw [List.foldl_cons, ih]
    simp only [List.countP_cons, hf]
    congr 1
    cases m x <;> cases m y <;> grind

/-- The nodes of native queries are set algebra on what their parts match. The elements are what
queries are matched against; `m i x` says that `x` matches `i`. -/
structure Translator.IsAlgebra {β ι : Type} (t : Translator β) (m : ι → β → Bool) : Prop where
  and : ∀ {xs : List β}, xs ≠ [] → ∃ x, t.and xs = .ok x ∧ ∀ i, m i x = xs.all (m i)
  or : ∀ xs : List β, ∃ x, t.or xs = .ok x ∧ ∀ i, m i x = xs.any (m i)
  not : ∀ p n : β, ∃ x, t.not p n = .ok x ∧ ∀ i, m i x = (m i p && !m i n)
  xor : ∀ xs : List β, ∃ x, t.xor xs = .ok x ∧ ∀ i, m i x = decide (xs.countP (m i) % 2 = 1)

/-- An algebra over some elements is one over whatever stands for them. -/
theorem Translator.IsAlgebra.comap {β ι κ : Type} {t : Translator β} {m : ι → β → Bool}
    (ht : t.IsAlgebra m) (f : κ → ι) : t.IsAlgebra fun i => m (f i) where
  and h := (ht.and h).imp fun _ hx => ⟨hx.1, fun i => hx.2 (f i)⟩
  or xs := (ht.or xs).imp fun _ hx => ⟨hx.1, fun i => hx.2 (f i)⟩
  not p n := (ht.not p n).imp fun _ hx => ⟨hx.1, fun i => hx.2 (f i)⟩
  xor xs := (ht.xor xs).imp fun _ hx => ⟨hx.1, fun i => hx.2 (f i)⟩

namespace Query

variable {β ι : Type} {t : Translator β} {m : ι → β → Bool}

/-! ## Folding flat nodes -/

theorem length_foldAll {qs : List Query} {xs : List β} (h : foldAll t qs = .ok xs) :
    xs.length = qs.length := by
  induction qs generalizing xs with
  | nil => cases h; rfl
  | cons q qs ih =>
    simp only [foldAll, bind, Except.bind] at h
    split at h
    · cases h
    · split at h
      · cases h
      · rename_i hqs
        cases h
        simp [ih hqs]

theorem ne_nil_of_foldAll {qs : List Query} {xs : List β} (h : foldAll t qs = .ok xs)
    (hne : qs ≠ []) : xs ≠ [] := by
  rw [← List.length_pos_iff] at hne ⊢
  rw [length_foldAll h]
  exact hne

theorem foldAll_append {ps qs : List Query} {xs ys : List β} (hp : foldAll t ps = .ok xs)
    (hq : foldAll t qs = .ok ys) : foldAll t (ps ++ qs) = .ok (xs ++ ys) := by
  induction ps generalizing xs with
  | nil => cases hp; exact hq
  | cons p ps ih =>
    simp only [foldAll, List.cons_append, bind, Except.bind] at hp ⊢
    split at hp
    · cases hp
    · split at hp
      · cases hp
      · rename_i hps
        cases hp
        rw [ih hps]
        rfl

theorem foldAll_single {q : Query} {x : β} (h : fold t q = .ok x) : foldAll t [q] = .ok [x] := by
  simp [foldAll, h, bind, Except.bind]

/-- The parts that a query gives to a conjunction match together what the query matches. -/
theorem foldAll_conjuncts (ht : t.IsAlgebra m) {q : Query} (hq : q.Full) {x : β}
    (hx : fold t q = .ok x) :
    ∃ xs, xs ≠ [] ∧ foldAll t q.conjuncts = .ok xs ∧ ∀ i, xs.all (m i) = m i x := by
  cases q with
  | all parts =>
    simp only [fold, bind, Except.bind] at hx
    split at hx
    · cases hx
    · rename_i xs hxs
      have hne := ne_nil_of_foldAll hxs hq.1
      obtain ⟨y, hy, hm⟩ := ht.and hne
      rw [hy] at hx
      cases hx
      exact ⟨xs, hne, hxs, fun i => (hm i).symm⟩
  | _ => exact ⟨[x], by simp, foldAll_single hx, by simp⟩

theorem foldAll_disjuncts (ht : t.IsAlgebra m) {q : Query} {x : β} (hx : fold t q = .ok x) :
    ∃ xs, foldAll t q.disjuncts = .ok xs ∧ ∀ i, xs.any (m i) = m i x := by
  cases q with
  | any parts =>
    simp only [fold, bind, Except.bind] at hx
    split at hx
    · cases hx
    · rename_i xs hxs
      obtain ⟨y, hy, hm⟩ := ht.or xs
      rw [hy] at hx
      cases hx
      exact ⟨xs, hxs, fun i => (hm i).symm⟩
  | _ => exact ⟨[x], foldAll_single hx, by simp⟩

theorem foldAll_exclusives (ht : t.IsAlgebra m) {q : Query} {x : β} (hx : fold t q = .ok x) :
    ∃ xs, foldAll t q.exclusives = .ok xs ∧
      ∀ i, m i x = decide (xs.countP (m i) % 2 = 1) := by
  cases q with
  | odd parts =>
    simp only [fold, bind, Except.bind] at hx
    split at hx
    · cases hx
    · rename_i xs hxs
      obtain ⟨y, hy, hm⟩ := ht.xor xs
      rw [hy] at hx
      cases hx
      exact ⟨xs, hxs, hm⟩
  | _ =>
    refine ⟨[x], foldAll_single hx, fun i => ?_⟩
    cases hi : m i x <;> simp [hi]

/-! ## The operations as set algebra -/

section
variable {a b : Query} {x y : β}

theorem fold_and (ht : t.IsAlgebra m) (ha : a.Full) (hb : b.Full) (hx : fold t a = .ok x)
    (hy : fold t b = .ok y) :
    ∃ z, fold t (a.and b) = .ok z ∧ ∀ i, m i z = (m i x && m i y) := by
  obtain ⟨xs, hne, hxs, hmx⟩ := foldAll_conjuncts ht ha hx
  obtain ⟨ys, -, hys, hmy⟩ := foldAll_conjuncts ht hb hy
  have hparts : xs ++ ys ≠ [] := by simp [hne]
  obtain ⟨z, hz, hm⟩ := ht.and hparts
  refine ⟨z, ?_, fun i => ?_⟩
  · simp [Query.and, fold, foldAll_append hxs hys, bind, Except.bind, hz]
  · rw [hm, List.all_append, hmx, hmy]

theorem fold_or (ht : t.IsAlgebra m) (hx : fold t a = .ok x) (hy : fold t b = .ok y) :
    ∃ z, fold t (a.or b) = .ok z ∧ ∀ i, m i z = (m i x || m i y) := by
  obtain ⟨xs, hxs, hmx⟩ := foldAll_disjuncts ht hx
  obtain ⟨ys, hys, hmy⟩ := foldAll_disjuncts ht hy
  obtain ⟨z, hz, hm⟩ := ht.or (xs ++ ys)
  refine ⟨z, ?_, fun i => ?_⟩
  · simp [Query.or, fold, foldAll_append hxs hys, bind, Except.bind, hz]
  · rw [hm, List.any_append, hmx, hmy]

theorem fold_not (ht : t.IsAlgebra m) (hx : fold t a = .ok x) (hy : fold t b = .ok y) :
    ∃ z, fold t (a.not b) = .ok z ∧ ∀ i, m i z = (m i x && !m i y) := by
  obtain ⟨z, hz, hm⟩ := ht.not x y
  exact ⟨z, by simp [Query.not, fold, hx, hy, bind, Except.bind, hz], hm⟩

/-- The number of all parts is odd when that of one side is odd and that of the other is not. -/
theorem fold_xor (ht : t.IsAlgebra m) (hx : fold t a = .ok x) (hy : fold t b = .ok y) :
    ∃ z, fold t (a.xor b) = .ok z ∧ ∀ i, m i z = (m i x ^^ m i y) := by
  obtain ⟨xs, hxs, hmx⟩ := foldAll_exclusives ht hx
  obtain ⟨ys, hys, hmy⟩ := foldAll_exclusives ht hy
  obtain ⟨z, hz, hm⟩ := ht.xor (xs ++ ys)
  refine ⟨z, ?_, fun i => ?_⟩
  · simp [Query.xor, fold, foldAll_append hxs hys, bind, Except.bind, hz]
  · rw [hm, hmx, hmy, List.countP_append]
    rcases Nat.mod_two_eq_zero_or_one (xs.countP (m i)) with hi | hi <;>
      rcases Nat.mod_two_eq_zero_or_one (ys.countP (m i)) with hj | hj <;>
      simp [Nat.add_mod, hi, hj]

theorem fold_weight {w : Single} (hw : w.isWeight = true)
    (ht : ∃ z, t.weight x w = .ok z ∧ ∀ i, m i z = m i x) (hx : fold t a = .ok x) :
    ∃ z, fold t (a.weight w) = .ok z ∧ ∀ i, m i z = m i x := by
  obtain ⟨z, hz, hm⟩ := ht
  exact ⟨z, by simp [fold, hw, hx, bind, Except.bind, hz], hm⟩

end

/-! ## Translations -/

theorem translate_eq_ok_iff {caps : Capabilities} {backend : String} {q : Query} {x : β} :
    q.translate caps backend t = .ok x ↔ q.Supported caps ∧ fold t q = .ok x := by
  rw [← firstUnsupported_eq_none_iff, translate]
  cases q.firstUnsupported caps <;> simp

theorem translate_of_supported {caps : Capabilities} {backend : String} {q : Query}
    (h : q.Supported caps) : q.translate caps backend t = fold t q := by
  rw [translate, firstUnsupported_eq_none_iff.2 h]

section
variable {caps : Capabilities} {backend : String} {terms : List String}

theorem translate_freeText (h : (freeText terms).Supported caps) (hterms : terms ≠ []) :
    (freeText terms).translate caps backend t = t.freeText terms := by
  rw [translate_of_supported h, fold, if_neg (by simpa using hterms)]

theorem translate_field {name : String} (h : (field name terms).Supported caps)
    (hterms : terms ≠ []) : (field name terms).translate caps backend t = t.field name terms := by
  rw [translate_of_supported h, fold, if_neg (by simpa using hterms)]

end

/-! ## Two backends -/

def Agree {γ : Type} (m : ι → β → Bool) (k : ι → γ → Bool) :
    Except Error β → Except Error γ → Prop
  | .ok x, .ok y => ∀ i, m i x = k i y
  | .error e, .error f => e = f
  | _, _ => False

def AgreeAll {γ : Type} (m : ι → β → Bool) (k : ι → γ → Bool) :
    Except Error (List β) → Except Error (List γ) → Prop
  | .ok xs, .ok ys => List.Forall₂ (fun x y => ∀ i, m i x = k i y) xs ys
  | .error e, .error f => e = f
  | _, _ => False

section
variable {γ : Type} {u : Translator γ} {k : ι → γ → Bool}

theorem all_eq_of_forall₂ {xs : List β} {ys : List γ}
    (h : List.Forall₂ (fun x y => ∀ i, m i x = k i y) xs ys) (i : ι) :
    xs.all (m i) = ys.all (k i) := by
  induction h with
  | nil => rfl
  | cons hxy _ ih => simp [hxy i, ih]

theorem any_eq_of_forall₂ {xs : List β} {ys : List γ}
    (h : List.Forall₂ (fun x y => ∀ i, m i x = k i y) xs ys) (i : ι) :
    xs.any (m i) = ys.any (k i) := by
  induction h with
  | nil => rfl
  | cons hxy _ ih => simp [hxy i, ih]

theorem countP_eq_of_forall₂ {xs : List β} {ys : List γ}
    (h : List.Forall₂ (fun x y => ∀ i, m i x = k i y) xs ys) (i : ι) :
    xs.countP (m i) = ys.countP (k i) := by
  induction h with
  | nil => rfl
  | cons hxy _ ih => simp [List.countP_cons, hxy i, ih]

/-- A node over parts that agree fails like them or agrees, if it does so on parts that are
there. -/
theorem agree_bind {parts : List Query} {f : List β → Except Error β} {g : List γ → Except Error γ}
    (h : AgreeAll m k (foldAll t parts) (foldAll u parts))
    (hfg : ∀ xs ys, foldAll t parts = .ok xs →
      List.Forall₂ (fun x y => ∀ i, m i x = k i y) xs ys → Agree m k (f xs) (g ys)) :
    Agree m k (do f (← foldAll t parts)) (do g (← foldAll u parts)) := by
  cases hp : foldAll t parts <;> cases hq : foldAll u parts <;> simp only [hp, hq] at h
  · exact h
  · exact h.elim
  · exact h.elim
  · exact hfg _ _ hp h

/-- A node of a query means the same to two backends, if it is a leaf; if it is a weight, then over
whatever means the same. -/
def AgreeAt (t : Translator β) (u : Translator γ) (m : ι → β → Bool) (k : ι → γ → Bool) :
    Query → Prop
  | freeText terms => Agree m k (t.freeText terms) (u.freeText terms)
  | field name terms => Agree m k (t.field name terms) (u.field name terms)
  | weight _ w => ∀ x y, (∀ i, m i x = k i y) → Agree m k (t.weight x w) (u.weight y w)
  | all _ | any _ | odd _ | except _ _ => True

mutual

/-- **Backends that agree on leaves and weights agree on trees.** They fail alike or match alike. -/
theorem fold_agree_of_nodes (ht : t.IsAlgebra m) (hu : u.IsAlgebra k) {q : Query} (hq : q.Full)
    (hl : ∀ n ∈ q.nodes, AgreeAt t u m k n) : Agree m k (fold t q) (fold u q) :=
  match q with
  | .freeText terms => by
    simp only [fold]
    split
    · rfl
    · exact hl _ List.mem_cons_self
  | .field name terms => by
    simp only [fold]
    split
    · rfl
    · exact hl _ List.mem_cons_self
  | .all parts => by
    rw [nodes, List.forall_mem_cons] at hl
    refine agree_bind (foldAll_agree_of_nodes ht hu hq.2 hl.2) fun xs ys hxs h => ?_
    -- Only a conjunction that has parts means their conjunction; those of a full tree have some.
    have hne : xs ≠ [] := ne_nil_of_foldAll hxs hq.1
    obtain ⟨x, hx, hmx⟩ := ht.and hne
    have hne' : ys ≠ [] := by cases h <;> simp_all
    obtain ⟨y, hy, hky⟩ := hu.and hne'
    rw [hx, hy]
    intro i
    rw [hmx, hky, all_eq_of_forall₂ h]
  | .any parts => by
    rw [nodes, List.forall_mem_cons] at hl
    refine agree_bind (foldAll_agree_of_nodes ht hu hq.2 hl.2) fun xs ys _ h => ?_
    obtain ⟨x, hx, hmx⟩ := ht.or xs
    obtain ⟨y, hy, hky⟩ := hu.or ys
    rw [hx, hy]
    intro i
    rw [hmx, hky, any_eq_of_forall₂ h]
  | .odd parts => by
    rw [nodes, List.forall_mem_cons] at hl
    refine agree_bind (foldAll_agree_of_nodes ht hu hq.2 hl.2) fun xs ys _ h => ?_
    obtain ⟨x, hx, hmx⟩ := ht.xor xs
    obtain ⟨y, hy, hky⟩ := hu.xor ys
    rw [hx, hy]
    intro i
    rw [hmx, hky, countP_eq_of_forall₂ h]
  | .except p n => by
    rw [nodes, List.forall_mem_cons, List.forall_mem_append] at hl
    have hp := fold_agree_of_nodes ht hu hq.1 hl.2.1
    have hn := fold_agree_of_nodes ht hu hq.2 hl.2.2
    simp only [fold, bind, Except.bind]
    cases h₁ : fold t p <;> cases h₂ : fold u p <;> simp only [h₁, h₂] at hp ⊢
    · exact hp
    · exact hp.elim
    · exact hp.elim
    cases h₃ : fold t n <;> cases h₄ : fold u n <;> simp only [h₃, h₄] at hn ⊢
    · exact hn
    · exact hn.elim
    · exact hn.elim
    obtain ⟨x, hx, hmx⟩ := ht.not _ _
    obtain ⟨y, hy, hky⟩ := hu.not _ _
    rw [hx, hy]
    intro i
    rw [hmx, hky, hp i, hn i]
  | .weight q w => by
    rw [nodes, List.forall_mem_cons] at hl
    have hp : Agree m k (fold t q) (fold u q) := fold_agree_of_nodes ht hu hq hl.2
    simp only [fold, bind, Except.bind]
    split
    · cases h₁ : fold t q <;> cases h₂ : fold u q <;> simp only [h₁, h₂] at hp ⊢
      · exact hp
      · exact hp.elim
      · exact hp.elim
      · exact hl.1 _ _ hp
    · rfl

theorem foldAll_agree_of_nodes (ht : t.IsAlgebra m) (hu : u.IsAlgebra k) {qs : List Query}
    (hq : FullAll qs) (hl : ∀ n ∈ nodesAll qs, AgreeAt t u m k n) :
    AgreeAll m k (foldAll t qs) (foldAll u qs) :=
  match qs with
  | [] => .nil
  | q :: qs => by
    rw [nodesAll, List.forall_mem_append] at hl
    have h := fold_agree_of_nodes ht hu hq.1 hl.1
    have hs := foldAll_agree_of_nodes ht hu hq.2 hl.2
    simp only [foldAll, bind, Except.bind]
    cases h₁ : fold t q <;> cases h₂ : fold u q <;> simp only [h₁, h₂] at h ⊢
    · exact h
    · exact h.elim
    · exact h.elim
    cases h₃ : foldAll t qs <;> cases h₄ : foldAll u qs <;> simp only [h₃, h₄] at hs ⊢
    · exact hs
    · exact hs.elim
    · exact hs.elim
    exact .cons h hs

end

structure AgreeOnLeaves (t : Translator β) (u : Translator γ) (m : ι → β → Bool)
    (k : ι → γ → Bool) : Prop where
  freeText : ∀ terms, Agree m k (t.freeText terms) (u.freeText terms)
  field : ∀ name terms, Agree m k (t.field name terms) (u.field name terms)

/-- **Backends that agree on leaves agree on trees** without weights. -/
theorem fold_agree (ht : t.IsAlgebra m) (hu : u.IsAlgebra k) (hl : AgreeOnLeaves t u m k)
    {q : Query} (hq : q.Full) (hw : q.Weightless) : Agree m k (fold t q) (fold u q) := by
  refine fold_agree_of_nodes ht hu hq fun n hn => ?_
  have hne := hw.operator_ne n hn
  cases n with
  | freeText terms => exact hl.freeText terms
  | field name terms => exact hl.field name terms
  | weight _ _ => exact absurd rfl hne
  | _ => trivial

end

end Query

/-! ## What holds of native queries -/

/-- Something of queries and their native queries that holds of leaves, and of nodes if it holds of
their parts. -/
structure Translator.Inductive {β : Type} (t : Translator β) (P : Query → β → Prop) : Prop where
  freeText : ∀ {terms x}, terms.isEmpty = false → t.freeText terms = .ok x →
    P (.freeText terms) x
  field : ∀ {name terms x}, terms.isEmpty = false → t.field name terms = .ok x →
    P (.field name terms) x
  and : ∀ {parts xs x}, List.Forall₂ P parts xs → t.and xs = .ok x → P (.all parts) x
  or : ∀ {parts xs x}, List.Forall₂ P parts xs → t.or xs = .ok x → P (.any parts) x
  not : ∀ {p n y z x}, P p y → P n z → t.not y z = .ok x → P (.except p n) x
  xor : ∀ {parts xs x}, List.Forall₂ P parts xs → t.xor xs = .ok x → P (.odd parts) x
  weight : ∀ {q y w x}, P q y → w.isWeight = true → t.weight y w = .ok x → P (.weight q w) x

/-- Something that holds of what the leaves mean, and of what nodes mean if it does of the parts. -/
structure Translator.Hereditary {β : Type} (t : Translator β) (P : β → Prop) : Prop where
  freeText : ∀ {terms x}, t.freeText terms = .ok x → P x
  field : ∀ {name terms x}, t.field name terms = .ok x → P x
  and : ∀ {xs x}, (∀ y ∈ xs, P y) → t.and xs = .ok x → P x
  or : ∀ {xs x}, (∀ y ∈ xs, P y) → t.or xs = .ok x → P x
  not : ∀ {p n x}, P p → P n → t.not p n = .ok x → P x
  xor : ∀ {xs x}, (∀ y ∈ xs, P y) → t.xor xs = .ok x → P x
  weight : ∀ {y w x}, P y → t.weight y w = .ok x → P x

namespace Query

variable {β : Type} {t : Translator β}

mutual

/-- **Induction over translations.** -/
theorem fold_induction {P : Query → β → Prop} (ht : t.Inductive P) {q : Query} {x : β}
    (h : fold t q = .ok x) : P q x :=
  match q with
  | .freeText terms => by
    simp only [fold] at h
    split at h
    · cases h
    · rename_i hterms
      exact ht.freeText (Bool.eq_false_iff.2 hterms) h
  | .field name terms => by
    simp only [fold] at h
    split at h
    · cases h
    · rename_i hterms
      exact ht.field (Bool.eq_false_iff.2 hterms) h
  | .all parts => by
    obtain ⟨xs, hxs, h⟩ := Except.bind_eq_ok.1 h
    exact ht.and (foldAll_induction ht hxs) h
  | .any parts => by
    obtain ⟨xs, hxs, h⟩ := Except.bind_eq_ok.1 h
    exact ht.or (foldAll_induction ht hxs) h
  | .odd parts => by
    obtain ⟨xs, hxs, h⟩ := Except.bind_eq_ok.1 h
    exact ht.xor (foldAll_induction ht hxs) h
  | .except p n => by
    obtain ⟨y, hy, h⟩ := Except.bind_eq_ok.1 h
    obtain ⟨z, hz, h⟩ := Except.bind_eq_ok.1 h
    exact ht.not (fold_induction ht hy) (fold_induction ht hz) h
  | .weight q w => by
    simp only [fold] at h
    split at h
    · rename_i hw
      obtain ⟨y, hy, h⟩ := Except.bind_eq_ok.1 h
      exact ht.weight (fold_induction ht hy) hw h
    · cases h

theorem foldAll_induction {P : Query → β → Prop} (ht : t.Inductive P) {qs : List Query}
    {xs : List β} (h : foldAll t qs = .ok xs) : List.Forall₂ P qs xs :=
  match qs with
  | [] => by
    cases h
    exact .nil
  | q :: qs => by
    obtain ⟨y, hy, h⟩ := Except.bind_eq_ok.1 h
    obtain ⟨ys, hys, h⟩ := Except.bind_eq_ok.1 h
    cases h
    exact .cons (fold_induction ht hy) (foldAll_induction ht hys)

end

theorem fold_hereditary {P : β → Prop} (ht : t.Hereditary P) {q : Query} {x : β}
    (h : fold t q = .ok x) : P x := by
  have hparts {parts : List Query} {xs : List β} (h : List.Forall₂ (fun _ y => P y) parts xs) :
      ∀ y ∈ xs, P y := by
    induction h with
    | nil => exact List.forall_mem_nil _
    | cons hy _ ih => exact List.forall_mem_cons.2 ⟨hy, ih⟩
  have hind : t.Inductive fun _ y => P y :=
    { freeText := fun _ h => ht.freeText h
      field := fun _ h => ht.field h
      and := fun hxs h => ht.and (hparts hxs) h
      or := fun hxs h => ht.or (hparts hxs) h
      not := ht.not
      xor := fun hxs h => ht.xor (hparts hxs) h
      weight := fun hy _ h => ht.weight hy h }
  exact fold_induction hind h

/-- A translator that means the same by every node, as long as another one means something. -/
structure Preserves (t u : Translator β) : Prop where
  freeText : ∀ {terms x}, t.freeText terms = .ok x → u.freeText terms = .ok x
  field : ∀ {name terms x}, t.field name terms = .ok x → u.field name terms = .ok x
  and : ∀ xs, u.and xs = t.and xs
  or : ∀ xs, u.or xs = t.or xs
  not : ∀ p n, u.not p n = t.not p n
  xor : ∀ xs, u.xor xs = t.xor xs
  weight : ∀ y w, u.weight y w = t.weight y w

/-- **What is translated is translated alike** by a translator that has more leaves. -/
theorem Preserves.fold {u : Translator β} (hu : Preserves t u) {q : Query} {x : β}
    (h : Query.fold t q = .ok x) : Query.fold u q = .ok x := by
  have hparts {parts : List Query} {xs : List β}
      (h : List.Forall₂ (fun q y => Query.fold u q = .ok y) parts xs) :
      foldAll u parts = .ok xs := by
    induction h with
    | nil => rfl
    | cons hy _ ih => rw [foldAll, hy, ih]; rfl
  have hind : t.Inductive fun q y => Query.fold u q = .ok y :=
    { freeText := fun hterms h => by rw [Query.fold, hterms]; exact hu.freeText h
      field := fun hterms h => by rw [Query.fold, hterms]; exact hu.field h
      and := fun hxs h => by rw [Query.fold, hparts hxs]; exact (hu.and _).trans h
      or := fun hxs h => by rw [Query.fold, hparts hxs]; exact (hu.or _).trans h
      not := fun hy hz h => by rw [Query.fold, hy, hz]; exact (hu.not _ _).trans h
      xor := fun hxs h => by rw [Query.fold, hparts hxs]; exact (hu.xor _).trans h
      weight := fun hy hw h => by rw [Query.fold, if_pos hw, hy]; exact (hu.weight _ _).trans h }
  exact fold_induction hind h

end Query

end Searchlight
