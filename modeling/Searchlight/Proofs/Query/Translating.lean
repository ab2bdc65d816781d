import Searchlight.Memory.Limited
import Searchlight.Proofs.Query.Algebra

/-!
# When a query is translated

Whether a query is translated, and why not, is told by its nodes, each looked at before its parts.
First comes the first node that the backend has no operator for, then the first leaf without terms or
weight that is none; where there is neither, a translator that never fails translates the query
(`translation_exact`). A translator that refuses some leaves on fields itself fails with the first of
both, faults and refusals (`map_fold_of_refuses`).

Calls of a translator leave no trace but their outcome. Since a translator could fail at any call, a
translation that is the same for all translators that are alike on some calls makes no others
(`fold_alike`).
-/

namespace Searchlight

/-- What can be a weight is finite and not below zero. -/
theorem Binary.isWeight_iff {f : Binary.Format} {x : Binary f} :
    x.isWeight = true ↔ x.isFinite = true ∧ (x.negative = true → x.numEq .zero = true) := by
  cases x with
  | nan n | infinite n => simp [isWeight, isFinite]
  | finite n u h => cases n <;> simp [isWeight, isFinite, negative, numEq, zero]

/-! ## Translators -/

namespace Translator

variable {β : Type}

/-- No method ever fails. -/
structure Total (t : Translator β) : Prop where
  freeText : ∀ terms, ∃ x, t.freeText terms = .ok x
  field : ∀ name terms, ∃ x, t.field name terms = .ok x
  and : ∀ xs, ∃ x, t.and xs = .ok x
  or : ∀ xs, ∃ x, t.or xs = .ok x
  not : ∀ y z, ∃ x, t.not y z = .ok x
  xor : ∀ xs, ∃ x, t.xor xs = .ok x
  weight : ∀ y w, ∃ x, t.weight y w = .ok x

/-- No method fails but that for leaves on fields, which does where the leaf is refused; nothing is
said about weights. -/
structure Refuses (t : Translator β) (refuses? : String → List String → Option Error) : Prop where
  freeText : ∀ terms, ∃ x, t.freeText terms = .ok x
  field : ∀ name terms, (t.field name terms).map (fun _ => ()) = checked (refuses? name terms)
  and : ∀ xs, ∃ x, t.and xs = .ok x
  or : ∀ xs, ∃ x, t.or xs = .ok x
  not : ∀ y z, ∃ x, t.not y z = .ok x
  xor : ∀ xs, ∃ x, t.xor xs = .ok x

def Weights (t : Translator β) : Prop := ∀ y w, ∃ x, t.weight y w = .ok x

theorem Total.refuses {t : Translator β} (h : t.Total) : t.Refuses fun _ _ => none where
  freeText := h.freeText
  field name terms := by
    obtain ⟨x, hx⟩ := h.field name terms
    rw [hx]
    rfl
  and := h.and
  or := h.or
  not := h.not
  xor := h.xor

/-- Two translators answer alike as long as leaves have terms, nodes have at least two parts, and
weights are finite and not below zero. -/
structure Alike (t u : Translator β) : Prop where
  freeText : ∀ terms, terms ≠ [] → t.freeText terms = u.freeText terms
  field : ∀ name terms, terms ≠ [] → t.field name terms = u.field name terms
  and : ∀ xs, 2 ≤ xs.length → t.and xs = u.and xs
  or : ∀ xs, 2 ≤ xs.length → t.or xs = u.or xs
  not : ∀ y z, t.not y z = u.not y z
  xor : ∀ xs, 2 ≤ xs.length → t.xor xs = u.xor xs
  weight : ∀ y w, w.isWeight = true → t.weight y w = u.weight y w

/-- The call for a node whose parts mean something: they are handed over in their order. -/
def call (t : Translator β) (means : Query → β) : Query → Except Error β
  | .freeText terms => t.freeText terms
  | .field name terms => t.field name terms
  | .all parts => t.and (parts.map means)
  | .any parts => t.or (parts.map means)
  | .odd parts => t.xor (parts.map means)
  | .except p n => t.not (means p) (means n)
  | .weight q w => t.weight (means q) w

end Translator

namespace Query

/-! ## Nodes -/

/-- A node that joins parts has at least two of them. -/
def Joins : Query → Prop
  | all parts | any parts | odd parts => 2 ≤ parts.length
  | freeText _ | field _ _ | except _ _ | weight _ _ => True

/-- What is wrong with a node by itself: a leaf has a term, and a weight is finite and not below
zero. -/
def fault? : Query → Option Error
  | freeText terms => if terms = [] then some (.querying "free-text query has no terms") else none
  | field name terms =>
    if terms = [] then some (.querying s!"query on field '{name}' has no terms") else none
  | weight _ x =>
    if x.isFinite = true ∧ (x.negative = true → x.numEq .zero = true) then none
    else
      let factor := x.text
      some (.querying s!"weight {factor} must be finite and non-negative")
  | all _ | any _ | odd _ | except _ _ => none

theorem two_le_length {ps qs : List Query} (hps : ps ≠ []) (hqs : qs ≠ []) :
    2 ≤ (ps ++ qs).length := by
  rw [← List.length_pos_iff] at hps hqs
  rw [List.length_append]
  omega

theorem Built.joins {q : Query} (h : q.Built) : ∀ n ∈ q.nodes, n.Joins := by
  induction h with
  | freeText | field => simp [nodes, Joins]
  | and ha hb iha ihb =>
    exact forall_mem_nodes_node (.all _) rfl
      (two_le_length ha.full.conjuncts.1 hb.full.conjuncts.1)
      (nodesAll_conjuncts_subset _) (nodesAll_conjuncts_subset _) iha ihb
  | or ha hb iha ihb =>
    exact forall_mem_nodes_node (.any _) rfl
      (two_le_length ha.full.disjuncts.1 hb.full.disjuncts.1)
      (nodesAll_disjuncts_subset _) (nodesAll_disjuncts_subset _) iha ihb
  | xor ha hb iha ihb =>
    exact forall_mem_nodes_node (.odd _) rfl
      (two_le_length ha.full.exclusives.1 hb.full.exclusives.1)
      (nodesAll_exclusives_subset _) (nodesAll_exclusives_subset _) iha ihb
  | not _ _ iha ihb =>
    rw [Query.not, nodes, List.forall_mem_cons]
    exact ⟨trivial, List.forall_mem_append.2 ⟨iha, ihb⟩⟩
  | weight _ x iha =>
    rw [nodes, List.forall_mem_cons]
    exact ⟨trivial, iha⟩

/-! ## Calls -/

section
variable {β : Type} {t u : Translator β}

theorem bind_alike {parts : List Query} {f g : List β → Except Error β}
    (h : foldAll t parts = foldAll u parts) (hjoins : 2 ≤ parts.length)
    (hfg : ∀ xs, 2 ≤ xs.length → f xs = g xs) :
    (do f (← foldAll t parts)) = (do g (← foldAll u parts)) := by
  rw [← h]
  cases hparts : foldAll t parts with
  | error e => rfl
  | ok xs => exact hfg xs (by rwa [length_foldAll hparts])

mutual

/-- **A fold makes no other calls**: translators that are alike fold alike. -/
theorem fold_alike (h : t.Alike u) {q : Query} (hq : ∀ n ∈ q.nodes, n.Joins) :
    fold t q = fold u q :=
  match q with
  | .freeText terms => by
    simp only [fold]
    split
    · rfl
    · exact h.freeText terms (by simp_all)
  | .field name terms => by
    simp only [fold]
    split
    · rfl
    · exact h.field name terms (by simp_all)
  | .all parts => by
    rw [nodes, List.forall_mem_cons] at hq
    exact bind_alike (foldAll_alike h hq.2) hq.1 h.and
  | .any parts => by
    rw [nodes, List.forall_mem_cons] at hq
    exact bind_alike (foldAll_alike h hq.2) hq.1 h.or
  | .odd parts => by
    rw [nodes, List.forall_mem_cons] at hq
    exact bind_alike (foldAll_alike h hq.2) hq.1 h.xor
  | .except p n => by
    rw [nodes, List.forall_mem_cons, List.forall_mem_append] at hq
    simp only [fold, fold_alike h hq.2.1, fold_alike h hq.2.2, h.not]
  | .weight q x => by
    rw [nodes, List.forall_mem_cons] at hq
    simp only [fold, fold_alike h hq.2]
    split
    · rename_i hx
      simp only [h.weight _ x hx]
    · rfl

theorem foldAll_alike (h : t.Alike u) {qs : List Query} (hq : ∀ n ∈ nodesAll qs, n.Joins) :
    foldAll t qs = foldAll u qs :=
  match qs with
  | [] => rfl
  | q :: qs => by
    rw [nodesAll, List.forall_mem_append] at hq
    simp only [foldAll, fold_alike h hq.1, foldAll_alike h hq.2]

end

mutual

theorem exists_fold {q : Query} {x : β} (h : fold t q = .ok x) :
    ∀ n ∈ q.nodes, ∃ y, fold t n = .ok y :=
  match q with
  | .freeText _ | .field _ _ => by simpa [nodes] using ⟨x, h⟩
  | .all parts | .any parts | .odd parts => by
    rw [nodes, List.forall_mem_cons]
    obtain ⟨xs, hxs, -⟩ := Except.bind_eq_ok.1 h
    exact ⟨⟨x, h⟩, exists_foldAll hxs⟩
  | .except p n => by
    rw [nodes, List.forall_mem_cons, List.forall_mem_append]
    obtain ⟨y, hy, hrest⟩ := Except.bind_eq_ok.1 h
    obtain ⟨z, hz, -⟩ := Except.bind_eq_ok.1 hrest
    exact ⟨⟨x, h⟩, exists_fold hy, exists_fold hz⟩
  | .weight q w => by
    rw [nodes, List.forall_mem_cons]
    refine ⟨⟨x, h⟩, ?_⟩
    simp only [fold] at h
    split at h
    · obtain ⟨y, hy, -⟩ := Except.bind_eq_ok.1 h
      exact exists_fold hy
    · cases h

theorem exists_foldAll {qs : List Query} {xs : List β} (h : foldAll t qs = .ok xs) :
    ∀ n ∈ nodesAll qs, ∃ y, fold t n = .ok y :=
  match qs with
  | [] => by simp [nodesAll]
  | q :: qs => by
    rw [nodesAll, List.forall_mem_append]
    obtain ⟨y, hy, h⟩ := Except.bind_eq_ok.1 h
    obtain ⟨ys, hys, -⟩ := Except.bind_eq_ok.1 h
    exact ⟨exists_fold hy, exists_foldAll hys⟩

end

section
variable {means : Query → β} (hmeans : ∀ q x, fold t q = .ok x → means q = x)
include hmeans

theorem foldAll_eq_map {qs : List Query} {xs : List β} (h : foldAll t qs = .ok xs) :
    xs = qs.map means := by
  induction qs generalizing xs with
  | nil =>
    cases h
    rfl
  | cons q qs ih =>
    obtain ⟨y, hy, h⟩ := Except.bind_eq_ok.1 h
    obtain ⟨ys, hys, h⟩ := Except.bind_eq_ok.1 h
    cases h
    rw [List.map_cons, hmeans q y hy, ← ih hys]

/-- What a node is folded to is the answer to one call. -/
theorem call_of_fold {q : Query} {x : β} (h : fold t q = .ok x) :
    t.call means q = .ok (means q) := by
  rw [hmeans q x h]
  cases q with
  | freeText terms | field name terms =>
    simp only [fold] at h
    split at h
    · cases h
    · exact h
  | all parts | any parts | odd parts =>
    obtain ⟨xs, hxs, h⟩ := Except.bind_eq_ok.1 h
    rwa [foldAll_eq_map hmeans hxs] at h
  | except p n =>
    obtain ⟨y, hy, h⟩ := Except.bind_eq_ok.1 h
    obtain ⟨z, hz, h⟩ := Except.bind_eq_ok.1 h
    rwa [← hmeans p y hy, ← hmeans n z hz] at h
  | weight q w =>
    simp only [fold] at h
    split at h
    · obtain ⟨y, hy, h⟩ := Except.bind_eq_ok.1 h
      rwa [← hmeans q y hy] at h
    · cases h

end

/-- **Each node is one call**, with what its parts mean in their order. -/
theorem exists_means {q : Query} {x : β} (h : fold t q = .ok x) :
    ∃ means : Query → β, means q = x ∧ ∀ n ∈ q.nodes, t.call means n = .ok (means n) := by
  have hmeans (n : Query) (y : β) (hn : fold t n = .ok y) : (fold t n).toOption.getD x = y := by
    rw [hn]
    rfl
  -- What a node means is what it is folded to by itself.
  refine ⟨fun n => (fold t n).toOption.getD x, hmeans q x h, fun n hn => ?_⟩
  obtain ⟨y, hy⟩ := exists_fold h n hn
  exact call_of_fold hmeans hy

end

/-! ## Faults -/

def firstFault (wrong? : Query → Option Error) (ns : List Query) : Except Error Unit :=
  checked (ns.findSome? wrong?)

section
variable {wrong? : Query → Option Error}

theorem firstFault_cons (n : Query) (ns : List Query) :
    firstFault wrong? (n :: ns) = (do firstFault wrong? [n]; firstFault wrong? ns) := by
  simp only [firstFault, List.findSome?_cons, List.findSome?_nil]
  cases wrong? n <;> rfl

theorem firstFault_append (ms ns : List Query) :
    firstFault wrong? (ms ++ ns) = (do firstFault wrong? ms; firstFault wrong? ns) := by
  simp only [firstFault, List.findSome?_append]
  cases ms.findSome? wrong? <;> rfl

theorem firstFault_eq_ok_iff {ns : List Query} :
    firstFault wrong? ns = .ok () ↔ ∀ n ∈ ns, wrong? n = none := by
  rw [firstFault, ← List.findSome?_eq_none_iff]
  cases ns.findSome? wrong? <;> simp [checked]

theorem firstFault_of_split {before after : List Query} {n : Query} {e : Error}
    (hbefore : ∀ m ∈ before, wrong? m = none) (hn : wrong? n = some e) :
    firstFault wrong? (before ++ n :: after) = .error e := by
  rw [firstFault, List.findSome?_append, List.findSome?_eq_none_iff.2 hbefore, Option.none_or,
    List.findSome?_cons, hn]
  rfl

end

/-- What is wrong with a node for a backend that refuses some leaves on fields. -/
def verdict? (refuses? : String → List String → Option Error) (n : Query) : Option Error :=
  n.fault?.or <|
    match n with
    | field name terms => refuses? name terms
    | _ => none

theorem verdict?_of_accepting (n : Query) : n.verdict? (fun _ _ => none) = n.fault? := by
  cases n <;> exact Option.or_none

section
variable {β : Type} {t : Translator β} {refuses? : String → List String → Option Error}

theorem map_bind_total {α : Type} {x : Except Error α} {f : α → Except Error β}
    (hf : ∀ a, ∃ b, f a = .ok b) :
    (x >>= f).map (fun _ => ()) = x.map fun _ => () := by
  cases x with
  | error e => rfl
  | ok a =>
    obtain ⟨b, hb⟩ := hf a
    exact congrArg (Except.map fun _ => ()) hb

mutual

/-- **A fold fails with the first verdict**, if the translator fails only where it refuses a leaf.
Whether it fails to weight something does not matter where there are no weights. -/
theorem map_fold_of_refuses (ht : t.Refuses refuses?) :
    (q : Query) → (q.Weightless ∨ t.Weights) →
      (fold t q).map (fun _ => ()) = firstFault (verdict? refuses?) q.nodes
  | .freeText terms, _ => by
    obtain ⟨x, hx⟩ := ht.freeText terms
    cases terms <;> simp [fold, nodes, firstFault, verdict?, fault?, checked, hx, Except.map]
  | .field name terms, _ => by
    cases terms with
    | nil => simp [fold, nodes, firstFault, verdict?, fault?, checked, Except.map]
    | cons term terms =>
      simp [fold, nodes, firstFault, verdict?, fault?, ht.field name (term :: terms)]
  | .all parts, hw => by
    rw [nodes, firstFault_cons, ← map_foldAll_of_refuses ht parts hw, fold, map_bind_total ht.and]
    rfl
  | .any parts, hw => by
    rw [nodes, firstFault_cons, ← map_foldAll_of_refuses ht parts hw, fold, map_bind_total ht.or]
    rfl
  | .odd parts, hw => by
    rw [nodes, firstFault_cons, ← map_foldAll_of_refuses ht parts hw, fold, map_bind_total ht.xor]
    rfl
  | .except p n, hw => by
    rw [nodes, firstFault_cons, firstFault_append, ← map_fold_of_refuses ht p (hw.imp_left (·.1)),
      ← map_fold_of_refuses ht n (hw.imp_left (·.2)), fold]
    cases fold t p with
    | error e => rfl
    | ok y => exact map_bind_total (ht.not y)
  | .weight q x, hw => by
    have htotal : t.Weights := hw.resolve_left id
    rw [nodes, firstFault_cons, ← map_fold_of_refuses ht q (.inr htotal), fold]
    -- The weight is looked at before what is weighted.
    by_cases hx : x.isWeight = true
    · have hnone : firstFault (verdict? refuses?) [.weight q x] = .ok () :=
        firstFault_eq_ok_iff.2 (by simpa [verdict?, fault?] using Binary.isWeight_iff.1 hx)
      rw [if_pos hx, hnone, map_bind_total fun y => htotal y x]
      rfl
    · have hsome : firstFault (verdict? refuses?) [.weight q x] =
          .error (.querying s!"weight {x.text} must be finite and non-negative") := by
        rw [Binary.isWeight_iff] at hx
        simp [firstFault, verdict?, fault?, checked, hx]
      rw [if_neg hx, hsome]
      rfl

theorem map_foldAll_of_refuses (ht : t.Refuses refuses?) :
    (qs : List Query) → (WeightlessAll qs ∨ t.Weights) →
      (foldAll t qs).map (fun _ => ()) = firstFault (verdict? refuses?) (nodesAll qs)
  | [], _ => rfl
  | q :: qs, hw => by
    rw [nodesAll, firstFault_append, ← map_fold_of_refuses ht q (hw.imp_left (·.1)),
      ← map_foldAll_of_refuses ht qs (hw.imp_left (·.2)), foldAll]
    cases fold t q with
    | error e => rfl
    | ok y => cases foldAll t qs <;> rfl

end

/-- **A fold fails with the first fault**, if the translator never fails. -/
theorem map_fold (ht : t.Total) (q : Query) :
    (fold t q).map (fun _ => ()) = firstFault fault? q.nodes := by
  have hverdict : verdict? (fun _ _ => none) = fault? := funext verdict?_of_accepting
  rw [map_fold_of_refuses ht.refuses q (.inr ht.weight), hverdict]

/-! ## Translations -/

variable {caps : Capabilities} {backend : String} {q : Query}

theorem supportsOperator_iff {op : QueryOperator} :
    caps.supportsOperator op = true ↔ op ∈ caps.operators :=
  List.contains_iff_mem

theorem mem_operators {op : QueryOperator} : op ∈ q.operators ↔ ∃ n ∈ q.nodes, n.operator = op := by
  rw [operators, List.mem_eraseDups, List.mem_map]

theorem supported_iff : q.Supported caps ↔ q.operators ⊆ caps.operators := by
  constructor
  · intro h op hop
    obtain ⟨n, hn, rfl⟩ := mem_operators.1 hop
    exact supportsOperator_iff.1 (h n hn)
  · exact fun h n hn => supportsOperator_iff.2 (h (mem_operators.2 ⟨n, hn, rfl⟩))

/-- The first node without an operator is reported, whatever the translator is. -/
theorem translate_of_split (t : Translator β) {before after : List Query} {n : Query}
    (hnodes : q.nodes = before ++ n :: after)
    (hbefore : ∀ m ∈ before, m.operator ∈ caps.operators) (hn : n.operator ∉ caps.operators) :
    q.translate caps backend t = .error (.unsupportedQuery n.text backend) := by
  have hfirst : q.firstUnsupported caps = some n := by
    rw [firstUnsupported, hnodes, List.find?_append, List.find?_eq_none.2 (fun m hm => ?_),
      Option.none_or, List.find?_cons_of_pos]
    · simpa [← supportsOperator_iff] using hn
    · simpa [supportsOperator_iff] using hbefore m hm
  rw [translate, hfirst]

theorem map_translate (backend : String) (ht : t.Total) (h : q.operators ⊆ caps.operators) :
    (q.translate caps backend t).map (fun _ => ()) = firstFault fault? q.nodes := by
  rw [translate_of_supported (supported_iff.2 h), map_fold ht]

theorem Weightless.supported (hw : q.Weightless)
    (hcaps : ∀ op, op ≠ .weight → caps.supportsOperator op = true) : q.Supported caps :=
  fun n hn => hcaps _ (hw.operator_ne n hn)

theorem map_translate_of_refuses (backend : String)
    {refuses? : String → List String → Option Error} (ht : t.Refuses refuses?)
    (hw : q.Weightless) (hcaps : ∀ op, op ≠ .weight → caps.supportsOperator op = true) :
    (q.translate caps backend t).map (fun _ => ()) = firstFault (verdict? refuses?) q.nodes := by
  rw [translate_of_supported (hw.supported hcaps), map_fold_of_refuses ht q (.inl hw)]

/-- **Translations are exact.** A query of the operations is translated if the backend has its
operators, its leaves have terms and its weights are finite and not below zero. If not, the first
node without an operator is reported, before any call of the translator, and if there is none, the
first leaf or weight at fault. What is called are nodes with at least two parts and leaves with
terms, each with what its parts mean in their order. -/
theorem translation_exact (hq : q.Built) (ht : t.Total) (caps : Capabilities) (backend : String) :
    ((∃ x, q.translate caps backend t = .ok x) ↔
      (∀ n ∈ q.nodes, n.operator ∈ caps.operators) ∧ ∀ n ∈ q.nodes, n.fault? = none) ∧
    ((∃ n ∈ q.nodes, n.operator ∉ caps.operators) ↔ ¬q.operators ⊆ caps.operators) ∧
    (∀ before n after, q.nodes = before ++ n :: after →
      (∀ m ∈ before, m.operator ∈ caps.operators) → n.operator ∉ caps.operators →
      ∀ {γ : Type} (u : Translator γ),
        q.translate caps backend u = .error (.unsupportedQuery n.text backend)) ∧
    (q.operators ⊆ caps.operators → ∀ before n after e, q.nodes = before ++ n :: after →
      (∀ m ∈ before, m.fault? = none) → n.fault? = some e →
        q.translate caps backend t = .error e) ∧
    (∀ u : Translator β, u.Alike t → q.translate caps backend u = q.translate caps backend t) ∧
    ∀ x, q.translate caps backend t = .ok x →
      ∃ means : Query → β, means q = x ∧ ∀ n ∈ q.nodes, n.Joins ∧ t.call means n = .ok (means n) := by
  have hoperators : (∀ n ∈ q.nodes, n.operator ∈ caps.operators) ↔ q.operators ⊆ caps.operators := by
    rw [← supported_iff]
    exact forall₂_congr fun _ _ => supportsOperator_iff.symm
  refine ⟨⟨?_, ?_⟩, ?_, fun before n after hnodes hbefore hn γ u => ?_,
    fun h before n after e hnodes hbefore hn => ?_, fun u hu => ?_, fun x hx => ?_⟩
  · rintro ⟨x, hx⟩
    have hsupported := supported_iff.1 (translate_eq_ok_iff.1 hx).1
    refine ⟨hoperators.2 hsupported, firstFault_eq_ok_iff.1 ?_⟩
    rw [← map_translate backend ht hsupported, hx]
    rfl
  · rintro ⟨hsupported, hfaults⟩
    have hmap := map_translate backend ht (hoperators.1 hsupported)
    rw [firstFault_eq_ok_iff.2 hfaults] at hmap
    obtain ⟨x, hx, -⟩ := Except.map_eq_ok.1 hmap
    exact ⟨x, hx⟩
  · rw [← hoperators]
    push Not
    rfl
  · exact translate_of_split u hnodes hbefore hn
  · have hmap := map_translate backend ht h
    rw [hnodes, firstFault_of_split hbefore hn] at hmap
    exact Except.map_eq_error.1 hmap
  · rw [translate, translate, fold_alike hu hq.joins]
  · obtain ⟨means, hmeans, hcalls⟩ := exists_means (translate_eq_ok_iff.1 hx).2
    exact ⟨means, hmeans, fun n hn => ⟨hq.joins n hn, hcalls n hn⟩⟩

def faulty : Query := ((freeText []).weight (.nan false)).or (field "tag" [])

/-- The weight is reported where there are weights, and as such where there are none. -/
theorem translation_exact_faulty :
    faulty.translate Memory.capabilities Memory.backendName .listing =
        .error (.querying "weight NaN must be finite and non-negative") ∧
      faulty.translate Memory.Limited.capabilities Memory.Limited.backendName .listing =
        .error (.unsupportedQuery "(\"\" * NaN)" "limited") := by
  have hbuilt : faulty.Built := .or (.weight (.freeText []) _) (.field "tag" [])
  have htotal : Translator.listing.Total :=
    ⟨fun _ => ⟨_, rfl⟩, fun _ _ => ⟨_, rfl⟩, fun _ => ⟨_, rfl⟩, fun _ => ⟨_, rfl⟩,
      fun _ _ => ⟨_, rfl⟩, fun _ => ⟨_, rfl⟩, fun _ _ => ⟨_, rfl⟩⟩
  constructor
  · obtain ⟨-, -, -, hfault, -⟩ :=
      translation_exact hbuilt htotal Memory.capabilities Memory.backendName
    exact hfault (by decide) [faulty] ((freeText []).weight (.nan false)) _ _ rfl (by decide)
      (by decide)
  · obtain ⟨-, -, hunsupported, -⟩ :=
      translation_exact hbuilt htotal Memory.Limited.capabilities Memory.Limited.backendName
    exact hunsupported [faulty] ((freeText []).weight (.nan false)) _ rfl (by decide) (by decide)
      .listing

end

end Query

end Searchlight
