import Mathlib.Data.List.Fold
import Searchlight.Proofs.Query.Translating

/-!
# Queries without traces of grouping

The operations that join queries look one level down, which is enough for trees that they built
themselves: these are the trees in which no operation stands directly under itself and none joins
fewer than two parts (`Built.normal`, `Normal.built`). What one of them makes is told by the parts
that its operands give (`Joining.parts_join`), so how a list of queries is grouped cannot be seen in
the tree that joins them (`built_normal`).
-/

namespace Searchlight.Query

/-! ## Normal trees -/

/-- No part of a node is the operation of the node itself. -/
def Unnested : Query → Prop
  | all parts => ∀ p ∈ parts, p.operator ≠ .and
  | any parts => ∀ p ∈ parts, p.operator ≠ .or
  | odd parts => ∀ p ∈ parts, p.operator ≠ .xor
  | freeText _ | field _ _ | except _ _ | weight _ _ => True

/-- No operation stands directly under itself, and those that join parts join at least two. -/
def Normal (q : Query) : Prop := ∀ n ∈ q.nodes, n.Unnested ∧ n.Joins

/-- The nodes of a tree that have no parts, from left to right. -/
def leaves (q : Query) : List Query :=
  q.nodes.filter fun n => n.operator = .freeText ∨ n.operator = .field

/-! ## Operations that join -/

inductive Joining where
  | and
  | or
  | xor

namespace Joining

/-- What an operation makes of two queries. -/
def join : Joining → Query → Query → Query
  | and => Query.and
  | or => Query.or
  | xor => Query.xor

def node : Joining → List Query → Query
  | and => all
  | or => any
  | xor => odd

def parts : Joining → Query → List Query
  | and => conjuncts
  | or => disjuncts
  | xor => exclusives

def operator : Joining → QueryOperator
  | and => .and
  | or => .or
  | xor => .xor

variable (o : Joining) (a b : Query) (ps : List Query)

theorem join_eq : o.join a b = o.node (o.parts a ++ o.parts b) := by cases o <;> rfl

@[simp] theorem parts_node : o.parts (o.node ps) = ps := by cases o <;> rfl

@[simp] theorem parts_join : o.parts (o.join a b) = o.parts a ++ o.parts b := by
  rw [join_eq, parts_node]

@[simp] theorem nodes_node : (o.node ps).nodes = o.node ps :: nodesAll ps := by cases o <;> rfl

theorem operator_node : (o.node ps).operator = o.operator := by cases o <;> rfl

theorem unnested_node : (o.node ps).Unnested ↔ ∀ p ∈ ps, p.operator ≠ o.operator := by
  cases o <;> rfl

theorem joins_node : (o.node ps).Joins ↔ 2 ≤ ps.length := by cases o <;> rfl

/-- A query is a node of the operation and gives its parts, or it gives itself. -/
theorem parts_cases :
    a = o.node (o.parts a) ∨ o.parts a = [a] ∧ a.operator ≠ o.operator := by
  cases o <;> cases a <;> first | exact .inl rfl | exact .inr ⟨rfl, nofun⟩

variable {o} {a b}

theorem parts_of_operator_ne (h : a.operator ≠ o.operator) : o.parts a = [a] := by
  rcases o.parts_cases a with heq | ⟨hself, -⟩
  · exact absurd (heq ▸ o.operator_node _) h
  · exact hself

theorem nodesAll_parts_subset (q : Query) : nodesAll (o.parts q) ⊆ q.nodes := by
  cases o
  · exact nodesAll_conjuncts_subset q
  · exact nodesAll_disjuncts_subset q
  · exact nodesAll_exclusives_subset q

/-! ### Grouping -/

variable (o) (c : Query)

theorem join_assoc : o.join (o.join a b) c = o.join a (o.join b c) := by
  simp only [join_eq, parts_node, List.append_assoc]

instance associative : Std.Associative o.join := ⟨fun _ _ c => o.join_assoc c⟩

theorem foldl_join_eq_foldr (q : Query) (qs : List Query) :
    qs.foldl o.join q =
      (q :: qs).dropLast.foldr o.join ((q :: qs).getLast (List.cons_ne_nil q qs)) := by
  rcases List.eq_nil_or_concat qs with rfl | ⟨inner, last, rfl⟩
  · rfl
  · simp only [List.concat_eq_append, ← List.cons_append, List.dropLast_concat,
      List.getLast_append_singleton]
    rw [List.foldl_append, List.foldl_cons, List.foldl_nil, List.foldr_cons]
    exact List.foldl1_eq_foldr1

theorem parts_foldl_join (q : Query) (qs : List Query) :
    o.parts (qs.foldl o.join q) = (q :: qs).flatMap o.parts := by
  induction qs generalizing q with
  | nil => simp
  | cons r rs ih => simp [ih]

theorem foldl_join_eq_node (q r : Query) (qs : List Query) :
    (r :: qs).foldl o.join q = o.node ((q :: r :: qs).flatMap o.parts) := by
  rw [List.foldl_cons, List.foldl_assoc, join_eq, parts_foldl_join, ← List.flatMap_cons]

/-- The leaves of what is joined are those of a list of queries, one query after the other. -/
theorem leaves_join (a b : Query) : (o.join a b).leaves = a.leaves ++ b.leaves := by
  have hparts (q : Query) :
      (nodesAll (o.parts q)).filter (fun n => n.operator = .freeText ∨ n.operator = .field) =
        q.leaves := by
    rcases o.parts_cases q with heq | ⟨hself, -⟩
    · conv_rhs => rw [heq, leaves, nodes_node, List.filter_cons, operator_node]
      cases o <;> rfl
    · simp [hself, nodesAll, leaves]
  rw [join_eq, leaves, nodes_node, List.filter_cons, operator_node, nodesAll_append,
    List.filter_append, hparts, hparts]
  cases o <;> rfl

theorem leaves_foldl_join (q : Query) (qs : List Query) :
    (qs.foldl o.join q).leaves = (q :: qs).flatMap leaves := by
  induction qs generalizing q with
  | nil => simp
  | cons r rs ih => simp [ih, leaves_join]

end Joining

/-! ## What the operations build -/

theorem Joining.unnested_join (o : Joining) {a b : Query} (ha : a.Unnested) (hb : b.Unnested) :
    (o.join a b).Unnested := by
  have hparts {q : Query} (hq : q.Unnested) : ∀ p ∈ o.parts q, p.operator ≠ o.operator := by
    rcases o.parts_cases q with heq | ⟨hself, hne⟩
    · exact (o.unnested_node _).1 (heq ▸ hq)
    · simpa [hself] using hne
  rw [join_eq, unnested_node]
  exact List.forall_mem_append.2 ⟨hparts ha, hparts hb⟩

theorem self_mem_nodes (q : Query) : q ∈ q.nodes := by cases q <;> simp [nodes]

theorem Joining.unnested_nodes_join (o : Joining) {a b : Query} (ha : ∀ n ∈ a.nodes, n.Unnested)
    (hb : ∀ n ∈ b.nodes, n.Unnested) : ∀ n ∈ (o.join a b).nodes, n.Unnested := by
  have hroot := o.unnested_join (ha _ a.self_mem_nodes) (hb _ b.self_mem_nodes)
  rw [join_eq] at hroot ⊢
  exact forall_mem_nodes_node (o.node _) (o.nodes_node _) hroot (nodesAll_parts_subset a)
    (nodesAll_parts_subset b) ha hb

/-- **What is built is normal.** -/
theorem Built.normal {q : Query} (h : q.Built) : q.Normal := by
  have hunnested : ∀ n ∈ q.nodes, n.Unnested := by
    induction h with
    | freeText | field => simp [nodes, Unnested]
    | and _ _ iha ihb => exact Joining.and.unnested_nodes_join iha ihb
    | or _ _ iha ihb => exact Joining.or.unnested_nodes_join iha ihb
    | xor _ _ iha ihb => exact Joining.xor.unnested_nodes_join iha ihb
    | not _ _ iha ihb =>
      rw [Query.not, nodes, List.forall_mem_cons]
      exact ⟨trivial, List.forall_mem_append.2 ⟨iha, ihb⟩⟩
    | weight _ x iha =>
      rw [nodes, List.forall_mem_cons]
      exact ⟨trivial, iha⟩
  exact fun n hn => ⟨hunnested n hn, h.joins n hn⟩

theorem Joining.built_join (o : Joining) {a b : Query} (ha : a.Built) (hb : b.Built) :
    (o.join a b).Built := by
  cases o
  · exact .and ha hb
  · exact .or ha hb
  · exact .xor ha hb

theorem Joining.built_foldl_join (o : Joining) {q : Query} {qs : List Query} (hq : q.Built)
    (hqs : ∀ p ∈ qs, p.Built) : (qs.foldl o.join q).Built := by
  induction qs generalizing q with
  | nil => exact hq
  | cons r rs ih =>
    rw [List.forall_mem_cons] at hqs
    exact ih (o.built_join hq hqs.1) hqs.2

/-- A flat node over built parts is built by joining them. -/
theorem Joining.built_node (o : Joining) {ps : List Query} (hunnested : (o.node ps).Unnested)
    (hjoins : (o.node ps).Joins) (hps : ∀ p ∈ ps, p.Built) : (o.node ps).Built := by
  rw [joins_node] at hjoins
  rw [unnested_node] at hunnested
  match ps with
  | q :: r :: qs =>
    have hparts : (q :: r :: qs).flatMap o.parts = q :: r :: qs := by
      rw [List.flatMap_congr fun p hp => parts_of_operator_ne (hunnested p hp)]
      exact List.flatMap_singleton' _
    rw [← hparts, ← foldl_join_eq_node]
    rw [List.forall_mem_cons] at hps
    exact o.built_foldl_join hps.1 hps.2

mutual

/-- **What is normal is built.** -/
theorem Normal.built {q : Query} (h : q.Normal) : q.Built :=
  match q with
  | freeText terms => .freeText terms
  | field name terms => .field name terms
  | all ps => by
    rw [Normal, nodes, List.forall_mem_cons] at h
    exact Joining.and.built_node h.1.1 h.1.2 (builtAll_of_normal h.2)
  | any ps => by
    rw [Normal, nodes, List.forall_mem_cons] at h
    exact Joining.or.built_node h.1.1 h.1.2 (builtAll_of_normal h.2)
  | odd ps => by
    rw [Normal, nodes, List.forall_mem_cons] at h
    exact Joining.xor.built_node h.1.1 h.1.2 (builtAll_of_normal h.2)
  | except p n => by
    rw [Normal, nodes, List.forall_mem_cons, List.forall_mem_append] at h
    exact .not (Normal.built h.2.1) (Normal.built h.2.2)
  | weight q x => by
    rw [Normal, nodes, List.forall_mem_cons] at h
    exact .weight (Normal.built h.2) x

theorem builtAll_of_normal {qs : List Query} (h : ∀ n ∈ nodesAll qs, n.Unnested ∧ n.Joins) :
    ∀ q ∈ qs, q.Built :=
  match qs with
  | [] => by simp
  | q :: qs => by
    rw [nodesAll, List.forall_mem_append] at h
    exact List.forall_mem_cons.2 ⟨Normal.built h.1, builtAll_of_normal h.2⟩

end

/-! ## Grouping -/

/-- How queries are grouped leaves no trace in what an operation makes of them: one node over the
parts that they give to it. -/
structure Ungrouped (op : Query → Query → Query) (node : List Query → Query)
    (parts : Query → List Query) : Prop where
  assoc (a b c : Query) : op (op a b) c = op a (op b c)
  hash_assoc (a b c : Query) : hash (op (op a b) c) = hash (op a (op b c))
  /-- A list of queries is joined from the left as it is from the right. -/
  foldl_eq_foldr (q : Query) (qs : List Query) :
    qs.foldl op q = (q :: qs).dropLast.foldr op ((q :: qs).getLast (List.cons_ne_nil q qs))
  foldl_eq_node (q r : Query) (qs : List Query) :
    (r :: qs).foldl op q = node ((q :: r :: qs).flatMap parts)
  leaves_foldl (q : Query) (qs : List Query) : (qs.foldl op q).leaves = (q :: qs).flatMap leaves

theorem Joining.ungrouped (o : Joining) : Ungrouped o.join o.node o.parts where
  assoc _ _ c := o.join_assoc c
  hash_assoc _ _ c := congrArg hash (o.join_assoc c)
  foldl_eq_foldr := o.foldl_join_eq_foldr
  foldl_eq_node := o.foldl_join_eq_node
  leaves_foldl := o.leaves_foldl_join

/-- **What is built is normal, and grouping leaves no trace in it.** The trees that are built by the
operations are those in which no conjunction stands directly under a conjunction, no disjunction
under a disjunction and no exclusive disjunction under another, and each of them has at least two
parts. Queries that are joined one by one, from the left or from the right, give the same tree with
the same hash: one node over their parts, with their leaves in the order of the list. -/
theorem built_normal :
    (∀ q : Query, q.Built ↔ q.Normal) ∧ Ungrouped Query.and all conjuncts ∧
      Ungrouped Query.or any disjuncts ∧ Ungrouped Query.xor odd exclusives :=
  ⟨fun _ => ⟨Built.normal, Normal.built⟩, Joining.and.ungrouped, Joining.or.ungrouped,
    Joining.xor.ungrouped⟩

example : (term "red").and ((term "boat").and (term "sea")) =
    all [.freeText ["red"], .freeText ["boat"], .freeText ["sea"]] := by decide

end Searchlight.Query
