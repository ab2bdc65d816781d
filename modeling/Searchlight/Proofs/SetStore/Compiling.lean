import Mathlib.Data.List.Nodup
import Mathlib.Data.List.Range
import Searchlight.Proofs.SetStore.Documents

/-!
# Programs compute their plans

A program puts the set that its plan stands for under the key of its result (`computes_compileFrom`)
and leaves all other keys. The induction is on the plan, from a server that holds nothing under the
temporary keys from the `n`-th on. What one part has stored stays there while the later parts are
computed, since these use later temporary keys.

Every node but a key on its own is given a temporary key, in the order in which the nodes are
compiled (`temps_compileFrom`), and all of these keys but those of plans that match nothing are
written, each by the step of its node (`dests_compileFrom`), before they are read
(`settled_compileFrom`).
-/

namespace Searchlight

namespace TextSet

@[simp] theorem contains_inter {a b : TextSet} {x : String} :
    (a.inter b).contains x = (a.contains x && b.contains x) := by
  simp only [inter, KeyMap.contains, KeyMap.get?_filter]
  cases a.get? x <;> cases b.get? x <;> rfl

end TextSet

namespace SetStore

open Searchlight.Action (Keeps)

/-! ## Operations on sets -/

namespace SetOp

def combine : SetOp → List Bool → Bool
  | _, [] => false
  | inter, b :: bs => b && bs.all id
  | union, b :: bs => b || bs.any id
  | diff, b :: bs => b && bs.all not

theorem contains_apply (op : SetOp) (ss : List TextSet) (x : String) :
    (op.apply ss).contains x = op.combine (ss.map (·.contains x)) := by
  have hfold {f : TextSet → TextSet → TextSet} {g : Bool → Bool → Bool}
      (hf : ∀ a b : TextSet, (f a b).contains x = g (a.contains x) (b.contains x)) (s : TextSet)
      (ss : List TextSet) :
      (ss.foldl f s).contains x = (ss.map (·.contains x)).foldl g (s.contains x) := by
    induction ss generalizing s with
    | nil => rfl
    | cons t ss ih => rw [List.foldl_cons, ih, hf, List.map_cons, List.foldl_cons]
  cases ss with
  | nil => cases op <;> rfl
  | cons s ss =>
    have hand (bs : List Bool) (b : Bool) : bs.foldl (· && ·) b = (b && bs.all id) := by
      induction bs generalizing b with
      | nil => simp
      | cons c bs ih => simp [ih, Bool.and_assoc]
    have hor (bs : List Bool) (b : Bool) : bs.foldl (· || ·) b = (b || bs.any id) := by
      induction bs generalizing b with
      | nil => simp
      | cons c bs ih => simp [ih, Bool.or_assoc]
    have hless (bs : List Bool) (b : Bool) : bs.foldl (· && !·) b = (b && bs.all not) := by
      induction bs generalizing b with
      | nil => simp
      | cons c bs ih => simp [ih, Bool.and_assoc]
    cases op with
    | inter => exact (hfold (g := (· && ·)) (fun _ _ => TextSet.contains_inter) s ss).trans (hand _ _)
    | union => exact (hfold (g := (· || ·)) (fun _ _ => TextSet.contains_union) s ss).trans (hor _ _)
    | diff => exact (hfold (g := (· && !·)) (fun _ _ => TextSet.contains_diff) s ss).trans (hless _ _)

end SetOp

/-! ## Nodes of plans -/

namespace Plan

def node? : Plan → Option (SetOp × List Plan)
  | key _ | nothing => none
  | inter parts => some (.inter, parts)
  | union parts => some (.union, parts)
  | diff p n => some (.diff, [p, n])

/-- The plan matches nothing as it stands. -/
def isNothing : Plan → Bool
  | nothing => true
  | _ => false

mutual

/-- The nodes that are no keys, the parts of a node before the node. -/
def nodes : Plan → List Plan
  | key _ => []
  | nothing => [nothing]
  | inter parts => nodesOf parts ++ [inter parts]
  | union parts => nodesOf parts ++ [union parts]
  | diff p n => nodes p ++ nodes n ++ [diff p n]

def nodesOf : List Plan → List Plan
  | [] => []
  | p :: ps => nodes p ++ nodesOf ps

end

mutual

/-- Each intersection and each union has a part. -/
def HasParts : Plan → Prop
  | key _ | nothing => True
  | inter parts | union parts => parts ≠ [] ∧ HaveParts parts
  | diff p n => HasParts p ∧ HasParts n

def HaveParts : List Plan → Prop
  | [] => True
  | p :: ps => HasParts p ∧ HaveParts ps

end

variable {plan : Plan} {op : SetOp} {ps : List Plan} {P : String → Prop}
  {sets : String → TextSet} {id : String}

/-- Induction over plans that does not tell the operations apart. -/
theorem node_induction {motive : Plan → Prop} (key : ∀ k, motive (key k))
    (nothing : motive nothing)
    (node : ∀ {plan op ps}, plan.node? = some (op, ps) → (∀ p ∈ ps, motive p) → motive plan)
    (plan : Plan) : motive plan := by
  refine @Plan.rec motive (fun ps => ∀ p ∈ ps, motive p)
    key nothing (fun _ h => node rfl h) (fun _ h => node rfl h) (fun p n hp hn => ?_)
    (by simp) (fun p ps hp hps => List.forall_mem_cons.2 ⟨hp, hps⟩) plan
  exact node rfl (List.forall_mem_cons.2 ⟨hp, List.forall_mem_cons.2 ⟨hn, by simp⟩⟩)

theorem nodes_node (h : plan.node? = some (op, ps)) : plan.nodes = nodesOf ps ++ [plan] := by
  cases plan <;> cases h
  · rfl
  · rfl
  · simp [nodes, nodesOf]

theorem isNothing_node (h : plan.node? = some (op, ps)) : plan.isNothing = false := by
  cases plan <;> cases h <;> rfl

theorem holds_node (h : plan.node? = some (op, ps)) :
    holds sets id plan = op.combine (ps.map (holds sets id)) := by
  cases plan <;> cases h
  · cases ps with
    | nil => rfl
    | cons p ps => simp [holds, allHold_eq_all, SetOp.combine]
  · cases ps with
    | nil => rfl
    | cons p ps => simp [holds, anyHolds_eq_any, SetOp.combine]
  · simp [holds, SetOp.combine]

theorem over_node (h : plan.node? = some (op, ps)) : plan.Over P ↔ OverAll P ps := by
  cases plan <;> cases h
  · rfl
  · rfl
  · simp [Over, OverAll]

theorem Over.and {Q : String → Prop} (hP : plan.Over P) (hQ : plan.Over Q) :
    plan.Over fun key => P key ∧ Q key := by
  induction plan using node_induction with
  | key k => exact ⟨hP, hQ⟩
  | nothing => trivial
  | node h ih =>
    rw [over_node h, overAll_iff] at hP hQ ⊢
    exact fun p hp => ih p hp (hP p hp) (hQ p hp)

theorem hasParts_node (h : plan.node? = some (op, ps)) (hplan : plan.HasParts) :
    ps ≠ [] ∧ HaveParts ps := by
  cases plan <;> cases h
  · exact hplan
  · exact hplan
  · exact ⟨by simp, hplan.1, hplan.2, trivial⟩

end Plan

/-! ## Temporary keys -/

namespace Program

variable {temp : Nat → String} {n : Nat} {plan : Plan} {op : SetOp} {ps : List Plan}
  {P known : String → Prop}

theorem compileFrom_node (h : plan.node? = some (op, ps)) :
    compileFrom temp n plan =
      joined op (temp (n + ((compileAll temp n ps).flatMap (·.temps)).length))
        (compileAll temp n ps) := by
  cases plan <;> cases h
  · rfl
  · rfl
  · simp [compileFrom, compileAll, Nat.add_assoc]

theorem compileAll_cons (p : Plan) (ps : List Plan) :
    compileAll temp n (p :: ps) =
      compileFrom temp n p :: compileAll temp (n + (compileFrom temp n p).temps.length) ps := rfl

theorem temps_compileAll
    (h : ∀ p ∈ ps, ∀ n, (compileFrom temp n p).temps = (List.range' n p.nodes.length).map temp)
    (n : Nat) : (compileAll temp n ps).flatMap (·.temps) =
      (List.range' n (Plan.nodesOf ps).length).map temp := by
  induction ps generalizing n with
  | nil => rfl
  | cons p ps ih =>
    obtain ⟨hp, hps⟩ := List.forall_mem_cons.1 h
    rw [compileAll_cons, List.flatMap_cons, ih hps, hp, Plan.nodesOf, List.length_append,
      ← List.map_append]
    simp

/-- The temporary keys of a program: one for each node that is no key, one after the other. -/
theorem temps_compileFrom (plan : Plan) (n : Nat) :
    (compileFrom temp n plan).temps = (List.range' n plan.nodes.length).map temp := by
  induction plan using Plan.node_induction generalizing n with
  | key k => rfl
  | nothing => rfl
  | node h ih =>
    rw [compileFrom_node h, Plan.nodes_node h, joined, temps_compileAll ih]
    simp [List.range'_concat]

def keyed (temp : Nat → String) (n : Nat) (plan : Plan) : List (Plan × String) :=
  plan.nodes.zip (compileFrom temp n plan).temps

def keyedAll (temp : Nat → String) (n : Nat) (ps : List Plan) : List (Plan × String) :=
  (Plan.nodesOf ps).zip ((compileAll temp n ps).flatMap (·.temps))

theorem keyedAll_cons (p : Plan) (ps : List Plan) :
    keyedAll temp n (p :: ps) =
      keyed temp n p ++ keyedAll temp (n + (compileFrom temp n p).temps.length) ps := by
  rw [keyedAll, compileAll_cons, Plan.nodesOf, List.flatMap_cons, List.zip_append]
  · rfl
  · simp [temps_compileFrom]

theorem keyed_node (h : plan.node? = some (op, ps)) :
    keyed temp n plan = keyedAll temp n ps ++ [(plan, (compileFrom temp n plan).result)] := by
  rw [keyed, Plan.nodes_node h, compileFrom_node h, joined, List.zip_append]
  · rfl
  · simp [temps_compileAll fun p _ => temps_compileFrom p]

theorem dests_compileAll
    (h : ∀ p ∈ ps, ∀ n, (compileFrom temp n p).steps.map (·.dest) =
      ((keyed temp n p).filter (!·.1.isNothing)).map (·.2)) (n : Nat) :
    ((compileAll temp n ps).flatMap (·.steps)).map (·.dest) =
      ((keyedAll temp n ps).filter (!·.1.isNothing)).map (·.2) := by
  induction ps generalizing n with
  | nil => rfl
  | cons p ps ih =>
    obtain ⟨hp, hps⟩ := List.forall_mem_cons.1 h
    rw [compileAll_cons, List.flatMap_cons, List.map_append, ih hps, hp, keyedAll_cons,
      List.filter_append, List.map_append]

/-- **Each node but one that matches nothing has one step**, and this writes the key of the node.
The steps come in the order of the nodes. -/
theorem dests_compileFrom (plan : Plan) (n : Nat) :
    (compileFrom temp n plan).steps.map (·.dest) =
      ((keyed temp n plan).filter (!·.1.isNothing)).map (·.2) := by
  induction plan using Plan.node_induction generalizing n with
  | key k => rfl
  | nothing => rfl
  | node h ih =>
    have hnode := Plan.isNothing_node h
    rw [keyed_node h, List.filter_append, List.map_append, ← dests_compileAll ih,
      compileFrom_node h]
    simp [joined, hnode]

/-! ## Reading -/

def Settled (known : String → Prop) (steps : List Step) : Prop :=
  ∀ before step after, steps = before ++ step :: after →
    ∀ key ∈ step.sources, known key ∨ key ∈ before.map (·.dest)

theorem Settled.mono {known' : String → Prop} {steps : List Step} (h : Settled known steps)
    (hknown : ∀ key, known key → known' key) : Settled known' steps :=
  fun before step after hsteps key hkey => (h before step after hsteps key hkey).imp_left (hknown key)

theorem settled_nil : Settled known [] := by
  intro before step after h
  simp at h

theorem Settled.append {steps steps' : List Step} (h : Settled known steps)
    (h' : Settled (fun key => known key ∨ key ∈ steps.map (·.dest)) steps') :
    Settled known (steps ++ steps') := by
  intro before step after heq key hkey
  -- The step is one of the first steps, or it comes after all of these.
  rcases List.append_eq_append_iff.1 heq with ⟨mid, rfl, hmid⟩ | ⟨mid, hmid, hrest⟩
  · rw [List.map_append, List.mem_append, ← or_assoc]
    exact h' mid step after hmid key hkey
  · cases mid with
    | nil =>
      obtain rfl : steps = before := by simpa using hmid
      have hlater := h' [] step after hrest.symm key hkey
      simpa using hlater
    | cons s mid =>
      obtain ⟨rfl, -⟩ := List.cons.inj hrest
      exact h before step mid hmid key hkey

theorem settled_singleton {step : Step} (h : ∀ key ∈ step.sources, known key) :
    Settled known [step] := by
  intro before step' after heq key hkey
  cases before with
  | nil =>
    obtain ⟨rfl, -⟩ := List.cons.inj heq
    exact .inl (h key hkey)
  | cons s before => simp at heq

/-- What holds the result of a program: a key of the plan, the key of a plan that matches nothing,
or a key that the program has written. -/
theorem result_compileFrom (hplan : plan.Over P) :
    P (compileFrom temp n plan).result ∨
      (.nothing, (compileFrom temp n plan).result) ∈ keyed temp n plan ∨
      (compileFrom temp n plan).result ∈ (compileFrom temp n plan).steps.map (·.dest) := by
  have hnode {op : SetOp} {ps : List Plan} (h : plan.node? = some (op, ps)) :
      (compileFrom temp n plan).result ∈ (compileFrom temp n plan).steps.map (·.dest) := by
    rw [compileFrom_node h]
    simp [joined]
  cases plan with
  | key k => exact .inl hplan
  | nothing => exact .inr (.inl (List.mem_singleton_self _))
  | inter ps => exact .inr (.inr (hnode rfl))
  | union ps => exact .inr (.inr (hnode rfl))
  | diff p q => exact .inr (.inr (hnode rfl))

theorem results_compileAll (hps : Plan.OverAll P ps) (n : Nat) :
    ∀ c ∈ compileAll temp n ps, P c.result ∨ (.nothing, c.result) ∈ keyedAll temp n ps ∨
      c.result ∈ ((compileAll temp n ps).flatMap (·.steps)).map (·.dest) := by
  induction ps generalizing n with
  | nil => simp [compileAll]
  | cons p ps ih =>
    rw [compileAll_cons, List.forall_mem_cons, keyedAll_cons, List.flatMap_cons, List.map_append]
    simp only [List.mem_append]
    refine ⟨(result_compileFrom hps.1).imp_right (.imp .inl .inl), fun c hc => ?_⟩
    exact (ih hps.2 _ c hc).imp_right (.imp .inr .inr)

theorem settled_compileAll (hps : Plan.OverAll P ps)
    (h : ∀ p ∈ ps, p.Over P → ∀ n, Settled (fun key => P key ∨ (.nothing, key) ∈ keyed temp n p)
      (compileFrom temp n p).steps) (n : Nat) :
    Settled (fun key => P key ∨ (.nothing, key) ∈ keyedAll temp n ps)
      ((compileAll temp n ps).flatMap (·.steps)) := by
  induction ps generalizing n with
  | nil => exact settled_nil
  | cons p ps ih =>
    obtain ⟨hp, hrest⟩ := List.forall_mem_cons.1 h
    rw [compileAll_cons, List.flatMap_cons]
    simp only [keyedAll_cons, List.mem_append]
    refine ((hp hps.1 n).mono fun key => .imp_right .inl).append ?_
    exact (ih hps.2 hrest _).mono fun key h => .inl (h.imp_right .inr)

/-- **No temporary key is read before it is written**, unless it stands for a plan that matches
nothing. -/
theorem settled_compileFrom (hplan : plan.Over P) (n : Nat) :
    Settled (fun key => P key ∨ (.nothing, key) ∈ keyed temp n plan)
      (compileFrom temp n plan).steps := by
  induction plan using Plan.node_induction generalizing n with
  | key k => exact settled_nil
  | nothing => exact settled_nil
  | @node plan op ps h ih =>
    have hps := (Plan.over_node h).1 hplan
    have hkeyed (key : String) : P key ∨ (Plan.nothing, key) ∈ keyedAll temp n ps →
        P key ∨ (Plan.nothing, key) ∈ keyed temp n plan := by
      rw [keyed_node h]
      exact .imp_right (List.mem_append_left _)
    rw [compileFrom_node h]
    refine ((settled_compileAll hps (fun p hp hover => ih p hp hover) n).mono hkeyed).append ?_
    refine settled_singleton fun key hkey => ?_
    obtain ⟨c, hc, rfl⟩ := List.mem_map.1 hkey
    rw [or_assoc]
    rcases results_compileAll hps n c hc with h | h | h
    · exact .inl h
    · exact (hkeyed _ (.inr h)).imp_right .inl
    · exact .inr (.inr h)

theorem sources_compileAll
    (h : ∀ p ∈ ps, p.HasParts → ∀ n, ∀ step ∈ (compileFrom temp n p).steps, step.sources ≠ [])
    (hps : Plan.HaveParts ps) (n : Nat) :
    ∀ step ∈ (compileAll temp n ps).flatMap (·.steps), step.sources ≠ [] := by
  induction ps generalizing n with
  | nil => simp [compileAll]
  | cons p ps ih =>
    obtain ⟨hp, hrest⟩ := List.forall_mem_cons.1 h
    rw [compileAll_cons, List.flatMap_cons, List.forall_mem_append]
    exact ⟨hp hps.1 n, ih hrest hps.2 _⟩

theorem sources_compileFrom (hplan : plan.HasParts) (n : Nat) :
    ∀ step ∈ (compileFrom temp n plan).steps, step.sources ≠ [] := by
  induction plan using Plan.node_induction generalizing n with
  | key k => simp [compileFrom]
  | nothing => simp [compileFrom]
  | @node plan op ps h ih =>
    obtain ⟨hne, hps⟩ := Plan.hasParts_node h hplan
    rw [compileFrom_node h, joined, List.forall_mem_append]
    refine ⟨sources_compileAll (fun p hp hparts => ih p hp hparts) hps n, ?_⟩
    simp only [List.mem_singleton, forall_eq, ne_eq, List.map_eq_nil_iff]
    cases ps with
    | nil => exact absurd rfl hne
    | cons p ps => simp [compileAll_cons]

/-! ## Running a program -/

def StoredAt (sets : String → TextSet) (plan : Plan) (v : Server) (key : String) : Prop :=
  ∃ m, v.set? key = some m ∧ ∀ id, m.contains id = plan.holds sets id

theorem StoredAt.congr {sets : String → TextSet} {v v' : Server} {key : String}
    (h : StoredAt sets plan v key) (hkey : v'.keys.get? key = v.keys.get? key) :
    StoredAt sets plan v' key := by
  obtain ⟨m, hm, hholds⟩ := h
  refine ⟨m, ?_, hholds⟩
  rw [Server.set?, hkey]
  exact hm

theorem get?_runAll_store {steps : List Step} {v : Server} {key : String}
    (h : key ∉ steps.map (·.dest)) :
    (v.runAll (steps.map .store)).1.keys.get? key = v.keys.get? key := by
  refine Server.get?_runAll_of_notMem fun c hc hmem => ?_
  obtain ⟨step, hstep, rfl⟩ := List.mem_map.1 hc
  obtain rfl := List.mem_singleton.1 hmem
  exact h (List.mem_map_of_mem hstep)

/-- The steps of a program from `n` on write temporary keys from `n` on. -/
theorem exists_of_mem_dests {key : String}
    (h : key ∈ (compileFrom temp n plan).steps.map (·.dest)) :
    ∃ i, n ≤ i ∧ i < n + (compileFrom temp n plan).temps.length ∧ key = temp i := by
  obtain ⟨step, hstep, rfl⟩ := List.mem_map.1 h
  have htemps := (writes_compileFrom temp n plan).1 step hstep
  rw [temps_compileFrom] at htemps ⊢
  obtain ⟨i, hi, heq⟩ := List.mem_map.1 htemps
  obtain ⟨hle, hlt⟩ := List.mem_range'_1.1 hi
  exact ⟨i, hle, by simpa using hlt, heq.symm⟩

theorem exists_of_mem_destsAll {key : String}
    (h : key ∈ ((compileAll temp n ps).flatMap (·.steps)).map (·.dest)) :
    ∃ i, n ≤ i ∧ key = temp i := by
  obtain ⟨step, hstep, rfl⟩ := List.mem_map.1 h
  obtain ⟨c, hc, hstep⟩ := List.mem_flatMap.1 hstep
  have htemps : step.dest ∈ (compileAll temp n ps).flatMap (·.temps) :=
    List.mem_flatMap.2 ⟨c, hc, (writes_compileAll temp n ps c hc).1 step hstep⟩
  rw [temps_compileAll fun p _ => temps_compileFrom p] at htemps
  obtain ⟨i, hi, heq⟩ := List.mem_map.1 htemps
  exact ⟨i, (List.mem_range'_1.1 hi).1, heq.symm⟩

section
variable {sets : String → TextSet} {v : Server}

/-- The step of a node, once its parts are stored. -/
theorem storedAt_step (h : plan.node? = some (op, ps)) {sources : List String}
    (hsources : List.Forall₂ (fun p key => StoredAt sets p v key) ps sources) (dest : String) :
    StoredAt sets plan (v.run (.store ⟨op, dest, sources⟩)).1 dest := by
  obtain ⟨ms, hms, hholds⟩ : ∃ ms, sources.mapM v.set? = some ms ∧
      ∀ id, ms.map (·.contains id) = ps.map (Plan.holds sets id) := by
    clear h
    induction hsources with
    | nil => exact ⟨[], rfl, fun _ => rfl⟩
    | cons hp _ ih =>
      obtain ⟨m, hm, hmholds⟩ := hp
      obtain ⟨ms, hms, hholds⟩ := ih
      refine ⟨m :: ms, by simp [List.mapM_cons, hm, hms], fun id => ?_⟩
      rw [List.map_cons, hholds, hmholds, List.map_cons]
  refine ⟨op.apply ms, ?_, fun id => ?_⟩
  · simp only [Server.run, hms, Server.set?, Server.get?_putSet, if_true]
    by_cases hempty : (op.apply ms).isEmpty = true
    · rw [if_pos hempty, KeyMap.eq_empty_of_isEmpty hempty]
    · rw [if_neg hempty]
  · rw [SetOp.contains_apply, hholds, Plan.holds_node h]

variable (htemp : Function.Injective temp) (hP : ∀ i, ¬P (temp i))
include htemp hP

theorem result_notMem_destsAll (hplan : plan.Over P) :
    (compileFrom temp n plan).result ∉
      ((compileAll temp (n + (compileFrom temp n plan).temps.length) ps).flatMap (·.steps)).map
        (·.dest) := by
  intro hmem
  obtain ⟨j, hj, heq⟩ := exists_of_mem_destsAll hmem
  have hearlier {i : Nat} (hi : i < n + (compileFrom temp n plan).temps.length) :
      (compileFrom temp n plan).result ≠ temp i := by
    rw [heq]
    intro h
    have := htemp h
    omega
  have hresult : P (compileFrom temp n plan).result ∨ _ ∨ _ := result_compileFrom hplan
  rcases hresult with h | h | h
  · exact hP j (heq ▸ h)
  · have htemps := (List.of_mem_zip h).2
    rw [temps_compileFrom] at htemps
    obtain ⟨i, hi, hresult⟩ := List.mem_map.1 htemps
    refine hearlier ?_ hresult.symm
    simpa [temps_compileFrom] using (List.mem_range'_1.1 hi).2
  · obtain ⟨i, -, hi, hresult⟩ := exists_of_mem_dests h
    exact hearlier hi hresult

theorem storedAt_compileAll (hps : Plan.OverAll P ps)
    (h : ∀ p ∈ ps, p.Over P → ∀ (n : Nat) (v : Server),
      (∀ key, P key → v.set? key = some (sets key)) →
      (∀ i, n ≤ i → v.keys.get? (temp i) = none) →
      StoredAt sets p (v.runAll ((compileFrom temp n p).steps.map .store)).1
        (compileFrom temp n p).result)
    (hsets : ∀ key, P key → v.set? key = some (sets key))
    (hfresh : ∀ i, n ≤ i → v.keys.get? (temp i) = none) :
    List.Forall₂ (fun p key => StoredAt sets p
        (v.runAll (((compileAll temp n ps).flatMap (·.steps)).map .store)).1 key)
      ps ((compileAll temp n ps).map (·.result)) := by
  induction ps generalizing n v with
  | nil => exact .nil
  | cons p ps ih =>
    obtain ⟨hp, hrest⟩ := List.forall_mem_cons.1 h
    have hhead := hp hps.1 n v hsets hfresh
    -- The first program leaves the keys of plans and the temporary keys that follow.
    have hframe {key : String} (hkey : key ∉ (compileFrom temp n p).steps.map (·.dest)) :
        (v.runAll ((compileFrom temp n p).steps.map .store)).1.keys.get? key = v.keys.get? key :=
      get?_runAll_store hkey
    have hsets' (key : String) (hkey : P key) :
        (v.runAll ((compileFrom temp n p).steps.map .store)).1.set? key = some (sets key) := by
      rw [Server.set?, hframe, ← hsets key hkey, Server.set?]
      intro hmem
      obtain ⟨i, -, -, rfl⟩ := exists_of_mem_dests hmem
      exact hP i hkey
    have hfresh' (i : Nat) (hi : n + (compileFrom temp n p).temps.length ≤ i) :
        (v.runAll ((compileFrom temp n p).steps.map .store)).1.keys.get? (temp i) = none := by
      rw [hframe, hfresh i (by omega)]
      intro hmem
      obtain ⟨j, -, hj, heq⟩ := exists_of_mem_dests hmem
      have := htemp heq
      omega
    rw [compileAll_cons, List.flatMap_cons, List.map_append, Server.runAll_append]
    refine .cons (hhead.congr ?_) (ih hps.2 hrest hsets' hfresh')
    exact get?_runAll_store (result_notMem_destsAll htemp hP hps.1)

/-- **A program puts the set of its plan under the key of its result.** -/
theorem storedAt_compileFrom (hplan : plan.Over P)
    (hsets : ∀ key, P key → v.set? key = some (sets key))
    (hfresh : ∀ i, n ≤ i → v.keys.get? (temp i) = none) :
    StoredAt sets plan (v.runAll ((compileFrom temp n plan).steps.map .store)).1
      (compileFrom temp n plan).result := by
  induction plan using Plan.node_induction generalizing n v with
  | key k => exact ⟨_, hsets k hplan, fun _ => rfl⟩
  | nothing =>
    refine ⟨∅, ?_, fun _ => rfl⟩
    change v.set? (temp n) = _
    rw [Server.set?, hfresh n (Nat.le_refl n)]
  | @node plan op ps h ih =>
    have hparts := storedAt_compileAll htemp hP ((Plan.over_node h).1 hplan)
      (fun p hp hover n v => ih p hp hover) hsets hfresh
    rw [compileFrom_node h, joined, List.map_append, Server.runAll_append]
    exact storedAt_step h hparts _

end

end Program

/-! ## Programs of a store -/

/-- Keys of one store tell their roles, whatever its prefix is. -/
theorem Role.key_injective (k : KeySpace) : Function.Injective (Role.key k) := by
  intro r r' h
  rw [key, key, String.append_right_inj, String.append_right_inj] at h
  obtain ⟨hfamily, hargument⟩ := append_argument_inj colon_notMem_family colon_notMem_family h
  exact ext hfamily hargument

theorem KeySpace.temp_injective (k : KeySpace) (run : String) : Function.Injective (k.temp run) := by
  intro m n h
  rw [temp_eq_key, temp_eq_key] at h
  have hname := Role.temp.inj (Role.key_injective k h)
  rw [String.append_right_inj, String.append_right_inj] at hname
  exact Nat.repr_injective hname

/-- The keys that plans of a store are made of. -/
def KeySpace.IsPostingKey (k : KeySpace) (key : String) : Prop :=
  ∃ r : Role, r.IsPosting ∧ key = r.key k

theorem KeySpace.not_isPostingKey_temp (k : KeySpace) (run : String) (n : Nat) :
    ¬k.IsPostingKey (k.temp run n) := by
  rintro ⟨r, hr, h⟩
  rw [temp_eq_key] at h
  obtain rfl := Role.key_injective k h
  simp [Role.IsPosting] at hr

namespace Program

variable {k : KeySpace} {run : String} {plan : Plan} {v : Server}

/-- To delete the temporary keys that were not there before makes up for the steps. -/
theorem keys_delete_temps (hfresh : ∀ n, v.keys.contains (k.temp run n) = false) :
    ((v.runAll ((compile k run plan).steps.map .store)).1.run
      (.delete (compile k run plan).temps)).1.keys = v.keys := by
  obtain ⟨hdests, htemps⟩ := writes_compileFrom (k.temp run) 0 plan
  refine KeyMap.ext fun key => ?_
  simp only [Server.run, KeyMap.get?_filter]
  by_cases hkey : key ∈ (compile k run plan).temps
  · obtain ⟨n, rfl⟩ := htemps key hkey
    have hnone : v.keys.get? (k.temp run n) = none :=
      Option.isNone_iff_eq_none.1 (Option.isSome_eq_false_iff.1 (hfresh n))
    simp [hkey, hnone]
  · rw [get?_runAll_store]
    · cases v.keys.get? key <;> simp [hkey]
    · intro hmem
      obtain ⟨step, hstep, rfl⟩ := List.mem_map.1 hmem
      exact hkey (hdests step hstep)

/-- **A compiled plan computes the plan and leaves no trace.** -/
theorem compile_exact (k : KeySpace) (run : String) {plan : Plan} {v : Server}
    (hparts : plan.HasParts) (hkeys : plan.Over k.IsPostingKey)
    (hfresh : ∀ n, v.keys.contains (k.temp run n) = false) :
    -- The result, where the keys of the plan hold sets or nothing.
    ((plan.Over fun key => ∃ m, v.set? key = some m) →
      ∃ m, (v.runAll ((compile k run plan).steps.map .store)).1.set? (compile k run plan).result =
        some m ∧ ∀ id, m.contains id = plan.holds v.sets id) ∧
    -- What the steps read.
    (∀ before step after, (compile k run plan).steps = before ++ step :: after →
      step.sources ≠ [] ∧ ∀ key ∈ step.sources, k.IsPostingKey key ∨ key ∈ before.map (·.dest) ∨
        (.nothing, key) ∈ plan.nodes.zip (compile k run plan).temps) ∧
    -- Each node has a temporary key of its own, which its step writes.
    ((compile k run plan).temps.length = plan.nodes.length ∧ (compile k run plan).temps.Nodup ∧
      (compile k run plan).steps.map (·.dest) =
        ((plan.nodes.zip (compile k run plan).temps).filter (!·.1.isNothing)).map (·.2)) ∧
    -- What the steps write.
    (∀ step ∈ (compile k run plan).steps, step.dest ∈ (compile k run plan).temps ∧
      ∀ r : Role, step.dest = r.key k → ∃ name, r = .temp name) ∧
    ((v.runAll ((compile k run plan).steps.map .store)).1.run
      (.delete (compile k run plan).temps)).1.keys = v.keys := by
  have hinj := k.temp_injective run
  have htemps : (compile k run plan).temps = (List.range' 0 plan.nodes.length).map (k.temp run) :=
    temps_compileFrom plan 0
  have hwrites := writes_compileFrom (k.temp run) 0 plan
  refine ⟨fun hsets => ?_, fun before step after hsteps => ⟨?_, fun key hkey => ?_⟩,
    ⟨?_, ?_, dests_compileFrom plan 0⟩, fun step hstep => ⟨hwrites.1 step hstep, fun r hr => ?_⟩,
    keys_delete_temps hfresh⟩
  · refine storedAt_compileFrom hinj (fun n h => k.not_isPostingKey_temp run n h.1)
      (hkeys.and hsets) ?_ fun n _ => ?_
    · rintro key ⟨-, m, hm⟩
      rw [hm, Server.sets_eq_of_set? hm]
    · exact Option.isNone_iff_eq_none.1 (Option.isSome_eq_false_iff.1 (hfresh n))
  · have hstep : step ∈ (compileFrom (k.temp run) 0 plan).steps := by
      change step ∈ (compile k run plan).steps
      rw [hsteps]
      simp
    exact sources_compileFrom hparts 0 step hstep
  · have hall : Settled _ (compile k run plan).steps := settled_compileFrom hkeys 0
    have hsettled := hall before step after hsteps key hkey
    rw [or_assoc] at hsettled
    exact hsettled.imp_right Or.symm
  · rw [htemps, List.length_map, List.length_range']
  · rw [htemps]
    exact List.Nodup.map hinj List.nodup_range'
  · obtain ⟨n, hn⟩ := hwrites.2 _ (hwrites.1 step hstep)
    rw [hn, KeySpace.temp_eq_key] at hr
    exact ⟨_, (Role.key_injective k hr).symm⟩

/-- The ids with one word and without another. -/
theorem compile_exact_boats :
    let k : KeySpace := ⟨"t"⟩
    let v : Server := { Server.fresh true with
      keys := .ofList [(k.anyField "red", .set (.ofList ["1"])),
        (k.anyField "boat", .set (.ofList ["1", "2"]))] }
    let plan : Plan := .diff (.union [.key (k.anyField "boat"), .nothing]) (.key (k.anyField "red"))
    (∃ m, (v.runAll ((compile k "r" plan).steps.map .store)).1.set? (compile k "r" plan).result =
      some m ∧ m.contains "1" = false ∧ m.contains "2" = true) ∧
    ((v.runAll ((compile k "r" plan).steps.map .store)).1.run
      (.delete (compile k "r" plan).temps)).1.keys = v.keys := by
  intro k v plan
  have hany (t : String) : k.IsPostingKey (k.anyField t) :=
    ⟨_, .inr ⟨t, rfl⟩, k.anyField_eq_key t⟩
  have hne (t : String) (n : Nat) : k.anyField t ≠ k.temp "r" n :=
    fun h => k.not_isPostingKey_temp "r" n (h ▸ hany t)
  have hparts : plan.HasParts := by simp [plan, Plan.HasParts, Plan.HaveParts]
  have hfresh : ∀ n, v.keys.contains (k.temp "r" n) = false := by
    simp [v, KeyMap.contains_ofList, (hne "red" _).symm, (hne "boat" _).symm]
  have hexact := compile_exact k "r" hparts ⟨⟨hany "boat", trivial, trivial⟩, hany "red"⟩ hfresh
  obtain ⟨m, hm, hholds⟩ := hexact.1
    ⟨⟨⟨.ofList ["1", "2"], by decide⟩, trivial, trivial⟩, ⟨.ofList ["1"], by decide⟩⟩
  refine ⟨⟨m, hm, ?_, ?_⟩, hexact.2.2.2.2⟩
  · rw [hholds]
    decide
  · rw [hholds]
    decide

end Program

namespace Store

variable {k : KeySpace} {run : String} {plan : Plan} {v : Server}

theorem keys_runAll_searchCommands (hfresh : ∀ n, v.keys.contains (k.temp run n) = false)
    (offset limit : Nat) :
    (v.runAll (searchCommands (.compile k run plan) offset limit)).1.keys = v.keys := by
  have hsteps : ((v.runAll ((Program.compile k run plan).steps.map .store)).1.run
      (.delete (Program.compile k run plan).temps)).1.keys = v.keys :=
    Program.keys_delete_temps hfresh
  have hdelete {w w' : Server} (h : w.keys = w'.keys) (keys : List String) :
      (w.run (.delete keys)).1.keys = (w'.run (.delete keys)).1.keys := by
    simp only [Server.run, h]
  have hnone (w : Server) : (w.run (.delete [])).1.keys = w.keys := by
    refine KeyMap.ext fun key => Server.get?_run_of_notMem ?_
    simp [Command.writes]
  have hwindow (w : Server) : (w.runAll (if limit = 0 then [] else
      [.sorted (Program.compile k run plan).result offset limit])).1.keys = w.keys := by
    split
    · rfl
    · exact Server.keys_run_of_writes_eq_nil (c := .sorted _ offset limit) rfl
  rw [searchCommands, Server.runAll_append, Server.runAll_append, Server.runAll_append]
  generalize hw : (Server.runAll _ (if limit = 0 then [] else _)).1 = w
  have hkeys : w.keys = (v.runAll ((Program.compile k run plan).steps.map .store)).1.keys := by
    rw [← hw, hwindow]
    exact Server.keys_run_of_writes_eq_nil (c := .cardinality _) rfl
  split
  · rename_i htemps
    rw [List.isEmpty_iff.1 htemps, hnone] at hsteps
    exact hkeys.trans hsteps
  · exact (hdelete hkeys _).trans hsteps

/-- **A search leaves no trace**, whether it fails or not. -/
theorem keys_search {s : Store} (hfresh : ∀ n, v.keys.contains (s.keys.temp runLabel n) = false)
    (offset limit : Nat) : ((search plan offset limit).after (s, v)).2.keys = v.keys := by
  have hkeeps : Keeps (OnServer s.keys fun v' => v'.keys = v.keys) (search plan offset limit)
      fun _ => True := by
    refine Keeps.get.bind fun x hx => ?_
    have hkeys : x.1.keys = s.keys := hx.1
    dsimp only
    rw [hkeys]
    refine Keeps.seq (keeps_transact_server fun v' hv' => ?_) fun rs => ?_
    · rw [keys_runAll_searchCommands (by rwa [hv']), hv']
    exact Keeps.seq (.ofExcept fun _ _ => trivial) fun _ => .ite (fun _ => .pure trivial) fun _ =>
      Keeps.seq (keeps_ask_server fun v' hv' => hv') fun _ =>
        Keeps.seq (.ofExcept fun _ _ => trivial) fun _ => .pure trivial
  exact (hkeeps.after (s := (s, v)) ⟨rfl, rfl⟩).2

end Store

end SetStore

end Searchlight
