import Mathlib.Data.List.Perm.Basic
import Mathlib.Data.List.Forall2
import Searchlight.Proofs.Schema.Planning

/-!
# Documents field by field

A document is settled field by field, so what is stored of it stands field by field as well: each
field where it came first, with all its values in their order (`grouped`). Nothing is lost or
doubled by that, but the order of the pairs is the one that was given only if no field is taken up
again after another one (`grouped_eq_self_iff`). A document may also be cut down to some of its
fields (`only`): it is settled as that part is if no other field of it is kept (`prepare_only`).
-/

namespace Searchlight

theorem Except.mapM_congr {ε α β : Type} {f g : α → Except ε β} {xs : List α}
    (h : ∀ x ∈ xs, f x = g x) : xs.mapM f = xs.mapM g := by
  induction xs with
  | nil => rfl
  | cons x xs ih =>
    rw [List.forall_mem_cons] at h
    rw [List.mapM_cons, List.mapM_cons, h.1, ih h.2]

namespace Document

/-- The pairs of a document field by field, each field where it came first. -/
def grouped (d : Document) : Document := ⟨d.names.flatMap fun n => d.pairs.filter (·.1 = n)⟩

/-- A field is taken up again after another one. -/
def Alternates (d : Document) : Prop :=
  ∃ n m, m ≠ n ∧ [n, m, n].Sublist (d.pairs.map (·.1))

/-! ## Regrouping -/

theorem mem_distinct {n : String} {names : List String} : n ∈ distinct names ↔ n ∈ names := by
  induction names with
  | nil => simp [distinct]
  | cons m names ih =>
    simp only [distinct, List.mem_cons, List.mem_filter, ih]
    by_cases h : n = m <;> simp [h]

theorem distinct_filter (p : String → Bool) (names : List String) :
    distinct (names.filter p) = (distinct names).filter p := by
  induction names with
  | nil => rfl
  | cons n names ih =>
    by_cases h : p n = true
    · simp only [distinct, List.filter_cons_of_pos h, ih, List.filter_filter, Bool.and_comm]
    · have hne : ∀ m ∈ distinct names, p m = (p m && decide (m ≠ n)) := by
        intro m _
        by_cases hm : m = n
        · simp [hm, h]
        · simp [hm]
      rw [distinct, List.filter_cons_of_neg h, List.filter_cons_of_neg h, List.filter_filter, ih]
      exact List.filter_congr hne

theorem values_eq_map (d : Document) (n : String) :
    d.values n = (d.pairs.filter (·.1 = n)).map (·.2) := by
  obtain ⟨ps⟩ := d
  simp only [values]
  induction ps with
  | nil => rfl
  | cons p ps ih => by_cases h : p.1 = n <;> simp [h, ih]

theorem map_values (d : Document) (n : String) :
    (d.values n).map (n, ·) = d.pairs.filter (·.1 = n) := by
  rw [values_eq_map, List.map_map]
  refine (List.map_congr_left fun p hp => ?_).trans (List.map_id _)
  have hname : p.1 = n := by simpa using (List.mem_filter.1 hp).2
  rw [← hname]
  rfl

/-- Going through a document field by field: the first pair with all others of its field, and then
what is left. -/
theorem fieldwise_induction {motive : List (String × Value) → Prop} (nil : motive [])
    (cons : ∀ p ps, motive (ps.filter (·.1 ≠ p.1)) → motive (p :: ps)) (ps) : motive ps := by
  induction hn : ps.length using Nat.strongRecOn generalizing ps with
  | ind n ih =>
    cases ps with
    | nil => exact nil
    | cons p ps =>
      have hshort : (ps.filter (·.1 ≠ p.1)).length < n := by
        rw [← hn]
        exact Nat.lt_succ_of_le (List.length_filter_le _ _)
      exact cons p ps (ih _ hshort _ rfl)

variable {p : String × Value} {ps : List (String × Value)}

/-- The first field comes first with all its values, and then the other fields. -/
theorem grouped_cons :
    (Document.mk (p :: ps)).grouped.pairs =
      p :: ps.filter (·.1 = p.1) ++ (Document.mk (ps.filter (·.1 ≠ p.1))).grouped.pairs := by
  have hnames : (Document.mk (p :: ps)).names =
      p.1 :: (Document.mk (ps.filter (·.1 ≠ p.1))).names := by
    simp only [names, List.map_cons, distinct]
    rw [← distinct_filter, List.filter_map]
    rfl
  have hrest : ∀ n ∈ (Document.mk (ps.filter (·.1 ≠ p.1))).names,
      (p :: ps).filter (·.1 = n) = (ps.filter (·.1 ≠ p.1)).filter (·.1 = n) := by
    intro n hn
    obtain ⟨q, hq, rfl⟩ := List.mem_map.1 (mem_distinct.1 hn)
    have hne : q.1 ≠ p.1 := by simpa using (List.mem_filter.1 hq).2
    rw [List.filter_cons_of_neg (by simpa using Ne.symm hne), List.filter_filter]
    refine List.filter_congr fun r _ => ?_
    by_cases hr : r.1 = q.1
    · simp [hr, hne]
    · simp [hr]
  simp only [grouped, hnames, List.flatMap_cons]
  rw [List.flatMap_congr hrest, List.filter_cons_of_pos (by simp)]

/-- Regrouping moves pairs, no more. -/
theorem grouped_perm (d : Document) : d.grouped.pairs.Perm d.pairs := by
  obtain ⟨ps⟩ := d
  induction ps using fieldwise_induction with
  | nil => exact .nil
  | cons p ps ih =>
    rw [grouped_cons]
    refine List.Perm.cons p ((ih.append_left _).trans ?_)
    simpa using List.filter_append_perm (fun q : String × Value => decide (q.1 = p.1)) ps

theorem filter_grouped (d : Document) (n : String) :
    d.grouped.pairs.filter (·.1 = n) = d.pairs.filter (·.1 = n) := by
  obtain ⟨ps⟩ := d
  induction ps using fieldwise_induction with
  | nil => rfl
  | cons p ps ih =>
    have hfirst : (ps.filter (·.1 = p.1)).filter (·.1 = n) =
        if p.1 = n then ps.filter (·.1 = n) else [] := by
      split
      · rename_i h
        simp [h]
      · rename_i h
        simpa using fun a b _ hn hp => h (hp.symm.trans hn)
    have hrest : (ps.filter (·.1 ≠ p.1)).filter (·.1 = n) =
        if p.1 = n then [] else ps.filter (·.1 = n) := by
      split
      · rename_i h
        simp [h]
      · rename_i h
        rw [List.filter_filter]
        refine List.filter_congr fun r _ => ?_
        by_cases hr : r.1 = n
        · simp [hr, Ne.symm h]
        · simp [hr]
    rw [grouped_cons, List.cons_append, List.filter_cons, List.filter_append, hfirst, ih,
      List.filter_cons, hrest]
    by_cases h : p.1 = n <;> simp [h]

theorem values_grouped (d : Document) (n : String) : d.grouped.values n = d.values n := by
  rw [values_eq_map, values_eq_map, filter_grouped]

/-! ## The order of the pairs -/

/-- A field is taken up again, or its pairs stand before all others. -/
theorem eq_append_or_sublist (n : String) (ps : List (String × Value)) :
    ps = ps.filter (·.1 = n) ++ ps.filter (·.1 ≠ n) ∨
      ∃ m, m ≠ n ∧ [m, n].Sublist (ps.map (·.1)) := by
  induction ps with
  | nil => exact .inl rfl
  | cons q qs ih =>
    by_cases hq : q.1 = n
    · rcases ih with h | ⟨m, hm, h⟩
      · left
        rw [List.filter_cons_of_pos (by simpa using hq), List.filter_cons_of_neg (by simpa using hq),
          List.cons_append, ← h]
      · exact .inr ⟨m, hm, h.cons _⟩
    · by_cases hn : n ∈ qs.map (·.1)
      · exact .inr ⟨q.1, hq, (List.singleton_sublist.2 hn).cons_cons _⟩
      · left
        have hnone : ∀ r ∈ q :: qs, r.1 ≠ n := by
          rintro r (_ | ⟨_, hr⟩)
          · exact hq
          · exact fun h => hn (h ▸ List.mem_map_of_mem hr)
        rw [List.filter_eq_nil_iff.2 (by simpa using hnone), List.nil_append,
          List.filter_eq_self.2 (by simpa using hnone)]

theorem Alternates.of_append {n : String} {xs ys : List (String × Value)}
    (h : Alternates ⟨xs ++ ys⟩) (hxs : ∀ q ∈ xs, q.1 = n) (hys : ∀ q ∈ ys, q.1 ≠ n) :
    Alternates ⟨ys⟩ := by
  obtain ⟨a, b, hab, hsub⟩ := h
  rw [List.map_append, List.sublist_append_iff] at hsub
  obtain ⟨l, r, hlr, hl, hr⟩ := hsub
  have hin (x : String) (hx : x ∈ l) : x = n := by
    obtain ⟨q, hq, rfl⟩ := List.mem_map.1 (hl.subset hx)
    exact hxs q hq
  have hout (x : String) (hx : x ∈ r) : x ≠ n := by
    obtain ⟨q, hq, rfl⟩ := List.mem_map.1 (hr.subset hx)
    exact hys q hq
  -- The first of the three stands before the last, so both stand among the others.
  match l, r with
  | [], r => exact ⟨a, b, hab, by simpa [hlr] using hr⟩
  | [x], r =>
    obtain ⟨rfl, rfl⟩ : a = x ∧ [b, a] = r := by simpa using hlr
    exact absurd (hin a (by simp)) (hout a (by simp))
  | [x, y], r =>
    obtain ⟨rfl, rfl, rfl⟩ : a = x ∧ b = y ∧ [a] = r := by simpa using hlr
    exact absurd (hin a (by simp)) (hout a (by simp))
  | x :: y :: _ :: _, r =>
    obtain ⟨rfl, rfl, -⟩ : a = x ∧ b = y ∧ _ := by simpa using hlr
    exact absurd ((hin b (by simp)).trans (hin a (by simp)).symm) hab

/-- **What the order becomes.** A document comes out as it was given exactly if no field is taken
up again after another one. -/
theorem grouped_eq_self_iff (d : Document) : d.grouped = d ↔ ¬d.Alternates := by
  obtain ⟨ps⟩ := d
  induction ps using fieldwise_induction with
  | nil => simp [grouped, names, distinct, Alternates]
  | cons p ps ih =>
    have hpairs : (Document.mk (p :: ps)).grouped = ⟨p :: ps⟩ ↔
        ps.filter (·.1 = p.1) ++ (Document.mk (ps.filter (·.1 ≠ p.1))).grouped.pairs = ps := by
      rw [Document.mk.injEq, grouped_cons, List.cons_append, List.cons.injEq, eq_self, true_and]
    have hfirst : ∀ q ∈ ps.filter (·.1 = p.1), q.1 = p.1 := by simp
    have hothers : ∀ q ∈ ps.filter (·.1 ≠ p.1), q.1 ≠ p.1 := by simp
    rw [hpairs]
    constructor
    · intro h halt
      -- The other fields have kept their order, and the first field stands before them.
      have hrest : (Document.mk (ps.filter (·.1 ≠ p.1))).grouped.pairs = ps.filter (·.1 ≠ p.1) := by
        have hmem : ∀ q ∈ (Document.mk (ps.filter (·.1 ≠ p.1))).grouped.pairs, q.1 ≠ p.1 :=
          fun q hq => hothers q ((grouped_perm _).subset hq)
        have hkept := congrArg (List.filter (·.1 ≠ p.1)) h
        rwa [List.filter_append, List.filter_eq_nil_iff.2 (by simp), List.nil_append,
          List.filter_eq_self.2 (by simpa using hmem)] at hkept
      rw [hrest] at h
      refine ih.1 (congrArg Document.mk hrest) ?_
      rw [← h, ← List.cons_append] at halt
      exact halt.of_append (List.forall_mem_cons.2 ⟨rfl, hfirst⟩) hothers
    · intro halt
      have hsplit := (eq_append_or_sublist p.1 ps).resolve_right fun ⟨m, hm, hsub⟩ =>
        halt ⟨p.1, m, hm, hsub.cons_cons _⟩
      have hrest : ¬Alternates ⟨ps.filter (·.1 ≠ p.1)⟩ := fun ⟨n, m, hm, hsub⟩ =>
        halt ⟨n, m, hm, (hsub.trans (List.filter_sublist.map _)).cons _⟩
      rw [ih.2 hrest]
      exact hsplit.symm

end Document

/-! ## What is stored -/

/-- The values of a field come back from where the document is put. -/
def DocumentPlan.stores (plan : DocumentPlan) (name : String) : Bool :=
  (Document.keptConfig plan name).any (·.stored)

namespace Document

variable {d : Document} {plan : DocumentPlan} {kinds : List ValueKind} {backend : String}

theorem prepareField_eq_ok {name : String} {config : FieldConfig} {values : List Value}
    {f : PreparedField} (h : prepareField kinds backend name config values = .ok f) :
    f.name = name ∧ f.config = config ∧ f.raw = if config.stored then values else [] := by
  obtain ⟨_, -, h⟩ := Except.bind_eq_ok.1 h
  cases h
  exact ⟨rfl, rfl, rfl⟩

theorem coerce_of_prepareValue {name : String} {c : FieldConfig} {v : Value}
    {o : Option IndexValue} (h : prepareValue kinds backend name c v = .ok o) :
    c.coerce name v = .ok o := by
  rw [prepareValue] at h
  split at h
  · exact h
  · cases h

theorem exists_of_mem_fields {p : PreparedDocument} (hp : d.prepare plan kinds backend = .ok p)
    {f : PreparedField} (hf : f ∈ p.fields) :
    keptConfig plan f.name = some f.config ∧
      prepareField kinds backend f.name f.config (d.values f.name) = .ok f := by
  obtain ⟨fields, hfields, hp⟩ := Except.bind_eq_ok.1 hp
  cases hp
  obtain ⟨_, hmem, hprepared⟩ := Except.exists_of_mem_mapM hfields hf
  obtain ⟨name, -, hname⟩ := List.mem_filterMap.1 hmem
  obtain ⟨c, hc, rfl⟩ := Option.map_eq_some_iff.1 hname
  obtain ⟨rfl, rfl, -⟩ := prepareField_eq_ok hprepared
  exact ⟨hc, hprepared⟩

theorem stored_of_mapM {names : List String} {fields : List PreparedField}
    (h : (names.filterMap fun n => (keptConfig plan n).map (n, ·)).mapM
      (fun f => prepareField kinds backend f.1 f.2 (d.values f.1)) = .ok fields) :
    (PreparedDocument.mk fields).stored.pairs =
      names.flatMap fun n => if plan.stores n then d.pairs.filter (·.1 = n) else [] := by
  induction names generalizing fields with
  | nil =>
    cases h
    rfl
  | cons n names ih =>
    cases hn : keptConfig plan n with
    | none =>
      rw [List.filterMap_cons_none (by simp [hn])] at h
      simp [ih h, DocumentPlan.stores, hn]
    | some config =>
      rw [List.filterMap_cons_some (b := (n, config)) (by simp [hn]), List.mapM_cons] at h
      obtain ⟨f, hf, h⟩ := Except.bind_eq_ok.1 h
      obtain ⟨fs, hfs, h⟩ := Except.bind_eq_ok.1 h
      cases h
      obtain ⟨hname, hconfig, hraw⟩ := prepareField_eq_ok hf
      have hrest := ih hfs
      simp only [PreparedDocument.stored] at hrest ⊢
      rw [List.flatMap_cons, ← hrest]
      cases hstored : config.stored <;>
        simp [DocumentPlan.stores, hn, hname, hconfig, hraw, hstored, map_values]

/-- **What is stored of a document**: field by field the fields whose plan says so. -/
theorem stored_of_prepare {p : PreparedDocument} (h : d.prepare plan kinds backend = .ok p) :
    p.stored.pairs = d.grouped.pairs.filter (plan.stores ·.1) := by
  obtain ⟨fields, hfields, h⟩ := Except.bind_eq_ok.1 h
  cases h
  rw [stored_of_mapM hfields, grouped, List.filter_flatMap]
  refine List.flatMap_congr fun n _ => ?_
  rw [List.filter_filter]
  split
  · rename_i hn
    refine List.filter_congr fun p _ => ?_
    by_cases hp : p.1 = n <;> simp [hp, hn]
  · rename_i hn
    refine (List.filter_eq_nil_iff.2 fun p _ => ?_).symm
    by_cases hp : p.1 = n <;> simp [hp, hn]

/-- A document all of whose fields are stored is stored whole. -/
theorem stored_eq_grouped {p : PreparedDocument} (h : d.prepare plan kinds backend = .ok p)
    (hall : ∀ n ∈ d.names, plan.stores n = true) : p.stored = d.grouped := by
  have hmem : ∀ q ∈ d.grouped.pairs, plan.stores q.1 = true := by
    intro q hq
    refine hall q.1 ?_
    rw [names, mem_distinct]
    exact List.mem_map_of_mem ((grouped_perm d).subset hq)
  have hpairs := stored_of_prepare h
  rw [List.filter_eq_self.2 hmem] at hpairs
  cases hs : p.stored
  rw [hs] at hpairs
  exact congrArg Document.mk hpairs

/-! ## Parts -/

section
variable {d : Document} {p : String → Bool} {name : String}

/-- The part of a document that has only some of its fields. -/
def only (d : Document) (p : String → Bool) : Document := ⟨d.pairs.filter fun x => p x.1⟩

theorem names_only : (d.only p).names = d.names.filter p := by
  rw [names, names, ← distinct_filter, List.filter_map]
  rfl

theorem names_only_not : ((d.only p).only fun name => !p name).names = [] := by
  rw [names_only, names_only, List.filter_filter, List.filter_eq_nil_iff]
  simp

theorem values_only (hname : p name = true) : (d.only p).values name = d.values name := by
  rw [values_eq_map, values_eq_map, only, List.filter_filter]
  congr 1
  refine List.filter_congr fun x _ => ?_
  by_cases hx : x.1 = name
  · simp [hx, hname]
  · simp [hx]

/-- **A document is settled as its part is** if the part is planned alike and no other field of the
document is kept. -/
theorem prepare_only {plan plan' : DocumentPlan} (kinds : List ValueKind) (backend : String)
    (hkept : ∀ name ∈ d.names, p name = true → keptConfig plan' name = keptConfig plan name)
    (hother : ∀ name ∈ d.names, p name = false → keptConfig plan name = none) :
    d.prepare plan kinds backend = (d.only p).prepare plan' kinds backend := by
  have hfields : (d.only p).names.filterMap (fun name => (keptConfig plan' name).map (name, ·)) =
      d.names.filterMap fun name => (keptConfig plan name).map (name, ·) := by
    rw [names_only, List.filterMap_filter]
    refine List.filterMap_congr fun name hname => ?_
    cases hp : p name with
    | true => rw [if_pos rfl, hkept name hname hp]
    | false => simp [hother name hname hp]
  have hvalues : ∀ f ∈ d.names.filterMap (fun name => (keptConfig plan name).map (name, ·)),
      prepareField kinds backend f.1 f.2 (d.values f.1) =
        prepareField kinds backend f.1 f.2 ((d.only p).values f.1) := by
    intro f hf
    obtain ⟨name, hname, hf⟩ := List.mem_filterMap.1 hf
    obtain ⟨config, hconfig, rfl⟩ := Option.map_eq_some_iff.1 hf
    have hp : p name = true := by
      rw [← Bool.not_eq_false]
      intro hp
      rw [hother name hname hp] at hconfig
      cases hconfig
    rw [values_only hp]
  simp only [prepare, hfields, Except.mapM_congr hvalues]

end

end Document

end Searchlight
