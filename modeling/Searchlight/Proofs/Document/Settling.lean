import Searchlight.Proofs.Document.Grouping

/-!
# Settled documents

A document is settled pair by pair, field after field in the order in which the fields first come
(`grouped`). A pair of a field that the plan keeps may offend in two ways (`Offends`): the backend
does not accept the kind of its value, or the field does not take the value. A document is settled
exactly if none of its pairs offends, and is refused for the first that does; what it is settled to
has one field for each name that is kept, made of all values of that name and of nothing else
(`prepare_exact`).
-/

namespace Searchlight

/-- The plan puts a field into the index in this configuration, where it leaves a trace. -/
def DocumentPlan.Keeps (plan : DocumentPlan) (name : String) (c : FieldConfig) : Prop :=
  plan.fields.get? name = some (.field c) ∧ c.isDiscarded = false

namespace Document

variable {d : Document} {plan : DocumentPlan} {kinds : List ValueKind} {backend name : String}
  {c : FieldConfig} {v : Value}

theorem keptConfig_eq_some_iff : keptConfig plan name = some c ↔ plan.Keeps name c := by
  rw [keptConfig, DocumentPlan.Keeps]
  split
  · rename_i c' hc'
    cases hdiscarded : c'.isDiscarded <;> simp only [hc', Bool.false_eq_true, if_true, if_false]
    · rw [Option.some.injEq, Option.some.injEq, Resolution.field.injEq]
      exact ⟨fun h => ⟨h, h ▸ hdiscarded⟩, And.left⟩
    · refine iff_of_false (by simp) fun ⟨h, hkeeps⟩ => ?_
      cases h
      simp [hdiscarded] at hkeeps
  · rename_i hfield
    exact iff_of_false (by simp) fun ⟨h, _⟩ => hfield c h

/-! ## Offences -/

/-- The failure of a backend that does not accept values of this kind. -/
def unaccepted (backend name : String) (v : Value) : Error :=
  let kind := v.kind.name
  .indexing s!"backend '{backend}' does not accept {kind} values (field '{name}')"

def refusal? (kinds : List ValueKind) (backend name : String) (c : FieldConfig) (v : Value) :
    Option Error :=
  if v.kind ∈ kinds then
    match c.coerce name v with
    | .ok _ => none
    | .error e => some e
  else some (unaccepted backend name v)

/-- A pair of a document is not taken, and for this reason. -/
inductive Offends (plan : DocumentPlan) (kinds : List ValueKind) (backend : String)
    (p : String × Value) : Error → Prop where
  | kind {c : FieldConfig} (hkeeps : plan.Keeps p.1 c) (hkind : p.2.kind ∉ kinds) :
      Offends plan kinds backend p (unaccepted backend p.1 p.2)
  | value {c : FieldConfig} {e : Error} (hkeeps : plan.Keeps p.1 c) (hkind : p.2.kind ∈ kinds)
      (hvalue : c.coerce p.1 p.2 = .error e) : Offends plan kinds backend p e

def offence? (plan : DocumentPlan) (kinds : List ValueKind) (backend : String)
    (p : String × Value) : Option Error :=
  (keptConfig plan p.1).bind fun c => refusal? kinds backend p.1 c p.2

variable {p : String × Value} {e : Error}

theorem refusal?_eq_none_iff :
    refusal? kinds backend name c v = none ↔ v.kind ∈ kinds ∧ ∃ o, c.coerce name v = .ok o := by
  rw [refusal?]
  by_cases hkind : v.kind ∈ kinds
  · cases hvalue : c.coerce name v <;> simp [hkind]
  · simp [hkind]

theorem offence?_eq_some_iff :
    offence? plan kinds backend p = some e ↔ Offends plan kinds backend p e := by
  simp only [offence?, Option.bind_eq_some_iff, keptConfig_eq_some_iff, refusal?]
  constructor
  · rintro ⟨c, hkeeps, h⟩
    by_cases hkind : p.2.kind ∈ kinds
    · rw [if_pos hkind] at h
      cases hvalue : c.coerce p.1 p.2 <;> rw [hvalue] at h <;> cases h
      exact .value hkeeps hkind hvalue
    · rw [if_neg hkind] at h
      cases h
      exact .kind hkeeps hkind
  · rintro (⟨hkeeps, hkind⟩ | ⟨hkeeps, hkind, hvalue⟩)
    · exact ⟨_, hkeeps, if_neg hkind⟩
    · refine ⟨_, hkeeps, ?_⟩
      rw [if_pos hkind, hvalue]

theorem offence?_eq_none_iff :
    offence? plan kinds backend p = none ↔
      ∀ c, plan.Keeps p.1 c → p.2.kind ∈ kinds ∧ ∃ o, c.coerce p.1 p.2 = .ok o := by
  simp only [offence?, Option.bind_eq_none_iff, keptConfig_eq_some_iff, refusal?_eq_none_iff]

/-! ## What settling fails for -/

theorem prepareValue_checked (name : String) (c : FieldConfig) (v : Value) :
    (prepareValue kinds backend name c v).map (fun _ => ()) =
      checked (refusal? kinds backend name c v) := by
  simp only [prepareValue, refusal?, List.contains_iff_mem]
  split
  · cases c.coerce name v <;> rfl
  · rfl

theorem map_bind_ok {α β : Type} (x : Except Error α) (f : α → β) :
    (x >>= fun a => .ok (f a)).map (fun _ => ()) = x.map fun _ => () := by
  cases x <;> rfl

theorem prepareField_checked (name : String) (c : FieldConfig) (values : List Value) :
    (prepareField kinds backend name c values).map (fun _ => ()) =
      checked (values.findSome? (refusal? kinds backend name c)) := by
  rw [prepareField, map_bind_ok, map_mapM (prepareValue_checked name c)]

/-- The pairs of one field offend as its values are refused. -/
theorem findSome?_offence? (d : Document) (name : String) :
    (d.pairs.filter (·.1 = name)).findSome? (offence? plan kinds backend) =
      (keptConfig plan name).bind fun c => (d.values name).findSome? (refusal? kinds backend name c) := by
  rw [values_eq_map]
  have hname : ∀ p ∈ d.pairs.filter (·.1 = name), p.1 = name := by simp
  generalize d.pairs.filter (·.1 = name) = ps at hname
  induction ps with
  | nil => cases keptConfig plan name <;> rfl
  | cons p ps ih =>
    obtain ⟨rfl, hps⟩ := List.forall_mem_cons.1 hname
    rw [List.findSome?_cons, ih hps, offence?]
    cases keptConfig plan p.1 <;> rfl

theorem findSome?_kept (names : List String) :
    (names.filterMap fun name => (keptConfig plan name).map (name, ·)).findSome?
        (fun f => (d.values f.1).findSome? (refusal? kinds backend f.1 f.2)) =
      (names.flatMap fun name => d.pairs.filter (·.1 = name)).findSome?
        (offence? plan kinds backend) := by
  induction names with
  | nil => rfl
  | cons name names ih =>
    rw [List.flatMap_cons, List.findSome?_append, ← ih, findSome?_offence?]
    cases hkept : keptConfig plan name with
    | none =>
      rw [List.filterMap_cons_none (by simp [hkept])]
      rfl
    | some c =>
      rw [List.filterMap_cons_some (b := (name, c)) (by simp [hkept]), List.findSome?_cons]
      dsimp only [Option.bind_some]
      cases (d.values name).findSome? (refusal? kinds backend name c) <;> rfl

/-- **A document is settled** unless one of its pairs offends. -/
theorem prepare_checked (d : Document) (plan : DocumentPlan) (kinds : List ValueKind)
    (backend : String) :
    (d.prepare plan kinds backend).map (fun _ => ()) =
      checked (d.grouped.pairs.findSome? (offence? plan kinds backend)) := by
  have hfield (f : String × FieldConfig) :
      (prepareField kinds backend f.1 f.2 (d.values f.1)).map (fun _ => ()) =
        checked ((d.values f.1).findSome? (refusal? kinds backend f.1 f.2)) :=
    prepareField_checked f.1 f.2 (d.values f.1)
  rw [prepare, map_bind_ok, map_mapM hfield, findSome?_kept, grouped]

/-! ## What is settled -/

theorem map_eq_of_mapM {α β γ : Type} {f : α → Except Error β} {g : β → γ} {h : α → γ}
    (hgh : ∀ a b, f a = .ok b → g b = h a) {as : List α} {bs : List β} (hbs : as.mapM f = .ok bs) :
    bs.map g = as.map h := by
  induction as generalizing bs with
  | nil =>
    cases hbs
    rfl
  | cons a as ih =>
    rw [List.mapM_cons] at hbs
    obtain ⟨b, hb, hbs⟩ := Except.bind_eq_ok.1 hbs
    obtain ⟨bs', hbs', hbs⟩ := Except.bind_eq_ok.1 hbs
    cases hbs
    rw [List.map_cons, List.map_cons, hgh a b hb, ih hbs']

/-- The names of a document are in the order in which they first come. -/
theorem pairwise_distinct (names : List String) :
    (distinct names).Pairwise fun m n => names.idxOf m < names.idxOf n := by
  induction names with
  | nil => exact .nil
  | cons n ns ih =>
    have hne : ∀ m ∈ (distinct ns).filter (· ≠ n), n ≠ m := fun m hm =>
      Ne.symm (by simpa using (List.mem_filter.1 hm).2)
    rw [distinct, List.pairwise_cons]
    constructor
    · intro m hm
      rw [List.idxOf_cons_self, List.idxOf_cons_ne _ (hne m hm)]
      exact Nat.succ_pos _
    · refine (ih.filter _).imp_of_mem fun hm hm' h => ?_
      rw [List.idxOf_cons_ne _ (hne _ hm), List.idxOf_cons_ne _ (hne _ hm')]
      exact Nat.succ_lt_succ h

/-- A document was settled to these fields. -/
structure Settles (d : Document) (plan : DocumentPlan) (fields : List PreparedField) : Prop where
  /-- There is a field for each name of the document that the plan keeps, and no other. -/
  mem_names : ∀ name, name ∈ fields.map (·.name) ↔
    name ∈ d.pairs.map (·.1) ∧ ∃ c, plan.Keeps name c
  /-- No name comes twice, and each comes where the document first has it. -/
  inOrder : (fields.map (·.name)).Pairwise fun m n =>
    (d.pairs.map (·.1)).idxOf m < (d.pairs.map (·.1)).idxOf n
  config : ∀ f ∈ fields, plan.Keeps f.name f.config
  /-- What is indexed is what the values of the field come to, one by one. -/
  values : ∀ f ∈ fields, f.values.map (fun x => .ok (some x)) =
    (d.pairs.filter (·.1 = f.name)).map fun p => f.config.coerce f.name p.2
  raw : ∀ f ∈ fields, f.raw =
    if f.config.stored then (d.pairs.filter (·.1 = f.name)).map (·.2) else []

theorem coerce_ne_none (h : c.isDiscarded = false) : c.coerce name v ≠ .ok none := by
  intro hnone
  rw [FieldConfig.coerce] at hnone
  cases hkind : c.kind <;> rw [hkind] at hnone
  case freeText | exactMatch => cases hnone
  case numeric | date =>
    obtain ⟨x, -, hx⟩ := Except.map_eq_ok.1 hnone
    cases hx
  case ignored => simp [FieldConfig.isDiscarded, hkind] at h

theorem map_some_filterMap_id {α : Type} {os : List (Option α)} (h : ∀ o ∈ os, o.isSome = true) :
    (os.filterMap id).map some = os := by
  induction os with
  | nil => rfl
  | cons o os ih =>
    obtain ⟨ho, hos⟩ := List.forall_mem_cons.1 h
    obtain ⟨x, rfl⟩ := Option.isSome_iff_exists.1 ho
    exact congrArg (some x :: ·) (ih hos)

theorem values_of_prepareField {values : List Value} {f : PreparedField}
    (hc : c.isDiscarded = false) (h : prepareField kinds backend name c values = .ok f) :
    f.values.map (fun x => .ok (some x)) = values.map (c.coerce name) := by
  obtain ⟨coerced, hcoerced, h⟩ := Except.bind_eq_ok.1 h
  cases h
  have hall : coerced.map Except.ok = values.map (c.coerce name) :=
    map_eq_of_mapM (fun v o h => (coerce_of_prepareValue h).symm) hcoerced
  have hsome : ∀ o ∈ coerced, o.isSome = true := by
    intro o ho
    obtain ⟨v, -, hv⟩ := List.mem_map.1 (hall ▸ List.mem_map_of_mem (f := Except.ok) ho)
    rw [← Option.ne_none_iff_isSome]
    rintro rfl
    exact coerce_ne_none hc hv
  calc (coerced.filterMap id).map (fun x => Except.ok (some x))
      = ((coerced.filterMap id).map some).map Except.ok := List.map_map.symm
    _ = values.map (c.coerce name) := by rw [map_some_filterMap_id hsome, hall]

theorem settles_of_prepare {p : PreparedDocument} (h : d.prepare plan kinds backend = .ok p) :
    Settles d plan p.fields := by
  have hkeeps : ∀ f ∈ p.fields, plan.Keeps f.name f.config := fun f hf =>
    keptConfig_eq_some_iff.1 (exists_of_mem_fields h hf).1
  have hnames : p.fields.map (·.name) =
      d.names.filter fun name => (keptConfig plan name).isSome := by
    obtain ⟨fields, hfields, hp⟩ := Except.bind_eq_ok.1 h
    cases hp
    rw [map_eq_of_mapM (h := Prod.fst) (fun _ _ h => (prepareField_eq_ok h).1) hfields,
      List.map_filterMap, ← List.filterMap_eq_filter]
    refine List.filterMap_congr fun name _ => ?_
    cases hkept : keptConfig plan name <;> simp [Option.guard, hkept]
  exact {
    mem_names := fun name => by
      rw [hnames, List.mem_filter, names, mem_distinct, Option.isSome_iff_exists]
      simp only [keptConfig_eq_some_iff]
    inOrder := by
      rw [hnames, names]
      exact (pairwise_distinct _).filter _
    config := hkeeps
    values := fun f hf => by
      rw [values_of_prepareField (hkeeps f hf).2 (exists_of_mem_fields h hf).2, values_eq_map,
        List.map_map]
      rfl
    raw := fun f hf => by
      rw [(prepareField_eq_ok (exists_of_mem_fields h hf).2).2.2, values_eq_map] }

/-- **Settling loses and invents nothing.** A document is settled exactly if every value of every
field that the plan keeps is of an accepted kind and is taken by its field. Otherwise it is refused
for the first value that is not, in the order of the fields and then of the values. What it is
settled to has the fields that are kept, each with all its values, and nothing else. -/
theorem prepare_exact (d : Document) (plan : DocumentPlan) (kinds : List ValueKind)
    (backend : String) :
    ((∃ p, d.prepare plan kinds backend = .ok p) ↔
      ∀ p ∈ d.pairs, ∀ c, plan.Keeps p.1 c →
        p.2.kind ∈ kinds ∧ ∃ o, c.coerce p.1 p.2 = .ok o) ∧
    (∀ e, d.prepare plan kinds backend = .error e ↔
      ∃ before p after, d.grouped.pairs = before ++ p :: after ∧
        (∀ q ∈ before, ∀ e', ¬Offends plan kinds backend q e') ∧
        Offends plan kinds backend p e) ∧
    ∀ p, d.prepare plan kinds backend = .ok p → Settles d plan p.fields := by
  have hchecked := prepare_checked d plan kinds backend
  refine ⟨?_, fun e => ?_, fun p => settles_of_prepare⟩
  · rw [exists_eq_ok_iff_of_checked hchecked, List.findSome?_eq_none_iff]
    simp only [offence?_eq_none_iff, (grouped_perm d).mem_iff]
  · rw [eq_error_iff_of_checked hchecked, List.findSome?_eq_some_iff]
    simp only [offence?_eq_some_iff, Option.eq_none_iff_forall_ne_some, ne_eq]
    constructor
    · rintro ⟨before, p, after, hpairs, hp, hbefore⟩
      exact ⟨before, p, after, hpairs, hbefore, hp⟩
    · rintro ⟨before, p, after, hpairs, hbefore, hp⟩
      exact ⟨before, p, after, hpairs, hp, hbefore⟩

def sounding : Document :=
  ⟨[("depth", .text "2"), ("day", .text "soon"), ("depth", .text "deep"), ("by", .text "ada")]⟩

def soundingPlan : DocumentPlan :=
  { DocumentPlan.empty with
    fields := .ofList [("depth", .field .numeric), ("day", .field .date), ("by", .drop)] }

/-- The second depth is found before the day, which stands before it in the document. -/
theorem prepare_exact_sounding :
    sounding.prepare soundingPlan ValueKind.all "memory" =
      .error (.indexing "field 'depth' expects a number, got 'deep'") := by
  refine ((prepare_exact sounding soundingPlan ValueKind.all "memory").2.1 _).2
    ⟨[("depth", .text "2")], ("depth", .text "deep"), [("day", .text "soon"), ("by", .text "ada")],
      rfl, ?_, .value (c := .numeric) ⟨rfl, rfl⟩ (by decide) rfl⟩
  intro q hq e he
  obtain rfl := List.mem_singleton.1 hq
  have hnone : offence? soundingPlan ValueKind.all "memory" ("depth", .text "2") = none := rfl
  rw [← offence?_eq_some_iff, hnone] at he
  cases he

end Document

end Searchlight
