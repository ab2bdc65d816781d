import Searchlight.Proofs.KeyMap
import Searchlight.Proofs.Schema.Batches

/-!
# Plans against fields one by one

There are two ways to settle which fields of a document are indexed. A plan looks at all of them in
one registry and has the new ones registered as one batch (`planned`); or each field is resolved by
itself, in the registry that the fields before it leave (`resolvedEach`). Both come to the same
(`planned_alike`), and both fail for the first field that the registry does not know, before
anything is registered: what an unknown field is refused for does not depend on the field
(`blocked?`). -/

namespace Searchlight

namespace Document

/-- The pairs of a list that are the first of their name. -/
def leading : List (String × Value) → List (String × Value)
  | [] => []
  | p :: ps => p :: (leading ps).filter (·.1 ≠ p.1)

theorem map_fst_leading (ps : List (String × Value)) :
    (leading ps).map (·.1) = distinct (ps.map (·.1)) := by
  induction ps with
  | nil => rfl
  | cons p ps ih =>
    rw [leading, List.map_cons, List.map_cons, distinct, ← ih, List.filter_map]
    rfl

theorem head?_values_of_mem_leading {ps : List (String × Value)} {p : String × Value}
    (hp : p ∈ leading ps) : ((Document.mk ps).values p.1).head? = some p.2 := by
  induction ps with
  | nil => cases hp
  | cons q ps ih =>
    rw [leading, List.mem_cons] at hp
    rcases hp with rfl | hp
    · simp [values]
    · obtain ⟨hp, hne⟩ := List.mem_filter.1 hp
      have hne : q.1 ≠ p.1 := fun h => by simp [h] at hne
      simpa [values, hne] using ih hp

end Document

namespace Registry

open Document (leading)

variable {r : Registry} {doc : Document} {policy : UnknownFieldPolicy} {ps : List (String × Value)}
  {e : Error}

/-! ## Two ways -/

/-- Plans a document and registers its new fields as one batch. -/
def planned (doc : Document) (policy : UnknownFieldPolicy) : Action Registry DocumentPlan := do
  let plan ← .ofExcept ((← get).plan doc policy)
  set (← .ofExcept ((← get).registerAll plan.newFields))
  return plan

def resolved (policy : UnknownFieldPolicy) (name : String) (sample : Value) :
    Action Registry Resolution := do
  let (resolution, r) ← .ofExcept ((← get).resolveOrApply name sample policy)
  set r
  return resolution

/-- Resolves fields one after the other, each by its sample. -/
def resolvedEach (policy : UnknownFieldPolicy) :
    List (String × Value) → Action Registry (List (String × Resolution))
  | [] => return []
  | p :: ps => do
    let resolution ← resolved policy p.1 p.2
    return (p.1, resolution) :: (← resolvedEach policy ps)

/-! ## What both come to -/

def unknown (r : Registry) (ps : List (String × Value)) : List (String × Value) :=
  ps.filter fun p => (r.resolve p.1).isNone

def resolution (r : Registry) (policy : UnknownFieldPolicy) (p : String × Value) : Resolution :=
  match r.resolve p.1 with
  | some config => .field config
  | none => if policy = .guess then .field (r.guesser p.1 p.2) else .drop

def guessed (r : Registry) (policy : UnknownFieldPolicy) (ps : List (String × Value)) :
    List (String × FieldConfig) :=
  if policy = .guess then (r.unknown ps).map fun p => (p.1, r.guesser p.1 p.2) else []

def dropped (r : Registry) (policy : UnknownFieldPolicy) (ps : List (String × Value)) :
    List String :=
  if policy = .guess then [] else (r.unknown ps).map (·.1)

def blocked? (r : Registry) (policy : UnknownFieldPolicy) (name : String) : Option Error :=
  match policy with
  | .ignore | .ignoreWarn => none
  | .reject => some (.unknownField name)
  | .guess =>
    if r.tier = .fixed ∧ r.frozen = true then
      some (.schemaConflict name "schema is fixed once documents have been indexed")
    else none

def refusal? (r : Registry) (policy : UnknownFieldPolicy) (ps : List (String × Value)) :
    Option Error :=
  (r.unknown ps).head?.bind fun p => r.blocked? policy p.1

theorem blocked?_eq_none {name : String} (h : r.blocked? policy name = none) (name' : String) :
    r.blocked? policy name' = none := by
  cases policy with
  | ignore => rfl
  | ignoreWarn => rfl
  | reject => cases h
  | guess =>
    have hopen : ¬(r.tier = .fixed ∧ r.frozen = true) := by simpa [blocked?] using h
    exact if_neg hopen

theorem blocked?_guess_eq_some {name : String} (h : r.blocked? .guess name = some e) :
    (r.tier = .fixed ∧ r.frozen = true) ∧
      e = .schemaConflict name "schema is fixed once documents have been indexed" := by
  simpa [blocked?, eq_comm (b := e)] using h

def grown (r : Registry) (fields : List (String × FieldConfig)) : Registry :=
  { r with
    schema := r.schema.insertAll fields
    generation := r.generation + fields.length }

theorem register_unknown {name : String} (hname : r.resolve name = none) (config : FieldConfig) :
    r.register name config =
      match r.blocked? .guess name with
      | some e => .error e
      | none => .ok (r.grown [(name, config)]) := by
  have hget : r.schema.get? name = none := hname
  have hnew : r.schema.contains name = false :=
    Option.isSome_eq_false_iff.2 (Option.isNone_iff_eq_none.2 hget)
  cases htier : r.tier <;> cases hfrozen : r.frozen <;>
    simp [register, registerAll, stage, stageEntry, checkChange, blocked?, grown, htier, hfrozen,
      hget, hnew, Schema.insertAll, bind, Except.bind, Except.map]

theorem resolve_grown {fields : List (String × FieldConfig)} {name : String}
    (h : name ∉ fields.map (·.1)) : (r.grown fields).resolve name = r.resolve name :=
  Schema.get?_insertAll_of_notMem h

theorem unknown_cons_of_known {p : String × Value} {config : FieldConfig}
    (h : r.resolve p.1 = some config) : r.unknown (p :: ps) = r.unknown ps := by
  simp [unknown, h]

theorem unknown_cons_of_new {p : String × Value} (h : r.resolve p.1 = none) :
    r.unknown (p :: ps) = p :: r.unknown ps := by
  simp [unknown, h]

theorem resolved_run (p : String × Value) :
    resolved policy p.1 p.2 r =
      match r.refusal? policy [p] with
      | some e => .error e r
      | none => .ok (r.resolution policy p) (r.grown (r.guessed policy [p])) := by
  cases hp : r.resolve p.1 with
  | some config =>
    simp [resolved, resolveOrApply, hp, refusal?, resolution, guessed, unknown, grown,
      Schema.insertAll, Action.ofExcept]
  | none =>
    cases policy with
    | guess =>
      simp only [resolved, resolveOrApply, hp, register_unknown hp, refusal?,
        unknown_cons_of_new hp, List.head?_cons, Option.bind_some, resolution, guessed, if_pos, Action.bind_run,
        Action.get_run]
      cases r.blocked? .guess p.1 <;> rfl
    | _ =>
      simp [resolved, resolveOrApply, hp, refusal?, unknown, blocked?, resolution, guessed, grown,
        Schema.insertAll, Action.ofExcept]

section
variable {p : String × Value}

theorem refusal?_cons_of_some (h : r.refusal? policy [p] = some e) :
    r.refusal? policy (p :: ps) = some e := by
  cases hp : r.resolve p.1 with
  | some config => simp [refusal?, unknown, hp] at h
  | none => simpa [refusal?, unknown_cons_of_new hp] using h

/-- A field is let in because it is known, or because unknown fields are. -/
theorem known_or_open (h : r.refusal? policy [p] = none) :
    (∃ config, r.resolve p.1 = some config) ∨ ∀ ps, r.refusal? policy ps = none := by
  cases hp : r.resolve p.1 with
  | some config => exact .inl ⟨config, rfl⟩
  | none =>
    have hopen : r.blocked? policy p.1 = none := by
      simpa [refusal?, unknown_cons_of_new hp] using h
    exact .inr fun ps => by simp [refusal?, blocked?_eq_none hopen]

theorem refusal?_cons_of_none (h : r.refusal? policy [p] = none) :
    r.refusal? policy (p :: ps) = r.refusal? policy ps := by
  rcases known_or_open h with ⟨config, hp⟩ | hopen
  · rw [refusal?, unknown_cons_of_known hp, refusal?]
  · rw [hopen, hopen]

theorem guessed_of_known {config : FieldConfig} (hp : r.resolve p.1 = some config) :
    r.guessed policy [p] = [] := by
  simp [guessed, unknown, hp]

theorem guessed_sublist : ((r.guessed policy ps).map (·.1)).Sublist (ps.map (·.1)) := by
  rw [guessed]
  split
  · rw [List.map_map]
    exact (List.filter_sublist).map _
  · exact List.nil_sublist _

theorem guessed_cons :
    r.guessed policy (p :: ps) = r.guessed policy [p] ++ r.guessed policy ps := by
  simp only [guessed, unknown]
  split
  · rw [← List.map_append, ← List.filter_append]
    rfl
  · rfl

end

theorem grown_nil : r.grown [] = r := rfl

theorem grown_append (fs gs : List (String × FieldConfig)) :
    r.grown (fs ++ gs) = (r.grown fs).grown gs := by
  simp [grown, Schema.insertAll, Nat.add_assoc]

/-- What becomes of fields does not depend on what else is registered. -/
theorem unknown_grown {fields : List (String × FieldConfig)}
    (h : ∀ q ∈ ps, q.1 ∉ fields.map (·.1)) : (r.grown fields).unknown ps = r.unknown ps :=
  List.filter_congr fun q hq => by rw [resolve_grown (h q hq)]

theorem resolution_grown {fields : List (String × FieldConfig)} {q : String × Value}
    (h : q.1 ∉ fields.map (·.1)) :
    (r.grown fields).resolution policy q = r.resolution policy q := by
  rw [resolution, resolve_grown h]
  rfl

/-- **Fields resolved one by one.** -/
theorem resolvedEach_run (hps : (ps.map (·.1)).Nodup) :
    resolvedEach policy ps r =
      match r.refusal? policy ps with
      | some e => .error e r
      | none =>
        .ok (ps.map fun p => (p.1, r.resolution policy p)) (r.grown (r.guessed policy ps)) := by
  induction ps generalizing r with
  | nil => cases policy <;> rfl
  | cons p ps ih =>
    obtain ⟨hp, hps⟩ := List.nodup_cons.1 hps
    rw [resolvedEach, Action.bind_run, resolved_run]
    cases hrefusal : r.refusal? policy [p] with
    | some e => rw [refusal?_cons_of_some hrefusal]
    | none =>
      -- The fields that follow have other names than the one that may have been registered.
      have hother (q) (hq : q ∈ ps) : q.1 ∉ (r.guessed policy [p]).map (·.1) := fun hmem =>
        hp (List.mem_singleton.1 (guessed_sublist.subset hmem) ▸ List.mem_map_of_mem hq)
      have hunknown := unknown_grown (r := r) hother
      have hsame : (r.grown (r.guessed policy [p])).refusal? policy ps = r.refusal? policy ps := by
        rw [refusal?, hunknown]
        rfl
      have hguessed : (r.grown (r.guessed policy [p])).guessed policy ps = r.guessed policy ps := by
        rw [guessed, hunknown]
        rfl
      simp only [Action.bind_run, ih hps, refusal?_cons_of_none hrefusal, hsame, hguessed]
      cases hrefused : r.refusal? policy ps with
      | some e =>
        -- Nothing was registered before the refusal.
        obtain ⟨config, hconfig⟩ := (known_or_open hrefusal).resolve_right fun hopen => by
          rw [hopen] at hrefused
          cases hrefused
        rw [guessed_of_known hconfig, grown_nil]
      | none =>
        have hresolutions :
            (ps.map fun q => (q.1, (r.grown (r.guessed policy [p])).resolution policy q)) =
              ps.map fun q => (q.1, r.resolution policy q) :=
          List.map_congr_left fun q hq => by rw [resolution_grown (hother q hq)]
        simp only [Action.pure_run, hresolutions, ← grown_append, ← guessed_cons, List.map_cons]

/-! ## Plans -/

def planOf (r : Registry) (policy : UnknownFieldPolicy) (ps : List (String × Value)) :
    DocumentPlan where
  fields := .ofList (ps.map fun p => (p.1, r.resolution policy p))
  newFields := r.guessed policy ps
  ignored := r.dropped policy ps

theorem planNames_run (hps : ∀ p ∈ ps, (doc.values p.1).head? = some p.2)
    (plan : DocumentPlan) :
    planNames r doc policy plan (ps.map (·.1)) =
      match if policy = .reject then (r.unknown ps).head? else none with
      | some p => .error (.unknownField p.1)
      | none => .ok {
          fields := (ps.map fun p => (p.1, r.resolution policy p)).foldl
            (fun m e => m.insert e.1 e.2) plan.fields
          newFields := plan.newFields ++ r.guessed policy ps
          ignored := plan.ignored ++ r.dropped policy ps } := by
  induction ps generalizing plan with
  | nil => cases policy <;> simp [planNames, unknown, guessed, dropped]
  | cons p ps ih =>
    have hp := hps p List.mem_cons_self
    replace ih := ih fun q hq => hps q (List.mem_cons_of_mem _ hq)
    cases hknown : r.resolve p.1 with
    | some config =>
      simp [planNames, hknown, ih, unknown_cons_of_known hknown, guessed, dropped, resolution]
    | none =>
      cases policy with
      | reject => simp [planNames, hknown, unknown_cons_of_new hknown]
      | guess =>
        simp [planNames, hknown, ih, hp, unknown_cons_of_new hknown, guessed, dropped, resolution]
      | _ => simp [planNames, hknown, ih, unknown_cons_of_new hknown, guessed, dropped, resolution]

theorem plan_run (r : Registry) (doc : Document) (policy : UnknownFieldPolicy) :
    r.plan doc policy =
      match if policy = .reject then (r.unknown (leading doc.pairs)).head? else none with
      | some p => .error (.unknownField p.1)
      | none => .ok (r.planOf policy (leading doc.pairs)) := by
  rw [plan, Document.names, ← Document.map_fst_leading,
    planNames_run fun p hp => Document.head?_values_of_mem_leading hp]
  simp [DocumentPlan.empty, planOf, KeyMap.ofList]
  rfl

def published (r : Registry) (fields : List (String × FieldConfig)) : Registry :=
  if fields.isEmpty then r
  else { r with schema := r.schema.insertAll fields, generation := r.generation + 1 }

theorem get?_insertAll_take {fields : List (String × FieldConfig)}
    (hfields : (fields.map (·.1)).Nodup)
    (hnew : ∀ f ∈ fields, r.resolve f.1 = none) {i : Nat} {f : String × FieldConfig}
    (hf : fields[i]? = some f) : (r.schema.insertAll (fields.take i)).get? f.1 = none := by
  have hbefore : f.1 ∉ (fields.take i).map (·.1) := by
    obtain ⟨hi, rfl⟩ := List.getElem?_eq_some_iff.1 hf
    rw [← List.take_append_drop i fields, List.drop_eq_getElem_cons hi, List.map_append,
      List.map_cons] at hfields
    exact fun hmem => (List.disjoint_of_nodup_append hfields) hmem List.mem_cons_self
  rw [Schema.get?_insertAll_of_notMem hbefore]
  exact hnew f (List.mem_of_getElem? hf)

theorem not_forbids_new {s : Schema} {f : String × FieldConfig} {message name : String}
    (hopen : r.blocked? .guess name = none) (hf : s.get? f.1 = none) :
    ¬Forbids r.tier r.frozen s f message := by
  intro h
  generalize htier : r.tier = tier, hfrozen : r.frozen = frozen at h
  cases h with
  | fixed => simp [blocked?, htier, hfrozen] at hopen
  | appendOnly hknown =>
    rw [hf] at hknown
    cases hknown

/-- A batch of new fields is refused for the first of them, if at all. -/
theorem registerAll_new {fields : List (String × FieldConfig)} (hfields : (fields.map (·.1)).Nodup)
    (hnew : ∀ f ∈ fields, r.resolve f.1 = none) :
    r.registerAll fields =
      match fields.head?.bind fun f => r.blocked? .guess f.1 with
      | some e => .error e
      | none => .ok (r.published fields) := by
  cases fields with
  | nil => exact registerAll_nil
  | cons f fs =>
    have hf : r.schema.get? f.1 = none := hnew f List.mem_cons_self
    rw [List.head?_cons, Option.bind_some]
    cases hblocked : r.blocked? .guess f.1 with
    | some e =>
      obtain ⟨⟨htier, hfrozen⟩, rfl⟩ := blocked?_guess_eq_some hblocked
      refine Except.map_eq_error.2 (stage_eq_error_iff.2
        ⟨0, f, _, firstForbidden_zero.2 ⟨rfl, ?_⟩, rfl⟩)
      rw [htier, hfrozen]
      exact .fixed (by simp [hf])
    | none =>
      cases hr : r.registerAll (f :: fs) with
      | error e =>
        obtain ⟨i, g, message, h, -⟩ := stage_eq_error_iff.1 (Except.map_eq_error.1 hr)
        exact absurd h.forbidden
          (not_forbids_new hblocked (get?_insertAll_take hfields hnew h.entry))
      | ok r' =>
        obtain ⟨⟨schema, changed⟩, hstage, rfl⟩ := Except.map_eq_ok.1 hr
        obtain ⟨rfl, hchanged⟩ := stage_eq_ok hstage
        have hchanged : changed = true := by
          rw [← Bool.not_eq_false, hchanged]
          intro hknown
          rw [hknown f List.mem_cons_self] at hf
          cases hf
        simp [published, hchanged]

/-- The guessed fields are new, and as a batch they are refused as each of them is. -/
theorem registerAll_guessed (hps : (ps.map (·.1)).Nodup) :
    r.registerAll (r.guessed .guess ps) =
      match r.refusal? .guess ps with
      | some e => .error e
      | none => .ok (r.published (r.guessed .guess ps)) := by
  have hnew : ∀ f ∈ r.guessed .guess ps, r.resolve f.1 = none := by
    intro f hf
    rw [guessed, if_pos rfl] at hf
    obtain ⟨p, hp, rfl⟩ := List.mem_map.1 hf
    exact Option.isNone_iff_eq_none.1 (List.mem_filter.1 hp).2
  have hfirst : ((r.guessed .guess ps).head?.bind fun f => r.blocked? .guess f.1) =
      r.refusal? .guess ps := by
    rw [guessed, if_pos rfl, refusal?, List.head?_map, Option.bind_map]
    rfl
  rw [registerAll_new (hps.sublist guessed_sublist) hnew, hfirst]

/-- **Fields planned together.** -/
theorem planned_run (r : Registry) (doc : Document) (policy : UnknownFieldPolicy) :
    planned doc policy r =
      match r.refusal? policy (leading doc.pairs) with
      | some e => .error e r
      | none =>
        .ok (r.planOf policy (leading doc.pairs))
          (r.published (r.guessed policy (leading doc.pairs))) := by
  have hps : ((leading doc.pairs).map (·.1)).Nodup := by
    rw [Document.map_fst_leading]
    exact doc.nodup_names
  simp only [planned, Action.bind_run, Action.get_run, plan_run]
  cases policy with
  | guess =>
    simp only [reduceCtorEq, if_false, Action.ofExcept_run, planOf, registerAll_guessed hps]
    cases r.refusal? .guess (leading doc.pairs) <;> rfl
  | reject =>
    rw [if_pos rfl, refusal?]
    cases (r.unknown (leading doc.pairs)).head? with
    | some p => rfl
    | none => simp [Action.ofExcept_run, planOf, guessed, registerAll_nil, published, blocked?]
  | _ =>
    simp [Action.ofExcept_run, planOf, guessed, registerAll_nil, published, blocked?, refusal?]

theorem plan_of_planned {plan : DocumentPlan} {r' : Registry}
    (h : planned doc policy r = .ok plan r') : r.plan doc policy = .ok plan := by
  simp only [planned, Action.bind_run, Action.get_run, Action.ofExcept_run] at h
  cases hplan : r.plan doc policy with
  | error e => simp [hplan] at h
  | ok plan' =>
    cases hr : r.registerAll plan'.newFields with
    | error e => simp [hplan, hr] at h
    | ok r₁ =>
      simp only [hplan, hr, Action.set_run, Action.pure_run] at h
      cases h
      rfl

theorem schema_published {fields : List (String × FieldConfig)} :
    (r.published fields).schema = (r.grown fields).schema := by
  rw [published]
  split
  · rename_i hempty
    rw [List.isEmpty_iff.1 hempty]
    rfl
  · rfl

theorem get?_planOf {name : String} {resolution : Resolution} (hps : (ps.map (·.1)).Nodup) :
    (r.planOf policy ps).fields.get? name = some resolution ↔
      (name, resolution) ∈ ps.map fun p => (p.1, r.resolution policy p) := by
  refine ⟨KeyMap.mem_of_get?_ofList, fun hmem => ?_⟩
  have hnames : ((ps.map fun p => (p.1, r.resolution policy p)).map (·.1)).Nodup := by
    rwa [List.map_map]
  have hcontains : (r.planOf policy ps).fields.contains name = true := by
    rw [planOf, KeyMap.contains_ofList, decide_eq_true_iff]
    exact List.mem_map_of_mem (f := Prod.fst) hmem
  obtain ⟨resolution', hfound⟩ := KeyMap.contains_eq_true_iff.1 hcontains
  have hsame : (name, resolution') = (name, resolution) :=
    List.inj_on_of_nodup_map hnames (KeyMap.mem_of_get?_ofList hfound) hmem rfl
  rw [hfound, (Prod.mk.inj hsame).2]

/-- **To plan a document is to resolve its fields one by one**, each by its first value, in the
order in which they appear. Both fail for the same error, and neither has registered anything then;
and where they succeed, both let in the same fields in the same way and come to the same schema. A
plan by itself changes nothing. Its new fields are the unknown fields of the document if these are
guessed, each of them once; other policies leave them out or refuse them, and there are no new
fields. -/
theorem planned_alike (r : Registry) (doc : Document) (policy : UnknownFieldPolicy) :
    ((leading doc.pairs).map (·.1) = doc.names ∧
      ∀ p ∈ leading doc.pairs, (doc.values p.1).head? = some p.2) ∧
    (∀ e, (planned doc policy).outcome r = .error e ↔
      (resolvedEach policy (leading doc.pairs)).outcome r = .error e) ∧
    (∀ e, (planned doc policy).outcome r = .error e →
      (planned doc policy).after r = r ∧
      (resolvedEach policy (leading doc.pairs)).after r = r) ∧
    (∀ plan, (planned doc policy).outcome r = .ok plan →
      r.plan doc policy = .ok plan ∧
      ∃ resolutions, (resolvedEach policy (leading doc.pairs)).outcome r = .ok resolutions ∧
        resolutions.map (·.1) = doc.names ∧
        (∀ name resolution, plan.fields.get? name = some resolution ↔
          (name, resolution) ∈ resolutions) ∧
        ((planned doc policy).after r).schema =
          ((resolvedEach policy (leading doc.pairs)).after r).schema) ∧
    r.apply (.plan doc policy) = r ∧
    ∀ plan, r.plan doc policy = .ok plan →
      (plan.newFields.map (·.1)).Nodup ∧
      ∀ name config, (name, config) ∈ plan.newFields ↔
        policy = .guess ∧ name ∈ doc.names ∧ r.resolve name = none ∧
          r.guesser name ((doc.values name).headD (.text "")) = config := by
  have hnames : (leading doc.pairs).map (·.1) = doc.names := Document.map_fst_leading doc.pairs
  have hnodup : ((leading doc.pairs).map (·.1)).Nodup := hnames ▸ doc.nodup_names
  have hplanned := planned_run r doc policy
  have heach : resolvedEach policy (leading doc.pairs) r = _ := resolvedEach_run hnodup
  have hunchanged : r.apply (.plan doc policy) = r := by
    rw [apply, perform]
    cases r.plan doc policy <;> rfl
  refine ⟨⟨hnames, fun p => Document.head?_values_of_mem_leading⟩, ?_⟩
  cases hrefusal : r.refusal? policy (leading doc.pairs) with
  | some e =>
    rw [hrefusal] at hplanned heach
    refine ⟨fun e => ?_, fun e _ => ?_, fun plan h => ?_, hunchanged,
      fun plan h => ⟨plan_nodup h, fun name config => mem_newFields h⟩⟩
    · rw [Action.outcome, Action.outcome, hplanned, heach]
      simp only [Except.error.injEq]
    · rw [Action.after, Action.after, hplanned, heach]
      exact ⟨rfl, rfl⟩
    · rw [Action.outcome, hplanned] at h
      cases h
  | none =>
    rw [hrefusal] at hplanned heach
    refine ⟨fun e => ?_, fun e h => ?_, fun plan h => ?_, hunchanged,
      fun plan h => ⟨plan_nodup h, fun name config => mem_newFields h⟩⟩
    · simp [Action.outcome, hplanned, heach]
    · rw [Action.outcome, hplanned] at h
      cases h
    · rw [Action.outcome, hplanned] at h
      cases h
      refine ⟨plan_of_planned hplanned, _, by rw [Action.outcome, heach], ?_,
        fun name resolution => get?_planOf hnodup, ?_⟩
      · rw [List.map_map, ← hnames]
        rfl
      · rw [Action.after, Action.after, hplanned, heach]
        exact schema_published

def voyage : Document :=
  ⟨[("crew", .number .zero), ("title", .text "Ebb"), ("log", .text "calm"), ("crew", .text "two")]⟩

/-- The field of two values is guessed by the first one, and a frozen registry refuses it first. -/
theorem planned_alike_voyage :
    let r := Registry.new .fixed (.ofList [("title", .freeText)]) false Guesser.byValue
    let p := planned voyage .guess
    ((p.after r).resolve "crew" = some .numeric ∧
      (p.after r).schema = ((resolvedEach .guess (leading voyage.pairs)).after r).schema) ∧
    let e := Error.schemaConflict "crew" "schema is fixed once documents have been indexed"
    p.outcome r.freeze = .error e ∧
      (resolvedEach .guess (leading voyage.pairs)).outcome r.freeze = .error e ∧
      (p.after r.freeze).schema = r.schema := by
  intro r p
  refine ⟨⟨by decide, ?_⟩, ?_⟩
  · obtain ⟨-, -, -, hok, -⟩ := planned_alike r voyage .guess
    have hrefusal : r.refusal? .guess (leading voyage.pairs) = none := by decide
    have hp : p.outcome r = .ok (r.planOf .guess (leading voyage.pairs)) := by
      simp only [Action.outcome, p, planned_run, hrefusal]
    obtain ⟨-, _, -, -, -, hschema⟩ := hok _ hp
    exact hschema
  · intro e
    obtain ⟨-, herror, hkept, -⟩ := planned_alike r.freeze voyage .guess
    have hrefusal : r.freeze.refusal? .guess (leading voyage.pairs) = some e := by decide
    have hp : p.outcome r.freeze = .error e := by
      simp only [Action.outcome, p, planned_run, hrefusal]
    exact ⟨hp, (herror e).1 hp, by rw [(hkept e hp).1]; rfl⟩

/-- Fields that a policy leaves out are unknown, and no new fields. -/
theorem ignored_not_new :
    ∃ plan, (Registry.new .appendOnly (.ofList [("title", .freeText)]) false Guesser.freeText).plan
        ⟨[("title", .text "Ebb"), ("log", .text "calm")]⟩ .ignore = .ok plan ∧
      (Registry.new .appendOnly (.ofList [("title", .freeText)]) false Guesser.freeText).resolve
        "log" = none ∧
      "log" ∉ plan.newFields.map (·.1) :=
  ⟨_, rfl, rfl, nofun⟩

end Registry

end Searchlight
