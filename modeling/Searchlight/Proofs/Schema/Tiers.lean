import Searchlight.Proofs.Schema.Planning

/-!
# Registries over runs

A registry changes in three ways only: a batch is published, it is frozen, and another function
guesses from then on (`apply_cases`). What a tier promises is a relation between a registry and the
registry some operations later (`Follows`). It holds for one operation (`follows_apply`) and so
along a run (`follows_run`).
-/

namespace Searchlight

namespace Schema

theorem Within.refl (s : Schema) : s.Within s := fun _ _ h => h

theorem Within.trans {s t u : Schema} (h : s.Within t) (h' : t.Within u) : s.Within u :=
  fun name config hname => h' name config (h name config hname)

end Schema

namespace Registry

/-- What a registry can be asked for. -/
inductive Operation where
  | register (name : String) (config : FieldConfig)
  | registerAll (entries : List (String × FieldConfig))
  | checkAll (entries : List (String × FieldConfig))
  | resolveOrApply (name : String) (sample : Value) (policy : UnknownFieldPolicy)
  | plan (doc : Document) (policy : UnknownFieldPolicy)
  | freeze
  /-- What is guessed is another function from here on, as of a guesser that remembers. -/
  | guessWith (guesser : Guesser)

/-- The registry that an operation leads to, unless it fails. -/
def perform (r : Registry) : Operation → Except Error Registry
  | .register name config => r.register name config
  | .registerAll entries => r.registerAll entries
  | .checkAll entries => (r.checkAll entries).map fun _ => r
  | .resolveOrApply name sample policy => (r.resolveOrApply name sample policy).map (·.2)
  | .plan doc policy => (r.plan doc policy).map fun _ => r
  | .freeze => .ok r.freeze
  | .guessWith guesser => .ok { r with guesser }

/-- The registry that an operation leaves: what fails changes nothing. -/
def apply (r : Registry) (op : Operation) : Registry :=
  match r.perform op with
  | .ok r' => r'
  | .error _ => r

/-- The registry after a list of operations. -/
def run (r : Registry) (ops : List Operation) : Registry := ops.foldl apply r

/-- The schemas that a run leads through, in order, from the one it begins with. -/
def snapshots (r : Registry) : List Operation → List Schema
  | [] => [r.schema]
  | op :: ops => r.schema :: (r.apply op).snapshots ops

/-- Whether every registration succeeds, and with it every check and every guess. -/
structure TakesAll (r : Registry) : Prop where
  register : ∀ name config, ∃ r', r.register name config = .ok r' ∧
    r'.schema = r.schema.insert name config
  registerAll : ∀ entries, ∃ r', r.registerAll entries = .ok r' ∧
    r'.schema = r.schema.insertAll entries
  checkAll : ∀ entries, r.checkAll entries = .ok ()
  guess : ∀ name sample, ∃ result, r.resolveOrApply name sample .guess = .ok result

variable {r r' p q : Registry} {op : Operation} {tier : SchemaTier} {frozen : Bool}
  {schema schema' : Schema} {changed : Bool} {entries : List (String × FieldConfig)}
  {name : String} {config : FieldConfig}

/-! ## Batches -/

/-- What holds of a schema with one entry more holds of a schema with a batch more. -/
theorem stage_induction {R : Schema → Schema → Prop} (hrefl : ∀ s, R s s)
    (htrans : ∀ {s t u}, R s t → R t u → R s u)
    (hentry : ∀ {s e x}, stageEntry tier frozen s e = .ok x → R s x.1)
    (h : stage tier frozen schema entries = .ok (schema', changed)) : R schema schema' := by
  induction entries generalizing schema changed with
  | nil =>
    cases h
    exact hrefl _
  | cons e es ih =>
    obtain ⟨⟨s, _⟩, hs, h⟩ := Except.bind_eq_ok.1 h
    obtain ⟨⟨t, _⟩, ht, h⟩ := Except.bind_eq_ok.1 h
    cases h
    exact htrans (hentry hs) (ih ht)

theorem within_of_stageEntry {s : Schema} {e : String × FieldConfig} {x : Schema × Bool}
    (h : stageEntry .appendOnly frozen s e = .ok x) : s.Within x.1 := by
  unfold stageEntry at h
  split at h
  · cases h
    exact .refl s
  · obtain ⟨_, hcheck, h⟩ := Except.bind_eq_ok.1 h
    cases h
    have hnew : s.contains e.1 = false := by
      simpa [checkChange] using hcheck
    have hfresh : ∀ f ∈ [e], s.get? f.1 = none := by
      intro f hf
      rw [List.mem_singleton.1 hf]
      exact Option.isNone_iff_eq_none.1 (Option.isSome_eq_false_iff.1 hnew)
    exact Schema.within_insertAll hfresh

theorem eq_of_stageEntry_frozen {s : Schema} {e : String × FieldConfig} {x : Schema × Bool}
    (h : stageEntry .fixed true s e = .ok x) : x.1 = s := by
  unfold stageEntry at h
  split at h
  · cases h
    rfl
  · obtain ⟨_, hcheck, _⟩ := Except.bind_eq_ok.1 h
    cases hcheck

theorem exists_stage (schema : Schema) (entries : List (String × FieldConfig))
    (hcheck : ∀ known name, checkChange tier frozen known name = .ok ()) :
    ∃ x, stage tier frozen schema entries = .ok x := by
  induction entries generalizing schema with
  | nil => exact ⟨_, rfl⟩
  | cons e es ih =>
    obtain ⟨⟨s, changed⟩, hs⟩ : ∃ x, stageEntry tier frozen schema e = .ok x := by
      unfold stageEntry
      split
      · exact ⟨_, rfl⟩
      · rw [hcheck]
        exact ⟨_, rfl⟩
    obtain ⟨x, hx⟩ := ih s
    exact ⟨_, Except.bind_eq_ok.2 ⟨_, hs, Except.bind_eq_ok.2 ⟨_, hx, rfl⟩⟩⟩

/-- A batch of fields that are there is taken by every tier, frozen or not. -/
theorem stage_of_known (h : ∀ f ∈ entries, schema.get? f.1 = some f.2) :
    stage tier frozen schema entries = .ok (schema, false) := by
  induction entries with
  | nil => rfl
  | cons e es ih =>
    rw [stage, stageEntry, if_pos (h e List.mem_cons_self)]
    exact Except.bind_eq_ok.2 ⟨_, rfl,
      Except.bind_eq_ok.2 ⟨_, ih fun f hf => h f (List.mem_cons_of_mem _ hf), rfl⟩⟩

theorem registerAll_of_known (h : ∀ f ∈ entries, r.schema.get? f.1 = some f.2) :
    r.registerAll entries = .ok r :=
  Except.map_eq_ok.2 ⟨_, stage_of_known h, rfl⟩

theorem register_of_known (h : r.schema.get? name = some config) :
    r.register name config = .ok r :=
  registerAll_of_known fun f hf => by rw [List.mem_singleton.1 hf, h]

theorem registerAll_nil : r.registerAll [] = .ok r := registerAll_of_known (by simp)

theorem registerAll_rules (h : r.registerAll entries = .ok r') :
    r'.tier = r.tier ∧ r'.frozen = r.frozen := by
  obtain ⟨⟨schema, changed⟩, -, rfl⟩ := Except.map_eq_ok.1 h
  cases changed <;> exact ⟨rfl, rfl⟩

theorem takesAll_of_check (hcheck : ∀ known name, checkChange r.tier r.frozen known name = .ok ()) :
    r.TakesAll := by
  have hall : ∀ entries, ∃ r', r.registerAll entries = .ok r' ∧
      r'.schema = r.schema.insertAll entries := fun entries => by
    obtain ⟨x, hx⟩ := exists_stage r.schema entries hcheck
    have h : ∃ r', r.registerAll entries = .ok r' := ⟨_, Except.map_eq_ok.2 ⟨x, hx, rfl⟩⟩
    exact h.imp fun _ h => ⟨h, (registerAll_eq_ok h).1⟩
  exact {
    register := fun name config => hall [(name, config)]
    registerAll := hall
    checkAll := fun entries => by
      obtain ⟨x, hx⟩ := exists_stage r.schema entries hcheck
      exact Except.map_eq_ok.2 ⟨x, hx, rfl⟩
    guess := fun name sample => by
      rw [resolveOrApply]
      cases r.resolve name with
      | some config => exact ⟨_, rfl⟩
      | none =>
        obtain ⟨r', hr, -⟩ := hall [(name, r.guesser name sample)]
        exact ⟨_, Except.map_eq_ok.2 ⟨r', hr, rfl⟩⟩ }

/-! ## One operation -/

theorem resolveOrApply_eq_ok {sample : Value} {policy : UnknownFieldPolicy}
    {result : Resolution × Registry} (h : r.resolveOrApply name sample policy = .ok result) :
    ∃ entries, r.registerAll entries = .ok result.2 := by
  unfold resolveOrApply at h
  split at h
  · cases h
    exact ⟨[], registerAll_nil⟩
  · split at h
    · cases h
      exact ⟨[], registerAll_nil⟩
    · cases h
      exact ⟨[], registerAll_nil⟩
    · cases h
    · obtain ⟨_, hr, rfl⟩ := Except.map_eq_ok.1 h
      exact ⟨_, hr⟩

/-- All that an operation does to a registry. A failure, a check and a plan publish the empty
batch. -/
theorem apply_cases (r : Registry) (op : Operation) :
    op = .freeze ∧ r.apply op = r.freeze ∨
      op ≠ .freeze ∧ ((∃ entries, r.registerAll entries = .ok (r.apply op)) ∨
        ∃ guesser, r.apply op = { r with guesser }) := by
  unfold apply
  split
  · rename_i r' h
    cases op with
    | register name config => exact .inr ⟨nofun, .inl ⟨_, h⟩⟩
    | registerAll entries => exact .inr ⟨nofun, .inl ⟨_, h⟩⟩
    | checkAll entries =>
      obtain ⟨_, -, rfl⟩ := Except.map_eq_ok.1 h
      exact .inr ⟨nofun, .inl ⟨[], registerAll_nil⟩⟩
    | resolveOrApply name sample policy =>
      obtain ⟨_, hr, rfl⟩ := Except.map_eq_ok.1 h
      exact .inr ⟨nofun, .inl (resolveOrApply_eq_ok hr)⟩
    | plan doc policy =>
      obtain ⟨_, -, rfl⟩ := Except.map_eq_ok.1 h
      exact .inr ⟨nofun, .inl ⟨[], registerAll_nil⟩⟩
    | freeze =>
      cases h
      exact .inl ⟨rfl, rfl⟩
    | guessWith guesser =>
      cases h
      exact .inr ⟨nofun, .inr ⟨guesser, rfl⟩⟩
  · rename_i h
    refine .inr ⟨?_, .inl ⟨[], registerAll_nil⟩⟩
    rintro rfl
    cases h

/-- What holds between a registry and a later one, whatever happens in between. -/
structure Follows (p q : Registry) : Prop where
  tier : q.tier = p.tier
  frozen : p.frozen = true → q.frozen = true
  appended : p.tier = .appendOnly → p.schema.Within q.schema
  fixed : p.tier = .fixed → p.frozen = true → q.schema = p.schema
  generation : p.generation ≤ q.generation
  schema_of_generation : q.generation = p.generation → q.schema = p.schema

namespace Follows

theorem refl (r : Registry) : Follows r r :=
  ⟨rfl, id, fun _ => .refl _, fun _ _ => rfl, Nat.le_refl _, fun _ => rfl⟩

theorem trans {p q r : Registry} (h : p.Follows q) (h' : q.Follows r) : p.Follows r where
  tier := h'.tier.trans h.tier
  frozen := h'.frozen ∘ h.frozen
  appended ht := (h.appended ht).trans (h'.appended (h.tier.trans ht))
  fixed ht hf := (h'.fixed (h.tier.trans ht) (h.frozen hf)).trans (h.fixed ht hf)
  generation := Nat.le_trans h.generation h'.generation
  schema_of_generation hg := by
    -- The generation in the middle lies between two that are the same.
    have hmid : q.generation = p.generation :=
      Nat.le_antisymm (hg ▸ h'.generation) h.generation
    exact (h'.schema_of_generation (hg.trans hmid.symm)).trans (h.schema_of_generation hmid)

theorem of_schema (ht : q.tier = p.tier) (hf : p.frozen = true → q.frozen = true)
    (hs : q.schema = p.schema) (hg : q.generation = p.generation) : p.Follows q where
  tier := ht
  frozen := hf
  appended _ := hs ▸ .refl _
  fixed _ _ := hs
  generation := Nat.le_of_eq hg.symm
  schema_of_generation _ := hs

end Follows

theorem follows_registerAll (h : r.registerAll entries = .ok r') : r.Follows r' := by
  obtain ⟨ht, hf⟩ := registerAll_rules h
  obtain ⟨-, hgeneration⟩ := registerAll_eq_ok h
  obtain ⟨⟨schema, changed⟩, hstage, hr⟩ := Except.map_eq_ok.1 h
  have hschema : changed = true → r'.schema = schema := by
    rintro rfl
    rw [← hr]
    rfl
  cases changed with
  | false => exact .of_schema ht (hf ▸ id) (by rw [← hr]; rfl) (by rw [← hr]; rfl)
  | true =>
    have hschema := hschema rfl
    exact {
      tier := ht
      frozen := hf ▸ id
      appended := fun htier => by
        rw [htier] at hstage
        rw [hschema]
        exact stage_induction (R := Schema.Within) .refl .trans within_of_stageEntry hstage
      fixed := fun htier hfrozen => by
        rw [htier, hfrozen] at hstage
        rw [hschema]
        exact stage_induction (R := fun s t => t = s) (fun _ => rfl) (fun h h' => h'.trans h)
          eq_of_stageEntry_frozen hstage
      generation := by
        rcases hgeneration with ⟨-, rfl⟩ | ⟨-, hg⟩ <;> omega
      schema_of_generation := fun hg => by
        rcases hgeneration with ⟨-, rfl⟩ | ⟨-, hg'⟩
        · rfl
        · omega }

theorem follows_apply (r : Registry) (op : Operation) : r.Follows (r.apply op) := by
  rcases apply_cases r op with ⟨-, h⟩ | ⟨-, ⟨entries, h⟩ | ⟨guesser, h⟩⟩
  · rw [h, freeze]
    split
    · exact .of_schema rfl (fun _ => rfl) rfl rfl
    · exact .refl r
  · exact follows_registerAll h
  · rw [h]
    exact .of_schema rfl id rfl rfl

/-- On the fixed tier freezing freezes, and nothing else does. -/
theorem frozen_apply (hr : r.tier = .fixed) (op : Operation) :
    (r.apply op).frozen = true ↔ r.frozen = true ∨ op = .freeze := by
  rcases apply_cases r op with ⟨rfl, h⟩ | ⟨hop, ⟨entries, h⟩ | ⟨guesser, h⟩⟩
  · simp [h, freeze, hr]
  · simp [(registerAll_rules h).2, hop]
  · simp [h, hop]

/-! ## Runs -/

theorem run_append (r : Registry) (before later : List Operation) :
    r.run (before ++ later) = (r.run before).run later := List.foldl_append

theorem follows_run (r : Registry) (ops : List Operation) : r.Follows (r.run ops) := by
  induction ops generalizing r with
  | nil => exact .refl r
  | cons op ops ih => exact (follows_apply r op).trans (ih _)

theorem frozen_run (hr : r.tier = .fixed) (ops : List Operation) :
    (r.run ops).frozen = true ↔ r.frozen = true ∨ .freeze ∈ ops := by
  induction ops generalizing r with
  | nil => simp [run]
  | cons op ops ih =>
    have htier : (r.apply op).tier = .fixed := (follows_apply r op).tier.trans hr
    have hrun : r.run (op :: ops) = (r.apply op).run ops := rfl
    rw [hrun, ih htier, frozen_apply hr, List.mem_cons, or_assoc, eq_comm (a := op)]

/-- The snapshot of a point of a run is the schema that the operations up to there lead to. -/
theorem getElem?_snapshots (r : Registry) {ops : List Operation} {i : Nat} (hi : i ≤ ops.length) :
    (r.snapshots ops)[i]? = some (r.run (ops.take i)).schema := by
  induction ops generalizing r i with
  | nil =>
    obtain rfl : i = 0 := Nat.le_zero.1 hi
    rfl
  | cons op ops ih =>
    cases i with
    | zero => rfl
    | succ i => exact ih (r.apply op) (Nat.le_of_succ_le_succ hi)

/-- The tiers keep their promises at every point of every run, and between any two points. The
first point is reached by `before`, the second by `later` from there. -/
theorem tier_enforced (r : Registry) (before later : List Operation) :
    (r.tier = .appendOnly → ∀ name config, (r.run before).resolve name = some config →
      (r.run (before ++ later)).resolve name = some config) ∧
    (r.tier = .fixed → r.frozen = true ∨ .freeze ∈ before →
      (r.run (before ++ later)).schema = (r.run before).schema) ∧
    (r.tier = .fixed → r.frozen = false → .freeze ∉ before → (r.run before).TakesAll) ∧
    (∀ latency, r.tier = .mutable latency → (r.run before).TakesAll) ∧
    (∀ name config, (r.run before).resolve name = some config →
      (r.run before).register name config = .ok (r.run before)) ∧
    (∀ i ≤ before.length,
      (r.snapshots (before ++ later))[i]? = some (r.run (before.take i)).schema) ∧
    (r.run before).generation ≤ (r.run (before ++ later)).generation ∧
    ((r.run before).generation = (r.run (before ++ later)).generation →
      (r.run before).schema = (r.run (before ++ later)).schema) := by
  have htier : (r.run before).tier = r.tier := (follows_run r before).tier
  have hlater : (r.run before).Follows (r.run (before ++ later)) :=
    run_append r before later ▸ follows_run _ later
  refine ⟨fun ht => hlater.appended (htier.trans ht), fun ht hfrozen => ?_,
    fun ht hopen hfreeze => ?_, fun latency ht => ?_, fun name config => register_of_known,
    fun i hi => ?_, hlater.generation, fun hg => (hlater.schema_of_generation hg.symm).symm⟩
  · exact hlater.fixed (htier.trans ht) ((frozen_run ht before).2 hfrozen)
  · have hopen : (r.run before).frozen = false := by
      rw [← Bool.not_eq_true, frozen_run ht, not_or]
      exact ⟨by simp [hopen], hfreeze⟩
    refine takesAll_of_check fun known name => ?_
    rw [htier, ht, hopen]
    rfl
  · refine takesAll_of_check fun known name => ?_
    rw [htier, ht]
    rfl
  · rw [getElem?_snapshots r (by simp; omega), List.take_append_of_le_length hi]

/-- A fixed schema that is frozen with one field, and one that only grows. -/
theorem tier_enforced_titled :
    let fixed := Registry.new .fixed .empty false Guesser.freeText
    let growing := Registry.new .appendOnly .empty false Guesser.freeText
    let before := [Operation.register "title" .freeText, .freeze]
    let later := [Operation.register "title" .exactMatch, .register "tag" .exactMatch]
    ((fixed.run before).resolve "title" = some .freeText ∧
      (fixed.run (before ++ later)).schema = (fixed.run before).schema) ∧
    ((growing.run (before ++ later)).resolve "tag" = some .exactMatch ∧
      (growing.run (before ++ later)).resolve "title" = some .freeText) :=
  ⟨⟨by decide, (tier_enforced _ _ _).2.1 rfl (.inr (by simp))⟩,
    ⟨by decide, (tier_enforced _ _ _).1 rfl _ _ (by decide)⟩⟩

end Registry

end Searchlight
