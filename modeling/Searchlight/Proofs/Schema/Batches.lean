import Searchlight.Proofs.Schema.Tiers

/-!
# Batches of fields

A batch is taken entry by entry, each entry by the schema that those before it lead to. What a tier
has against an entry is `Forbids`, and a batch is refused for the first entry that is forbidden
(`FirstForbidden`), by a check as by a registration, which then publishes nothing (`batch_atomic`).

A generation is there to tell schemas apart, and grows by one with every batch that has an entry
that is not there. Such a batch may yet leave the schema as it was: it leads away from it and back
(`Detour`). Only then does the generation grow without need (`generation_counts_iff`). -/

namespace Searchlight

namespace Schema

/-- **A schema overwritten from left to right** has the last configuration that was given to each
field. -/
theorem get?_insertAll (s : Schema) (fs : List (String × FieldConfig)) (name : String) :
    (s.insertAll fs).get? name = (fs.reverse.lookup name).or (s.get? name) := by
  induction fs generalizing s with
  | nil => rfl
  | cons f fs ih =>
    rw [insertAll_cons, ih, get?_insert, List.reverse_cons, List.lookup_append, Option.or_assoc,
      List.lookup_cons, List.lookup_nil]
    by_cases h : name = f.1
    · simp [h]
    · simp [beq_false_of_ne h, Ne.symm h]

/-- A batch leaves a schema as it is when the last configurations that it gives are there. -/
theorem insertAll_eq_self_iff_lookup {s : Schema} {fs : List (String × FieldConfig)} :
    s.insertAll fs = s ↔
      ∀ name config, fs.reverse.lookup name = some config → s.get? name = some config := by
  constructor
  · intro h name config hlast
    rw [← h, get?_insertAll, hlast]
    rfl
  · intro h
    refine ext fun name => ?_
    rw [get?_insertAll]
    cases hlast : fs.reverse.lookup name with
    | none => rfl
    | some config => rw [h name config hlast]; rfl

end Schema

namespace Registry

variable {tier : SchemaTier} {frozen : Bool} {s : Schema} {f g : String × FieldConfig}
  {entries : List (String × FieldConfig)} {i : Nat} {message : String} {e : Error} {r r' : Registry}

/-! ## Refusals -/

/-- What a tier has against an entry: a frozen schema stays as it is, and one that only grows keeps
the configurations that it has. -/
inductive Forbids : SchemaTier → Bool → Schema → String × FieldConfig → String → Prop where
  | fixed {s : Schema} {f : String × FieldConfig} (h : s.get? f.1 ≠ some f.2) :
    Forbids .fixed true s f "schema is fixed once documents have been indexed"
  | appendOnly {frozen : Bool} {s : Schema} {f : String × FieldConfig} {config : FieldConfig}
      (h : s.get? f.1 = some config) (hne : config ≠ f.2) :
    Forbids .appendOnly frozen s f
      "existing field configuration cannot change on an append-only schema"

theorem stageEntry_eq_error_iff :
    stageEntry tier frozen s f = .error e ↔
      ∃ message, Forbids tier frozen s f message ∧ e = .schemaConflict f.1 message := by
  constructor
  · intro h
    rw [stageEntry] at h
    split at h
    · cases h
    · rename_i hf
      rcases Except.bind_eq_error.1 h with h | ⟨_, -, h⟩
      · unfold checkChange at h
        split at h
        · split at h <;> cases h
          rename_i hfrozen
          exact ⟨_, hfrozen ▸ .fixed hf, rfl⟩
        · split at h <;> cases h
          rename_i hknown
          obtain ⟨config, hconfig⟩ := KeyMap.contains_eq_true_iff.1 hknown
          exact ⟨_, .appendOnly hconfig fun heq => hf (heq ▸ hconfig), rfl⟩
        · cases h
      · cases h
  · rintro ⟨message, hf, rfl⟩
    cases hf with
    | fixed h => simp [stageEntry, h, checkChange, bind, Except.bind]
    | appendOnly h hne =>
      have hknown : s.contains f.1 = true := KeyMap.contains_eq_true_iff.2 ⟨_, h⟩
      simp [stageEntry, h, hne, hknown, checkChange, bind, Except.bind]

theorem stageEntry_eq_ok {x : Schema × Bool} (h : stageEntry tier frozen s f = .ok x) :
    x.1 = s.insert f.1 f.2 := by
  rw [stageEntry] at h
  split at h
  · rename_i hf
    cases h
    exact (Schema.insert_of_get? hf).symm
  · obtain ⟨_, -, h⟩ := Except.bind_eq_ok.1 h
    cases h
    rfl

/-- The entry at a place of a batch is the first that is forbidden, each entry being judged by the
schema overwritten with those before it. -/
structure FirstForbidden (tier : SchemaTier) (frozen : Bool) (s : Schema)
    (entries : List (String × FieldConfig)) (i : Nat) (f : String × FieldConfig)
    (message : String) : Prop where
  entry : entries[i]? = some f
  forbidden : Forbids tier frozen (s.insertAll (entries.take i)) f message
  first : ∀ j < i, ∀ g, entries[j]? = some g → ∀ message,
    ¬Forbids tier frozen (s.insertAll (entries.take j)) g message

theorem firstForbidden_zero :
    FirstForbidden tier frozen s (g :: entries) 0 f message ↔
      f = g ∧ Forbids tier frozen s g message := by
  constructor
  · intro h
    obtain rfl : g = f := Option.some.inj h.entry
    exact ⟨rfl, h.forbidden⟩
  · rintro ⟨rfl, h⟩
    exact ⟨rfl, h, by simp⟩

theorem firstForbidden_succ :
    FirstForbidden tier frozen s (g :: entries) (i + 1) f message ↔
      (∀ message, ¬Forbids tier frozen s g message) ∧
        FirstForbidden tier frozen (s.insert g.1 g.2) entries i f message := by
  constructor
  · intro h
    exact ⟨h.first 0 (Nat.succ_pos i) g rfl, h.entry, h.forbidden,
      fun j hj => h.first (j + 1) (Nat.succ_lt_succ hj)⟩
  · rintro ⟨hg, h⟩
    refine ⟨h.entry, h.forbidden, fun j hj => ?_⟩
    cases j with
    | zero =>
      rintro g' hg'
      cases hg'
      exact hg
    | succ j => exact h.first j (Nat.lt_of_succ_lt_succ hj)

/-- **A batch is refused for its first forbidden entry.** -/
theorem stage_eq_error_iff :
    stage tier frozen s entries = .error e ↔
      ∃ i f message, FirstForbidden tier frozen s entries i f message ∧
        e = .schemaConflict f.1 message := by
  induction entries generalizing s with
  | nil =>
    refine iff_of_false (fun h => nomatch h) ?_
    rintro ⟨i, f, message, h, -⟩
    cases h.entry
  | cons g entries ih =>
    rw [stage, Except.bind_eq_error, stageEntry_eq_error_iff]
    constructor
    · rintro (⟨message, hg, rfl⟩ | ⟨x, hx, h⟩)
      · exact ⟨0, g, message, firstForbidden_zero.2 ⟨rfl, hg⟩, rfl⟩
      · have hallowed : ∀ message, ¬Forbids tier frozen s g message := fun message hg => by
          rw [stageEntry_eq_error_iff.2 ⟨message, hg, rfl⟩] at hx
          cases hx
        rcases Except.bind_eq_error.1 h with h | ⟨_, -, h⟩
        · rw [stageEntry_eq_ok hx] at h
          obtain ⟨i, f, message, hf, rfl⟩ := ih.1 h
          exact ⟨i + 1, f, message, firstForbidden_succ.2 ⟨hallowed, hf⟩, rfl⟩
        · cases h
    · rintro ⟨i, f, message, hf, rfl⟩
      cases i with
      | zero =>
        obtain ⟨rfl, hf⟩ := firstForbidden_zero.1 hf
        exact .inl ⟨message, hf, rfl⟩
      | succ i =>
        obtain ⟨hallowed, hf⟩ := firstForbidden_succ.1 hf
        cases hx : stageEntry tier frozen s g with
        | error e =>
          obtain ⟨message, hg, -⟩ := stageEntry_eq_error_iff.1 hx
          exact absurd hg (hallowed message)
        | ok x =>
          refine .inr ⟨x, rfl, Except.bind_eq_error.2 (.inl ?_)⟩
          rw [stageEntry_eq_ok hx]
          exact ih.2 ⟨i, f, message, hf, rfl⟩

/-! ## Batches as a whole -/

theorem checkAll_eq_error_iff : r.checkAll entries = .error e ↔ r.registerAll entries = .error e :=
  Except.map_eq_error.trans Except.map_eq_error.symm

theorem checkAll_eq_ok_iff :
    r.checkAll entries = .ok () ↔ ∃ r', r.registerAll entries = .ok r' := by
  refine ⟨registerAll_of_checkAll, fun ⟨r', h⟩ => ?_⟩
  obtain ⟨x, hx, -⟩ := Except.map_eq_ok.1 h
  exact Except.map_eq_ok.2 ⟨x, hx, rfl⟩

theorem apply_checkAll (r : Registry) (entries : List (String × FieldConfig)) :
    r.apply (.checkAll entries) = r := by
  rw [apply, perform]
  cases r.checkAll entries <;> rfl

theorem apply_registerAll_of_error (h : r.registerAll entries = .error e) :
    r.apply (.registerAll entries) = r := by
  rw [apply, perform, h]

theorem apply_registerAll_of_ok (h : r.registerAll entries = .ok r') :
    r.apply (.registerAll entries) = r' := by
  rw [apply, perform, h]

/-- **A batch is published as a whole or not at all**, and a check tells beforehand which. A check
changes nothing and fails exactly as the registration would; a registration fails for the first
entry that is forbidden after those before it, and changes nothing then; and what it publishes is
the schema overwritten with the entries from left to right, so that each field has the last
configuration that the batch gives it, and every field that is not named the one that it had. -/
theorem batch_atomic (r : Registry) (entries : List (String × FieldConfig)) :
    r.apply (.checkAll entries) = r ∧
    (r.checkAll entries = .ok () ↔ ∃ r', r.registerAll entries = .ok r') ∧
    (∀ e, r.checkAll entries = .error e ↔ r.registerAll entries = .error e) ∧
    (∀ e, r.registerAll entries = .error e ↔
      ∃ i f message, FirstForbidden r.tier r.frozen r.schema entries i f message ∧
        e = .schemaConflict f.1 message) ∧
    (∀ e, r.registerAll entries = .error e → r.apply (.registerAll entries) = r) ∧
    ∀ r', r.registerAll entries = .ok r' →
      r.apply (.registerAll entries) = r' ∧
      r'.schema = r.schema.insertAll entries ∧
      (∀ name, r'.resolve name = (entries.reverse.lookup name).or (r.resolve name)) ∧
      (∀ name, name ∉ entries.map (·.1) → r'.resolve name = r.resolve name) ∧
      r'.tier = r.tier ∧ r'.frozen = r.frozen := by
  refine ⟨apply_checkAll r entries, checkAll_eq_ok_iff, fun e => checkAll_eq_error_iff,
    fun e => Except.map_eq_error.trans stage_eq_error_iff, fun e => apply_registerAll_of_error,
    fun r' h => ⟨apply_registerAll_of_ok h, ?_⟩⟩
  obtain ⟨hschema, -⟩ := registerAll_eq_ok h
  refine ⟨hschema, fun name => ?_, fun name hname => ?_, registerAll_rules h⟩
  · rw [resolve, hschema, Schema.get?_insertAll, resolve]
  · rw [resolve, hschema, Schema.get?_insertAll_of_notMem hname, resolve]

/-- A schema that only grows takes no field twice in different forms: the second entry is refused
for the first one, and the third is never looked at. -/
theorem batch_atomic_titles :
    let r := Registry.new .appendOnly .empty false Guesser.freeText
    let entries := [("title", FieldConfig.freeText), ("title", .exactMatch), ("tag", .exactMatch)]
    r.checkAll entries = .error (.schemaConflict "title"
        "existing field configuration cannot change on an append-only schema") ∧
      r.apply (.registerAll entries) = r ∧
      (r.apply (.registerAll (entries.eraseIdx 1))).resolve "tag" = some .exactMatch := by
  intro r entries
  obtain ⟨-, -, hcheck, hfirst, hunchanged, -⟩ := batch_atomic r entries
  have hrefused : r.registerAll entries = .error (.schemaConflict "title"
      "existing field configuration cannot change on an append-only schema") := by
    refine (hfirst _).2 ⟨1, ("title", .exactMatch), _, ⟨rfl, .appendOnly rfl (by decide), ?_⟩, rfl⟩
    intro j hj g hg message hforbids
    obtain rfl : j = 0 := by omega
    cases hg
    cases hforbids with
    | appendOnly h => cases h
  refine ⟨(hcheck _).2 hrefused, hunchanged _ hrefused, ?_⟩
  obtain ⟨-, -, -, -, -, hok⟩ := batch_atomic r (entries.eraseIdx 1)
  obtain ⟨happly, -, hresolve, -⟩ := hok _ rfl
  rw [happly, hresolve]
  rfl

/-! ## Generations -/

/-- The tier lets a configuration take the place of another one. -/
def Replaces (tier : SchemaTier) (frozen : Bool) : Prop :=
  tier ≠ .appendOnly ∧ ¬(tier = .fixed ∧ frozen = true)

/-- A batch leads away from a schema and back: an entry of it is not there, but the last
configuration that it gives to each field is. -/
structure Detour (s : Schema) (entries : List (String × FieldConfig)) : Prop where
  away : ∃ f ∈ entries, s.get? f.1 ≠ some f.2
  back : ∀ name config, entries.reverse.lookup name = some config → s.get? name = some config

theorem exists_registerAll_of_replaces (h : Replaces r.tier r.frozen)
    (entries : List (String × FieldConfig)) : ∃ r', r.registerAll entries = .ok r' := by
  obtain ⟨x, hx⟩ := exists_stage r.schema entries fun known name => by
    unfold checkChange
    split
    · rename_i htier
      exact if_neg fun hfrozen => h.2 ⟨htier, hfrozen⟩
    · rename_i htier
      exact absurd htier h.1
    · rfl
  exact ⟨_, Except.map_eq_ok.2 ⟨x, hx, rfl⟩⟩

theorem exists_forbids (h : ¬Replaces tier frozen) {config : FieldConfig}
    (hf : s.get? f.1 = some config) (hne : config ≠ f.2) :
    ∃ message, Forbids tier frozen s f message := by
  by_cases htier : tier = .appendOnly
  · subst htier
    exact ⟨_, .appendOnly hf hne⟩
  · obtain ⟨rfl, rfl⟩ : tier = .fixed ∧ frozen = true := by
      by_contra hopen
      exact h ⟨htier, hopen⟩
    exact ⟨_, .fixed fun heq => hne (Option.some.inj (hf.symm.trans heq))⟩

/-- Where nothing is replaced, a batch that is taken has only entries that are new or there. -/
theorem new_or_known_of_stage (h : ¬Replaces tier frozen) {x : Schema × Bool}
    (hstage : stage tier frozen s entries = .ok x) (hf : f ∈ entries) :
    s.get? f.1 = none ∨ s.get? f.1 = some f.2 := by
  induction entries generalizing s x with
  | nil => cases hf
  | cons g entries ih =>
    obtain ⟨y, hentry, hrest⟩ := Except.bind_eq_ok.1 hstage
    have hg : s.get? g.1 = none ∨ s.get? g.1 = some g.2 := by
      cases hget : s.get? g.1 with
      | none => exact .inl rfl
      | some config =>
        refine .inr (congrArg some ?_)
        by_contra hne
        obtain ⟨message, hforbids⟩ := exists_forbids h hget hne
        rw [stageEntry_eq_error_iff.2 ⟨message, hforbids, rfl⟩] at hentry
        cases hentry
    rcases List.mem_cons.1 hf with rfl | hf
    · exact hg
    obtain ⟨z, hz, -⟩ := Except.bind_eq_ok.1 hrest
    have hlater := ih hz hf
    rw [stageEntry_eq_ok hentry, Schema.get?_insert] at hlater
    split at hlater
    · -- A later entry for the same field is the same one again.
      rename_i hname
      obtain rfl : g = f := Prod.ext hname (by simpa using hlater)
      exact hg
    · exact hlater

/-- A batch that is taken and has something new leaves the schema as it was only by a detour of a
tier that lets configurations be replaced. -/
theorem detour_of_stage {x : Schema × Bool} (hstage : stage tier frozen s entries = .ok x)
    (haway : ∃ f ∈ entries, s.get? f.1 ≠ some f.2) (hsame : s.insertAll entries = s) :
    Replaces tier frozen ∧ Detour s entries := by
  have hback := Schema.insertAll_eq_self_iff_lookup.1 hsame
  refine ⟨?_, haway, hback⟩
  by_contra h
  obtain ⟨f, hf, hnew⟩ := haway
  have hnone : s.get? f.1 = none := (new_or_known_of_stage h hstage hf).resolve_right hnew
  -- The last configuration that the batch gives to this field would be there.
  cases hlast : entries.reverse.lookup f.1 with
  | none =>
    have hnotMem := List.lookup_eq_none_iff.1 hlast f (List.mem_reverse.2 hf)
    simp at hnotMem
  | some config =>
    rw [hback f.1 config hlast] at hnone
    cases hnone

theorem not_detour_of_nodup (h : (entries.map (·.1)).Nodup) : ¬Detour s entries := by
  rintro ⟨⟨f, hf, hnew⟩, hback⟩
  exact hnew ((Schema.insertAll_eq_self_iff h).1 (Schema.insertAll_eq_self_iff_lookup.2 hback) f hf)

theorem generation_of_detour (hreplaces : Replaces r.tier r.frozen)
    (hdetour : Detour r.schema entries) :
    (r.apply (.registerAll entries)).schema = r.schema ∧
      (r.apply (.registerAll entries)).generation = r.generation + 1 := by
  obtain ⟨r', hr⟩ := exists_registerAll_of_replaces hreplaces entries
  rw [apply_registerAll_of_ok hr]
  obtain ⟨hschema, ⟨hknown, -⟩ | ⟨-, hgeneration⟩⟩ := registerAll_eq_ok hr
  · obtain ⟨f, hf, hnew⟩ := hdetour.away
    exact absurd (hknown f hf) hnew
  · exact ⟨hschema.trans (Schema.insertAll_eq_self_iff_lookup.2 hdetour.back), hgeneration⟩

theorem generation_of_not_detour (h : ¬(Replaces r.tier r.frozen ∧ Detour r.schema entries)) :
    (r.apply (.registerAll entries)).generation =
      if (r.apply (.registerAll entries)).schema = r.schema then r.generation
      else r.generation + 1 := by
  cases hr : r.registerAll entries with
  | error e => rw [apply_registerAll_of_error hr, if_pos rfl]
  | ok r' =>
    rw [apply_registerAll_of_ok hr]
    obtain ⟨hschema, ⟨-, rfl⟩ | ⟨haway, hgeneration⟩⟩ := registerAll_eq_ok hr
    · rw [if_pos rfl]
    · obtain ⟨x, hstage, -⟩ := Except.map_eq_ok.1 hr
      have hchanged : r'.schema ≠ r.schema := fun hsame =>
        h (detour_of_stage hstage haway (hschema.symm.trans hsame))
      rw [hgeneration, if_neg hchanged]

/-- **The generation counts the changes of the schema, and detours.** A registration of one field
and a batch that names each field once raise the generation by one when the schema is another one
afterwards, and leave it otherwise. So does every other batch, whether it is taken or refused, but
for a detour of a tier that lets configurations be replaced: it raises the generation over the same
schema. -/
theorem generation_counts_iff (r : Registry) (entries : List (String × FieldConfig)) :
    let r' := r.apply (.registerAll entries)
    (r'.generation = (if r'.schema = r.schema then r.generation else r.generation + 1) ↔
      ¬(Replaces r.tier r.frozen ∧ Detour r.schema entries)) ∧
    (Replaces r.tier r.frozen → Detour r.schema entries →
      r'.schema = r.schema ∧ r'.generation = r.generation + 1) ∧
    ((entries.map (·.1)).Nodup → ¬Detour r.schema entries) ∧
    ∀ name config, let r' := r.apply (.register name config)
      r'.generation = if r'.schema = r.schema then r.generation else r.generation + 1 := by
  intro r'
  refine ⟨⟨fun hcounts hdetour => ?_, generation_of_not_detour⟩, generation_of_detour,
    not_detour_of_nodup, fun name config => ?_⟩
  · obtain ⟨hschema, hgeneration⟩ := generation_of_detour hdetour.1 hdetour.2
    rw [hgeneration, if_pos hschema] at hcounts
    exact Nat.succ_ne_self _ hcounts
  · have honce : ([(name, config)].map (·.1)).Nodup := List.nodup_singleton name
    exact generation_of_not_detour fun hdetour => not_detour_of_nodup honce hdetour.2

/-- A field is taken for text and in the same batch for a number again. -/
theorem generation_counts_iff_thereAndBack :
    let r := Registry.new (.mutable .immediate) (.ofList [("n", .numeric)]) false Guesser.freeText
    let r' := r.apply (.registerAll [("n", .freeText), ("n", .numeric)])
    r'.schema = r.schema ∧ r'.generation = 1 ∧
      r'.generation ≠ if r'.schema = r.schema then r.generation else r.generation + 1 := by
  intro r r'
  have hreplaces : Replaces r.tier r.frozen := ⟨nofun, nofun⟩
  have hdetour : Detour r.schema [("n", .freeText), ("n", .numeric)] := by
    refine ⟨⟨_, List.mem_cons_self, by decide⟩, fun name config hlast => ?_⟩
    by_cases hname : name = "n"
    · subst hname
      cases hlast
      rfl
    · simp [List.lookup_cons, beq_false_of_ne hname] at hlast
  obtain ⟨hcounts, hthere, -⟩ := generation_counts_iff r [("n", .freeText), ("n", .numeric)]
  obtain ⟨hschema, hgeneration⟩ := hthere hreplaces hdetour
  exact ⟨hschema, hgeneration, fun h => hcounts.1 h ⟨hreplaces, hdetour⟩⟩

end Registry

end Searchlight
