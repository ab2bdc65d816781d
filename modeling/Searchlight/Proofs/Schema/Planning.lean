import Mathlib.Data.List.Nodup
import Searchlight.Document.Prepared
import Searchlight.Proofs.Action
import Searchlight.Proofs.Schema.Fields

/-!
# Plans and batches

A plan brings fields along that the registry does not know, each of them once, and what it may fail
with tells the step that failed: a plan, the values of a document and a batch fail in different
ways.
-/

namespace Searchlight

namespace Document

theorem nodup_distinct (names : List String) : (distinct names).Nodup := by
  induction names with
  | nil => exact List.nodup_nil
  | cons n ns ih => exact List.nodup_cons.2 ⟨by simp, ih.filter _⟩

theorem nodup_names (d : Document) : d.names.Nodup := nodup_distinct _

end Document

namespace Registry

variable {r r' : Registry} {doc : Document} {policy : UnknownFieldPolicy} {plan : DocumentPlan}
  {e : Error}

theorem planNames_newFields {names : List String} {plan plan' : DocumentPlan}
    (h : planNames r doc policy plan names = .ok plan') :
    ∃ new, plan'.newFields = plan.newFields ++ new ∧ (new.map (·.1)).Sublist names ∧
      ∀ f ∈ new, r.schema.get? f.1 = none := by
  induction names generalizing plan with
  | nil =>
    cases h
    exact ⟨[], by simp, .slnil, by simp⟩
  | cons name names ih =>
    simp only [planNames] at h
    split at h
    · obtain ⟨new, hnew, hsub, hunknown⟩ := ih h
      exact ⟨new, hnew, hsub.cons name, hunknown⟩
    · rename_i hname
      split at h
      · obtain ⟨new, hnew, hsub, hunknown⟩ := ih h
        exact ⟨new, hnew, hsub.cons name, hunknown⟩
      · obtain ⟨new, hnew, hsub, hunknown⟩ := ih h
        exact ⟨new, hnew, hsub.cons name, hunknown⟩
      · cases h
      · obtain ⟨new, hnew, hsub, hunknown⟩ := ih h
        refine ⟨(name, _) :: new, by rw [hnew, List.append_assoc]; rfl, hsub.cons_cons name, ?_⟩
        rintro f (_ | ⟨_, hf⟩)
        · exact hname
        · exact hunknown f hf

theorem plan_nodup (h : r.plan doc policy = .ok plan) : (plan.newFields.map (·.1)).Nodup := by
  obtain ⟨new, hnew, hsub, -⟩ := planNames_newFields h
  rw [hnew]
  exact doc.nodup_names.sublist hsub

theorem plan_unknown (h : r.plan doc policy = .ok plan) {f : String × FieldConfig}
    (hf : f ∈ plan.newFields) : r.schema.get? f.1 = none := by
  obtain ⟨new, hnew, -, hunknown⟩ := planNames_newFields h
  rw [hnew] at hf
  exact hunknown f hf

theorem mem_newFields_planNames {names : List String} {plan plan' : DocumentPlan} {name : String}
    {g : FieldConfig} (h : planNames r doc policy plan names = .ok plan') :
    (name, g) ∈ plan'.newFields ↔ (name, g) ∈ plan.newFields ∨ policy = .guess ∧ name ∈ names ∧
      r.resolve name = none ∧ r.guesser name ((doc.values name).headD (.text "")) = g := by
  induction names generalizing plan with
  | nil =>
    cases h
    simp
  | cons name' names ih =>
    simp only [planNames] at h
    split at h
    · rename_i hknown
      rw [ih h, List.mem_cons]
      grind
    · rename_i hunknown
      split at h
      · rw [ih h]
        simp
      · rw [ih h]
        simp
      · cases h
      · rw [ih h, List.mem_append, List.mem_singleton, Prod.mk.injEq, List.mem_cons]
        grind

/-- **The new fields of a plan** are those of the document that the registry does not know, as they
are guessed. -/
theorem mem_newFields (h : r.plan doc policy = .ok plan) {name : String} {g : FieldConfig} :
    (name, g) ∈ plan.newFields ↔ policy = .guess ∧ name ∈ doc.names ∧ r.resolve name = none ∧
      r.guesser name ((doc.values name).headD (.text "")) = g := by
  rw [mem_newFields_planNames h]
  simp [DocumentPlan.empty]

theorem planNames_eq_error {names : List String} {plan : DocumentPlan}
    (h : planNames r doc policy plan names = .error e) : ∃ name, e = .unknownField name := by
  induction names generalizing plan with
  | nil => cases h
  | cons name names ih =>
    simp only [planNames] at h
    split at h
    · exact ih h
    · split at h
      · exact ih h
      · exact ih h
      · cases h
        exact ⟨name, rfl⟩
      · exact ih h

theorem plan_eq_error (h : r.plan doc policy = .error e) : ∃ name, e = .unknownField name :=
  planNames_eq_error h

/-! ## Batches -/

/-- A batch is refused for the tier, which is never about a name. -/
theorem stage_eq_error {tier : SchemaTier} {frozen : Bool} {schema : Schema}
    {entries : List (String × FieldConfig)} (h : stage tier frozen schema entries = .error e) :
    ∃ name message, e = .schemaConflict name message ∧ message ≠ "field name is reserved" := by
  have hcheck {known : Bool} {n : String} (h : checkChange tier frozen known n = .error e) :
      ∃ message, e = .schemaConflict n message ∧ message ≠ "field name is reserved" := by
    unfold checkChange at h
    split at h
    · split at h <;> cases h
      exact ⟨_, rfl, by simp⟩
    · split at h <;> cases h
      exact ⟨_, rfl, by simp⟩
    · cases h
  induction entries generalizing schema with
  | nil => cases h
  | cons f fs ih =>
    rw [stage, Except.bind_eq_error] at h
    rcases h with h | ⟨x, -, h⟩
    · rw [stageEntry] at h
      split at h
      · cases h
      · rcases Except.bind_eq_error.1 h with h | ⟨_, -, h⟩
        · exact ⟨_, hcheck h⟩
        · cases h
    · rcases Except.bind_eq_error.1 h with h | ⟨_, -, h⟩
      · exact ih h
      · cases h

theorem checkAll_eq_error {entries : List (String × FieldConfig)}
    (h : r.checkAll entries = .error e) (name : String) :
    e ≠ .schemaConflict name "field name is reserved" := by
  obtain ⟨_, message, rfl, hmessage⟩ := stage_eq_error (Except.map_eq_error.1 h)
  intro heq
  cases heq
  exact hmessage rfl

/-- A batch that passes the check is published. -/
theorem registerAll_of_checkAll {entries : List (String × FieldConfig)}
    (h : r.checkAll entries = .ok ()) : ∃ r', r.registerAll entries = .ok r' := by
  obtain ⟨x, hx, -⟩ := Except.map_eq_ok.1 h
  exact ⟨_, Except.map_eq_ok.2 ⟨x, hx, rfl⟩⟩

/-- A batch changes a schema exactly when a field of it is not there in this form. -/
theorem stage_eq_ok {tier : SchemaTier} {frozen changed : Bool} {schema schema' : Schema}
    {entries : List (String × FieldConfig)}
    (h : stage tier frozen schema entries = .ok (schema', changed)) :
    schema' = schema.insertAll entries ∧
      (changed = false ↔ ∀ f ∈ entries, schema.get? f.1 = some f.2) := by
  induction entries generalizing schema changed with
  | nil =>
    cases h
    simp [Schema.insertAll]
  | cons f fs ih =>
    obtain ⟨⟨schema₁, changed₁⟩, hentry, h⟩ := Except.bind_eq_ok.1 h
    obtain ⟨⟨schema₂, changed₂⟩, hrest, h⟩ := Except.bind_eq_ok.1 h
    cases h
    obtain ⟨rfl, hchanged⟩ := ih hrest
    unfold stageEntry at hentry
    split at hentry
    · rename_i hf
      cases hentry
      simp [Schema.insertAll_cons, Schema.insert_of_get? hf, hchanged, hf]
    · rename_i hf
      obtain ⟨_, -, hentry⟩ := Except.bind_eq_ok.1 hentry
      cases hentry
      simp [Schema.insertAll_cons, hf]

/-- A batch leaves the registry as it is when it brings nothing new, and raises the generation
otherwise. -/
theorem registerAll_eq_ok {entries : List (String × FieldConfig)}
    (h : r.registerAll entries = .ok r') :
    r'.schema = r.schema.insertAll entries ∧
      ((∀ f ∈ entries, r.schema.get? f.1 = some f.2) ∧ r' = r ∨
        (∃ f ∈ entries, r.schema.get? f.1 ≠ some f.2) ∧ r'.generation = r.generation + 1) := by
  obtain ⟨⟨schema, changed⟩, hstage, rfl⟩ := Except.map_eq_ok.1 h
  obtain ⟨rfl, hchanged⟩ := stage_eq_ok hstage
  cases changed with
  | false =>
    have hknown := hchanged.1 rfl
    exact ⟨(Schema.insertAll_of_known hknown).symm, .inl ⟨hknown, rfl⟩⟩
  | true =>
    have hnew : ∃ f ∈ entries, r.schema.get? f.1 ≠ some f.2 := by simpa using hchanged
    exact ⟨rfl, .inr ⟨hnew, rfl⟩⟩

end Registry

/-! ## Prepared documents -/

namespace FieldConfig

theorem coerceNumber_eq_error {field : String} {v : Value} {e : Error}
    (h : coerceNumber field v = .error e) : ∃ message, e = .indexing message := by
  unfold coerceNumber at h
  split at h
  · cases h
  · split at h <;> cases h
    exact ⟨_, rfl⟩
  · cases h
    exact ⟨_, rfl⟩

theorem coerceDate_eq_error {field : String} {v : Value} {e : Error}
    (h : coerceDate field v = .error e) : ∃ message, e = .indexing message := by
  unfold coerceDate at h
  split at h
  · cases h
  · split at h <;> cases h
    exact ⟨_, rfl⟩
  · cases h
    exact ⟨_, rfl⟩

theorem coerce_eq_error {c : FieldConfig} {field : String} {v : Value} {e : Error}
    (h : c.coerce field v = .error e) : ∃ message, e = .indexing message := by
  unfold coerce at h
  split at h
  · cases h
  · cases h
  · cases h
  · exact coerceNumber_eq_error (Except.map_eq_error.1 h)
  · exact coerceDate_eq_error (Except.map_eq_error.1 h)

end FieldConfig

namespace Document

theorem prepare_eq_error {d : Document} {plan : DocumentPlan} {kinds : List ValueKind}
    {backend : String} {e : Error} (h : d.prepare plan kinds backend = .error e) :
    ∃ message, e = .indexing message := by
  rw [prepare, Except.bind_eq_error] at h
  rcases h with h | ⟨_, -, h⟩
  · obtain ⟨f, -, hf⟩ := Except.mapM_eq_error h
    rcases Except.bind_eq_error.1 hf with hf | ⟨_, -, hf⟩
    · obtain ⟨v, -, hv⟩ := Except.mapM_eq_error hf
      simp only [prepareValue] at hv
      split at hv
      · exact FieldConfig.coerce_eq_error hv
      · cases hv
        exact ⟨_, rfl⟩
    · cases hf
  · cases h

end Document

end Searchlight
