import Searchlight.Client.Basic
import Searchlight.Proofs.Driver.Answers
import Searchlight.Proofs.Schema.Planning
import Searchlight.Text.Stem

/-!
# Writes that are refused

Before a document is indexed its client checks the write, plans the document, settles its values and
registers its new fields, first with the driver and then with the registry. Each of these may refuse
the write. All but one leave everything as it was, warnings apart: the driver may refuse a field
after it took others (`LateRefusal`), and then knows fields that the registry does not.
-/

namespace Searchlight

namespace Driver

theorem contains_run (id : String) (d : Driver) (h : Host) :
    (∃ b, contains id (d, h) = .ok b (d, h)) ∨
      ∃ s e, d = .sets s ∧ contains id (d, h) = .error e (d, h) := by
  cases d with
  | memory s => exact .inl ⟨_, by rw [contains, work_memory]; rfl⟩
  | limited key s => exact .inl ⟨_, by rw [contains, work_limited]; rfl⟩
  | disk s => exact .inl ⟨_, by rw [contains, work_disk]; rfl⟩
  | sets s =>
    have hc : (h.server.run (.isMember s.keys.docs id)).1 = h.server := by
      simp only [SetStore.Server.run]
      split <;> rfl
    rw [contains, work_sets, SetStore.Store.contains]
    rcases SetStore.Store.ask_reads s hc SetStore.Store.readFailure SetStore.Reply.nat? with
      ⟨n, hn⟩ | ⟨f, hf⟩
    · exact .inl ⟨n != 0, by simp [hn]⟩
    · exact .inr ⟨s, f, rfl, by simp [hf]⟩

end Driver

namespace Client

variable {α : Type} {c c' : Client} {h h' : Host} {e : Error} {target : WriteTarget}
  {doc : Document} {fields : List (String × FieldConfig)}

/-! ## Steps -/

theorem drive_run (x : DriverWork α) :
    drive x (c, h) =
      match x (c.driver, h) with
      | .ok a (d, h) => .ok a ({ c with driver := d }, h)
      | .error e (d, h) => .error e ({ c with driver := d }, h) := by
  rw [drive, Action.focus]
  cases x (c.driver, h) <;> rfl

theorem forM_drive :
    (fields.forM fun f => drive (Driver.registerField f.1 f.2)) (c, h) =
      drive (Driver.registerFields fields) (c, h) := by
  induction fields generalizing c h with
  | nil => rfl
  | cons f fields ih =>
    change (drive (Driver.registerField f.1 f.2) >>= fun _ => fields.forM _) (c, h) = _
    rw [Action.bind_run, drive_run, drive_run, Driver.registerFields_cons, Action.bind_run]
    cases Driver.registerField f.1 f.2 (c.driver, h) with
    | ok _ x => exact ih.trans (by rw [drive_run])
    | error e x => rfl

theorem ensureWritable_eq_error {operation : String} {x : Client × Host}
    (hrun : ensureWritable operation (c, h) = .error e x) :
    x = (c, h) ∧ (e = .clientClosed ∨ e = .readOnlyViolation operation) := by
  simp only [ensureWritable, ensureOpen, Action.bind_run, Action.get_run] at hrun
  cases hclosed : c.closed <;> cases hreadonly : c.readonly <;> simp [hclosed, hreadonly] at hrun
  all_goals simp [← hrun]

theorem ensureWritable_eq_ok {operation : String} {x : Client × Host}
    (hrun : ensureWritable operation (c, h) = .ok () x) :
    x = (c, h) ∧ c.closed = false ∧ c.readonly = false := by
  simp only [ensureWritable, ensureOpen, Action.bind_run, Action.get_run] at hrun
  cases hclosed : c.closed <;> cases hreadonly : c.readonly <;> simp [hclosed, hreadonly] at hrun
  simp [← hrun]

/-- New fields are checked, taken by the driver and published, in this order. -/
theorem registerNew_run :
    registerNew fields (c, h) =
      if fields.isEmpty then .ok () (c, h)
      else
        match c.registry.checkAll fields with
        | .error e => .error e (c, h)
        | .ok _ =>
          match Driver.registerFields fields (c.driver, h) with
          | .error e x => .error e ({ c with driver := x.1 }, x.2)
          | .ok _ x =>
            match c.registry.registerAll fields with
            | .error e => .error e ({ c with driver := x.1 }, x.2)
            | .ok registry => .ok () ({ c with driver := x.1, registry }, x.2) := by
  simp only [registerNew, Action.bind_run, Action.get_run, Action.ite_run]
  split
  · rfl
  · cases c.registry.checkAll fields with
    | error e => rfl
    | ok _ =>
      simp only [Action.ofExcept, Action.pure_run]
      rw [forM_drive, drive_run]
      cases Driver.registerFields fields (c.driver, h) with
      | error e x => rfl
      | ok _ x =>
        simp only
        cases c.registry.registerAll fields <;> rfl

theorem registerNew_eq_ok (hrun : registerNew fields (c, h) = .ok () (c', h')) :
    ∃ d r, c' = { c with driver := d, registry := r } ∧
      Driver.registerFields fields (c.driver, h) = .ok () (d, h') ∧
      c.registry.registerAll fields = .ok r := by
  rw [registerNew_run] at hrun
  split at hrun
  · rename_i hempty
    obtain rfl := List.isEmpty_iff.1 hempty
    cases hrun
    exact ⟨c.driver, c.registry, rfl, rfl, rfl⟩
  split at hrun
  · cases hrun
  split at hrun
  · cases hrun
  rename_i x hregister
  split at hrun
  · cases hrun
  rename_i r hr
  cases hrun
  exact ⟨x.1, r, rfl, hregister, hr⟩

/-- To register a field is to register a batch of one. -/
theorem registerField_eq (name : String) (config : FieldConfig) :
    registerField name config =
      (ensureWritable "register_field" >>= fun _ => registerNew [(name, config)]) := by
  simp [registerField, registerNew]

theorem registerField_eq_ok {name : String} {config : FieldConfig} {x : Client × Host}
    (hrun : registerField name config (c, h) = .ok () x) :
    registerNew [(name, config)] (c, h) = .ok () x := by
  rw [registerField_eq] at hrun
  obtain ⟨_, y, hwritable, hrun⟩ := Action.bind_eq_ok.1 hrun
  obtain ⟨rfl, -, -⟩ := ensureWritable_eq_ok hwritable
  exact hrun

theorem ensureVacant_run (target : WriteTarget) (c : Client) (h : Host) :
    ensureVacant target (c, h) = .ok () (c, h) ∨
      ∃ e, ensureVacant target (c, h) = .error e (c, h) ∧
        ((∃ id, e = .documentExists id) ∨ ∃ s, c.driver = .sets s) := by
  unfold ensureVacant
  split
  · exact .inl rfl
  · exact .inl rfl
  · rename_i id
    simp only [Action.bind_run, drive_run]
    rcases Driver.contains_run id c.driver h with ⟨b, hb⟩ | ⟨s, e, hs, he⟩
    · rw [hb]
      cases b
      · exact .inl rfl
      · exact .inr ⟨_, rfl, .inl ⟨id, rfl⟩⟩
    · rw [he]
      exact .inr ⟨e, rfl, .inr ⟨s, hs⟩⟩

theorem ensureVacant_eq_ok {target : WriteTarget} {x : Client × Host}
    (hrun : ensureVacant target (c, h) = .ok () x) : x = (c, h) := by
  rcases ensureVacant_run target c h with hok | ⟨_, herr, -⟩
  · rw [hok] at hrun
    cases hrun
    rfl
  · rw [herr] at hrun
    cases hrun

/-! ## Refusals -/

/-- The driver refuses a field of the document after it took others. -/
def LateRefusal (c : Client) (doc : Document) (e : Error) : Prop :=
  ∃ plan, c.registry.plan doc c.policy = .ok plan ∧ c.driver.LateRefusal plan.newFields e

theorem not_lateRefusal (he : ∀ name, e ≠ .schemaConflict name "field name is reserved") :
    ¬c.LateRefusal doc e :=
  fun ⟨_, _, _, _, name, _, _, _, _, h, _⟩ => he name h

/-- The driver that a refused write leaves: the one it was, or after a late refusal a store without
an index whose schema has other fields, none of them fields of the registry. -/
def Leaves (c : Client) (doc : Document) (e : Error) (d : Driver) : Prop :=
  ¬c.LateRefusal doc e ∧ d = c.driver ∨
    c.LateRefusal doc e ∧ ∃ s m, c.driver = .disk s ∧ s.live = none ∧
      d = .disk { s with fields := m } ∧ m.schema ≠ s.fields.schema ∧
      ∀ name, c.registry.schema.get? name ≠ none →
        m.schema.get? name = s.fields.schema.get? name

/-- A write that is prepared was planned and its values were settled, and its new fields were
registered. -/
theorem prepareWrite_eq_ok {plan : DocumentPlan} {prepared : PreparedDocument}
    (hrun : prepareWrite target doc (c, h) = .ok (plan, prepared) (c', h')) :
    c.closed = false ∧ c.readonly = false ∧ c.registry.plan doc c.policy = .ok plan ∧
      doc.prepare plan c.driver.capabilities.valueKinds c.driver.name = .ok prepared ∧
      ∃ ws, registerNew plan.newFields (c, { h with warnings := ws }) = .ok () (c', h') := by
  rw [prepareWrite, Action.bind_eq_ok] at hrun
  obtain ⟨_, t, hwritable, hrun⟩ := hrun
  obtain ⟨rfl, hclosed, hreadonly⟩ := ensureWritable_eq_ok hwritable
  refine ⟨hclosed, hreadonly, ?_⟩
  rw [Action.bind_eq_ok] at hrun
  obtain ⟨_, t, hvacant, hrun⟩ := hrun
  obtain rfl := ensureVacant_eq_ok hvacant
  simp only [Action.bind_eq_ok, Action.get_bind, Action.ofExcept_eq_ok] at hrun
  obtain ⟨plan', _, ⟨hplan, rfl⟩, _, _, hwarn, prepared', _, ⟨hprepared, rfl⟩, _, _, hnew, hrun⟩ :=
    hrun
  cases hwarn
  cases hrun
  exact ⟨hplan, hprepared, _, hnew⟩

/-- **What a write does to the driver**: the new fields of the document are registered, and the
settled document is indexed. -/
theorem write_eq_ok {id : String} (hwrite : write target doc (c, h) = .ok id (c', h')) :
    c.closed = false ∧ c'.closed = false ∧ ∃ plan prepared ws x,
      c.registry.plan doc c.policy = .ok plan ∧
      doc.prepare plan c.driver.capabilities.valueKinds c.driver.name = .ok prepared ∧
      Driver.registerFields plan.newFields (c.driver, { h with warnings := ws }) = .ok () x ∧
      Driver.index prepared target.id? x = .ok id (c'.driver, h') := by
  obtain ⟨⟨plan, prepared⟩, ⟨c₁, h₁⟩, hprepare, hplace⟩ := Action.bind_eq_ok.1 hwrite
  obtain ⟨hopen, -, hplan, hsettled, ws, hnew⟩ := prepareWrite_eq_ok hprepare
  obtain ⟨d, r, rfl, hregister, -⟩ := registerNew_eq_ok hnew
  obtain ⟨id', ⟨c₂, h₂⟩, hindex, hplace⟩ := Action.bind_eq_ok.1 hplace
  cases hplace
  rw [drive_run] at hindex
  cases hr : Driver.index prepared target.id? (d, h₁) with
  | error e x => simp [hr] at hindex
  | ok a x =>
    simp only [hr] at hindex
    cases hindex
    exact ⟨hopen, hopen, plan, prepared, ws, _, hplan, hsettled, hregister, hr⟩

/-- New fields are refused for the tier of the registry, or by the driver. -/
theorem registerNew_eq_error (hfields : (fields.map (·.1)).Nodup)
    (hrun : registerNew fields (c, h) = .error e (c', h')) :
    ∃ d, c' = { c with driver := d } ∧ h' = h ∧ c.driver.Leaves fields e d := by
  rw [registerNew_run] at hrun
  split at hrun
  · cases hrun
  split at hrun
  · rename_i e' hcheck
    cases hrun
    refine ⟨c.driver, rfl, rfl, .inl ⟨?_, rfl⟩⟩
    rintro ⟨_, _, name, _, _, _, _, rfl, _⟩
    exact Registry.checkAll_eq_error hcheck name rfl
  · rename_i hcheck
    split at hrun
    · rename_i e' x hregister
      cases hrun
      obtain ⟨hx, hd⟩ := Driver.registerFields_eq_error hfields hregister
      exact ⟨x.1, rfl, hx, hd⟩
    · obtain ⟨r, hr⟩ := Registry.registerAll_of_checkAll hcheck
      rw [hr] at hrun
      cases hrun

theorem leaves_of_plan {plan : DocumentPlan} {d : Driver}
    (hplan : c.registry.plan doc c.policy = .ok plan)
    (hd : c.driver.Leaves plan.newFields e d) : c.Leaves doc e d := by
  have hlate : c.LateRefusal doc e ↔ c.driver.LateRefusal plan.newFields e := by
    constructor
    · rintro ⟨plan', hplan', h⟩
      rw [hplan] at hplan'
      cases hplan'
      exact h
    · exact fun h => ⟨plan, hplan, h⟩
  rcases hd with ⟨h, hd⟩ | ⟨h, s, m, hs, hlive, hd, hm, hother⟩
  · exact .inl ⟨hlate.not.2 h, hd⟩
  · refine .inr ⟨hlate.2 h, s, m, hs, hlive, hd, hm, fun name hname => hother name fun hmem => ?_⟩
    obtain ⟨f, hf, rfl⟩ := List.mem_map.1 hmem
    exact hname (Registry.plan_unknown hplan hf)

theorem ensureVacant_eq_error {x : Client × Host} (hrun : ensureVacant target (c, h) = .error e x) :
    x = (c, h) ∧ ¬c.LateRefusal doc e := by
  rcases ensureVacant_run target c h with hok | ⟨e', herr, hreason⟩
  · rw [hok] at hrun
    cases hrun
  · rw [herr] at hrun
    cases hrun
    refine ⟨rfl, ?_⟩
    rcases hreason with ⟨id, rfl⟩ | ⟨s, hs⟩
    · exact not_lateRefusal (by simp)
    · rintro ⟨plan, -, s', _, _, _, _, hs', -⟩
      rw [hs] at hs'
      cases hs'

/-- **What a refused write leaves.** The client is the same but for its driver, the host is the same
but for its warnings, and only a late refusal makes the driver another one. -/
theorem prepareWrite_eq_error (hrun : prepareWrite target doc (c, h) = .error e (c', h')) :
    ∃ d ws, c' = { c with driver := d } ∧ h' = { h with warnings := ws } ∧ c.Leaves doc e d := by
  have unchanged (ws : List String) (hlate : ¬c.LateRefusal doc e)
      (hx : (c', h') = (c, { h with warnings := ws })) :
      ∃ d ws, c' = { c with driver := d } ∧ h' = { h with warnings := ws } ∧ c.Leaves doc e d := by
    cases hx
    exact ⟨c.driver, ws, rfl, rfl, .inl ⟨hlate, rfl⟩⟩
  -- The steps in their order: each has failed, or has passed and changed at most the warnings.
  rw [prepareWrite, Action.bind_eq_error] at hrun
  rcases hrun with hrun | ⟨_, x, hwritable, hrun⟩
  · obtain ⟨hx, rfl | rfl⟩ := ensureWritable_eq_error hrun
    · exact unchanged h.warnings (not_lateRefusal (by simp)) hx
    · exact unchanged h.warnings (not_lateRefusal (by simp)) hx
  obtain ⟨rfl, -, -⟩ := ensureWritable_eq_ok hwritable
  rw [Action.bind_eq_error] at hrun
  rcases hrun with hrun | ⟨_, x, hvacant, hrun⟩
  · obtain ⟨hx, hlate⟩ := ensureVacant_eq_error hrun
    exact unchanged h.warnings hlate hx
  obtain rfl := ensureVacant_eq_ok hvacant
  rw [Action.get_bind, Action.bind_eq_error] at hrun
  rcases hrun with hrun | ⟨plan, x, hplan, hrun⟩
  · obtain ⟨hplan, hx⟩ := Action.ofExcept_eq_error.1 hrun
    obtain ⟨name, rfl⟩ := Registry.plan_eq_error hplan
    exact unchanged h.warnings (not_lateRefusal (by simp)) hx
  obtain ⟨hplan', rfl⟩ := Action.ofExcept_eq_ok.1 hplan
  rw [Action.bind_eq_error] at hrun
  rcases hrun with hrun | ⟨_, x, hwarn, hrun⟩
  · cases hrun
  obtain ⟨ws, rfl⟩ : ∃ ws, x = (c, { h with warnings := ws }) := by
    cases hwarn
    exact ⟨_, rfl⟩
  rw [Action.bind_eq_error] at hrun
  rcases hrun with hrun | ⟨prepared, x, hprepared, hrun⟩
  · obtain ⟨hprepare, hx⟩ := Action.ofExcept_eq_error.1 hrun
    obtain ⟨message, rfl⟩ := Document.prepare_eq_error hprepare
    exact unchanged ws (not_lateRefusal fun _ h => nomatch h) hx
  obtain ⟨-, rfl⟩ := Action.ofExcept_eq_ok.1 hprepared
  rw [Action.bind_eq_error] at hrun
  rcases hrun with hrun | ⟨_, _, -, hrun⟩
  swap
  · cases hrun
  obtain ⟨d, hc, hh, hd⟩ := registerNew_eq_error (Registry.plan_nodup hplan') hrun
  exact ⟨d, ws, hc, hh, leaves_of_plan hplan' hd⟩

/-- The documents after a refusal are those before it, and the schema of the driver is the one
before it unless the refusal came late. -/
theorem Leaves.driver {d : Driver} (hd : c.Leaves doc e d) (h : Host) (ws : List String) :
    Driver.SameDocuments (d, { h with warnings := ws }) (c.driver, h) ∧
      (Driver.schemaSnapshot.outcome (d, { h with warnings := ws }) =
          Driver.schemaSnapshot.outcome (c.driver, h) ↔ ¬c.LateRefusal doc e) := by
  rcases hd with ⟨hlate, rfl⟩ | ⟨hlate, s, m, hs, hlive, rfl, hm, -⟩
  · exact ⟨Driver.sameDocuments_warnings, iff_of_true Driver.outcome_work_warnings hlate⟩
  · refine ⟨?_, iff_of_false ?_ (not_not_intro hlate)⟩
    · rw [hs]
      exact Driver.sameDocuments_warnings.trans (Driver.sameDocuments_fields hlive)
    · rw [hs, Driver.schemaSnapshot, Driver.outcome_disk, Driver.outcome_disk]
      exact fun h => hm (Except.ok.inj h)

/-- **A refused write.** When a write fails before anything is indexed, registry, counter and
documents are as they were. The schema of the driver is as well, unless an index that is not made
yet refused a reserved name after it took other fields of the document. -/
theorem refused_write_keeps (hrun : prepareWrite target doc (c, h) = .error e (c', h')) :
    write target doc (c, h) = .error e (c', h') ∧
      c'.registry = c.registry ∧ c'.ignored = c.ignored ∧
      Driver.SameDocuments (c'.driver, h') (c.driver, h) ∧
      (Driver.schemaSnapshot.outcome (c'.driver, h') =
          Driver.schemaSnapshot.outcome (c.driver, h) ↔ ¬c.LateRefusal doc e) := by
  obtain ⟨d, ws, rfl, rfl, hd⟩ := prepareWrite_eq_error hrun
  obtain ⟨hdocuments, hschema⟩ := hd.driver h ws
  exact ⟨by rw [write, Action.bind_run, hrun], rfl, rfl, hdocuments, hschema⟩

def onEmptyDirectory (path : String) : Client where
  driver := .disk
    ⟨path, false, Disk.defaultWriterMemory, Text.stems, .build .empty, none, ∅, ∅, false, some 0⟩
  registry := .new .fixed .empty false .freeText
  policy := .guess
  pageSize := ClientConfig.defaultPageSize
  readonly := false
  closed := false
  ignored := 0
  cache := .empty
  lease := some path

/-- A document with a title and a field of a reserved name is refused late: the driver knows the
title from then on, the registry does not. -/
theorem refused_write_keeps_title :
    ∃ e c' h',
      write .fresh ⟨[("title", .text "x"), ("_id", .text "y")]⟩
          (onEmptyDirectory "d", .initial Text.stems ["d"] (.fresh true) "") = .error e (c', h') ∧
        c'.registry.schema = .empty ∧
        Driver.schemaSnapshot.outcome (c'.driver, h') ≠
          Driver.schemaSnapshot.outcome
            ((onEmptyDirectory "d").driver, .initial Text.stems ["d"] (.fresh true) "") := by
  have hrun : prepareWrite .fresh ⟨[("title", .text "x"), ("_id", .text "y")]⟩
      (onEmptyDirectory "d", .initial Text.stems ["d"] (.fresh true) "") =
        .error (.schemaConflict "_id" "field name is reserved") _ := rfl
  obtain ⟨hwrite, hregistry, -, -, hschema⟩ := refused_write_keeps hrun
  refine ⟨_, _, _, hwrite, congrArg _ hregistry, fun hsame => hschema.1 hsame ?_⟩
  exact ⟨_, rfl, _, [("title", .freeText)], "_id", .freeText, [], rfl, rfl, rfl,
    ("title", .freeText), List.mem_singleton_self _, nofun⟩

end Client

end Searchlight
