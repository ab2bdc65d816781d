import Searchlight.Driver.Basic
import Searchlight.Proofs.Action
import Searchlight.Proofs.Schema.Fields
import Searchlight.Proofs.SetStore.Keys

/-!
# Registering fields with a driver

A driver takes the fields of a document one by one. An in-memory store takes all of them, and a
store on a key server that takes the first takes the others. A store on disk refuses a reserved name
wherever it stands, and the fields before it stay: that is the one way in which a batch may fail
and leave something behind (`registerFields_eq_error`).
-/

namespace Searchlight

/-! ## One field -/

namespace SetStore.Store

/-- The server answers and does not fail. -/
def Serves (s : Store) (v : Server) : Prop := v.answers s.timeoutMs = true ∧ v.mode ≠ .failing

theorem exchange_run {α : Type} {timeoutMs : Nat} {e : String → Error} {x : Server → Server × α}
    {v : Server} :
    exchange timeoutMs e x v =
      if v.answers timeoutMs then
        if v.mode = .failing then .error (e "the server fails") v else .ok (x v).2 (x v).1
      else .error (.driverTimeout backendName timeoutMs) v := by
  rw [exchange, await]
  by_cases ha : v.answers timeoutMs = true
  · by_cases hm : v.mode = .failing <;> simp [ha, hm]
  · simp [ha]

theorem ask_of_serves {α : Type} {s : Store} {v : Server} (h : s.Serves v) {e : String → Error}
    {c : Command} {decode : Reply → Option α} :
    ask e c decode (s, v) =
      match accept e decode (v.run c).2 with
      | .ok a => .ok a (s, (v.run c).1)
      | .error e => .error e (s, (v.run c).1) := by
  simp only [ask, Action.get_run, Action.bind_run, Action.second, Action.focus, exchange_run,
    if_pos h.1, if_neg h.2]
  cases accept e decode (v.run c).2 <;> rfl

theorem ask_of_not_serves {α : Type} {s : Store} {v : Server} (h : ¬s.Serves v)
    (e : String → Error) (c : Command) (decode : Reply → Option α) :
    ∃ f, ask e c decode (s, v) = .error f (s, v) := by
  simp only [ask, Action.get_run, Action.bind_run, Action.second, Action.focus, exchange_run]
  by_cases ha : v.answers s.timeoutMs = true
  · have hm : v.mode = .failing := by simpa [Serves, ha] using h
    exact ⟨_, by rw [if_pos ha, if_pos hm]⟩
  · exact ⟨_, by rw [if_neg ha]⟩

theorem ask_reads {α : Type} (s : Store) {v : Server} {c : Command} (hc : (v.run c).1 = v)
    (e : String → Error) (decode : Reply → Option α) :
    (∃ a, ask e c decode (s, v) = .ok a (s, v)) ∨ ∃ f, ask e c decode (s, v) = .error f (s, v) := by
  by_cases h : s.Serves v
  · rw [ask_of_serves h, hc]
    cases accept e decode (v.run c).2 with
    | ok a => exact .inl ⟨a, rfl⟩
    | error f => exact .inr ⟨f, rfl⟩
  · exact .inr (ask_of_not_serves h e c decode)

def TakesFields (s : Store) (v : Server) : Prop :=
  s.readonly = false ∧ s.Serves v ∧ (v.hash? s.keys.schema).isSome = true

variable {s : Store} {v : Server} (name : String) (config : FieldConfig)

theorem registerField_run :
    registerField name config (s, v) =
      if s.readonly then .error (.readOnlyViolation "register_field") (s, v)
      else
        match ask writeFailure (.hashPut s.keys.schema [(name, config.toJson.write)])
          (fun _ => some ()) (s, v) with
        | .ok _ x => .ok () ({ x.1 with schema := x.1.schema.insert name config }, x.2)
        | .error e x => .error e x := by
  cases h : s.readonly
  · simp [registerField, ensureWritable, h]
    cases ask writeFailure (.hashPut s.keys.schema [(name, config.toJson.write)]) (fun _ => some ())
      (s, v) <;> rfl
  · simp [registerField, ensureWritable, h]

theorem registerField_of_takesFields (h : s.TakesFields v) :
    ∃ v', registerField name config (s, v) =
        .ok () ({ s with schema := s.schema.insert name config }, v') ∧
      TakesFields { s with schema := s.schema.insert name config } v' := by
  obtain ⟨hreadonly, hserves, hhash⟩ := h
  obtain ⟨m, hm⟩ := Option.isSome_iff_exists.1 hhash
  refine ⟨{ v with
    keys := v.keys.insert s.keys.schema (.hash (m.insert name config.toJson.write)) }, ?_,
    hreadonly, hserves, ?_⟩
  · rw [registerField_run, ask_of_serves hserves]
    simp [hreadonly, Server.run, hm, accept]
  · simp [Server.hash?]

theorem registerField_of_not_takesFields (h : ¬s.TakesFields v) :
    ∃ e, registerField name config (s, v) = .error e (s, v) := by
  rw [registerField_run]
  cases hreadonly : s.readonly with
  | true => exact ⟨_, rfl⟩
  | false =>
    by_cases hserves : s.Serves v
    · have hhash : v.hash? s.keys.schema = none := by
        simpa [TakesFields, hreadonly, hserves] using h
      rw [ask_of_serves hserves]
      simp [Server.run, hhash, accept, Server.wrongType]
    · obtain ⟨f, hf⟩ := ask_of_not_serves hserves writeFailure
        (.hashPut s.keys.schema [(name, config.toJson.write)]) fun _ => some ()
      rw [hf]
      exact ⟨f, rfl⟩

end SetStore.Store

namespace Disk.Store

variable {s s' : Store} {name : String} {config : FieldConfig} {e : Error}

theorem registerField_eq_ok (h : s.registerField name config = .ok s') :
    s.fields.schema.get? name = some config ∧ s' = s ∨
      s.fields.schema.get? name ≠ some config ∧ s.live = none ∧
        s' = { s with fields := .build (s.fields.schema.insert name config) } := by
  simp only [registerField] at h
  split at h
  · cases h
  · split at h
    · rename_i hknown
      cases h
      exact .inl ⟨hknown, rfl⟩
    · rename_i hknown
      split at h
      · cases h
      · rename_i hlive
        cases h
        exact .inr ⟨hknown, by simpa using hlive, rfl⟩

theorem registerField_eq_error (h : s.registerField name config = .error e) :
    e = .schemaConflict name "field name is reserved" ∨
      s.live.isSome = true ∧ e = .schemaConflict name "schema is fixed once the index exists" := by
  simp only [registerField] at h
  split at h
  · cases h
    exact .inl rfl
  · split at h
    · cases h
    · split at h
      · rename_i hlive
        cases h
        exact .inr ⟨hlive, rfl⟩
      · cases h

end Disk.Store

namespace Driver

variable {name : String} {config : FieldConfig} {h h' : Host} {e : Error}
  {fields : List (String × FieldConfig)}

section
variable {α : Type} {memory : Action Memory.Store α} {sets : SetStore.Work α} {disk : Disk.Work α}

theorem work_memory {s : Memory.Store} :
    work memory sets disk (.memory s, h) =
      match memory s with
      | .ok a s => .ok a (.memory s, h)
      | .error e s => .error e (.memory s, h) := by
  simp only [work, Action.get_bind, Action.focus]
  cases memory s <;> rfl

theorem work_limited {key : String} {s : Memory.Store} :
    work memory sets disk (.limited key s, h) =
      match memory s with
      | .ok a s => .ok a (.limited key s, h)
      | .error e s => .error e (.limited key s, h) := by
  simp only [work, Action.get_bind, Action.focus]
  cases memory s <;> rfl

theorem work_sets {s : SetStore.Store} :
    work memory sets disk (.sets s, h) =
      match sets (s, h.server) with
      | .ok a x => .ok a (.sets x.1, { h with server := x.2 })
      | .error e x => .error e (.sets x.1, { h with server := x.2 }) := by
  simp only [work, Action.get_bind, Action.focus]
  cases sets (s, h.server) <;> rfl

theorem work_disk {s : Disk.Store} :
    work memory sets disk (.disk s, h) =
      match disk (s, h.volume) with
      | .ok a x => .ok a (.disk x.1, { h with volume := x.2 })
      | .error e x => .error e (.disk x.1, { h with volume := x.2 }) := by
  simp only [work, Action.get_bind, Action.focus]
  cases disk (s, h.volume) <;> rfl

end

theorem registerField_disk {s : Disk.Store} :
    registerField name config (.disk s, h) =
      match s.registerField name config with
      | .ok s => .ok () (.disk s, h)
      | .error e => .error e (.disk s, h) := by
  rw [registerField, work_disk]
  simp only [Action.bind_run, Action.get_run]
  cases s.registerField name config <;> rfl

/-- The fields that a driver translates queries with. -/
def schema : Driver → Schema
  | memory s => s.schema
  | limited _ s => s.schema
  | sets s => s.schema
  | disk s => s.fields.schema

/-- Whether a store on disk is open for reading only; nothing for other stores. -/
def diskReadonly? : Driver → Option Bool
  | disk s => some s.readonly
  | _ => none

theorem registerField_eq_ok {d d' : Driver}
    (hrun : registerField name config (d, h) = .ok () (d', h')) :
    d'.schema = d.schema.insert name config ∧ (d.schema.get? name = some config → d' = d) ∧
      d'.diskReadonly? = d.diskReadonly? := by
  cases d with
  | memory s =>
    rw [registerField, work_memory] at hrun
    cases hrun
    refine ⟨rfl, fun hknown => ?_, rfl⟩
    have hschema : s.schema.insert name config = s.schema := Schema.insert_of_get? hknown
    simp only [Memory.Store.registerField, hschema]
  | limited key s =>
    rw [registerField, work_limited] at hrun
    cases hrun
    refine ⟨rfl, fun hknown => ?_, rfl⟩
    have hschema : s.schema.insert name config = s.schema := Schema.insert_of_get? hknown
    simp only [Memory.Store.registerField, hschema]
  | sets s =>
    by_cases hs : s.TakesFields h.server
    · obtain ⟨v, hv, -⟩ := SetStore.Store.registerField_of_takesFields name config hs
      rw [registerField, work_sets, hv] at hrun
      cases hrun
      refine ⟨rfl, fun hknown => ?_, rfl⟩
      have hschema : s.schema.insert name config = s.schema := Schema.insert_of_get? hknown
      simp only [hschema]
    · obtain ⟨e, he⟩ := SetStore.Store.registerField_of_not_takesFields name config hs
      rw [registerField, work_sets, he] at hrun
      cases hrun
  | disk s =>
    rw [registerField_disk] at hrun
    cases hs : s.registerField name config with
    | error e =>
      rw [hs] at hrun
      cases hrun
    | ok s' =>
      rw [hs] at hrun
      cases hrun
      rcases Disk.Store.registerField_eq_ok hs with ⟨hknown, rfl⟩ | ⟨hnew, -, rfl⟩
      · exact ⟨(Schema.insert_of_get? hknown).symm, fun _ => rfl, rfl⟩
      · exact ⟨rfl, fun hknown => absurd hknown hnew, rfl⟩

/-! ## Several fields -/

def registerFields (fields : List (String × FieldConfig)) : DriverWork Unit :=
  fields.forM fun f => registerField f.1 f.2

theorem registerFields_cons (f : String × FieldConfig) (fields : List (String × FieldConfig)) :
    registerFields (f :: fields) = registerField f.1 f.2 >>= fun _ => registerFields fields := rfl

theorem registerFields_eq_ok {d d' : Driver}
    (hrun : registerFields fields (d, h) = .ok () (d', h')) :
    d'.schema = d.schema.insertAll fields ∧
      ((∀ f ∈ fields, d.schema.get? f.1 = some f.2) → d' = d) ∧
      d'.diskReadonly? = d.diskReadonly? := by
  induction fields generalizing d h with
  | nil =>
    cases hrun
    exact ⟨rfl, fun _ => rfl, rfl⟩
  | cons f fields ih =>
    obtain ⟨_, ⟨d₁, h₁⟩, hf, hrun⟩ := Action.bind_eq_ok.1 hrun
    obtain ⟨hschema₁, hknown₁, hreadonly₁⟩ := registerField_eq_ok hf
    obtain ⟨hschema, hknown, hreadonly⟩ := ih hrun
    refine ⟨by rw [hschema, hschema₁]; rfl, fun h => ?_, hreadonly.trans hreadonly₁⟩
    obtain rfl := hknown₁ (h f List.mem_cons_self)
    exact hknown fun g hg => h g (List.mem_cons_of_mem _ hg)

/-- An in-memory store takes all fields. -/
theorem registerFields_memory (fields : List (String × FieldConfig)) (h : Host)
    (s : Memory.Store) :
    ∃ s', registerFields fields (.memory s, h) = .ok () (.memory s', h) := by
  induction fields generalizing s with
  | nil => exact ⟨s, rfl⟩
  | cons f fields ih => exact ih (s.registerField f.1 f.2)

theorem registerFields_limited (fields : List (String × FieldConfig)) (h : Host) (key : String)
    (s : Memory.Store) :
    ∃ s', registerFields fields (.limited key s, h) = .ok () (.limited key s', h) := by
  induction fields generalizing s with
  | nil => exact ⟨s, rfl⟩
  | cons f fields ih => exact ih (s.registerField f.1 f.2)

theorem registerFields_sets (fields : List (String × FieldConfig)) {s : SetStore.Store}
    (hs : s.TakesFields h.server) :
    ∃ s' h', registerFields fields (.sets s, h) = .ok () (.sets s', h') := by
  induction fields generalizing s h with
  | nil => exact ⟨s, h, rfl⟩
  | cons f fields ih =>
    obtain ⟨v, hrun, hs'⟩ := SetStore.Store.registerField_of_takesFields f.1 f.2 hs
    obtain ⟨s', h', hrest⟩ := ih (h := { h with server := v }) hs'
    refine ⟨s', h', ?_⟩
    rw [registerFields_cons, Action.bind_run, registerField, work_sets, hrun]
    exact hrest

theorem registerFields_disk_eq_ok {s : Disk.Store} {x : Driver × Host}
    (hrun : registerFields fields (.disk s, h) = .ok () x) :
    ∃ m : Disk.FieldMap, x = (.disk { s with fields := m }, h) ∧
      m.schema = s.fields.schema.insertAll fields ∧ (m = s.fields ∨ s.live = none) ∧
      ((∀ f ∈ fields, s.fields.schema.get? f.1 = some f.2) → m = s.fields) := by
  induction fields generalizing s with
  | nil =>
    cases hrun
    exact ⟨s.fields, rfl, rfl, .inl rfl, fun _ => rfl⟩
  | cons f fields ih =>
    rw [registerFields_cons, Action.bind_eq_ok] at hrun
    obtain ⟨_, t, hf, hrun⟩ := hrun
    rw [registerField_disk] at hf
    cases hs : s.registerField f.1 f.2 with
    | error e =>
      rw [hs] at hf
      cases hf
    | ok s' =>
      rw [hs] at hf
      cases hf
      obtain ⟨m, rfl, hschema, hm, hknown⟩ := ih hrun
      rcases Disk.Store.registerField_eq_ok hs with ⟨hget, rfl⟩ | ⟨hget, hlive, rfl⟩
      · refine ⟨m, rfl, ?_, hm, fun h => hknown fun g hg => h g (List.mem_cons_of_mem _ hg)⟩
        rw [hschema, Schema.insertAll_cons, Schema.insert_of_get? hget]
      · exact ⟨m, rfl, hschema, .inr hlive, fun h => absurd (h f List.mem_cons_self) hget⟩

/-- An index refuses a field of a batch for its name, after it took others that it did not have. -/
def LateRefusal (d : Driver) (fields : List (String × FieldConfig)) (e : Error) : Prop :=
  ∃ s done name config rest, d = .disk s ∧ fields = done ++ (name, config) :: rest ∧
    e = .schemaConflict name "field name is reserved" ∧
    ∃ f ∈ done, s.fields.schema.get? f.1 ≠ some f.2

theorem prefix_unique {done done' rest rest' : List (String × FieldConfig)} {c c' : FieldConfig}
    (hfields : ((done ++ (name, c) :: rest).map (·.1)).Nodup)
    (heq : done ++ (name, c) :: rest = done' ++ (name, c') :: rest') : done = done' := by
  have hdone : name ∉ done.map (·.1) := by
    simp [List.nodup_append] at hfields
    grind
  have hdone' : name ∉ done'.map (·.1) := by
    rw [heq] at hfields
    simp [List.nodup_append] at hfields
    grind
  have hnames := congrArg (List.map (·.1)) heq
  simp only [List.map_append, List.map_cons] at hnames
  have hlength := congrArg List.length (Text.append_cons_inj hdone hdone' hnames).1
  simp only [List.length_map] at hlength
  exact (List.append_inj heq hlength).1

/-- The driver that a failed batch leaves: the one it was, or after a late refusal a store without
an index whose schema has other fields of the batch. -/
def Leaves (d : Driver) (fields : List (String × FieldConfig)) (e : Error) (d' : Driver) : Prop :=
  ¬LateRefusal d fields e ∧ d' = d ∨
    LateRefusal d fields e ∧ ∃ s m, d = .disk s ∧ s.live = none ∧
      d' = .disk { s with fields := m } ∧ m.schema ≠ s.fields.schema ∧
      ∀ name ∉ fields.map (·.1), m.schema.get? name = s.fields.schema.get? name

/-- A store on a key server refuses a batch with its first field. -/
theorem registerFields_sets_eq_error {s : SetStore.Store} {x : Driver × Host}
    (hrun : registerFields fields (.sets s, h) = .error e x) : x = (.sets s, h) := by
  by_cases hs : s.TakesFields h.server
  · obtain ⟨s', h', hs'⟩ := registerFields_sets fields hs
    rw [hs'] at hrun
    cases hrun
  · cases fields with
    | nil => cases hrun
    | cons f fields =>
      obtain ⟨e', hf⟩ := SetStore.Store.registerField_of_not_takesFields f.1 f.2 hs
      rw [registerFields_cons, Action.bind_run, registerField, work_sets, hf] at hrun
      cases hrun
      rfl

/-- A store on disk refuses one field of a batch after it took those before it. -/
theorem registerFields_disk_eq_error {s : Disk.Store} {x : Driver × Host}
    (hrun : registerFields fields (.disk s, h) = .error e x) :
    ∃ done name config rest m, fields = done ++ (name, config) :: rest ∧
      registerFields done (.disk s, h) = .ok () (.disk { s with fields := m }, h) ∧
      Disk.Store.registerField { s with fields := m } name config = .error e ∧
      x = (.disk { s with fields := m }, h) := by
  obtain ⟨done, ⟨name, config⟩, rest, t, rfl, hdone, hf⟩ := Action.forM_eq_error.1 hrun
  obtain ⟨m, rfl, -⟩ := registerFields_disk_eq_ok hdone
  refine ⟨done, name, config, rest, m, rfl, hdone, ?_⟩
  rw [registerField_disk] at hf
  cases hs : Disk.Store.registerField { s with fields := m } name config with
  | ok s' =>
    rw [hs] at hf
    cases hf
  | error e' =>
    rw [hs] at hf
    cases hf
    exact ⟨rfl, rfl⟩

/-- What a store on disk is left with depends on the fields before the refused one: if it had all of
them it is as it was, and otherwise it has no index and the name was refused. -/
theorem leaves_disk {s : Disk.Store} {done rest : List (String × FieldConfig)} {m : Disk.FieldMap}
    (hfields : ((done ++ (name, config) :: rest).map (·.1)).Nodup)
    (hdone : registerFields done (.disk s, h) = .ok () (.disk { s with fields := m }, h))
    (hs : Disk.Store.registerField { s with fields := m } name config = .error e) :
    (disk s).Leaves (done ++ (name, config) :: rest) e (.disk { s with fields := m }) := by
  obtain ⟨m', hm', hschema, hm, hknown⟩ := registerFields_disk_eq_ok hdone
  obtain rfl : m = m' := by
    cases hm'
    rfl
  have hdoneNames : (done.map (·.1)).Nodup := by
    rw [List.map_append] at hfields
    exact (List.nodup_append.1 hfields).1
  by_cases hall : ∀ f ∈ done, s.fields.schema.get? f.1 = some f.2
  · refine .inl ⟨?_, by rw [hknown hall]⟩
    rintro ⟨s₁, done', name', config', rest', hs₁, heq, he, f, hf, hget⟩
    cases hs₁
    rcases Disk.Store.registerField_eq_error hs with rfl | ⟨-, rfl⟩
    · cases he
      rw [prefix_unique hfields heq] at hall
      exact hget (hall f hf)
    · simp at he
  · have hlive : s.live = none := hm.resolve_left fun hm => hall <| by
      rwa [hm, eq_comm, Schema.insertAll_eq_self_iff hdoneNames] at hschema
    have he : e = .schemaConflict name "field name is reserved" := by
      rcases Disk.Store.registerField_eq_error hs with he | ⟨hsome, -⟩
      · exact he
      · simp [hlive] at hsome
    obtain ⟨f, hf, hget⟩ : ∃ f ∈ done, s.fields.schema.get? f.1 ≠ some f.2 := by
      simpa using hall
    refine .inr ⟨⟨s, done, name, config, rest, rfl, rfl, he, f, hf, hget⟩, s, m, rfl, hlive, rfl,
      fun hsame => hall ?_, fun name' hname' => ?_⟩
    · rwa [hschema, Schema.insertAll_eq_self_iff hdoneNames] at hsame
    · rw [hschema, Schema.get?_insertAll_of_notMem]
      simp only [List.map_append, List.mem_append, not_or] at hname'
      exact hname'.1

/-- **What a failed batch leaves.** -/
theorem registerFields_eq_error {d d' : Driver} (hfields : (fields.map (·.1)).Nodup)
    (hrun : registerFields fields (d, h) = .error e (d', h')) :
    h' = h ∧ d.Leaves fields e d' := by
  cases d with
  | memory s =>
    obtain ⟨s', hs'⟩ := registerFields_memory fields h s
    rw [hs'] at hrun
    cases hrun
  | limited key s =>
    obtain ⟨s', hs'⟩ := registerFields_limited fields h key s
    rw [hs'] at hrun
    cases hrun
  | sets s =>
    cases registerFields_sets_eq_error hrun
    exact ⟨rfl, .inl ⟨fun ⟨_, _, _, _, _, h, _⟩ => (nomatch h), rfl⟩⟩
  | disk s =>
    obtain ⟨done, name, config, rest, m, rfl, hdone, hs, hx⟩ := registerFields_disk_eq_error hrun
    cases hx
    exact ⟨rfl, leaves_disk hfields hdone hs⟩

end Driver

end Searchlight
