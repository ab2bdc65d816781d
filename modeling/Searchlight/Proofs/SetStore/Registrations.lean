import Searchlight.Proofs.Schema.Stored
import Searchlight.Proofs.SetStore.Keeping

/-!
# Registrations on a key server

The configuration of each field is a text of its own under one key of the store (`Server.config?`).
Only two things change that key: to register a field, which puts the configuration of that field and
no other, and to remove the store. Whatever stores do with documents leaves it (`kept_config`). A
store that is opened reads the configurations of all fields (`Store.loadSchema_eq_ok`).
-/

namespace Searchlight.SetStore

open Searchlight.Action (Keeps)

/-- The configuration that a text on a key server holds. -/
def readConfig? (json : String) : Option FieldConfig := (Json.read? json).bind FieldConfig.ofJson?

theorem readConfig?_write (c : FieldConfig) : readConfig? c.toJson.write = some c := by
  rw [readConfig?, Json.read?_write c.readable_toJson, Option.bind_some, FieldConfig.ofJson?_toJson]

/-- The configuration that is stored of a field. -/
def Server.config? (v : Server) (k : KeySpace) (name : String) : Option FieldConfig :=
  match v.keys.get? k.schema with
  | some (.hash m) => (m.get? name).bind readConfig?
  | _ => none

variable {k k' : KeySpace} {v v' : Server} {c : Command} {name name' : String}
  {config config' : FieldConfig}

namespace Server

theorem config?_congr (h : v'.keys.get? k.schema = v.keys.get? k.schema) :
    v'.config? k name = v.config? k name := by rw [config?, config?, h]

theorem hash_of_config? (h : v.config? k name = some config) :
    ∃ m, v.keys.get? k.schema = some (.hash m) := by
  rw [config?] at h
  split at h
  · exact ⟨_, ‹_›⟩
  · cases h

end Server

section
variable (hk : KeySpace.IsValidStem k.stem) (hk' : KeySpace.IsValidStem k'.stem)
include hk hk'

theorem schema_ne_key {r : Role} (hr : r ≠ .schema) : k.schema ≠ r.key k' := by
  rw [KeySpace.schema_eq_key]
  exact fun h => hr (Role.key_inj hk hk' h).2.symm

theorem schema_inj : k.schema = k'.schema ↔ k = k' := by
  rw [KeySpace.schema_eq_key, KeySpace.schema_eq_key]
  exact ⟨fun h => (Role.key_inj hk hk' h).1, fun h => by rw [h]⟩

/-- **What stores do with documents** leaves the fields of every store, as they are not in a set. -/
theorem Command.Given.get?_schema (hc : c.Given k')
    (hset : ∀ m, v.keys.get? k.schema ≠ some (.set m)) :
    (v.run c).1.keys.get? k.schema = v.keys.get? k.schema := by
  have hnot (h : ∀ key ∈ c.writes, ∃ r : Role, r ≠ .schema ∧ key = r.key k') :
      (v.run c).1.keys.get? k.schema = v.keys.get? k.schema :=
    Server.get?_run_of_notMem fun hmem =>
      have ⟨_, hr, hkey⟩ := h _ hmem
      schema_ne_key hk hk' hr hkey
  cases hc with
  | look h => rw [Server.keys_run_of_writes_eq_nil h]
  | number => exact hnot (by simpa [Command.writes] using ⟨.nextId, by simp, k'.nextId_eq_key⟩)
  | text id => exact hnot (by simpa [Command.writes] using ⟨.data id, by simp, k'.data_eq_key id⟩)
  | forget id =>
    refine hnot fun key hkey => ?_
    rcases List.mem_pair.1 hkey with rfl | rfl
    · exact ⟨.terms id, by simp, k'.terms_eq_key id⟩
    · exact ⟨.data id, by simp, k'.data_eq_key id⟩
  | add hr =>
    refine hnot fun key hkey => ⟨_, ?_, List.mem_singleton.1 hkey⟩
    rintro rfl
    cases hr
  | remove key members =>
    by_cases hkey : k.schema = key
    · -- Where there is no set there is nothing to take out.
      subst hkey
      rw [Server.run, Server.set?]
      cases hget : v.keys.get? k.schema with
      | none =>
        dsimp only
        rw [Server.get?_putSet, if_pos rfl]
        rfl
      | some x =>
        cases x with
        | set m => exact absurd hget (hset m)
        | text | hash => simp [hget]
    · exact Server.get?_run_of_notMem fun hmem => hkey (List.mem_singleton.1 hmem)
  | result name h =>
    exact hnot fun key hkey => ⟨.temp name, by simp, (List.mem_singleton.1 hkey).trans h⟩
  | clear h =>
    refine hnot fun key hkey => ?_
    obtain ⟨name, rfl⟩ := h key hkey
    exact ⟨.temp name, by simp, rfl⟩

end

section
variable (hk : KeySpace.IsValidStem k.stem)
include hk

theorem kept_config (name : String) (config : FieldConfig) :
    Kept fun v => v.config? k name = some config := by
  refine kept_of_given (fun v v' hkeys h => ?_) fun k' hk' c hc v h => ?_
  · rwa [Server.config?_congr (congrArg (·.get? k.schema) hkeys)]
  · obtain ⟨m, hm⟩ := Server.hash_of_config? h
    rwa [Server.config?_congr (hc.get?_schema hk hk' (by simp [hm]))]

/-- A configuration is put in the place of that of the same field of the same store. -/
theorem Server.config?_hashPut (hk' : KeySpace.IsValidStem k'.stem) (hash : (v.hash? k'.schema).isSome)
    (name name' : String) (config : FieldConfig) :
    (v.run (.hashPut k'.schema [(name', config.toJson.write)])).1.config? k name =
      if k' = k ∧ name' = name then some config else v.config? k name := by
  obtain ⟨m, hm⟩ := Option.isSome_iff_exists.1 hash
  have hread := readConfig?_write config
  generalize config.toJson.write = text at hread
  by_cases hkey : k' = k
  · subst hkey
    have hbefore : v.config? k' name = (m.get? name).bind readConfig? := by
      rw [config?]
      rw [Server.hash?] at hm
      cases hget : v.keys.get? k'.schema with
      | none =>
        rw [hget] at hm
        cases hm
        rfl
      | some x =>
        rw [hget] at hm
        cases x with
        | hash => cases hm; rfl
        | text | set => cases hm
    have hafter : (v.run (.hashPut k'.schema [(name', text)])).1.keys.get? k'.schema =
        some (.hash (m.insert name' text)) := by
      rw [Server.run, hm]
      exact (KeyMap.get?_insert _ _ _ _).trans (if_pos rfl)
    rw [hbefore, config?, hafter]
    dsimp only
    rw [KeyMap.get?_insert]
    by_cases hname : name' = name
    · rw [if_pos hname, if_pos ⟨rfl, hname⟩, Option.bind_some, hread]
    · rw [if_neg hname, if_neg fun h => hname h.2]
  · rw [if_neg fun h => hkey h.1]
    refine config?_congr (Server.get?_run_of_notMem fun hmem => hkey ?_)
    exact ((schema_inj hk hk').1 (List.mem_singleton.1 hmem)).symm

end

namespace Store

variable {s : Store} {x : Store × Server}

theorem registerField_eq_ok (hrun : registerField name config (s, v) = .ok () x) :
    s.TakesFields v ∧ x = ({ s with schema := s.schema.insert name config },
      (v.run (.hashPut s.keys.schema [(name, config.toJson.write)])).1) := by
  by_cases htakes : s.TakesFields v
  · rw [registerField_run, htakes.1, if_neg Bool.false_ne_true, ask_of_serves htakes.2.1] at hrun
    cases haccept : accept writeFailure (fun _ => some ())
        (v.run (.hashPut s.keys.schema [(name, config.toJson.write)])).2 with
    | error e =>
      rw [haccept] at hrun
      cases hrun
    | ok a =>
      rw [haccept] at hrun
      cases hrun
      exact ⟨htakes, rfl⟩
  · obtain ⟨e, herror⟩ := registerField_of_not_takesFields name config htakes
    rw [hrun] at herror
    cases herror

/-- **A field that a store takes** gets its configuration, and no other field another one. -/
theorem config?_registerField (hs : KeySpace.IsValidStem s.keys.stem)
    (hk : KeySpace.IsValidStem k.stem) (hrun : registerField name config (s, v) = .ok () x)
    (name' : String) :
    x.2.config? k name' =
      if s.keys = k ∧ name = name' then some config else v.config? k name' := by
  obtain ⟨⟨-, -, hhash⟩, rfl⟩ := registerField_eq_ok hrun
  exact Server.config?_hashPut hk hs hhash name' name config

/-- What a store registers leaves the configurations of other fields and of other stores. -/
theorem keeps_config_registerField (hk : KeySpace.IsValidStem k.stem)
    (hk' : KeySpace.IsValidStem k'.stem) (hne : ¬(k' = k ∧ name' = name)) :
    Keeps (OnServer k' fun v => v.config? k name = some config) (registerField name' config')
      fun _ => True := by
  rintro ⟨s, v⟩ ⟨rfl, hv⟩
  by_cases htakes : s.TakesFields v
  · obtain ⟨v', hrun, -⟩ := registerField_of_takesFields name' config' htakes
    rw [hrun]
    exact ⟨⟨rfl, ((config?_registerField hk' hk hrun name).trans (if_neg hne)).trans hv⟩, trivial⟩
  · obtain ⟨e, hrun⟩ := registerField_of_not_takesFields name' config' htakes
    rw [hrun]
    exact ⟨rfl, hv⟩

theorem keeps_config_destroy (hk : KeySpace.IsValidStem k.stem)
    (hk' : KeySpace.IsValidStem k'.stem) (hne : k' ≠ k) :
    Keeps (OnServer k' fun v => v.config? k name = some config) destroy fun _ => True :=
  keeps_destroy_server fun v v' hkeys hv => by
    rwa [Server.config?_congr]
    rw [hkeys, if_neg]
    rw [KeySpace.schema_eq_key]
    exact fun howns => hne (KeySpace.eq_of_owns hk hk' howns)

end Store

/-! ## The schema of a store -/

structure Server.Stores (v : Server) (k : KeySpace) (schema : Schema) : Prop where
  hash : (v.hash? k.schema).isSome = true
  config : ∀ name, v.config? k name = schema.get? name

variable {schema schema' : Schema}

namespace Server.Stores

theorem unique (h : v.Stores k schema) (h' : v.Stores k schema') : schema' = schema :=
  Schema.ext fun name => (h'.config name).symm.trans (h.config name)

theorem congr (h : v'.keys.get? k.schema = v.keys.get? k.schema) (hv : v.Stores k schema) :
    v'.Stores k schema where
  hash := by
    rw [Server.hash?, h]
    exact hv.hash
  config name := (config?_congr h).trans (hv.config name)

end Server.Stores

theorem kept_stores (hk : KeySpace.IsValidStem k.stem) (schema : Schema) :
    Kept fun v => v.Stores k schema := by
  refine kept_of_given (fun v v' hkeys h => h.congr (congrArg (·.get? k.schema) hkeys))
    fun k' hk' c hc v h => h.congr (hc.get?_schema hk hk' fun m hm => ?_)
  have := h.hash
  rw [Server.hash?, hm] at this
  cases this

theorem Server.Stores.registerField {s : Store} {x : Store × Server}
    (hk : KeySpace.IsValidStem s.keys.stem) (hv : v.Stores s.keys schema)
    (hrun : Store.registerField name config (s, v) = .ok () x) :
    x.2.Stores s.keys (schema.insert name config) where
  hash := by
    obtain ⟨v', hrun', htakes⟩ :=
      Store.registerField_of_takesFields name config (Store.registerField_eq_ok hrun).1
    cases hrun.symm.trans hrun'
    exact htakes.2.2
  config name' := by
    rw [Store.config?_registerField hk hk hrun, Schema.get?_insert, hv.config]
    simp

theorem pairUp_entries (es : List (String × String)) :
    pairUp (es.flatMap fun e => [e.1, e.2]) = some es := by
  induction es with
  | nil => rfl
  | cons e es ih =>
    rw [List.flatMap_cons]
    change (pairUp (es.flatMap fun e => [e.1, e.2])).map (e :: ·) = _
    rw [ih]
    rfl

theorem Reply.hash?_entries (es : List (String × String)) :
    Reply.hash? (.list (es.flatMap fun e => [.text e.1, .text e.2])) = some es := by
  have htexts (es : List (String × String)) :
      (es.flatMap fun e => [Reply.text e.1, .text e.2]).mapM Reply.text? =
        some (es.flatMap fun e => [e.1, e.2]) := by
    induction es with
    | nil => rfl
    | cons e es ih =>
      simp only [List.flatMap_cons, List.cons_append, List.nil_append, List.mapM_cons, ih]
      rfl
  rw [Reply.hash?, Reply.listOf?, htexts, Option.bind_some, pairUp_entries]

namespace Store

theorem eq_map_of_mapM {read : String × String → Except Error (String × FieldConfig)}
    (hread : ∀ e f, read e = .ok f → ∃ config, readConfig? e.2 = some config ∧ f = (e.1, config))
    {es : List (String × String)} {fields : List (String × FieldConfig)}
    (h : es.mapM read = .ok fields) :
    (∀ e ∈ es, (readConfig? e.2).isSome = true) ∧
      fields = es.map fun e => (e.1, (readConfig? e.2).getD .freeText) := by
  induction es generalizing fields with
  | nil =>
    cases h
    exact ⟨nofun, rfl⟩
  | cons e es ih =>
    rw [List.mapM_cons] at h
    obtain ⟨f, hf, h⟩ := Except.bind_eq_ok.1 h
    obtain ⟨rest, hrest, h⟩ := Except.bind_eq_ok.1 h
    cases h
    obtain ⟨config, hconfig, rfl⟩ := hread e f hf
    obtain ⟨hall, rfl⟩ := ih hrest
    refine ⟨fun e' he' => ?_, by rw [List.map_cons, hconfig, Option.getD_some]⟩
    rcases List.mem_cons.1 he' with rfl | he'
    · rw [hconfig]
      rfl
    · exact hall e' he'

/-- A schema that is read has the configurations that the texts hold. -/
theorem get?_schemaOf {m : KeyMap String} (h : schemaOf m.entries = .ok schema) (name : String) :
    schema.get? name = (m.get? name).bind readConfig? := by
  obtain ⟨fields, hfields, rfl⟩ := Except.map_eq_ok.1 h
  obtain ⟨hall, rfl⟩ := eq_map_of_mapM (fun e f hf => by
    rw [readConfig?]
    split at hf
    · cases hf
      exact ⟨_, ‹_›, rfl⟩
    · cases hf) hfields
  have hmap : Schema.ofList (m.entries.map fun e => (e.1, (readConfig? e.2).getD .freeText)) =
      ⟨m.map fun _ json => (readConfig? json).getD .freeText⟩ :=
    congrArg Schema.mk (KeyMap.ofList_entries (m.map fun _ json => (readConfig? json).getD .freeText))
  rw [hmap, Schema.get?, KeyMap.get?_map]
  cases hget : m.get? name with
  | none => rfl
  | some json =>
    rw [← KeyMap.ofList_entries m] at hget
    obtain ⟨config, hconfig⟩ := Option.isSome_iff_exists.1 (hall _ (KeyMap.mem_of_get?_ofList hget))
    rw [Option.map_some, Option.bind_some, hconfig]
    rfl

/-- **A store reads the schema** that is stored. -/
theorem loadSchema_eq_ok {s : Store} {x : Store × Server} (h : loadSchema (s, v) = .ok schema x) :
    x = ({ s with schema }, v) ∧ v.Stores s.keys schema := by
  rw [loadSchema, Action.get_bind] at h
  obtain ⟨entries, y, hask, h⟩ := Action.bind_eq_ok.1 h
  by_cases hserves : s.Serves v
  swap
  · obtain ⟨e, hfails⟩ := ask_of_not_serves hserves readFailure (.hashFields s.keys.schema) Reply.hash?
    cases hask.symm.trans hfails
  rw [ask_of_serves hserves, Server.run] at hask
  cases hhash : v.hash? s.keys.schema with
  | none => simp [hhash, accept, Server.wrongType] at hask
  | some m =>
    rw [hhash] at hask
    dsimp only [accept] at hask
    rw [Reply.hash?_entries] at hask
    cases hask
    obtain ⟨schema', y, hread, h⟩ := Action.bind_eq_ok.1 h
    obtain ⟨hschema, rfl⟩ := Action.ofExcept_eq_ok.1 hread
    cases h
    refine ⟨rfl, by simp [hhash], fun name => ?_⟩
    rw [get?_schemaOf hschema, Server.config?]
    rw [Server.hash?] at hhash
    cases hget : v.keys.get? s.keys.schema with
    | none =>
      rw [hget] at hhash
      cases hhash
      rfl
    | some d =>
      rw [hget] at hhash
      cases d with
      | hash => cases hhash; rfl
      | text | set => cases hhash

end Store

end Searchlight.SetStore
