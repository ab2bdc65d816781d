import Mathlib.Data.List.Nodup
import Mathlib.Data.List.Perm.Basic
import Searchlight.Client.Basic
import Searchlight.Proofs.Json.RoundTrip

/-!
# Configurations and their JSON form

The form of a configuration is a record with a member for each setting, but none for an option that
is not set. The reader takes each setting from a field of its own (`ofJson?_object_eq_some_iff`), and
its rules fit those of the form: what is left of a form when defaults are left out, in any order, is
read as the configuration again (`Abridged.isReadFrom`). An object with any other member is refused
(`ofJsonText_of_unrecognized`). The reader of options knows nothing of the other settings but finds
the same options (`IsReadFrom.options_eq`), and those that are listed are those that are set
(`IsReadFrom.mem_setOptions_iff`).
-/

namespace Searchlight

/-! ## Members of a record -/

namespace Json

variable {ms : List (String × Json)} {name : String} {j : Json}

theorem filter_eq_nil_of_notMem (h : name ∉ ms.map (·.1)) :
    ms.filter (fun m => m.1 == name) = [] := by
  rw [List.filter_eq_nil_iff]
  rintro m hm heq
  exact h (eq_of_beq heq ▸ List.mem_map_of_mem hm)

theorem filter_members (ms : List (String × Json)) (name : String) :
    (ms.map fun m => ((some m.1 : Text), m.2)).filter (fun m => m.1 == some name) =
      (ms.filter fun m => m.1 == name).map fun m => (some m.1, m.2) := by
  rw [List.filter_map]
  congr 1

theorem member?_of_mem (hms : (ms.map (·.1)).Nodup) (h : (name, j) ∈ ms) :
    member? name (ms.map fun m => (some m.1, m.2)) = some (.present j) := by
  obtain ⟨front, back, rfl⟩ := List.append_of_mem h
  rw [List.map_append, List.map_cons, List.nodup_middle, List.nodup_cons, List.mem_append,
    not_or] at hms
  rw [member?, filter_members, List.filter_append, List.filter_cons,
    filter_eq_nil_of_notMem hms.1.1, filter_eq_nil_of_notMem hms.1.2]
  simp

theorem member?_of_notMem (h : ∀ j, (name, j) ∉ ms) :
    member? name (ms.map fun m => (some m.1, m.2)) = some .missing := by
  have hname : name ∉ ms.map (·.1) := by
    intro hname
    obtain ⟨⟨_, j⟩, hj, rfl⟩ := List.mem_map.1 hname
    exact h j hj
  rw [member?, filter_members, filter_eq_nil_of_notMem hname]
  rfl

theorem nat?_ofNat {bits n : Nat} (h : n < 1 <<< bits) : nat? bits (ofNat n) = some n := by
  have hdigits : Nat.ofDigitChars 10 (Nat.toDigits 10 n) 0 = n :=
    Nat.ofDigitChars_toDigits (by decide) (by decide)
  simp [nat?, ofNat, Number.ofNat, Number.toNat?, hdigits, h]

theorem ofNat_injective : Function.Injective ofNat := by
  intro m n h
  have hdigits := congrArg (Nat.ofDigitChars 10 · 0)
    (congrArg Number.whole (Json.number.inj h))
  simpa [Number.ofNat] using hdigits

theorem mapM_eq_some_iff {α β : Type} {f : α → Option β} {as : List α} {bs : List β} :
    as.mapM f = some bs ↔ List.Forall₂ (fun a b => f a = some b) as bs := by
  induction as generalizing bs with
  | nil => simp [eq_comm]
  | cons a as ih =>
    simp only [List.mapM_cons, List.forall₂_cons_left_iff, ← ih]
    cases f a <;> cases as.mapM f <;> simp [eq_comm]

/-- The fields of an object, one for each name. -/
theorem fields?_object_eq_some_iff {names : List String} {closed : Bool}
    {members : List (Text × Json)} {fields : List Field} :
    fields? names closed (object members) = some fields ↔
      (∀ m ∈ members, ∃ key, m.1 = some key ∧ (closed = true → key ∈ names)) ∧
        List.Forall₂ (fun name f => member? name members = some f) names fields := by
  have hall : (members.all fun m => m.1.any fun k => !closed || names.contains k) = true ↔
      ∀ m ∈ members, ∃ key, m.1 = some key ∧ (closed = true → key ∈ names) := by
    cases closed <;> simp [Option.any_eq_true, Option.isSome_iff_exists]
  rw [fields?, ← mapM_eq_some_iff, ← hall]
  split
  · exact (and_iff_right ‹_›).symm
  · exact iff_of_false nofun fun h => absurd h.1 ‹_›

def Says {α : Type} (members : List (Text × Json)) (name : String) (read : Field → Option α)
    (a : α) : Prop :=
  ∃ f, member? name members = some f ∧ read f = some a

theorem isSome_iff_of_nullable? {α : Type} {read : Json → Option α} {x : Option α}
    (h : nullable? read j = some x) : x.isSome = true ↔ j ≠ null := by
  cases j with
  | null =>
    cases h
    exact iff_of_false nofun (· rfl)
  | _ =>
    obtain ⟨a, -, rfl⟩ := Option.map_eq_some_iff.1 h
    exact iff_of_true rfl nofun

theorem Says.isSome_iff {α : Type} {members : List (Text × Json)} {read : Json → Option α}
    {x : Option α} (h : Says members name (·.withDefault none (nullable? read)) x) :
    x.isSome = true ↔ ∃ j, (some name, j) ∈ members ∧ j ≠ null := by
  obtain ⟨f, hf, hread⟩ := h
  have hmem (j : Json) : (some name, j) ∈ members ↔
      (some name, j) ∈ members.filter fun m => m.1 == some name := by
    simp [List.mem_filter]
  simp only [hmem]
  rw [member?] at hf
  split at hf
  · rename_i hfilter
    cases hf
    cases hread
    simp [hfilter]
  · rename_i m hfilter
    cases hf
    have hm : m.1 = some name := by
      have hin : m ∈ members.filter fun m => m.1 == some name := by
        rw [hfilter]
        exact List.mem_singleton_self m
      exact eq_of_beq (List.mem_filter.1 hin).2
    rw [isSome_iff_of_nullable? hread, hfilter]
    simp [← hm, Prod.ext_iff]
  · cases hf

end Json

theorem UnknownFieldPolicy.ofKey?_key (p : UnknownFieldPolicy) : ofKey? p.key = some p := by
  cases p <;> decide

/-! ## Options -/

namespace Json

variable {settings : List (String × Option Json)} {name : String}

theorem setMembers_sublist (settings : List (String × Option Json)) :
    ((setMembers settings).map (·.1)).Sublist (settings.map (·.1)) := by
  induction settings with
  | nil => exact .slnil
  | cons m settings ih =>
    rcases m with ⟨name, _ | j⟩
    · exact ih.cons _
    · exact ih.cons_cons _

theorem mem_setMembers_iff {j : Json} :
    (name, j) ∈ setMembers settings ↔ (name, some j) ∈ settings := by
  rw [setMembers, List.mem_filterMap]
  constructor
  · rintro ⟨⟨_, x⟩, hx, h⟩
    obtain ⟨_, rfl, hpair⟩ := Option.map_eq_some_iff.1 h
    cases hpair
    exact hx
  · exact fun h => ⟨_, h, rfl⟩

theorem setMembers_append (settings rest : List (String × Option Json)) :
    setMembers (settings ++ rest) = setMembers settings ++ setMembers rest :=
  List.filterMap_append

end Json

namespace BackendOptions

variable {o : BackendOptions} {name : String}

theorem setOptions_eq (o : BackendOptions) :
    o.setOptions = (Json.setMembers o.settings).map (·.1) := by
  have cons {α : Type} (name : String) (x : Option α) (write : α → Json) (rest : List _) :
      (Json.setMembers ((name, x.map write) :: rest)).map (·.1) =
        (if x.isSome then [name] else []) ++ (Json.setMembers rest).map (·.1) := by
    cases x <;> rfl
  simp only [settings, cons, setOptions, List.append_assoc]
  simp [Json.setMembers]

theorem setOptions_sublist (o : BackendOptions) : o.setOptions.Sublist names := by
  rw [setOptions_eq]
  exact Json.setMembers_sublist o.settings

theorem mem_setOptions_iff : name ∈ o.setOptions ↔ ∃ j, (name, some j) ∈ o.settings := by
  simp only [setOptions_eq, List.mem_map, Prod.exists, exists_and_right, exists_eq_right,
    Json.mem_setMembers_iff]

end BackendOptions

namespace ClientConfig

/-! ## The form -/

/-- The numbers fit their machine types. -/
structure InRange (c : ClientConfig) : Prop where
  port : ∀ n ∈ c.port, n < 1 <<< 16
  timeoutMs : ∀ n ∈ c.timeoutMs, n < 1 <<< 64
  writerMemoryBytes : ∀ n ∈ c.writerMemoryBytes, n < 1 <<< 64
  pageSize : c.pageSize < 1 <<< 64

/-- The options are those of the configuration. -/
structure Carries (c : ClientConfig) (o : BackendOptions) : Prop where
  path : o.path = c.path
  host : o.host = c.host
  port : o.port = c.port
  keyPrefix : o.keyPrefix = c.keyPrefix
  timeoutMs : o.timeoutMs = c.timeoutMs
  writerMemoryBytes : o.writerMemoryBytes = c.writerMemoryBytes
  readonly : o.readonly = c.readonly

theorem carries_backendOptions (c : ClientConfig) : c.Carries c.backendOptions :=
  ⟨rfl, rfl, rfl, rfl, rfl, rfl, rfl⟩

/-- The members that say nothing but a default. -/
def defaults : List (String × Json) :=
  [("readonly", .bool false), ("unknown_fields", .ofString UnknownFieldPolicy.guess.key),
    ("page_size", .ofNat defaultPageSize)]

/-- The options stand between the type and the other settings. -/
theorem settings_eq (c : ClientConfig) :
    c.settings = [("type", some (Json.ofString c.backend))] ++ c.backendOptions.settings ++
      [("readonly", some (Json.bool c.readonly)),
        ("unknown_fields", some (Json.ofString c.unknownFields.key)),
        ("page_size", some (Json.ofNat c.pageSize))] := rfl

theorem members_eq (c : ClientConfig) :
    c.members = [("type", .ofString c.backend)] ++ Json.setMembers c.backendOptions.settings ++
      [("readonly", .bool c.readonly), ("unknown_fields", .ofString c.unknownFields.key),
        ("page_size", .ofNat c.pageSize)] := by
  rw [members, settings_eq, Json.setMembers_append, Json.setMembers_append]
  rfl

theorem names_settings (c : ClientConfig) : c.settings.map (·.1) = keys := rfl

theorem mem_members_iff {c : ClientConfig} {name : String} {x : Option Json} {j : Json}
    (hx : (name, x) ∈ c.settings) : (name, j) ∈ c.members ↔ x = some j := by
  have hkeys : (c.settings.map (·.1)).Nodup := by
    rw [names_settings]
    decide
  rw [members, Json.mem_setMembers_iff]
  constructor
  · exact fun h => congrArg Prod.snd (List.inj_on_of_nodup_map hkeys hx h rfl)
  · exact fun h => h ▸ hx

theorem names_members (c : ClientConfig) :
    c.members.map (·.1) =
      ["type"] ++ c.backendOptions.setOptions ++ ["readonly", "unknown_fields", "page_size"] := by
  simp [members_eq, BackendOptions.setOptions_eq]

theorem names_members_sublist (c : ClientConfig) : (c.members.map (·.1)).Sublist keys :=
  Json.setMembers_sublist _

/-- The names of the options that are set are those in the form. -/
theorem setOptions_eq_filter (c : ClientConfig) :
    c.backendOptions.setOptions =
      (c.members.map (·.1)).filter BackendOptions.names.contains := by
  have hset : ∀ name ∈ c.backendOptions.setOptions, BackendOptions.names.contains name = true :=
    fun name hname => List.contains_iff_mem.2 (c.backendOptions.setOptions_sublist.subset hname)
  rw [names_members, List.filter_append, List.filter_append, List.filter_eq_self.2 hset]
  simp [BackendOptions.names]

theorem toJson_backendOptions (c : ClientConfig) :
    c.backendOptions.toJson = .record (c.members.filter fun m =>
      (BackendOptions.names ++ ["readonly"]).contains m.1) := by
  have hset : ∀ m ∈ Json.setMembers c.backendOptions.settings,
      (BackendOptions.names ++ ["readonly"]).contains m.1 = true := fun m hm =>
    List.contains_iff_mem.2 <| List.mem_append_left _ <|
      (Json.setMembers_sublist _).subset (List.mem_map_of_mem hm)
  rw [members_eq, List.filter_append, List.filter_append, List.filter_eq_self.2 hset]
  simp [BackendOptions.toJson, BackendOptions.names, backendOptions]

theorem readable_members (c : ClientConfig) : ∀ m ∈ c.members, m.2.Readable := by
  rintro ⟨name, j⟩ hm
  have hj := Json.mem_setMembers_iff.1 hm
  simp only [settings, List.mem_cons, Prod.mk.injEq, List.not_mem_nil, or_false,
    eq_comm (a := some j), Option.some_inj, Option.map_eq_some_iff] at hj
  rcases hj with ⟨-, rfl⟩ | ⟨-, a, -, rfl⟩ | ⟨-, a, -, rfl⟩ | ⟨-, a, -, rfl⟩ | ⟨-, a, -, rfl⟩ |
    ⟨-, a, -, rfl⟩ | ⟨-, a, -, rfl⟩ | ⟨-, rfl⟩ | ⟨-, rfl⟩ | ⟨-, rfl⟩ <;>
    first | exact .string _ | exact .number (Json.Number.readable_ofNat _) | exact .bool _

/-! ## Reading objects -/

open Json (string? bool? nat? nullable?)

/-- **What a configuration is read from.** Each setting has a field of its own. -/
structure IsReadFrom (c : ClientConfig) (ms : List (Json.Text × Json)) : Prop where
  closed : ∀ m ∈ ms, ∃ key ∈ keys, m.1 = some key
  backend : Json.Says ms "type" (·.required string?) c.backend
  path : Json.Says ms "path" (·.withDefault none (nullable? string?)) c.path
  host : Json.Says ms "host" (·.withDefault none (nullable? string?)) c.host
  port : Json.Says ms "port" (·.withDefault none (nullable? (nat? 16))) c.port
  keyPrefix : Json.Says ms "prefix" (·.withDefault none (nullable? string?)) c.keyPrefix
  timeoutMs : Json.Says ms "timeout_ms" (·.withDefault none (nullable? (nat? 64)))
    c.timeoutMs
  writerMemoryBytes : Json.Says ms "writer_memory_bytes" (·.withDefault none (nullable? (nat? 64)))
    c.writerMemoryBytes
  readonly : Json.Says ms "readonly" (·.withDefault false bool?) c.readonly
  unknownFields : Json.Says ms "unknown_fields"
    (·.withDefault .guess fun j => j.choice?.bind UnknownFieldPolicy.ofKey?) c.unknownFields
  pageSize : Json.Says ms "page_size" (·.withDefault defaultPageSize (nat? 64)) c.pageSize

variable {c : ClientConfig}

/-- **The reader** takes each setting from its own field, whatever the order of the members. -/
theorem ofJson?_object_eq_some_iff {ms : List (Json.Text × Json)} :
    ofJson? (.object ms) = some c ↔ c.IsReadFrom ms := by
  constructor
  · intro h
    obtain ⟨fields, hfields, h⟩ := Option.bind_eq_some_iff.1 h
    obtain ⟨hclosed, hfields⟩ := Json.fields?_object_eq_some_iff.1 hfields
    rcases hfields with _ | ⟨htype, _ | ⟨hpath, _ | ⟨hhost, _ | ⟨hport, _ | ⟨hkey,
      _ | ⟨htimeout, _ | ⟨hmemory, _ | ⟨hreadonly, _ | ⟨hunknown, _ | ⟨hpage, ⟨⟩⟩⟩⟩⟩⟩⟩⟩⟩⟩⟩
    obtain ⟨_, type, h⟩ := Option.bind_eq_some_iff.1 h
    obtain ⟨_, path, h⟩ := Option.bind_eq_some_iff.1 h
    obtain ⟨_, host, h⟩ := Option.bind_eq_some_iff.1 h
    obtain ⟨_, port, h⟩ := Option.bind_eq_some_iff.1 h
    obtain ⟨_, keyPrefix, h⟩ := Option.bind_eq_some_iff.1 h
    obtain ⟨_, timeout, h⟩ := Option.bind_eq_some_iff.1 h
    obtain ⟨_, memory, h⟩ := Option.bind_eq_some_iff.1 h
    obtain ⟨_, readonly, h⟩ := Option.bind_eq_some_iff.1 h
    obtain ⟨_, unknown, h⟩ := Option.bind_eq_some_iff.1 h
    obtain ⟨_, page, h⟩ := Option.bind_eq_some_iff.1 h
    cases h
    exact ⟨fun m hm => (hclosed m hm).imp fun _ h => ⟨h.2 rfl, h.1⟩, ⟨_, htype, type⟩,
      ⟨_, hpath, path⟩, ⟨_, hhost, host⟩, ⟨_, hport, port⟩, ⟨_, hkey, keyPrefix⟩,
      ⟨_, htimeout, timeout⟩, ⟨_, hmemory, memory⟩, ⟨_, hreadonly, readonly⟩,
      ⟨_, hunknown, unknown⟩, ⟨_, hpage, page⟩⟩
  · rintro ⟨hclosed, ⟨_, htype, type⟩, ⟨_, hpath, path⟩, ⟨_, hhost, host⟩, ⟨_, hport, port⟩,
      ⟨_, hkey, keyPrefix⟩, ⟨_, htimeout, timeout⟩, ⟨_, hmemory, memory⟩,
      ⟨_, hreadonly, readonly⟩, ⟨_, hunknown, unknown⟩, ⟨_, hpage, page⟩⟩
    refine Option.bind_eq_some_iff.2 ⟨_, Json.fields?_object_eq_some_iff.2
      ⟨fun m hm => (hclosed m hm).imp fun _ h => ⟨h.2, fun _ => h.1⟩,
        .cons htype <| .cons hpath <| .cons hhost <| .cons hport <| .cons hkey <|
          .cons htimeout <| .cons hmemory <| .cons hreadonly <| .cons hunknown <|
            .cons hpage .nil⟩, ?_⟩
    refine Option.bind_eq_some_iff.2 ⟨_, type, ?_⟩
    refine Option.bind_eq_some_iff.2 ⟨_, path, ?_⟩
    refine Option.bind_eq_some_iff.2 ⟨_, host, ?_⟩
    refine Option.bind_eq_some_iff.2 ⟨_, port, ?_⟩
    refine Option.bind_eq_some_iff.2 ⟨_, keyPrefix, ?_⟩
    refine Option.bind_eq_some_iff.2 ⟨_, timeout, ?_⟩
    refine Option.bind_eq_some_iff.2 ⟨_, memory, ?_⟩
    refine Option.bind_eq_some_iff.2 ⟨_, readonly, ?_⟩
    refine Option.bind_eq_some_iff.2 ⟨_, unknown, ?_⟩
    exact Option.bind_eq_some_iff.2 ⟨_, page, rfl⟩

/-- **A member that is not recognized** makes an object no configuration. -/
theorem ofJsonText_of_unrecognized {text : String} {ms : List (Json.Text × Json)} {k : Json.Text}
    {j : Json} (hread : Json.read? text = some (.object ms)) (hmem : (k, j) ∈ ms)
    (hk : ∀ key ∈ keys, k ≠ some key) :
    ofJsonText text = .error (.config "invalid JSON config") := by
  have hnone : ofJson? (.object ms) = none := by
    refine Option.eq_none_iff_forall_ne_some.2 fun c hc => ?_
    obtain ⟨key, hkey, rfl⟩ := (ofJson?_object_eq_some_iff.1 hc).closed _ hmem
    exact hk key hkey rfl
  rw [ofJsonText, hread, Option.bind_some, hnone]

/-- **Options are read from the same members** when the other settings are passed over. -/
theorem IsReadFrom.options_eq {ms : List (Json.Text × Json)} (h : c.IsReadFrom ms) :
    BackendOptions.ofJson? (.object ms) = some c.backendOptions := by
  have omissible {α : Type} {name : String} {read : Json → Option α} {x : Option α}
      (h : Json.Says ms name (·.withDefault none (nullable? read)) x) :
      Json.Says ms name (·.omissible read) x := by
    obtain ⟨f, hf, hread⟩ := h
    refine ⟨f, hf, ?_⟩
    cases f with
    | present | missing => exact hread
    | cutOff =>
      rw [Json.member?] at hf
      split at hf <;> cases hf
  obtain ⟨_, hpath, path⟩ := omissible h.path
  obtain ⟨_, hhost, host⟩ := omissible h.host
  obtain ⟨_, hport, port⟩ := omissible h.port
  obtain ⟨_, hkey, keyPrefix⟩ := omissible h.keyPrefix
  obtain ⟨_, htimeout, timeout⟩ := omissible h.timeoutMs
  obtain ⟨_, hmemory, memory⟩ := omissible h.writerMemoryBytes
  obtain ⟨_, hreadonly, readonly⟩ := h.readonly
  refine Option.bind_eq_some_iff.2 ⟨_, Json.fields?_object_eq_some_iff.2
    ⟨fun m hm => (h.closed m hm).imp fun _ h => ⟨h.2, nofun⟩,
      .cons hpath <| .cons hhost <| .cons hport <| .cons hkey <| .cons htimeout <|
        .cons hmemory <| .cons hreadonly .nil⟩, ?_⟩
  refine Option.bind_eq_some_iff.2 ⟨_, path, ?_⟩
  refine Option.bind_eq_some_iff.2 ⟨_, host, ?_⟩
  refine Option.bind_eq_some_iff.2 ⟨_, port, ?_⟩
  refine Option.bind_eq_some_iff.2 ⟨_, keyPrefix, ?_⟩
  refine Option.bind_eq_some_iff.2 ⟨_, timeout, ?_⟩
  refine Option.bind_eq_some_iff.2 ⟨_, memory, ?_⟩
  exact Option.bind_eq_some_iff.2 ⟨_, readonly, rfl⟩

/-- **The options that are listed** are those that have a member which is not null. -/
theorem IsReadFrom.mem_setOptions_iff {ms : List (Json.Text × Json)} (h : c.IsReadFrom ms)
    {name : String} : name ∈ c.backendOptions.setOptions ↔
      name ∈ BackendOptions.names ∧ ∃ j, (some name, j) ∈ ms ∧ j ≠ .null := by
  have hsettings : ∀ x ∈ c.backendOptions.settings,
      (x.2.isSome = true ↔ ∃ j, (some x.1, j) ∈ ms ∧ j ≠ .null) := by
    simp only [BackendOptions.settings, List.forall_mem_cons, Option.isSome_map]
    exact ⟨h.path.isSome_iff, h.host.isSome_iff, h.port.isSome_iff, h.keyPrefix.isSome_iff,
      h.timeoutMs.isSome_iff, h.writerMemoryBytes.isSome_iff, nofun⟩
  rw [BackendOptions.mem_setOptions_iff]
  constructor
  · rintro ⟨j, hj⟩
    have hname : name ∈ c.backendOptions.settings.map (·.1) := List.mem_map.2 ⟨_, hj, rfl⟩
    exact ⟨hname, (hsettings _ hj).1 rfl⟩
  · rintro ⟨hname, hset⟩
    obtain ⟨⟨_, x⟩, hx, rfl⟩ : ∃ x ∈ c.backendOptions.settings, x.1 = name := List.mem_map.1 hname
    obtain ⟨j, rfl⟩ := Option.isSome_iff_exists.1 ((hsettings _ hx).2 hset)
    exact ⟨j, hx⟩

/-! ## Reading the form -/

structure Abridged (c : ClientConfig) (ms : List (String × Json)) : Prop where
  nodup : (ms.map (·.1)).Nodup
  sub : ∀ m ∈ ms, m ∈ c.members
  omitted : ∀ m ∈ c.members, m ∉ ms → m ∈ defaults

variable {ms : List (String × Json)}

theorem abridged_of_perm (keep : String → Bool)
    (hkeep : ∀ m ∈ c.members, keep m.1 = false → m ∈ defaults)
    (hms : ms.Perm (c.members.filter fun m => keep m.1)) : c.Abridged ms where
  nodup := (hms.map _).nodup_iff.2 <| ((List.filter_sublist.map _).trans
    c.names_members_sublist).nodup (by decide)
  sub m hm := (List.mem_filter.1 (hms.mem_iff.1 hm)).1
  omitted m hm hnot := hkeep m hm <| Bool.eq_false_iff.2 fun h =>
    hnot (hms.mem_iff.2 (List.mem_filter.2 ⟨hm, h⟩))

namespace Abridged

variable {α : Type} {name : String} {write : α → Json} {read : Json → Option α} {a d : α}
  (h : c.Abridged ms)
include h

theorem required {j : Json} (hset : (name, some j) ∈ c.settings) (hname : ∀ j, (name, j) ∉ defaults)
    (hread : read j = some a) :
    Json.Says (ms.map fun m => (some m.1, m.2)) name (·.required read) a := by
  have hin : (name, j) ∈ ms :=
    by_contra fun hout => hname _ (h.omitted _ ((mem_members_iff hset).2 rfl) hout)
  exact ⟨_, Json.member?_of_mem h.nodup hin, hread⟩

theorem withDefault {j : Json} (hset : (name, some j) ∈ c.settings)
    (hdefault : (name, j) ∈ defaults → a = d) (hread : read j = some a) :
    Json.Says (ms.map fun m => (some m.1, m.2)) name (·.withDefault d read) a := by
  by_cases hin : (name, j) ∈ ms
  · exact ⟨_, Json.member?_of_mem h.nodup hin, hread⟩
  · refine ⟨_, Json.member?_of_notMem fun i hi => ?_, congrArg some (hdefault ?_).symm⟩
    · cases (mem_members_iff hset).1 (h.sub _ hi)
      exact hin hi
    · exact h.omitted _ ((mem_members_iff hset).2 rfl) hin

theorem option {x : Option α} (hset : (name, x.map write) ∈ c.backendOptions.settings)
    (hread : ∀ a ∈ x, nullable? read (write a) = some (some a)) :
    Json.Says (ms.map fun m => (some m.1, m.2)) name (·.withDefault none (nullable? read)) x := by
  have hall : (name, x.map write) ∈ c.settings := by
    rw [settings_eq]
    exact List.mem_append_left _ (List.mem_append_right _ hset)
  cases x with
  | none =>
    refine ⟨_, Json.member?_of_notMem fun j hj => ?_, rfl⟩
    cases (mem_members_iff hall).1 (h.sub _ hj)
  | some a =>
    have hname : ∀ m ∈ defaults, m.1 ∉ BackendOptions.names := by decide
    have hin : (name, write a) ∈ ms := by_contra fun hout =>
      hname _ (h.omitted _ ((mem_members_iff hall).2 rfl) hout)
        (List.mem_map_of_mem (f := (·.1)) hset)
    exact ⟨_, Json.member?_of_mem h.nodup hin, hread a rfl⟩

theorem text {x : Option String}
    (hset : (name, x.map Json.ofString) ∈ c.backendOptions.settings) :
    Json.Says (ms.map fun m => (some m.1, m.2)) name (·.withDefault none (nullable? string?)) x :=
  h.option hset fun _ _ => rfl

theorem number {bits : Nat} {x : Option Nat} (hx : ∀ n ∈ x, n < 1 <<< bits)
    (hset : (name, x.map Json.ofNat) ∈ c.backendOptions.settings) :
    Json.Says (ms.map fun m => (some m.1, m.2)) name (·.withDefault none (nullable? (nat? bits)))
      x :=
  h.option hset fun n hn => congrArg (Option.map some) (Json.nat?_ofNat (hx n hn))

/-- **What is left of a form** is read as the configuration. -/
theorem isReadFrom (hc : c.InRange) : c.IsReadFrom (ms.map fun m => (some m.1, m.2)) where
  closed := by
    intro m hm
    obtain ⟨⟨key, j⟩, hj, rfl⟩ := List.mem_map.1 hm
    exact ⟨key, c.names_members_sublist.subset (List.mem_map_of_mem (h.sub _ hj)), rfl⟩
  backend := h.required (j := .ofString c.backend) (by simp [settings]) (by simp [defaults]) rfl
  path := h.text (List.mem_cons_self ..)
  host := h.text (by simp [BackendOptions.settings, backendOptions])
  port := h.number hc.port (by simp [BackendOptions.settings, backendOptions])
  keyPrefix := h.text (by simp [BackendOptions.settings, backendOptions])
  timeoutMs := h.number hc.timeoutMs (by simp [BackendOptions.settings, backendOptions])
  writerMemoryBytes := h.number hc.writerMemoryBytes
    (by simp [BackendOptions.settings, backendOptions])
  readonly := h.withDefault (j := .bool c.readonly) (by simp [settings]) (by simp [defaults]) rfl
  unknownFields := h.withDefault (j := .ofString c.unknownFields.key) (by simp [settings])
    (by cases c.unknownFields <;> simp [defaults, UnknownFieldPolicy.key, Json.ofString])
    c.unknownFields.ofKey?_key
  pageSize := h.withDefault (j := .ofNat c.pageSize) (by simp [settings])
    (by simp [defaults, Json.ofNat_injective.eq_iff]) (Json.nat?_ofNat hc.pageSize)

end Abridged

/-! ## Lossless and strict -/

/-- **The JSON form of a configuration** gives the configuration again, also when members that say
nothing but a default are left out or the order is another one. A member that is not recognized
makes any object no configuration. The options for the backend are those of the configuration, and
their own reader finds them in the form; the options that are listed are the ones that have a member
in it, and a client is opened with them. -/
theorem forms_lossless (c : ClientConfig) (hc : c.InRange) (hvalid : c.validate = .ok ()) :
    ofJsonText c.toJson.write = .ok c ∧
    (∀ keep : String → Bool, (∀ m ∈ c.members, keep m.1 = false → m ∈ defaults) →
      ∀ text ms, ms.Perm (c.members.filter fun m => keep m.1) →
        Json.read? text = some (.record ms) → ofJsonText text = .ok c) ∧
    (∀ text ms k j, Json.read? text = some (.object ms) → (k, j) ∈ ms →
      (∀ key ∈ keys, k ≠ some key) → ofJsonText text = .error (.config "invalid JSON config")) ∧
    c.Carries c.backendOptions ∧
    BackendOptions.ofJson? c.toJson = some c.backendOptions ∧
    c.backendOptions.toJson = .record (c.members.filter fun m =>
      (BackendOptions.names ++ ["readonly"]).contains m.1) ∧
    c.backendOptions.setOptions =
      (c.members.map (·.1)).filter BackendOptions.names.contains ∧
    ∀ catalog guesser, Client.ofConfig catalog c guesser =
      Client.connect catalog c.backend c.backendOptions ⟨c.unknownFields, c.pageSize, guesser⟩ := by
  have hread {text ms} (h : c.Abridged ms) (htext : Json.read? text = some (.record ms)) :
      ofJsonText text = .ok c := by
    have hvalue : ofJson? (.record ms) = some c := ofJson?_object_eq_some_iff.2 (h.isReadFrom hc)
    simp only [ofJsonText, htext, Option.bind_some, hvalue, hvalid]
    rfl
  have hform : c.Abridged c.members := abridged_of_perm (fun _ => true) (by simp) (by simp)
  refine ⟨?_, ?_, ?_, c.carries_backendOptions, ?_, c.toJson_backendOptions,
    c.setOptions_eq_filter, ?_⟩
  · exact hread hform (Json.read?_write (.record c.readable_members))
  · exact fun keep hkeep text ms hms => hread (abridged_of_perm keep hkeep hms)
  · exact fun text ms k j htext hmem hk => ofJsonText_of_unrecognized htext hmem hk
  · exact (hform.isReadFrom hc).options_eq
  · intro catalog guesser
    rw [Client.ofConfig, hvalid]
    rfl

/-- A configuration with a host and a port, and its form without two of the defaults. -/
theorem forms_lossless_of_host :
    let c : ClientConfig := { new "redis" with
      host := some "a\"b", port := some 6379 }
    let form : List (String × Json) := [("host", .ofString "a\"b"), ("type", .ofString "redis"),
      ("port", .ofNat 6379), ("readonly", .bool false)]
    c.InRange ∧ c.validate = .ok () ∧ ofJsonText (Json.record form).write = .ok c := by
  intro c form
  have hc : c.InRange :=
    ⟨by rintro n ⟨⟩; decide, by rintro n ⟨⟩, by rintro n ⟨⟩, by decide⟩
  have hvalid : c.validate = .ok () := by decide
  let keep : String → Bool := ["type", "host", "port", "readonly"].contains
  have hkeep : ∀ m ∈ c.members, keep m.1 = false → m ∈ defaults := by
    simp [c, keep, members, settings, defaults, Json.setMembers, new]
  have hperm : form.Perm (c.members.filter fun m => keep m.1) := .swap ..
  have hreadable : ∀ m ∈ form, m.2.Readable := fun m hm =>
    c.readable_members m (List.mem_of_mem_filter (hperm.mem_iff.1 hm))
  exact ⟨hc, hvalid, (forms_lossless c hc hvalid).2.1 keep hkeep _ form hperm
    (Json.read?_write (.record hreadable))⟩

end ClientConfig

end Searchlight
