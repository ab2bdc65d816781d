import Searchlight.Error
import Searchlight.Json.Decode

/-!
# Backend options

Every backend takes its options from one record. It states which of them it knows, and any
other one that is set is refused; readonly is known to all.
-/

namespace Searchlight

/-- The members of the settings that have a value. -/
def Json.setMembers (settings : List (String × Option Json)) : List (String × Json) :=
  settings.filterMap fun m => m.2.map (m.1, ·)

/-- The options a backend may be opened with. -/
structure BackendOptions where
  /-- The directory of a store on disk. -/
  path : Option String
  host : Option String
  port : Option Nat
  /-- What the keys of a store begin with. -/
  keyPrefix : Option String
  timeoutMs : Option Nat
  /-- The memory that a writer may fill before it writes. -/
  writerMemoryBytes : Option Nat
  readonly : Bool
  deriving DecidableEq, Repr

namespace BackendOptions

def none : BackendOptions := ⟨.none, .none, .none, .none, .none, .none, false⟩

instance : Inhabited BackendOptions := ⟨none⟩

/-- The names of the options in the order in which they are checked. -/
def names : List String := ["path", "host", "port", "prefix", "timeout_ms", "writer_memory_bytes"]

/-- Every option with its value, if it is set. -/
def settings (o : BackendOptions) : List (String × Option Json) :=
  [("path", o.path.map Json.ofString), ("host", o.host.map Json.ofString),
    ("port", o.port.map Json.ofNat), ("prefix", o.keyPrefix.map Json.ofString),
    ("timeout_ms", o.timeoutMs.map Json.ofNat),
    ("writer_memory_bytes", o.writerMemoryBytes.map Json.ofNat)]

/-- The names of the options that are set; readonly is not among them. -/
def setOptions (o : BackendOptions) : List String :=
  (if o.path.isSome then ["path"] else []) ++
    (if o.host.isSome then ["host"] else []) ++
    (if o.port.isSome then ["port"] else []) ++
    (if o.keyPrefix.isSome then ["prefix"] else []) ++
    (if o.timeoutMs.isSome then ["timeout_ms"] else []) ++
    (if o.writerMemoryBytes.isSome then ["writer_memory_bytes"] else [])

/-- Refuses the first set option that a backend does not know. -/
def ensureRecognized (o : BackendOptions) (backend : String) (recognized : List String) :
    Except Error Unit :=
  match o.setOptions.find? fun option => !recognized.contains option with
  | some option => .error (.unsupportedOption option backend)
  | .none => .ok ()

def toJson (o : BackendOptions) : Json :=
  .record (Json.setMembers o.settings ++ [("readonly", .bool o.readonly)])

/-- Reads options; other members are passed over. -/
def ofJson? (j : Json) : Option BackendOptions := do
  let [path, host, port, keyPrefix, timeoutMs, writerMemoryBytes, readonly] ←
    j.fields? (names ++ ["readonly"]) false | .none
  some {
    path := ← path.omissible Json.string?
    host := ← host.omissible Json.string?
    port := ← port.omissible (Json.nat? 16)
    keyPrefix := ← keyPrefix.omissible Json.string?
    timeoutMs := ← timeoutMs.omissible (Json.nat? 64)
    writerMemoryBytes := ← writerMemoryBytes.omissible (Json.nat? 64)
    readonly := ← readonly.withDefault false Json.bool? }

end BackendOptions

end Searchlight
