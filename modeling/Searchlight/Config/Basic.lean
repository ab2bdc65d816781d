import Searchlight.Config.Toml
import Searchlight.Json.Reader
import Searchlight.Options
import Searchlight.Schema.Registry
import Searchlight.Text.Words

/-!
# Client configurations

A configuration names a backend, carries its options and says how the client treats unknown
fields and pages. It is read from TOML or JSON, both with the same keys: none but the known
ones, the type always there, the others with a default.
-/

namespace Searchlight

structure ClientConfig where
  backend : String
  path : Option String
  host : Option String
  port : Option Nat
  keyPrefix : Option String
  timeoutMs : Option Nat
  writerMemoryBytes : Option Nat
  readonly : Bool
  unknownFields : UnknownFieldPolicy
  /-- The hits that are asked for at a time. -/
  pageSize : Nat
  deriving DecidableEq, Repr

namespace ClientConfig

def defaultPageSize : Nat := 20

/-- A configuration of the backend with nothing else set. -/
def new (backend : String) : ClientConfig where
  backend
  path := none
  host := none
  port := none
  keyPrefix := none
  timeoutMs := none
  writerMemoryBytes := none
  readonly := false
  unknownFields := .guess
  pageSize := defaultPageSize

/-- Settings that the reader lets through must still make sense. -/
def validate (c : ClientConfig) : Except Error Unit :=
  if (Text.trim c.backend).isEmpty then .error (.config "'type' must name a backend")
  else if c.pageSize = 0 then .error (.config "'page_size' must be at least 1")
  else .ok ()

/-- The options that the backend is opened with. -/
def backendOptions (c : ClientConfig) : BackendOptions where
  path := c.path
  host := c.host
  port := c.port
  keyPrefix := c.keyPrefix
  timeoutMs := c.timeoutMs
  writerMemoryBytes := c.writerMemoryBytes
  readonly := c.readonly

/-! ## As JSON -/

/-- Every setting with its value, if it is set. -/
def settings (c : ClientConfig) : List (String × Option Json) :=
  [("type", some (Json.ofString c.backend)), ("path", c.path.map Json.ofString),
    ("host", c.host.map Json.ofString), ("port", c.port.map Json.ofNat),
    ("prefix", c.keyPrefix.map Json.ofString), ("timeout_ms", c.timeoutMs.map Json.ofNat),
    ("writer_memory_bytes", c.writerMemoryBytes.map Json.ofNat),
    ("readonly", some (Json.bool c.readonly)),
    ("unknown_fields", some (Json.ofString c.unknownFields.key)),
    ("page_size", some (Json.ofNat c.pageSize))]

def members (c : ClientConfig) : List (String × Json) := Json.setMembers c.settings

def toJson (c : ClientConfig) : Json := .record c.members

def keys : List String :=
  ["type", "path", "host", "port", "prefix", "timeout_ms", "writer_memory_bytes", "readonly",
    "unknown_fields", "page_size"]

def ofJson? (j : Json) : Option ClientConfig := do
  let [type, path, host, port, keyPrefix, timeoutMs, writerMemoryBytes, readonly, unknown,
    pageSize] ← j.fields? keys true | none
  some {
    backend := ← type.required Json.string?
    path := ← path.withDefault none (Json.nullable? Json.string?)
    host := ← host.withDefault none (Json.nullable? Json.string?)
    port := ← port.withDefault none (Json.nullable? (Json.nat? 16))
    keyPrefix := ← keyPrefix.withDefault none (Json.nullable? Json.string?)
    timeoutMs := ← timeoutMs.withDefault none (Json.nullable? (Json.nat? 64))
    writerMemoryBytes := ← writerMemoryBytes.withDefault none (Json.nullable? (Json.nat? 64))
    readonly := ← readonly.withDefault false Json.bool?
    unknownFields :=
      ← unknown.withDefault .guess fun j => j.choice?.bind UnknownFieldPolicy.ofKey?
    pageSize := ← pageSize.withDefault defaultPageSize (Json.nat? 64) }

def ofJsonText (s : String) : Except Error ClientConfig :=
  match (Json.read? s).bind ofJson? with
  | none => .error (.config "invalid JSON config")
  | some c => c.validate.map fun _ => c

/-! ## As TOML -/

def tomlString? : Toml → Option String
  | .string s => some s
  | _ => none

def tomlBool? : Toml → Option Bool
  | .bool b => some b
  | _ => none

/-- Reads a natural number below a bound out of TOML. -/
def tomlNat? (bits : Nat) : Toml → Option Nat
  | .integer n => if 0 ≤ n ∧ n.toNat < 1 <<< bits then some n.toNat else none
  | _ => none

/-- Reads a policy out of TOML: its name, or a table that gives its name something empty. -/
def tomlPolicy? : Toml → Option UnknownFieldPolicy
  | .string s => UnknownFieldPolicy.ofKey? s
  | .table _ [(k, .table _ [])] => UnknownFieldPolicy.ofKey? k
  | .table _ [(k, .array [])] => UnknownFieldPolicy.ofKey? k
  | _ => none

def ofToml? (es : Toml.Entries) : Option ClientConfig :=
  let field {α : Type} (key : String) (read : Toml → Option α) : Option (Option α) :=
    match Toml.lookup key es with
    | none => some none
    | some v => (read v).map some
  if es.all fun e => keys.contains e.1 then do
    some {
      backend := ← ← field "type" tomlString?
      path := ← field "path" tomlString?
      host := ← field "host" tomlString?
      port := ← field "port" (tomlNat? 16)
      keyPrefix := ← field "prefix" tomlString?
      timeoutMs := ← field "timeout_ms" (tomlNat? 64)
      writerMemoryBytes := ← field "writer_memory_bytes" (tomlNat? 64)
      readonly := (← field "readonly" tomlBool?).getD false
      unknownFields := (← field "unknown_fields" tomlPolicy?).getD .guess
      pageSize := (← field "page_size" (tomlNat? 64)).getD defaultPageSize }
  else none

def ofTomlText (s : String) : Except Error ClientConfig :=
  match (Toml.read? s).bind ofToml? with
  | none => .error (.config "invalid TOML config")
  | some c => c.validate.map fun _ => c

/-! ## Files -/

/-- The part of a file name after its last point; a point in front begins no such part. -/
def fileExtension (path : String) : Option String :=
  let name := (path.toList.reverse.takeWhile (· ≠ '/'))
  match name.dropWhile (· ≠ '.') with
  | '.' :: stem =>
    if stem.isEmpty || name.reverse == ['.', '.'] then none
    else some (String.ofList (name.takeWhile (· ≠ '.')).reverse)
  | _ => none

/-- Reads the content of a configuration file: JSON by its name, TOML otherwise. -/
def ofFile (path content : String) : Except Error ClientConfig :=
  if fileExtension path = some "json" then ofJsonText content else ofTomlText content

/-- Loads a configuration from a file, given its content if there is such a file. -/
def load (path : String) : Option String → Except Error ClientConfig
  | some content => ofFile path content
  | none => .error (.ioAt path "No such file or directory (os error 2)")

end ClientConfig

end Searchlight
