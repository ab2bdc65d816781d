import Searchlight.Error
import Searchlight.Field.Config
import Searchlight.Json.Reader
import Searchlight.Json.Writer
import Searchlight.KeyMap
import Searchlight.Text.Words

/-!
# Schemas

A schema gives each field its configuration. It is stored as JSON with the version of the
format; a schema of another version is refused.
-/

namespace Searchlight

/-- The configuration of each field, in the order of the names. -/
structure Schema where
  fields : KeyMap FieldConfig
  deriving DecidableEq

namespace Schema

def empty : Schema := ⟨∅⟩

instance : Inhabited Schema := ⟨empty⟩

def get? (s : Schema) (name : String) : Option FieldConfig := s.fields.get? name

def contains (s : Schema) (name : String) : Bool := s.fields.contains name

def insert (s : Schema) (name : String) (config : FieldConfig) : Schema :=
  ⟨s.fields.insert name config⟩

def toList (s : Schema) : List (String × FieldConfig) := s.fields.entries

/-- The schema of a list of fields, a later one replacing an earlier one. -/
def ofList (fields : List (String × FieldConfig)) : Schema := ⟨.ofList fields⟩

def size (s : Schema) : Nat := s.fields.size

/-- The schema overwritten with a list of fields from left to right. -/
def insertAll (s : Schema) (fields : List (String × FieldConfig)) : Schema :=
  fields.foldl (fun s f => s.insert f.1 f.2) s

/-! ## Stored form -/

def formatVersion : Nat := 1

def toJson (s : Schema) : Json :=
  .record [("format_version", .ofNat formatVersion),
    ("fields", .record (s.toList.map fun f => (f.1, f.2.toJson)))]

def toJsonText (s : Schema) : String := s.toJson.write

def ofJson? (j : Json) : Option (Nat × Schema) := do
  let [version, fields] ← j.fields? ["format_version", "fields"] false | none
  let version ← version.required (Json.nat? 32)
  let entries ← fields.required Json.entries?
  let fields ← entries.mapM fun e => (FieldConfig.ofJson? e.2).map (e.1, ·)
  some (version, ofList fields)

/-- Reads a stored schema; blank text is the empty schema. -/
def ofJsonText (s : String) : Except Error Schema :=
  if (Text.trim s).isEmpty then .ok empty
  else
    match (Json.read? s).bind ofJson? with
    | none => .error (.serialization "the text is no stored schema")
    | some (version, schema) =>
      if version = formatVersion then .ok schema
      else
        .error (.config
          s!"unsupported schema format version {version} (expected {formatVersion})")

end Schema

end Searchlight
