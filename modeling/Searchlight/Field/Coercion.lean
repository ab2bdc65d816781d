import Searchlight.Document.Value
import Searchlight.Error
import Searchlight.Field.Config
import Searchlight.Text.Words

/-!
# Coercion

A value is brought into the form its field indexes: text for free-text and exact-match
fields, a number or an instant for the others. Text is read as a number or a timestamp where
it can be, white space around it left out.
-/

namespace Searchlight

/-- A value in the form its field indexes. -/
inductive IndexValue where
  | text (s : String)
  | number (x : Double)
  | date (t : Instant)
  deriving DecidableEq

namespace FieldConfig

def coerceNumber (field : String) : Value → Except Error IndexValue
  | .number x => .ok (.number x)
  | .text s =>
    match Binary.read? .double (Text.trim s) with
    | some x => .ok (.number x)
    | none => .error (.indexing s!"field '{field}' expects a number, got '{s}'")
  | v =>
    let kind := v.kind.name
    .error (.indexing s!"field '{field}' expects a number, got a {kind} value")

def coerceDate (field : String) : Value → Except Error IndexValue
  | .dateTime t => .ok (.date t)
  | .text s =>
    match Rfc3339.read? (Text.trim s) with
    | some t => .ok (.date t)
    | none => .error (.indexing s!"field '{field}' expects a timestamp, got '{s}'")
  | v =>
    let kind := v.kind.name
    .error (.indexing s!"field '{field}' expects a timestamp, got a {kind} value")

/-- The value in the form the field indexes; nothing for an ignored field. -/
def coerce (c : FieldConfig) (field : String) (v : Value) : Except Error (Option IndexValue) :=
  match c.kind with
  | .ignored => .ok none
  | .freeText | .exactMatch => .ok (some (.text v.toText))
  | .numeric => (coerceNumber field v).map some
  | .date => (coerceDate field v).map some

end FieldConfig

end Searchlight
