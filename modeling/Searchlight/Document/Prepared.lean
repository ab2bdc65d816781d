import Searchlight.Field.Coercion
import Searchlight.Schema.Registry

/-!
# Prepared documents

Before a document is indexed its fields are settled: dropped and discarded fields are left
out, every value has a kind that the backend accepts and is coerced to what its field
indexes. The values of stored fields are kept as they were given.
-/

namespace Searchlight

structure PreparedField where
  name : String
  config : FieldConfig
  /-- What is indexed, in the order of the document. -/
  values : List IndexValue
  /-- What is stored, in the order of the document. -/
  raw : List Value

def PreparedField.texts (f : PreparedField) : List String :=
  f.values.filterMap fun v =>
    match v with
    | .text s => some s
    | _ => none

/-- A document whose fields are settled. -/
structure PreparedDocument where
  fields : List PreparedField

namespace PreparedDocument

def field? (d : PreparedDocument) (name : String) : Option PreparedField :=
  d.fields.find? (·.name == name)

/-- The stored part of the document, field after field. -/
def stored (d : PreparedDocument) : Document :=
  ⟨(d.fields.filter (·.config.stored)).flatMap fun f => f.raw.map (f.name, ·)⟩

end PreparedDocument

namespace Document

/-- Checks the kind of one value and coerces it; nothing for an ignored field. -/
def prepareValue (kinds : List ValueKind) (backend name : String) (config : FieldConfig)
    (v : Value) : Except Error (Option IndexValue) :=
  if kinds.contains v.kind then config.coerce name v
  else
    let kind := v.kind.name
    .error (.indexing s!"backend '{backend}' does not accept {kind} values (field '{name}')")

def prepareField (kinds : List ValueKind) (backend name : String) (config : FieldConfig)
    (values : List Value) : Except Error PreparedField := do
  let coerced ← values.mapM (prepareValue kinds backend name config)
  .ok ⟨name, config, coerced.filterMap id, if config.stored then values else []⟩

/-- The configuration of a field that leaves a trace. -/
def keptConfig (plan : DocumentPlan) (name : String) : Option FieldConfig :=
  match plan.fields.get? name with
  | some (.field config) => if config.isDiscarded then none else some config
  | _ => none

/-- Settles the fields of a document as planned, for a backend and the kinds it accepts. -/
def prepare (d : Document) (plan : DocumentPlan) (kinds : List ValueKind) (backend : String) :
    Except Error PreparedDocument := do
  let kept := d.names.filterMap fun name => (keptConfig plan name).map (name, ·)
  let fields ← kept.mapM fun f => prepareField kinds backend f.1 f.2 (d.values f.1)
  .ok ⟨fields⟩

end Document

end Searchlight
