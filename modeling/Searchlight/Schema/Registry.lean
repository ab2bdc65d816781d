import Searchlight.Capability
import Searchlight.Document.Basic
import Searchlight.Schema.Basic

/-!
# Registries

A registry holds the schema of one client and lets it change only as its tier allows. Fields
are registered one by one or in a batch; a batch is checked entry by entry against a copy
that the earlier entries have changed, and is published as a whole or not at all. Each
publication raises the generation by one.
-/

namespace Searchlight

/-- What is done with a field that the schema does not know. -/
inductive UnknownFieldPolicy where
  | ignore
  /-- Ignore it and warn. -/
  | ignoreWarn
  | reject
  /-- Guess a configuration and register it. -/
  | guess
  deriving DecidableEq, Repr

namespace UnknownFieldPolicy

def all : List UnknownFieldPolicy := [ignore, ignoreWarn, reject, guess]

def key : UnknownFieldPolicy → String
  | ignore => "ignore"
  | ignoreWarn => "ignore_warn"
  | reject => "reject"
  | guess => "guess"

def ofKey? (s : String) : Option UnknownFieldPolicy := all.find? (·.key == s)

def description : UnknownFieldPolicy → String
  | ignore => "Ignore"
  | ignoreWarn => "IgnoreWarn"
  | reject => "Reject"
  | guess => "Guess"

end UnknownFieldPolicy

abbrev Guesser := String → Value → FieldConfig

namespace Guesser

def freeText : Guesser := fun _ _ => .freeText

/-- Numbers and instants give fields of their own kinds, everything else free text. -/
def byValue : Guesser := fun _ v =>
  match v with
  | .number _ => .numeric
  | .dateTime _ => .date
  | _ => .freeText

end Guesser

/-- What becomes of a field of a document. -/
inductive Resolution where
  | field (config : FieldConfig)
  | drop
  deriving DecidableEq, Repr

structure DocumentPlan where
  fields : KeyMap Resolution
  /-- The guessed fields in the order of the document. -/
  newFields : List (String × FieldConfig)
  /-- The dropped fields in the order of the document. -/
  ignored : List String

def DocumentPlan.empty : DocumentPlan := ⟨∅, [], []⟩

/-- The schema of one client with the rules for changing it. -/
structure Registry where
  tier : SchemaTier
  schema : Schema
  frozen : Bool
  generation : Nat
  guesser : Guesser

namespace Registry

def new (tier : SchemaTier) (schema : Schema) (frozen : Bool) (guesser : Guesser) : Registry :=
  ⟨tier, schema, frozen, 0, guesser⟩

def resolve (r : Registry) (name : String) : Option FieldConfig := r.schema.get? name

/-! ## Registration -/

/-- Whether the tier lets a schema take one field with a configuration that it does not have. -/
def checkChange (tier : SchemaTier) (frozen : Bool) (known : Bool) (name : String) :
    Except Error Unit :=
  match tier with
  | .fixed =>
    if frozen then
      .error (.schemaConflict name "schema is fixed once documents have been indexed")
    else .ok ()
  | .appendOnly =>
    if known then
      .error (.schemaConflict name
        "existing field configuration cannot change on an append-only schema")
    else .ok ()
  | .mutable _ => .ok ()

/-- The schema with one entry more, and whether that changed it. -/
def stageEntry (tier : SchemaTier) (frozen : Bool) (schema : Schema)
    (entry : String × FieldConfig) : Except Error (Schema × Bool) :=
  if schema.get? entry.1 = some entry.2 then .ok (schema, false)
  else do
    checkChange tier frozen (schema.contains entry.1) entry.1
    .ok (schema.insert entry.1 entry.2, true)

/-- The schema that a batch leads to, and whether any entry changed it. -/
def stage (tier : SchemaTier) (frozen : Bool) (schema : Schema) :
    List (String × FieldConfig) → Except Error (Schema × Bool)
  | [] => .ok (schema, false)
  | e :: es => do
    let (schema, changed) ← stageEntry tier frozen schema e
    let (schema, changedLater) ← stage tier frozen schema es
    .ok (schema, changed || changedLater)

/-- Checks a batch without publishing anything. -/
def checkAll (r : Registry) (entries : List (String × FieldConfig)) : Except Error Unit :=
  (stage r.tier r.frozen r.schema entries).map fun _ => ()

/-- Publishes a batch, or nothing when one of its entries is refused. -/
def registerAll (r : Registry) (entries : List (String × FieldConfig)) : Except Error Registry :=
  (stage r.tier r.frozen r.schema entries).map fun (schema, changed) =>
    if changed then { r with schema, generation := r.generation + 1 } else r

def register (r : Registry) (name : String) (config : FieldConfig) : Except Error Registry :=
  r.registerAll [(name, config)]

/-- No more changes on the fixed tier; without effect on the others. -/
def freeze (r : Registry) : Registry :=
  if r.tier = .fixed then { r with frozen := true } else r

/-! ## Unknown fields -/

def warning (name : String) : String := s!"Ignoring unknown field '{name}'"

/-- What becomes of one field; a guessed configuration is registered at once. -/
def resolveOrApply (r : Registry) (name : String) (sample : Value) (policy : UnknownFieldPolicy) :
    Except Error (Resolution × Registry) :=
  match r.resolve name with
  | some config => .ok (.field config, r)
  | none =>
    match policy with
    | .ignore | .ignoreWarn => .ok (.drop, r)
    | .reject => .error (.unknownField name)
    | .guess =>
      let config := r.guesser name sample
      (r.register name config).map fun r => (.field config, r)

/-- The warnings that go with resolving one field. -/
def resolveWarnings (r : Registry) (name : String) (policy : UnknownFieldPolicy) : List String :=
  if policy = .ignoreWarn ∧ r.resolve name = none then [warning name] else []

/-- Plans the named fields of a document one after the other. -/
def planNames (r : Registry) (doc : Document) (policy : UnknownFieldPolicy) :
    DocumentPlan → List String → Except Error DocumentPlan
  | plan, [] => .ok plan
  | plan, name :: names =>
    match r.resolve name with
    | some config =>
      planNames r doc policy { plan with fields := plan.fields.insert name (.field config) } names
    | none =>
      match policy with
      | .ignore | .ignoreWarn =>
        planNames r doc policy
          { plan with
            fields := plan.fields.insert name .drop
            ignored := plan.ignored ++ [name] } names
      | .reject => .error (.unknownField name)
      | .guess =>
        let config := r.guesser name ((doc.values name).headD (.text ""))
        planNames r doc policy
          { plan with
            fields := plan.fields.insert name (.field config)
            newFields := plan.newFields ++ [(name, config)] } names

/-- What becomes of every field of a document; the registry stays as it is. -/
def plan (r : Registry) (doc : Document) (policy : UnknownFieldPolicy) :
    Except Error DocumentPlan :=
  planNames r doc policy .empty doc.names

def planWarnings (policy : UnknownFieldPolicy) (plan : DocumentPlan) : List String :=
  if policy = .ignoreWarn then plan.ignored.map warning else []

def description (r : Registry) : String :=
  let tier := r.tier.description
  let fields := r.schema.size
  let generation := r.generation
  "SchemaRegistry \x7b tier: " ++ tier ++ ", fields: " ++ toString fields ++
    ", generation: " ++ toString generation ++ " \x7d"

end Registry

end Searchlight
