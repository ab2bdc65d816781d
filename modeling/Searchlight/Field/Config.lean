import Searchlight.Json.Decode

/-!
# Field configurations

A field has a kind, which says how its values are read, and says whether they are searchable
and whether they come back with hits.
-/

namespace Searchlight

/-- How the values of a field are read. -/
inductive FieldKind where
  /-- Words. -/
  | freeText
  /-- The whole value. -/
  | exactMatch
  | numeric
  | date
  /-- Accepted and thrown away. -/
  | ignored
  deriving DecidableEq, Repr

namespace FieldKind

/-- The name of a kind in messages. -/
def name : FieldKind → String
  | freeText => "free-text"
  | exactMatch => "exact-match"
  | numeric => "numeric"
  | date => "date"
  | ignored => "ignored"

/-- The name of a kind in stored data. -/
def key : FieldKind → String
  | freeText => "free_text"
  | exactMatch => "exact_match"
  | numeric => "numeric"
  | date => "date"
  | ignored => "ignored"

def all : List FieldKind := [freeText, exactMatch, numeric, date, ignored]

def ofKey? (s : String) : Option FieldKind := all.find? (·.key == s)

end FieldKind

structure FieldConfig where
  kind : FieldKind
  indexed : Bool
  stored : Bool
  deriving DecidableEq, Repr

namespace FieldConfig

/-- A kind with its usual flags: all but ignored fields are indexed and stored. -/
def ofKind (kind : FieldKind) : FieldConfig := ⟨kind, kind != .ignored, kind != .ignored⟩

def freeText : FieldConfig := ofKind .freeText
def exactMatch : FieldConfig := ofKind .exactMatch
def numeric : FieldConfig := ofKind .numeric
def date : FieldConfig := ofKind .date
def ignored : FieldConfig := ofKind .ignored

/-- Values of the field leave no trace. -/
def isDiscarded (c : FieldConfig) : Bool := c.kind == .ignored || (!c.indexed && !c.stored)

def isSearchable (c : FieldConfig) : Bool := c.indexed && c.kind != .ignored

def toJson (c : FieldConfig) : Json :=
  .record [("kind", .ofString c.kind.key), ("indexed", .bool c.indexed), ("stored", .bool c.stored)]

/-- Reads a configuration: all three fields must be there. -/
def ofJson? (j : Json) : Option FieldConfig := do
  let [kind, indexed, stored] ← j.fields? ["kind", "indexed", "stored"] false | none
  some ⟨← kind.required fun j => j.choice?.bind FieldKind.ofKey?,
    ← indexed.required Json.bool?, ← stored.required Json.bool?⟩

end FieldConfig

end Searchlight
