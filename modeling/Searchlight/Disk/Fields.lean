import Searchlight.Disk.Record
import Searchlight.Document.Json
import Searchlight.Document.Prepared
import Searchlight.Schema.Basic

/-!
# Fields of an index on disk

An index is made with its fields and never gets others. They are numbered in the order of
their names after the two that every index has. The schema of a store is kept beside the index,
and both have to agree: each indexed field of the schema is a field of the index.
-/

namespace Searchlight.Disk

/-- How the index takes the values of a field. -/
inductive FieldType where
  /-- A term for each token. -/
  | tokens
  /-- One term. -/
  | whole
  | number
  | date
  deriving DecidableEq, Repr

/-- The type of an indexed field; an ignored field has none. -/
def FieldType.ofKind? : FieldKind → Option FieldType
  | .freeText => some tokens
  | .exactMatch => some whole
  | .numeric => some number
  | .date => some date
  | .ignored => none

/-- The fields of an index after its own two, in the order of their numbers. -/
abbrev Layout := List (String × FieldType)

namespace Layout

/-- The names of the fields that every index has, in the order of their numbers. -/
def reservedNames : List String := ["_id", "_stored"]

def number? (l : Layout) (name : String) : Option Nat :=
  (reservedNames ++ l.map (·.1)).findIdx? (· == name)

/-- The type of a field; the stored fields have none. -/
def type? (l : Layout) : Nat → Option FieldType
  | 0 => some .whole
  | 1 => none
  | n + 2 => (l[n]?).map (·.2)

end Layout

/-! ## Dates -/

/-- A number of nanoseconds in 64 bits, cut to whole seconds toward zero. -/
def wholeSeconds (nanos : Int) : Int := (Int.bmod nanos (1 <<< 64)).tdiv 1000000000

/-- The seconds that a date is indexed by. -/
def indexedSeconds (t : Instant) : Int :=
  wholeSeconds ((t.seconds * 1000000 + t.nanos / 1000) * 1000)

/-- The seconds that a date is searched by. -/
def searchedSeconds (t : Instant) : Int := wholeSeconds (t.seconds * 1000000000)

/-- Takes free text apart into tokens. -/
abbrev Analyzer := String → List String

/-- The terms that a value gives a field of this type. What is no text gives a text field none;
a field of numbers or dates takes nothing else. -/
def FieldType.terms? (type : FieldType) (analyze : Analyzer) (number : Nat) (v : IndexValue) :
    Option (List Term) :=
  match type, v with
  | tokens, .text s => some (textTerms number (analyze s))
  | whole, .text s => some (textTerms number [s])
  | tokens, _ | whole, _ => some []
  | .number, .number x => some [⟨number, .number x⟩]
  | date, .date t => some [⟨number, .date (indexedSeconds t)⟩]
  | .number, _ | date, _ => none

/-! ## Field maps -/

/-- The schema of a store with the numbers of its indexed fields. -/
structure FieldMap where
  schema : Schema
  layout : Layout
  numbered : KeyMap (Nat × FieldConfig)

namespace FieldMap

def indexedFields (s : Schema) : Layout :=
  s.toList.filterMap fun f =>
    if f.2.indexed then (FieldType.ofKind? f.2.kind).map (f.1, ·) else none

def numbering (layout : Layout) (s : Schema) : KeyMap (Nat × FieldConfig) :=
  .ofList (s.toList.filterMap fun f =>
    if f.2.indexed && f.2.kind != .ignored then
      (layout.number? f.1).map fun n => (f.1, n, f.2)
    else none)

/-- The schema over an index that is made for it. -/
def build (s : Schema) : FieldMap := ⟨s, indexedFields s, numbering (indexedFields s) s⟩

/-- The schema over an index that is there; a field that the index lacks is an error. -/
def ofLayout (layout : Layout) (s : Schema) : Except Error FieldMap :=
  match (indexedFields s).find? fun f => (layout.number? f.1).isNone with
  | some (name, _) => .error (.config s!"index has no field '{name}'; sidecar out of date")
  | none => .ok ⟨s, layout, numbering layout s⟩

/-- The numbers of the free-text fields in the order of their names. -/
def freeTextFields (m : FieldMap) : List Nat :=
  (m.numbered.entries.filter (·.2.2.kind == .freeText)).map (·.2.1)

/-- The terms of one field of a document. A field that is not searched has none; there are none
to be had when the field cannot take a value. -/
def fieldTerms? (m : FieldMap) (analyze : Analyzer) (f : PreparedField) : Option (List Term) :=
  match (m.numbered.get? f.name).bind fun c => (m.layout.type? c.1).map (c.1, ·) with
  | some (n, type) => (f.values.mapM (type.terms? analyze n)).map List.flatten
  | none => some []

/-- The record of a document, unless a field cannot take its values. -/
def record? (m : FieldMap) (analyze : Analyzer) (id : String) (d : PreparedDocument) :
    Option Record :=
  (d.fields.mapM (m.fieldTerms? analyze)).map fun terms =>
    ⟨id, d.stored.toJsonText, textTerms idField [id] ++ terms.flatten⟩

end FieldMap

end Searchlight.Disk
