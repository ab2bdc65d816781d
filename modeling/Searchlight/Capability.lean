import Searchlight.Document.Value
import Searchlight.Json.Basic

/-!
# Capabilities

A backend states what it accepts, which query operators it has and when a written document
is safe, visible and named.
-/

namespace Searchlight

/-- When a changed field reaches the documents that are there. -/
inductive ReindexLatency where
  | immediate
  | eventual
  deriving DecidableEq, Repr

/-- How the fields of a store may change. -/
inductive SchemaTier where
  /-- Not at all once a document is indexed. -/
  | fixed
  /-- Fields may be added and never changed. -/
  | appendOnly
  | mutable (latency : ReindexLatency)
  deriving DecidableEq, Repr

/-- A point on the way of a document into the store. -/
inductive SyncPoint where
  | atCall
  | atCommit
  | atFlush
  deriving DecidableEq, Repr

/-- The nodes of a query. -/
inductive QueryOperator where
  | freeText
  | field
  | and
  | or
  | not
  | xor
  | weight
  deriving DecidableEq, Repr

structure Capabilities where
  schemaTier : SchemaTier
  /-- When a document outlives a failure; never for a store in memory. -/
  durability : Option SyncPoint
  visibility : SyncPoint
  idAssignment : SyncPoint
  valueKinds : List ValueKind
  operators : List QueryOperator
  /-- A store has at most one writer at a time. -/
  singleWriter : Bool
  maxRetries : Nat
  deriving DecidableEq, Repr

namespace ValueKind

def all : List ValueKind := [text, number, dateTime, document]

def key : ValueKind → String
  | text => "text"
  | number => "number"
  | dateTime => "date_time"
  | document => "document"

end ValueKind

namespace SyncPoint

def name : SyncPoint → String
  | atCall => "at-call"
  | atCommit => "at-commit"
  | atFlush => "at-flush"

def key : SyncPoint → String
  | atCall => "at_call"
  | atCommit => "at_commit"
  | atFlush => "at_flush"

end SyncPoint

namespace QueryOperator

def all : List QueryOperator := [freeText, field, and, or, not, xor, weight]

def name : QueryOperator → String
  | freeText => "FREE_TEXT"
  | field => "FIELD"
  | and => "AND"
  | or => "OR"
  | not => "NOT"
  | xor => "XOR"
  | weight => "WEIGHT"

def key : QueryOperator → String
  | freeText => "free_text"
  | field => "field"
  | and => "and"
  | or => "or"
  | not => "not"
  | xor => "xor"
  | weight => "weight"

end QueryOperator

namespace SchemaTier

def toJson : SchemaTier → Json
  | fixed => .ofString "fixed"
  | appendOnly => .ofString "append_only"
  | mutable .immediate => .record [("mutable", .ofString "immediate")]
  | mutable .eventual => .record [("mutable", .ofString "eventual")]

def description : SchemaTier → String
  | fixed => "Fixed"
  | appendOnly => "AppendOnly"
  | mutable .immediate => "Mutable(Immediate)"
  | mutable .eventual => "Mutable(Eventual)"

end SchemaTier

namespace Capabilities

def supportsOperator (c : Capabilities) (op : QueryOperator) : Bool := c.operators.contains op

def supportsValue (c : Capabilities) (kind : ValueKind) : Bool := c.valueKinds.contains kind

/-- Writes are not visible before a commit. -/
def requiresCommit (c : Capabilities) : Bool := c.visibility != .atCall

def toJson (c : Capabilities) : Json :=
  .record [
    ("schema_tier", c.schemaTier.toJson),
    ("indexing", .record [
      ("durability", match c.durability with | some p => .ofString p.key | none => .null),
      ("visibility", .ofString c.visibility.key),
      ("id_assignment", .ofString c.idAssignment.key)]),
    ("value_kinds", .array (c.valueKinds.map fun k => .ofString k.key)),
    ("operators", .array (c.operators.map fun o => .ofString o.key)),
    ("single_writer", .bool c.singleWriter),
    ("max_retries", .ofNat c.maxRetries)]

end Capabilities

end Searchlight
