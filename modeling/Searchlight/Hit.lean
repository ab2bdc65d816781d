import Searchlight.Document.Json

/-!
# Results

A search answers with a window of hits, each with its score, and the number of all matches.
-/

namespace Searchlight

structure StoredDocument where
  id : String
  fields : Document

structure SearchHit where
  id : String
  score : Single
  fields : Document

structure ResultSet where
  hits : List SearchHit
  /-- The number of all matches, where the backend knows it. -/
  total : Option Nat

namespace ResultSet

def empty : ResultSet := ⟨[], some 0⟩

def size (r : ResultSet) : Nat := r.hits.length

def isEmpty (r : ResultSet) : Bool := r.hits.isEmpty

end ResultSet

def SearchHit.toJson (h : SearchHit) : Json :=
  .record [("id", .ofString h.id), ("score", .ofSingle h.score), ("fields", h.fields.toJson)]

def ResultSet.toJson (r : ResultSet) : Json :=
  .record [("hits", .array (r.hits.map SearchHit.toJson)),
    ("total", match r.total with | some n => .ofNat n | none => .null)]

end Searchlight
