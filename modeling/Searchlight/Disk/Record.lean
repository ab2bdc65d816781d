import Searchlight.Binary.Basic

/-!
# Records

An index on disk knows a document as a record: its id, its stored fields, and the terms that it
is found by. The first two fields of every index are its own, one for the ids and one for the
stored fields; only the ids of them are searched. A text that is too long is no term, whether it is
an id or stands in another field.
-/

namespace Searchlight.Disk

/-- What a field of a document is found by. -/
inductive TermValue where
  | text (s : String)
  | number (x : Double)
  /-- A date in whole seconds. -/
  | date (seconds : Int)
  deriving DecidableEq

/-- A value in a field; fields are told by their numbers. -/
structure Term where
  field : Nat
  value : TermValue
  deriving DecidableEq

/-- The bytes of the longest text that can be a term. -/
def longestTerm : Nat := 65530

def isTerm (s : String) : Bool := s.utf8ByteSize ≤ longestTerm

/-- The terms of texts in a field; what is no term is left out. -/
def textTerms (field : Nat) (texts : List String) : List Term :=
  (texts.filter isTerm).map fun s => ⟨field, .text s⟩

def idField : Nat := 0

def storedField : Nat := 1

def Term.ofId (id : String) : Term := ⟨idField, .text id⟩

/-- A document as the index holds it. -/
structure Record where
  id : String
  /-- The stored fields as JSON. -/
  stored : String
  terms : List Term
  deriving DecidableEq

namespace Record

def occurrences (r : Record) (t : Term) : Nat := r.terms.count t

def fieldLength (r : Record) (field : Nat) : Nat := r.terms.countP (·.field == field)

end Record

end Searchlight.Disk
