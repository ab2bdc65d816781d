import Searchlight.Document.Value
import Searchlight.KeyMap

/-!
# Documents

A document is a list of named values in the order they were given. A name may repeat, which
gives its field several values.
-/

namespace Searchlight

/-- An ordered list of named values. -/
structure Document where
  pairs : List (String × Value)

namespace Document

instance : Inhabited Document := ⟨⟨[]⟩⟩

def ofFields (fields : List (String × List Value)) : Document :=
  ⟨fields.flatMap fun f => f.2.map (f.1, ·)⟩

def push (d : Document) (name : String) (value : Value) : Document := ⟨d.pairs ++ [(name, value)]⟩

def size (d : Document) : Nat := d.pairs.length

def isEmpty (d : Document) : Bool := d.pairs.isEmpty

/-- The values of a field in order. -/
def values (d : Document) (name : String) : List Value :=
  d.pairs.filterMap fun p => if p.1 = name then some p.2 else none

/-- The names in a list without repetitions, in order of first appearance. -/
def distinct : List String → List String
  | [] => []
  | n :: ns => n :: (distinct ns).filter (· ≠ n)

/-- The field names in order of first appearance. -/
def names (d : Document) : List String := distinct (d.pairs.map (·.1))

def toMap (d : Document) : KeyMap (List Value) :=
  d.pairs.foldl (fun m p => m.insert p.1 ((m.get? p.1).getD [] ++ [p.2])) ∅

/-- Equality of documents, numbers compared as numbers. -/
def same (d e : Document) : Bool := Value.samePairs d.pairs e.pairs

def toValue (d : Document) : Value := .document d.pairs

/-! ## Reading one field value by value -/

/-- The pairs of a document that are still to be looked at for the values of one field. -/
structure FieldCursor where
  name : String
  rest : List (String × Value)

def cursor (d : Document) (name : String) : FieldCursor := ⟨name, d.pairs⟩

namespace FieldCursor

def next (c : FieldCursor) : Option (Value × FieldCursor) :=
  match c.rest.dropWhile (·.1 ≠ c.name) with
  | [] => none
  | p :: ps => some (p.2, ⟨c.name, ps⟩)

def toList (c : FieldCursor) : List Value := (Document.mk c.rest).values c.name

/-- Takes up to `n` values; when they run out, no pair is left. -/
def take : Nat → FieldCursor → List Value × FieldCursor
  | 0, c => ([], c)
  | n + 1, c =>
    match c.next with
    | none => ([], ⟨c.name, []⟩)
    | some (v, c) =>
      let (vs, c) := take n c
      (v :: vs, c)

end FieldCursor

end Document

end Searchlight
