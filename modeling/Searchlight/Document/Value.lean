import Searchlight.Time.Rfc3339
import Searchlight.Binary.Decimal

/-!
# Field values

A value is a text, a number, an instant or a nested document. Its text form joins the values
of a nested document with blanks.
-/

namespace Searchlight

inductive ValueKind where
  | text
  | number
  | dateTime
  | document
  deriving DecidableEq, Repr

def ValueKind.name : ValueKind → String
  | text => "text"
  | number => "number"
  | dateTime => "datetime"
  | document => "document"

/-- The value of a field: a nested document is its list of named values. -/
inductive Value where
  | text (s : String)
  | number (x : Double)
  | dateTime (t : Instant)
  | document (pairs : List (String × Value))

namespace Value

instance : Inhabited Value := ⟨text ""⟩

def kind : Value → ValueKind
  | text _ => .text
  | number _ => .number
  | dateTime _ => .dateTime
  | document _ => .document

def text? : Value → Option String
  | text s => some s
  | _ => none

def number? : Value → Option Double
  | number x => some x
  | _ => none

def dateTime? : Value → Option Instant
  | dateTime t => some t
  | _ => none

mutual

def toText : Value → String
  | text s => s
  | number x => x.text
  | dateTime t => Rfc3339.text t
  | document pairs => " ".intercalate (textsOf pairs)

def textsOf : List (String × Value) → List String
  | [] => []
  | (_, v) :: ps => v.toText :: textsOf ps

end

mutual

/-- Equality of values, numbers compared as numbers. -/
def same : Value → Value → Bool
  | text s, text t => s == t
  | number x, number y => x.numEq y
  | dateTime s, dateTime t => s == t
  | document ps, document qs => samePairs ps qs
  | _, _ => false

def samePairs : List (String × Value) → List (String × Value) → Bool
  | [], [] => true
  | (n, v) :: ps, (m, w) :: qs => n == m && same v w && samePairs ps qs
  | _, _ => false

end

end Value

end Searchlight
