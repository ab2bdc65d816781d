import Searchlight.Field.Coercion

/-!
# Tokens

A field is searched by tokens: the words of free text, the whole of an exact-match value, the
shortest digits of a number, the timestamp of a date to the second. The terms of a query are
brought to the same form.
-/

namespace Searchlight

def numberToken (x : Double) : String := x.text

def dateToken (t : Instant) : String := Rfc3339.secondsText t

namespace FieldKind

def valueTokens (kind : FieldKind) : IndexValue → List String
  | .text s =>
    match kind with
    | freeText => Text.tokenize s
    | exactMatch => [s]
    | _ => []
  | .number x => [numberToken x]
  | .date t => [dateToken t]

end FieldKind

def parseNumber (field term : String) : Except Error Double :=
  match Binary.read? .double term with
  | some x => .ok x
  | none => .error (.querying s!"field '{field}' is numeric, got '{term}'")

def parseDate (field term : String) : Except Error Instant :=
  match Rfc3339.read? term with
  | some t => .ok t
  | none => .error (.querying s!"field '{field}' holds dates, got '{term}'")

def tokenizeTerms (terms : List String) : List String := terms.flatMap Text.tokenize

/-- The tokens that the terms of a query ask a field of this kind for. -/
def FieldKind.queryTokens (field : String) (kind : FieldKind) (terms : List String) :
    Except Error (List String) :=
  match kind with
  | freeText => .ok (tokenizeTerms terms)
  | exactMatch => .ok [" ".intercalate terms]
  | numeric => terms.mapM fun t => (parseNumber field t).map numberToken
  | date => terms.mapM fun t => (parseDate field t).map dateToken
  | ignored => .ok []

end Searchlight
