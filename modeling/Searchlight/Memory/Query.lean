import Searchlight.Binary.Decimal
import Searchlight.Field.Tokens
import Searchlight.Query.Translator
import Searchlight.Schema.Basic
import Searchlight.Text.Quoted

/-!
# Queries of the in-memory store

A query is brought to tokens once and is then evaluated document by document. A leaf without
tokens, or on a field without an index, matches nothing.
-/

namespace Searchlight.Memory

inductive TokenQuery where
  /-- Every token occurs in some free-text field. -/
  | freeText (tokens : List String)
  /-- Every token occurs in the field. -/
  | field (name : String) (tokens : List String)
  | nothing
  | and (parts : List TokenQuery)
  | or (parts : List TokenQuery)
  | not (positive negative : TokenQuery)
  /-- An odd number of parts match. -/
  | xor (parts : List TokenQuery)
  | weight (query : TokenQuery) (factor : Single)

namespace TokenQuery

instance : Inhabited TokenQuery := ⟨nothing⟩

def quotedList (items : List String) : String := Text.bracketed (items.map Text.quote)

mutual

/-- A description from which the query can be told. -/
def description : TokenQuery → String
  | freeText tokens => "FreeText(" ++ quotedList tokens ++ ")"
  | field name tokens =>
    "Field \x7b field: " ++ Text.quote name ++ ", tokens: " ++ quotedList tokens ++ " \x7d"
  | nothing => "Nothing"
  | and parts => "And(" ++ Text.bracketed (descriptions parts) ++ ")"
  | or parts => "Or(" ++ Text.bracketed (descriptions parts) ++ ")"
  | not p n => "Not(" ++ p.description ++ ", " ++ n.description ++ ")"
  | xor parts => "Xor(" ++ Text.bracketed (descriptions parts) ++ ")"
  | weight q x => "Weight(" ++ q.description ++ ", " ++ x.pointedText ++ ")"

def descriptions : List TokenQuery → List String
  | [] => []
  | q :: qs => q.description :: descriptions qs

end

end TokenQuery

def fieldLeaf (schema : Schema) (name : String) (terms : List String) :
    Except Error TokenQuery :=
  match schema.get? name with
  | none => .error (.unknownField name)
  | some config =>
    if config.indexed then do
      let tokens ← config.kind.queryTokens name terms
      .ok (if tokens.isEmpty then .nothing else .field name tokens)
    else .ok .nothing

/-- What the nodes of a query mean over a schema. -/
def translator (schema : Schema) : Translator TokenQuery where
  freeText terms :=
    let tokens := tokenizeTerms terms
    .ok (if tokens.isEmpty then .nothing else .freeText tokens)
  field := fieldLeaf schema
  and parts := .ok (.and parts)
  or parts := .ok (.or parts)
  not p n := .ok (.not p n)
  xor parts := .ok (.xor parts)
  weight q x := .ok (.weight q x)

end Searchlight.Memory
