import Searchlight.Query.Translator
import Searchlight.SetStore.KeySpace
import Searchlight.Text.Quoted

/-!
# Plans

A query becomes set algebra over posting keys. An odd number of parts is told pair by pair:
what either side has, less what both have.
-/

namespace Searchlight.SetStore

def backendName : String := "redis"

def acceptedKinds : List ValueKind := [.text, .number, .dateTime]

/-- Set algebra over the sets under keys. -/
inductive Plan where
  | key (k : String)
  | nothing
  | inter (parts : List Plan)
  | union (parts : List Plan)
  | diff (positive negative : Plan)

namespace Plan

instance : Inhabited Plan := ⟨nothing⟩

def interOf : List String → Plan
  | [] => nothing
  | [k] => key k
  | ks => inter (ks.map key)

/-- What one of two plans has and the other has not. -/
def exclusive (a b : Plan) : Plan := diff (union [a, b]) (inter [a, b])

/-- What an odd number of plans have. -/
def oddOf : List Plan → Plan
  | [] => nothing
  | p :: ps => ps.foldl exclusive p

mutual

/-- A description from which the plan can be told. -/
def description : Plan → String
  | key k => "Key(" ++ Text.quote k ++ ")"
  | nothing => "Nothing"
  | inter parts => "Inter(" ++ Text.bracketed (descriptions parts) ++ ")"
  | union parts => "Union(" ++ Text.bracketed (descriptions parts) ++ ")"
  | diff p n => "Diff(" ++ p.description ++ ", " ++ n.description ++ ")"

def descriptions : List Plan → List String
  | [] => []
  | p :: ps => p.description :: descriptions ps

end

end Plan

def fieldLeaf (keys : KeySpace) (schema : Schema) (name : String) (terms : List String) :
    Except Error Plan :=
  match schema.get? name with
  | none => .error (.unknownField name)
  | some config =>
    if config.indexed then do
      let tokens ← config.kind.queryTokens name terms
      .ok (Plan.interOf (tokens.map (keys.posting name)))
    else .ok .nothing

/-- What the nodes of a query mean over the keys of a store. -/
def translator (keys : KeySpace) (schema : Schema) : Translator Plan where
  freeText terms := .ok (Plan.interOf ((tokenizeTerms terms).map keys.anyField))
  field := fieldLeaf keys schema
  and parts := .ok (.inter parts)
  or parts := .ok (.union parts)
  not p n := .ok (.diff p n)
  xor parts := .ok (Plan.oddOf parts)
  weight _ _ := .error (.querying "redis sets carry no scores to weight")

end Searchlight.SetStore
