import Searchlight.Error
import Searchlight.Query.Display

/-!
# Translators

A translator says what each node of a query means to a backend; `translate` folds a tree with
it. The whole tree is first checked against the operators of the backend. A leaf must have a
term and a weight must be finite and not below zero; of several faults the first one in the
order of the tree is reported.
-/

namespace Searchlight

/-- What the nodes of a query mean to a backend. -/
structure Translator (β : Type) where
  freeText : List String → Except Error β
  field : String → List String → Except Error β
  and : List β → Except Error β
  or : List β → Except Error β
  not : β → β → Except Error β
  xor : List β → Except Error β
  weight : β → Single → Except Error β

namespace Query

variable {β : Type}

mutual

def fold (t : Translator β) : Query → Except Error β
  | freeText terms =>
    if terms.isEmpty then .error (.querying "free-text query has no terms") else t.freeText terms
  | field name terms =>
    if terms.isEmpty then .error (.querying s!"query on field '{name}' has no terms")
    else t.field name terms
  | all parts => do t.and (← foldAll t parts)
  | any parts => do t.or (← foldAll t parts)
  | odd parts => do t.xor (← foldAll t parts)
  | except p n => do
    let p ← fold t p
    let n ← fold t n
    t.not p n
  | weight q x =>
    if x.isWeight then do
      let q ← fold t q
      t.weight q x
    else
      let factor := x.text
      .error (.querying s!"weight {factor} must be finite and non-negative")

def foldAll (t : Translator β) : List Query → Except Error (List β)
  | [] => .ok []
  | q :: qs => do
    let x ← fold t q
    let xs ← foldAll t qs
    .ok (x :: xs)

end

def translate (q : Query) (caps : Capabilities) (backend : String) (t : Translator β) :
    Except Error β :=
  match q.firstUnsupported caps with
  | some node => .error (.unsupportedQuery node.text backend)
  | none => q.fold t

end Query

/-- The translator that writes a query as nested lists. -/
def Translator.listing : Translator String :=
  let list (head : String) (parts : List String) : String :=
    "(" ++ " ".intercalate (head :: parts) ++ ")"
  { freeText := fun terms => .ok (list "terms" terms)
    field := fun name terms => .ok (list "field" (name :: terms))
    and := fun parts => .ok (list "and" parts)
    or := fun parts => .ok (list "or" parts)
    not := fun p n => .ok (list "not" [p, n])
    xor := fun parts => .ok (list "xor" parts)
    weight := fun q x => .ok (list "weight" [x.text, q]) }

end Searchlight
