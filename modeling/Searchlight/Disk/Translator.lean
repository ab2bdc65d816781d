import Searchlight.Disk.Fields
import Searchlight.Disk.Query
import Searchlight.Field.Tokens
import Searchlight.Query.Translator

/-!
# What queries mean to an index on disk

Free text asks each of its tokens of any free-text field, a leaf on a field each of its terms of
that field. An exclusive node is told pair by pair.
-/

namespace Searchlight.Disk

variable (m : FieldMap) (analyze : Analyzer)

def freeTextLeaf (terms : List String) : TermQuery :=
  let fields := m.freeTextFields
  if fields.isEmpty then .nothing
  else .allOf ((terms.flatMap analyze).map fun t => .anyOf (fields.map fun n => .term ⟨n, .text t⟩))

/-- What the terms of a query ask a field of this kind for. -/
def fieldValues (name : String) (kind : FieldKind) (terms : List String) :
    Except Error (List TermValue) :=
  match kind with
  | .freeText => .ok ((terms.flatMap analyze).map .text)
  | .exactMatch => .ok [.text (" ".intercalate terms)]
  | .numeric => terms.mapM fun t => (parseNumber name t).map .number
  | .date => terms.mapM fun t => (parseDate name t).map fun d => .date (searchedSeconds d)
  | .ignored => .ok []

def fieldLeaf (name : String) (terms : List String) : Except Error TermQuery :=
  match m.numbered.get? name with
  | some (n, config) =>
    (fieldValues analyze name config.kind terms).map fun vs => .allOf (vs.map fun v => .term ⟨n, v⟩)
  | none =>
    if m.schema.contains name then .ok .nothing else .error (.unknownField name)

/-- What the nodes of a query mean over the fields of an index. -/
def translator : Translator TermQuery where
  freeText terms := .ok (freeTextLeaf m analyze terms)
  field := fieldLeaf m analyze
  and parts := .ok (.clauses parts [] [])
  or parts := .ok (.clauses [] parts [])
  not p n := .ok (.clauses [p] [] [n])
  xor parts := .ok (.oddOf parts)
  weight q x := .ok (.boost q x)

end Searchlight.Disk
