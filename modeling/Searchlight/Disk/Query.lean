import Searchlight.Binary.Decimal
import Searchlight.Disk.Record
import Searchlight.Text.Quoted
import Searchlight.Time.Rfc3339

/-!
# Queries over an index on disk

A query is made of terms and of clauses, each of which must match, may match or must not match.
-/

namespace Searchlight.Disk

inductive TermQuery where
  | term (t : Term)
  | nothing
  /-- All required queries match and no excluded one; without a required query some optional
  one matches. -/
  | clauses (required optional excluded : List TermQuery)
  | boost (query : TermQuery) (factor : Single)

namespace TermQuery

instance : Inhabited TermQuery := ⟨nothing⟩

/-! ## Building -/

/-- Every part matches; no part matches nothing, and one part stands for itself. -/
def allOf : List TermQuery → TermQuery
  | [] => nothing
  | [q] => q
  | qs => clauses qs [] []

/-- Some part matches; one part stands for itself. -/
def anyOf : List TermQuery → TermQuery
  | [] => nothing
  | [q] => q
  | qs => clauses [] qs []

def exclusive (a b : TermQuery) : TermQuery := clauses [] [a, b] [clauses [a, b] [] []]

/-- An odd number of queries match. -/
def oddOf : List TermQuery → TermQuery
  | [] => nothing
  | q :: qs => qs.foldl exclusive q

/-! ## Meaning -/

mutual

def matchesRecord (r : Record) : TermQuery → Bool
  | term t => r.terms.contains t
  | nothing => false
  | clauses required optional excluded =>
    allMatch r required && (!required.isEmpty || anyMatches r optional) &&
      !anyMatches r excluded
  | boost q _ => matchesRecord r q

def allMatch (r : Record) : List TermQuery → Bool
  | [] => true
  | q :: qs => matchesRecord r q && allMatch r qs

def anyMatches (r : Record) : List TermQuery → Bool
  | [] => false
  | q :: qs => matchesRecord r q || anyMatches r qs

end

mutual

/-- The query asks for a term of the field. -/
def asks (field : Nat) : TermQuery → Bool
  | term t => t.field == field
  | nothing => false
  | clauses required optional excluded =>
    anyAsks field required || anyAsks field optional || anyAsks field excluded
  | boost q _ => asks field q

def anyAsks (field : Nat) : List TermQuery → Bool
  | [] => false
  | q :: qs => asks field q || anyAsks field qs

end

/-! ## Description -/

def valueText : TermValue → String
  | .text s => "Str, " ++ Text.quote s
  | .number x => "F64, " ++ x.pointedText
  | .date seconds => "Date, " ++ ((Instant.of? seconds 0).map Rfc3339.secondsText).getD ""

def termText (t : Term) : String :=
  "Term(field=" ++ toString t.field ++ ", type=" ++ valueText t.value ++ ")"

/-- Only optional clauses: at least one of them has to match. -/
def leastOptional (required optional excluded : List TermQuery) : Nat :=
  if required.isEmpty && excluded.isEmpty && !optional.isEmpty then 1 else 0

mutual

/-- A description from which the query can be told. -/
def description : TermQuery → String
  | term t => "TermQuery(" ++ termText t ++ ")"
  | nothing => "EmptyQuery"
  | clauses required optional excluded =>
    "BooleanQuery \x7b subqueries: " ++
      Text.bracketed (descriptions "Must" required ++ descriptions "Should" optional ++
        descriptions "MustNot" excluded) ++
      ", minimum_number_should_match: " ++ toString (leastOptional required optional excluded) ++
      " \x7d"
  | boost q x => "Boost(query=" ++ q.description ++ ", boost=" ++ x.text ++ ")"

def descriptions (occur : String) : List TermQuery → List String
  | [] => []
  | q :: qs => ("(" ++ occur ++ ", " ++ q.description ++ ")") :: descriptions occur qs

end

end TermQuery

end Searchlight.Disk
