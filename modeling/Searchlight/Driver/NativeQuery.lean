import Searchlight.Disk.Query
import Searchlight.Memory.Query
import Searchlight.SetStore.Plan

/-!
# Native queries

A query that was brought to the terms of a backend runs on this backend only. Two native
queries are the same when they are of the same backend and have the same description.
-/

namespace Searchlight

/-- A query in the terms of some backend. -/
inductive NativeQuery.Content where
  | text (s : String)
  | tokens (q : Memory.TokenQuery)
  | plan (p : SetStore.Plan)
  | terms (q : Disk.TermQuery)

structure NativeQuery where
  backend : String
  content : NativeQuery.Content

namespace NativeQuery

instance : Inhabited NativeQuery := ⟨⟨"", .text ""⟩⟩

/-- What the query is told by. -/
def rendering (q : NativeQuery) : String :=
  match q.content with
  | .text s => Text.quote s
  | .tokens t => t.description
  | .plan p => p.description
  | .terms t => t.description

def same (a b : NativeQuery) : Bool := a.backend == b.backend && a.rendering == b.rendering

def description (q : NativeQuery) : String :=
  "NativeQuery \x7b backend: " ++ Text.quote q.backend ++ ", query: " ++
    Text.quote q.rendering ++ " \x7d"

/-- The failure of a backend to run a query of another one. -/
def foreign (q : NativeQuery) (backend : String) : Error :=
  let origin := q.backend
  .querying s!"native query from backend '{origin}' cannot run on backend '{backend}'"

/-- The text of a query that is its own text. -/
def text? (q : NativeQuery) : Option String :=
  match q.content with
  | .text s => some s
  | _ => none

def tokens (q : NativeQuery) (backend : String) : Except Error Memory.TokenQuery :=
  match q.content with
  | .tokens t => .ok t
  | _ => .error (q.foreign backend)

def plan (q : NativeQuery) (backend : String) : Except Error SetStore.Plan :=
  match q.content with
  | .plan p => .ok p
  | _ => .error (q.foreign backend)

def terms (q : NativeQuery) (backend : String) : Except Error Disk.TermQuery :=
  match q.content with
  | .terms t => .ok t
  | _ => .error (q.foreign backend)

end NativeQuery

end Searchlight
