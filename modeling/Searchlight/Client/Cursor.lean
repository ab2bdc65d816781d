import Searchlight.Action
import Searchlight.Driver.NativeQuery
import Searchlight.Hit

/-!
# Cursors

A cursor gives hits or documents one by one and asks for them page by page. It does not know
whom it asks: any fetching action will do, and whatever it answers, a result cursor gives no
more hits than it was opened for.
-/

namespace Searchlight

/-! ## Results -/

/-- The hits of one search from an offset on, up to a limit. -/
structure ResultCursor where
  query : NativeQuery
  offset : Nat
  remaining : Nat
  pageSize : Nat
  /-- The hits of the last page that were not given yet. -/
  buffer : List SearchHit
  /-- The number of all matches, once a page told it. -/
  total : Option Nat
  finished : Bool

abbrev FetchHits (σ : Type) := NativeQuery → Nat → Nat → Action σ ResultSet

namespace ResultCursor

variable {σ : Type}

/-- A cursor on a window of hits; a page has at least one. -/
def new (query : NativeQuery) (offset limit pageSize : Nat) : ResultCursor :=
  ⟨query, offset, limit, max pageSize 1, [], none, limit == 0⟩

/-- Every hit of the window was given. -/
def isFinished (c : ResultCursor) : Bool := c.finished && c.buffer.isEmpty

def want (c : ResultCursor) : Nat := min c.remaining c.pageSize

/-- The cursor after a page; what the page has beyond the hits asked for is left out. -/
def receive (c : ResultCursor) (page : ResultSet) : ResultCursor :=
  let hits := page.hits.take c.want
  { c with
    offset := c.offset + hits.length
    remaining := c.remaining - hits.length
    buffer := c.buffer ++ hits
    total := page.total.or c.total
    finished := c.finished || hits.length < c.want || c.remaining == hits.length }

def pop : Action (ResultCursor × σ) (Option SearchHit) := do
  let (c, s) ← get
  match c.buffer with
  | [] => return none
  | hit :: hits =>
    set ({ c with buffer := hits }, s)
    return some hit

/-- The next hit. A page is asked for only when none is there and the client is open; when
that fails, the cursor stays as it was. -/
def next (closed : Bool) (fetch : FetchHits σ) : Action (ResultCursor × σ) (Option SearchHit) := do
  let (c, _) ← get
  if c.buffer.isEmpty && !c.finished then
    if closed then throw .clientClosed
    let page ← Action.second (fetch c.query c.offset c.want)
    modify fun (c, s) => (c.receive page, s)
  pop

def drain (closed : Bool) (fetch : FetchHits σ) :
    Nat → Action (ResultCursor × σ) (List SearchHit)
  | 0 => return []
  | n + 1 => do
    match ← next closed fetch with
    | none => return []
    | some hit => return hit :: (← drain closed fetch n)

/-- All hits that remain. There are no more than are in the buffer and still to be asked for. -/
def collectAll (closed : Bool) (fetch : FetchHits σ) :
    Action (ResultCursor × σ) (List SearchHit) := do
  let (c, _) ← get
  drain closed fetch (c.buffer.length + c.remaining)

def description (c : ResultCursor) (backend : String) : String :=
  "ResultIterator \x7b backend: " ++ Text.quote backend ++ ", query: " ++
    Text.quote c.query.rendering ++ ", offset: " ++ toString c.offset ++ ", remaining: " ++
    toString c.remaining ++ ", buffered: " ++ toString c.buffer.length ++ ", finished: " ++
    toString c.finished ++ " \x7d"

end ResultCursor

/-! ## Documents -/

structure DocumentCursor where
  /-- How many ids were listed. -/
  offset : Nat
  pageSize : Nat
  /-- The listed ids whose documents were not given yet. -/
  buffer : List String
  finished : Bool

/-- Lists ids by windows and loads documents. -/
structure DocumentSource (σ : Type) where
  list : Nat → Nat → Action σ (List String)
  load : String → Action σ (Option StoredDocument)

namespace DocumentCursor

variable {σ : Type}

def new (pageSize : Nat) : DocumentCursor := ⟨0, max pageSize 1, [], false⟩

def receive (c : DocumentCursor) (ids : List String) : DocumentCursor :=
  { c with
    offset := c.offset + ids.length
    buffer := c.buffer ++ ids
    finished := c.finished || ids.length < c.pageSize }

/-- The next document, found in at most the given number of turns. A turn loads the next listed
document or lists another page; a document that is gone by now is passed over. -/
def next (closed : Bool) (source : DocumentSource σ) :
    Nat → Action (DocumentCursor × σ) (Option StoredDocument)
  | 0 => return none
  | turns + 1 => do
    if closed then throw .clientClosed
    let (c, s) ← get
    match c.buffer with
    | id :: ids =>
      set ({ c with buffer := ids }, s)
      match ← Action.second (source.load id) with
      | some d => return some d
      | none => next closed source turns
    | [] =>
      if c.finished then return none
      let ids ← Action.second (source.list c.offset c.pageSize)
      modify fun (c, s) => (c.receive ids, s)
      next closed source turns

/-- At most the given number of documents, each found in at most `turns` turns. -/
def drain (closed : Bool) (source : DocumentSource σ) (turns : Nat) :
    Nat → Action (DocumentCursor × σ) (List StoredDocument)
  | 0 => return []
  | n + 1 => do
    match ← next closed source turns with
    | none => return []
    | some d => return d :: (← drain closed source turns n)

def description (c : DocumentCursor) (backend : String) : String :=
  "DocumentIterator \x7b backend: " ++ Text.quote backend ++ ", offset: " ++ toString c.offset ++
    ", buffered: " ++ toString c.buffer.length ++ ", finished: " ++ toString c.finished ++
    " \x7d"

end DocumentCursor

end Searchlight
