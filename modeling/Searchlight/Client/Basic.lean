import Searchlight.Client.Cursor
import Searchlight.Config.Basic
import Searchlight.Driver.Catalog

/-!
# Clients

A client is the entry to one store: a driver, and the registry in front of it that every
document passes. A client that is closed refuses everything but to tell its state; one that is
open for reading refuses to write. Queries are translated once per generation of the registry.
-/

namespace Searchlight

/-- What a client was opened for, and whether it is closed. -/
inductive ClientState where
  | writable
  | readonly
  | closed
  deriving DecidableEq, Repr

namespace ClientState

def name : ClientState → String
  | writable => "writable"
  | readonly => "readonly"
  | closed => "closed"

def description : ClientState → String
  | writable => "Writable"
  | readonly => "Readonly"
  | closed => "Closed"

end ClientState

/-! ## Native queries -/

/-- The native queries made since the registry changed last, by the query each came from. -/
structure QueryCache where
  generation : Nat
  entries : List (Query × NativeQuery)

namespace QueryCache

/-- The most native queries that are kept. -/
def maxEntries : Nat := 256

def empty : QueryCache := ⟨0, []⟩

/-- The cache for a generation: without entries if it was for another one. -/
def forGeneration (c : QueryCache) (generation : Nat) : QueryCache :=
  if c.generation = generation then c else ⟨generation, []⟩

def get? (c : QueryCache) (q : Query) : Option NativeQuery := c.entries.lookup q

/-- The cache with one native query more; a full one is emptied first. -/
def insert (c : QueryCache) (q : Query) (n : NativeQuery) : QueryCache :=
  { c with entries := (q, n) :: if maxEntries ≤ c.entries.length then [] else c.entries }

end QueryCache

/-! ## Clients -/

/-- How a client treats documents and results. -/
structure ClientSettings where
  unknownFields : UnknownFieldPolicy
  pageSize : Nat
  guesser : Guesser

namespace ClientSettings

def default : ClientSettings := ⟨.guess, ClientConfig.defaultPageSize, .freeText⟩

def ofConfig (c : ClientConfig) (guesser : Guesser) : ClientSettings :=
  ⟨c.unknownFields, c.pageSize, guesser⟩

end ClientSettings

/-- An entry to a store. -/
structure Client where
  driver : Driver
  registry : Registry
  policy : UnknownFieldPolicy
  pageSize : Nat
  readonly : Bool
  closed : Bool
  /-- The number of fields that were left out of documents. -/
  ignored : Nat
  cache : QueryCache
  /-- The store that the client has the lease on. -/
  lease : Option String

/-- How an update treats an id that is there. -/
inductive UpdateMode where
  | upsert
  | failIfExists
  deriving DecidableEq, Repr

/-- Where a document is written: under an id of the backend's choice, or under a given one. -/
inductive WriteTarget where
  | fresh
  | under (id : String) (mode : UpdateMode)
  deriving DecidableEq, Repr

namespace WriteTarget

def id? : WriteTarget → Option String
  | fresh => none
  | under id _ => some id

def operation : WriteTarget → String
  | fresh => "add"
  | under _ _ => "update"

end WriteTarget

/-- Work of a client on the host. -/
abbrev ClientWork (α : Type) := Action (Client × Host) α

namespace Client

variable {α : Type}

def drive (x : DriverWork α) : ClientWork α :=
  x.focus (fun (c, h) => (c.driver, h)) fun (d, h) (c, _) => ({ c with driver := d }, h)

def state (c : Client) : ClientState :=
  if c.closed then .closed else if c.readonly then .readonly else .writable

def description (c : Client) : String :=
  "SearchClient \x7b backend: " ++ Text.quote c.driver.name ++ ", state: " ++
    c.state.description ++ ", policy: " ++ c.policy.description ++ ", registry: " ++
    c.registry.description ++ " \x7d"

/-! ## Opening -/

/-- The client of a driver. A store that takes one writer at a time is leased to a client that
may write. -/
def start (readonly : Bool) (settings : ClientSettings) : DriverWork Client := do
  let (driver, host) ← get
  let lease :=
    if driver.capabilities.singleWriter && !readonly then driver.storeKey host else none
  lease.forM fun store => Action.second (Host.acquireLease store)
  let schema ← Driver.schemaSnapshot.orUndo
    (lease.forM fun store => Action.second (Host.releaseLease store))
  let (driver, _) ← get
  let tier := driver.capabilities.schemaTier
  return {
    driver
    registry := .new tier schema (tier = .fixed && driver.isFrozen) settings.guesser
    policy := settings.unknownFields
    pageSize := settings.pageSize
    readonly
    closed := false
    ignored := 0
    cache := .empty
    lease }

def connect (catalog : Catalog) (backend : String) (o : BackendOptions)
    (settings : ClientSettings) : Action Host Client := do
  let driver ← catalog.openStore backend o
  let host ← get
  match (start o.readonly settings).orUndo Driver.drop (driver, host) with
  | .ok client (_, host) => set host; return client
  | .error e (_, host) => set host; throw e

def ofConfig (catalog : Catalog) (c : ClientConfig) (guesser : Guesser) : Action Host Client := do
  .ofExcept c.validate
  connect catalog c.backend c.backendOptions (.ofConfig c guesser)

/-! ## Checks -/

def ensureOpen : ClientWork Unit := do
  let (c, _) ← get
  if c.closed then throw .clientClosed

def ensureWritable (operation : String) : ClientWork Unit := do
  ensureOpen
  let (c, _) ← get
  if c.readonly then throw (.readOnlyViolation operation)

/-! ## Documents -/

/-- Registers the fields that a document brings along, with the driver before the registry. -/
def registerNew (fields : List (String × FieldConfig)) : ClientWork Unit := do
  if fields.isEmpty then return
  let (c, _) ← get
  .ofExcept (c.registry.checkAll fields)
  fields.forM fun f => drive (Driver.registerField f.1 f.2)
  let (c, h) ← get
  let registry ← .ofExcept (c.registry.registerAll fields)
  set ({ c with registry }, h)

/-- Refuses to put a document in the place of one that is there, where that is asked for. -/
def ensureVacant : WriteTarget → ClientWork Unit
  | .fresh | .under _ .upsert => pure ()
  | .under id .failIfExists => do
    if ← drive (Driver.contains id) then throw (.documentExists id)

/-- All that is checked and registered before a document is indexed. Nothing is registered before
all values of the document are settled. -/
def prepareWrite (target : WriteTarget) (doc : Document) :
    ClientWork (DocumentPlan × PreparedDocument) := do
  ensureWritable target.operation
  ensureVacant target
  let (c, _) ← get
  let plan ← .ofExcept (c.registry.plan doc c.policy)
  Action.second (Host.warn (Registry.planWarnings c.policy plan))
  let prepared ← .ofExcept (doc.prepare plan c.driver.capabilities.valueKinds c.driver.name)
  registerNew plan.newFields
  return (plan, prepared)

/-- Indexes a prepared document; fields are only counted as ignored once it is in. -/
def place (plan : DocumentPlan) (prepared : PreparedDocument) (id : Option String) :
    ClientWork String := do
  let id ← drive (Driver.index prepared id)
  modify fun (c, h) =>
    ({ c with registry := c.registry.freeze, ignored := c.ignored + plan.ignored.length }, h)
  return id

def write (target : WriteTarget) (doc : Document) : ClientWork String := do
  let (plan, prepared) ← prepareWrite target doc
  place plan prepared target.id?

/-- Adds a document under an id of the backend's choice. -/
def add (doc : Document) : ClientWork String := write .fresh doc

/-- Puts a document in the place of the one under an id, if any; or only if there is none. -/
def update (id : String) (doc : Document) (mode : UpdateMode) : ClientWork String :=
  write (.under id mode) doc

def delete (id : String) : ClientWork Unit := do
  ensureWritable "delete"
  drive (Driver.delete id)

def commit : ClientWork Unit := do
  ensureOpen
  drive Driver.commit

def cancel : ClientWork Unit := do
  ensureWritable "cancel"
  drive Driver.cancel

/-- The stored fields of a visible document. -/
def getDocument (id : String) : ClientWork StoredDocument := do
  ensureOpen
  match ← drive (Driver.get? id) with
  | some d => return d
  | none => throw (.notFound id)

def documentExists (id : String) : ClientWork Bool := do
  ensureOpen
  drive (Driver.contains id)

def documentCount : ClientWork Nat := do
  ensureOpen
  drive Driver.count

/-! ## Queries -/

/-- The query in the terms of the backend, from the cache while the registry is unchanged. -/
def translate (q : Query) : ClientWork NativeQuery := do
  ensureOpen
  let (c, h) ← get
  let cache := c.cache.forGeneration c.registry.generation
  set ({ c with cache }, h)
  match cache.get? q with
  | some n => return n
  | none =>
    let n ← .ofExcept (c.driver.translate q)
    set ({ c with cache := cache.insert q n }, h)
    return n

def search (q : Query) (offset limit : Nat) : ClientWork ResultCursor := do
  ensureOpen
  let native ← translate q
  let (c, _) ← get
  return .new native offset limit c.pageSize

def iterDocuments : ClientWork DocumentCursor := do
  ensureOpen
  let (c, _) ← get
  return .new c.pageSize

/-! ## Cursors -/

/-- Work of a cursor that asks the driver of a client. -/
abbrev CursorWork (κ α : Type) := Action (κ × Client × Host) α

def fetchHits : FetchHits (Client × Host) := fun q offset limit =>
  drive (Driver.search q offset limit)

def source : DocumentSource (Client × Host) where
  list offset limit := drive (Driver.ids offset limit)
  load id := drive (Driver.get? id)

def nextHit : CursorWork ResultCursor (Option SearchHit) := do
  let (_, c, _) ← get
  ResultCursor.next c.closed fetchHits

def remainingHits : CursorWork ResultCursor (List SearchHit) := do
  let (_, c, _) ← get
  ResultCursor.collectAll c.closed fetchHits

/-- As many ids as the store can list. -/
def listable (d : Driver) (h : Host) : Nat :=
  match d with
  | .memory s | .limited _ s => s.count
  | .sets s => ((h.server.set? s.keys.docs).map KeyMap.size).getD 0
  | .disk s => s.listable h.volume

/-- Turns enough to load all listed documents and to list and load all others. -/
def turns (c : DocumentCursor) (d : Driver) (h : Host) : Nat :=
  c.buffer.length + 2 * listable d h + 3

def nextDocument : CursorWork DocumentCursor (Option StoredDocument) := do
  let (k, c, h) ← get
  DocumentCursor.next c.closed source (turns k c.driver h)

def remainingDocuments : CursorWork DocumentCursor (List StoredDocument) := do
  let (k, c, h) ← get
  DocumentCursor.drain c.closed source (turns k c.driver h) (turns k c.driver h)

variable {κ : Type}

def withCursor (k : κ) (x : CursorWork κ α) : ClientWork α := fun s =>
  match x (k, s) with
  | .ok a (_, s) => .ok a s
  | .error e (_, s) => .error e s

def searchAll (q : Query) (offset limit : Nat) : ClientWork (List SearchHit) := do
  withCursor (← search q offset limit) remainingHits

def allDocuments : ClientWork (List StoredDocument) := do
  withCursor (← iterDocuments) remainingDocuments

/-! ## Schema -/

def schema (c : Client) : Schema := c.registry.schema

/-- Registers a field, with the driver before the registry. -/
def registerField (name : String) (config : FieldConfig) : ClientWork Unit := do
  ensureWritable "register_field"
  let (c, _) ← get
  .ofExcept (c.registry.checkAll [(name, config)])
  drive (Driver.registerField name config)
  let (c, h) ← get
  let registry ← .ofExcept (c.registry.registerAll [(name, config)])
  set ({ c with registry }, h)

/-! ## Closing -/

def releaseLease : ClientWork Unit := do
  let (c, _) ← get
  c.lease.forM fun store => Action.second (Host.releaseLease store)
  modify fun (c, h) => ({ c with lease := none }, h)

/-- Closes the client; closing it again does nothing. -/
def close : ClientWork Unit := do
  let (c, h) ← get
  if c.closed then return
  set ({ c with closed := true }, h)
  (drive Driver.close).thenAlways releaseLease

/-- Removes the store with everything in it and closes the client, even when that fails. -/
def destroy : ClientWork Unit := do
  ensureWritable "destroy"
  modify fun (c, h) => ({ c with closed := true }, h)
  (drive Driver.destroy).thenAlways releaseLease

end Client

end Searchlight
