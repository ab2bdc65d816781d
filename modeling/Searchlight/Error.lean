/-!
# Errors

Every failure is one of these causes. `message` is its wording; a cause that stands for a
failure of a file or of reading data carries the wording it was given.
-/

namespace Searchlight

inductive Error where
  /-- The schema does not allow the change. -/
  | schemaConflict (field message : String)
  /-- A field that the schema does not know. -/
  | unknownField (field : String)
  /-- A query node that the backend has no operator for. -/
  | unsupportedQuery (node backend : String)
  /-- An option that the backend does not have. -/
  | unsupportedOption (option backend : String)
  | unknownBackend (backend : String)
  | readOnlyViolation (operation : String)
  /-- The store has a writer already. -/
  | exclusiveLockHeld (store : String)
  /-- Indexing failed; the source is the failure below it. -/
  | index (message : String) (source : Option String)
  | query (message : String) (source : Option String)
  | notFound (id : String)
  | documentExists (id : String)
  | driverTimeout (backend : String) (millis : Nat)
  | clientClosed
  | config (message : String)
  | io (message : String)
  | serialization (message : String)
  deriving DecidableEq, Repr

namespace Error

/-- A failure of indexing without a cause below it. -/
def indexing (message : String) : Error := index message none

/-- A failure of a query without a cause below it. -/
def querying (message : String) : Error := query message none

def ioAt (path message : String) : Error := io (path ++ ": " ++ message)

def message : Error → String
  | schemaConflict f m => s!"Schema conflict on field '{f}': {m}"
  | unknownField f => s!"Unknown field: {f}"
  | unsupportedQuery n b => s!"Unsupported query node '{n}' for backend '{b}'"
  | unsupportedOption o b => s!"Unsupported option '{o}' for backend '{b}'"
  | unknownBackend b => s!"Unknown backend type: {b}"
  | readOnlyViolation o => s!"Read-only violation: {o} is not allowed on a readonly client"
  | exclusiveLockHeld s => s!"Exclusive writer lock already held for store '{s}'"
  | index m _ => s!"Index error: {m}"
  | query m _ => s!"Query error: {m}"
  | notFound id => s!"Document not found: {id}"
  | documentExists id => s!"Document already exists: {id}"
  | driverTimeout b ms => s!"Driver '{b}' timed out after {ms}ms"
  | clientClosed => "Client is closed"
  | config m => s!"Configuration error: {m}"
  | io m => s!"I/O error: {m}"
  | serialization m => s!"Serialization error: {m}"

/-- Trying again later may succeed. -/
def isRetryable : Error → Bool
  | driverTimeout _ _ | io _ | exclusiveLockHeld _ => true
  | _ => false

/-- The failure below this one. -/
def source : Error → Option String
  | index _ s | query _ s => s
  | _ => none

end Error

end Searchlight
