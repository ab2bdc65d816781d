import Searchlight.Disk.Ranking
import Searchlight.Disk.Translator
import Searchlight.Disk.Writer
import Searchlight.Hit
import Searchlight.KeyMap
import Searchlight.Options

/-!
# Stores on disk

The index is made with the first document, from the fields registered until then; from there on
its fields are fixed. Documents are gathered by the writer and are neither visible nor on disk
before a commit. A store that is open for reading looks at the directory before each search and
each listing; a writer sees what it committed itself.
-/

namespace Searchlight.Disk

def backendName : String := "tantivy"

def recognizedOptions : List String := ["path", "writer_memory_bytes"]

def defaultWriterMemory : Nat := 50000000

def capabilities : Capabilities where
  schemaTier := .fixed
  durability := some .atCommit
  visibility := .atCommit
  idAssignment := .atCall
  valueKinds := [.text, .number, .dateTime]
  operators := QueryOperator.all
  singleWriter := true
  maxRetries := 0

def Record.document (r : Record) : Except Error Document :=
  match Document.ofJsonText? r.stored with
  | some d => .ok d
  | none => .error (.serialization "the stored fields are no document")

structure Store where
  path : String
  readonly : Bool
  writerMemory : Nat
  /-- How free text is taken apart, in documents and in queries. -/
  analyze : Analyzer
  fields : FieldMap
  live : Option Live
  /-- The ids that the next commit makes visible. -/
  pendingAdds : TextSet
  /-- The ids that the next commit takes away. -/
  pendingDeletes : TextSet
  closed : Bool
  /-- The mark by which the lock of the store is held. -/
  lock : Option Nat

abbrev Work (α : Type) := Action (Store × Volume) α

/-! ## Opening -/

/-- Takes the lock of a store and gives its mark. -/
def acquire (path : String) : Action Volume Nat := do
  match (← get).files.locate? path with
  | none => throw (.index s!"cannot open {path}" (some "there is no such directory"))
  | some directory =>
    let file := FileTree.child directory Volume.lockFile
    Volume.acquire file (.exclusiveLockHeld path) (Volume.failure file)

def load (path : String) (readonly : Bool) (memory : Nat) :
    Action Volume (FieldMap × Option Live) := do
  let v ← get
  let schema ← .ofExcept (v.schema path)
  if v.hasIndex path then
    let (layout, live) ← Live.openIn path readonly memory
    let fields ← (Action.ofExcept (FieldMap.ofLayout layout schema)).orUndo (discard live.stop)
    return (fields, some live)
  else return (.build schema, none)

namespace Store

/-- Opens the store in the directory that the options name; a writer makes the directory and
takes the lock. -/
def openWith (analyze : Analyzer) (o : BackendOptions) : Action Volume Store := do
  .ofExcept (o.ensureRecognized backendName recognizedOptions)
  match o.path with
  | none => throw (.config "tantivy backend requires 'path'")
  | some path =>
    let writerMemory := o.writerMemoryBytes.getD defaultWriterMemory
    let lock ← if o.readonly then pure none else do
      Volume.createDirectory path
      some <$> acquire path
    let (fields, live) ← (load path o.readonly writerMemory).orUndo (lock.forM Volume.release)
    return ⟨path, o.readonly, writerMemory, analyze, fields, live, ∅, ∅, false, lock⟩

def releaseLock : Work Unit := do
  let (s, _) ← get
  s.lock.forM fun mark => Action.second (Volume.release mark)
  modify fun (s, v) => ({ s with lock := none }, v)

def stopWriter : Work Unit := do
  let (s, _) ← get
  match s.live with
  | none => pure ()
  | some live =>
    let live ← Action.second live.stop
    modify fun (s, v) => ({ s with live := some live }, v)

/-- The store is told by the canonical path of its directory. -/
def key (s : Store) (v : Volume) : String :=
  backendName ++ ":" ++ (v.files.locate? s.path).getD s.path

/-! ## Fields -/

/-- Registers a field as long as there is no index. -/
def registerField (s : Store) (name : String) (config : FieldConfig) : Except Error Store :=
  if Layout.reservedNames.contains name then .error (.schemaConflict name "field name is reserved")
  else if s.fields.schema.get? name = some config then .ok s
  else if s.live.isSome then
    .error (.schemaConflict name "schema is fixed once the index exists")
  else .ok { s with fields := .build (s.fields.schema.insert name config) }

/-- Makes the index if there is none: first the file with the schema, then the index. -/
def ensureLive : Work Live := do
  let (s, _) ← get
  match s.live with
  | some live => return live
  | none =>
    let file := FileTree.child s.path Volume.schemaFile
    Action.second (Volume.write file (.text s.fields.schema.toJsonText) (Volume.failure file))
    let live ← Action.second (Live.createIn s.path s.fields.layout s.writerMemory)
    modify fun (s, v) => ({ s with live := some live }, v)
    return live

def withWriter (f : Writer → Except Error Writer) : Work Unit := do
  let live ← ensureLive
  match live.writer with
  | none => throw (.readOnlyViolation "index")
  | some w =>
    let w ← .ofExcept (f w)
    modify fun (s, v) => ({ s with live := some { live with writer := some w } }, v)

/-! ## Documents -/

def ensureWritable (operation : String) : Work Unit := do
  let (s, _) ← get
  if s.readonly then throw (.readOnlyViolation operation)

def ensureOpen : Work Unit := do
  let (s, _) ← get
  if s.closed then throw .clientClosed

/-- Gathers a document under an id, in place of one that is there; the removal of that one stays
when the document is not taken. -/
def index (d : PreparedDocument) (id : String) : Work String := do
  ensureWritable "index"
  ensureOpen
  let (s, _) ← get
  withWriter fun w => .ok (w.remove id)
  withWriter fun w =>
    match w.add? (s.fields.record? s.analyze id d) with
    | some w => .ok w
    | none => .error (.index "failed to add document" (some "the writer has failed"))
  modify fun (s, v) =>
    ({ s with
      pendingDeletes := s.pendingDeletes.erase id, pendingAdds := s.pendingAdds.add id }, v)
  return id

/-- What searches see. -/
def visible (s : Store) : Segments :=
  match s.live with
  | some live => live.visible
  | none => []

/-- The matches of a query with their scores, the best first. -/
def ranking (s : Store) (q : TermQuery) : List (Single × Record) :=
  s.visible.ranking s.fields.layout q

/-- A visible record is found by the id. -/
def shows (s : Store) (id : String) : Bool :=
  s.visible.records.any (·.terms.contains (.ofId id))

/-- A document with the id is visible after the next commit. -/
def contains (s : Store) (id : String) : Bool :=
  !s.pendingDeletes.contains id && (s.pendingAdds.contains id || s.shows id)

/-- Takes a document away with the next commit. -/
def delete (id : String) : Work Unit := do
  ensureWritable "delete"
  ensureOpen
  let (s, _) ← get
  if !s.contains id then throw (.notFound id)
  withWriter fun w => .ok (w.remove id)
  modify fun (s, v) =>
    ({ s with
      pendingAdds := s.pendingAdds.erase id, pendingDeletes := s.pendingDeletes.add id }, v)

/-- The stored fields of the visible document that the id finds best. -/
def get? (s : Store) (id : String) : Except Error (Option StoredDocument) :=
  match s.ranking (.term (.ofId id)) with
  | [] => .ok none
  | (_, r) :: _ => r.document.map fun d => some ⟨id, d⟩

def count (s : Store) : Nat := s.visible.records.length

/-! ## Searching -/

/-- Looks at the directory again if the store is open for reading: an index made since then is
put to use. -/
def refresh : Work Unit := do
  let (s, v) ← get
  if s.readonly then
    match s.live with
    | none =>
      if v.hasIndex s.path then
        let (fields, live) ← Action.second (load s.path true defaultWriterMemory)
        modify fun (s, v) => ({ s with fields, live }, v)
    | some live =>
      match v.image? live.directory with
      | some image => set ({ s with live := some { live with visible := image.segments } }, v)
      | none => throw (.query "failed to reload reader" (some "the file holds no index"))

/-- As many documents as a look at the directory can show. -/
def listable (s : Store) (v : Volume) : Nat :=
  let directory := (s.live.map (·.directory)).getD s.path
  max s.count (((v.image? directory).map (·.segments.records.length)).getD 0)

/-- A window of the ids in ascending order. -/
def ids (offset limit : Nat) : Work (List String) := do
  refresh
  let (s, _) ← get
  return (((s.visible.records.map (·.id)).mergeSort fun a b => a ≤ b).drop offset).take limit

/-- A window of the matching documents, the best first. The stored fields of an index cannot be
searched. -/
def search (q : TermQuery) (offset limit : Nat) : Work ResultSet := do
  refresh
  let (s, _) ← get
  if s.live.isSome ∧ q.asks storedField then
    throw (.query "search failed" (some "the field is not indexed"))
  let found := s.ranking q
  let hits ← .ofExcept (((found.drop offset).take limit).mapM fun m =>
    m.2.document.map fun d => (⟨m.2.id, m.1, d⟩ : SearchHit))
  return ⟨hits, some found.length⟩

/-! ## Commits -/

def clearPending (s : Store) : Store := { s with pendingAdds := ∅, pendingDeletes := ∅ }

def commit : Work Unit := do
  let (s, _) ← get
  match s.live with
  | some ⟨directory, visible, some w⟩ =>
    let failure (why : String) : Error := .index "commit failed" (some why)
    match w.result? with
    | some segments =>
      Action.second (Volume.writeImage directory ⟨s.fields.layout, segments⟩
        (failure "the file cannot be written"))
      modify fun (s, v) =>
        ({ s.clearPending with
          live := some ⟨directory, segments, some (w.afterCommit segments)⟩ }, v)
    | none =>
      modify fun (s, v) =>
        ({ s with live := some ⟨directory, visible, some w.afterFailure⟩ }, v)
      throw (failure "the writer has failed")
  | _ => pure ()

/-- Sets the writer back to what the index on disk holds. -/
def setBack : Work Unit := do
  let (s, v) ← get
  match s.live with
  | some ⟨directory, visible, some w⟩ =>
    let put (w : Writer) : Work Unit :=
      modify fun (s, v) => ({ s with live := some ⟨directory, visible, some w⟩ }, v)
    match v.image? directory with
    | some image => put (w.setBack image.segments)
    | none =>
      Action.second (Volume.release w.mark)
      put { w with intake := .dead }
      throw (.index "rollback failed" (some "the file holds no index"))
  | _ => pure ()

def cancel : Work Unit := do
  setBack
  modify fun (s, v) => (s.clearPending, v)

def hasPending (s : Store) : Bool := !s.pendingAdds.isEmpty || !s.pendingDeletes.isEmpty

/-- Commits what waits and lets the writer and the lock go. -/
def close : Work Unit := do
  let (s, _) ← get
  if s.hasPending then commit
  modify fun (s, v) => ({ s with closed := true }, v)
  stopWriter
  releaseLock

/-- Lets everything go without a commit. -/
def abandon : Work Unit := do
  stopWriter
  releaseLock

/-- Removes the whole directory. The lock stays when the writer cannot be set back. -/
def destroy : Work Unit := do
  ensureWritable "destroy"
  modify fun (s, v) => ({ s with closed := true }, v)
  let stop : Work Unit := do
    stopWriter
    modify fun (s, v) => ({ s with live := none }, v)
  setBack.thenAlways stop
  modify fun (s, v) => ({ s.clearPending with fields := .build .empty }, v)
  releaseLock
  let (s, _) ← get
  Action.second (Volume.removeDirectory s.path)

def description (s : Store) : String :=
  "TantivyDriver \x7b path: " ++ Text.quote s.path ++ ", readonly: " ++ toString s.readonly ++
    ", index: \"<tantivy::Index>\" \x7d"

end Store

end Searchlight.Disk
