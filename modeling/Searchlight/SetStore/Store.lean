import Searchlight.Action
import Searchlight.Hit
import Searchlight.Options
import Searchlight.SetStore.Address
import Searchlight.SetStore.Server

/-!
# Stores on a key server

A document is a text under its data key, a member of the set of ids and a member of each of its
posting sets; the set of its posting keys says what to take back when it changes. Everything
that belongs to one change is one transaction. Searches are set algebra on the server and leave
nothing behind.
-/

namespace Searchlight.SetStore

def recognizedOptions : List String := ["host", "port", "prefix", "timeout_ms"]

def defaultHost : String := "127.0.0.1"
def defaultPort : Nat := 6379
def defaultStem : String := "multisearch"
def defaultTimeoutMs : Nat := 5000

/-- The keys that are asked for at a time when a store is removed. -/
def scanPageSize : Nat := 500

def capabilities : Capabilities where
  schemaTier := .mutable .eventual
  durability := some .atFlush
  visibility := .atCall
  idAssignment := .atCall
  valueKinds := acceptedKinds
  operators := [.freeText, .field, .and, .or, .not, .xor]
  singleWriter := false
  maxRetries := 0

structure Store where
  keys : KeySpace
  address : String
  timeoutMs : Nat
  readonly : Bool
  /-- The fields as they were read last. -/
  schema : Schema

abbrev Work (α : Type) := Action (Store × Server) α

namespace Store

/-! ## Talking to the server -/

def await (timeoutMs : Nat) : Action Server Unit := do
  if !(← get).answers timeoutMs then throw (.driverTimeout backendName timeoutMs)

/-- Lets the server do something, unless it fails whatever it is asked. -/
def exchange {α : Type} (timeoutMs : Nat) (e : String → Error) (x : Server → Server × α) :
    Action Server α := do
  await timeoutMs
  let s ← get
  if s.mode = .failing then throw (e "the server fails")
  let (s, a) := x s
  set s
  return a

/-- An answer, or the failure that it reports. -/
def accept {α : Type} (e : String → Error) (decode : Reply → Option α) (r : Reply) :
    Except Error α :=
  match r with
  | .failure m => .error (e m)
  | r =>
    match decode r with
    | some a => .ok a
    | none => .error (e "the answer is of another type")

def readFailure (m : String) : Error := .query "redis read failed" (some m)
def writeFailure (m : String) : Error := .index "redis write failed" (some m)

def ask {α : Type} (e : String → Error) (c : Command) (decode : Reply → Option α) :
    Work α := do
  let (s, _) ← get
  let r ← Action.second (exchange s.timeoutMs e (·.run c))
  .ofExcept (accept e decode r)

def transact (e : String → Error) (cs : List Command) : Work (List Reply) := do
  let (s, _) ← get
  let rs ← Action.second (exchange s.timeoutMs e (·.runAll cs))
  .ofExcept (rs.mapM (accept e some))

end Store

namespace Reply

/-- A number without a sign: a negative one is taken modulo `2 ^ 64`. -/
def nat? : Reply → Option Nat
  | .integer n => some (n % ((1 <<< 64 : Nat) : Int)).toNat
  | _ => none

def text? : Reply → Option String
  | .text s => some s
  | _ => none

def optionalText? : Reply → Option (Option String)
  | .text s => some (some s)
  | .absent => some none
  | _ => none

def listOf? {α : Type} (f : Reply → Option α) : Reply → Option (List α)
  | .list rs => rs.mapM f
  | _ => none

/-- A hash as alternating names and texts. -/
def hash? (r : Reply) : Option (List (String × String)) :=
  (r.listOf? text?).bind pairUp

/-- The next cursor of a scan and the keys of this page. -/
def scanPage? : Reply → Option (Nat × List String)
  | .list [.text cursor, keys] => do some (← cursor.toNat?, ← keys.listOf? text?)
  | _ => none

end Reply

namespace Store

/-! ## Schema -/

/-- The schema of a hash of field names and configurations. -/
def schemaOf (entries : List (String × String)) : Except Error Schema :=
  let read (e : String × String) : Except Error (String × FieldConfig) :=
    let name := e.1
    match (Json.read? e.2).bind FieldConfig.ofJson? with
    | some config => .ok (name, config)
    | none => .error (.index s!"corrupt schema entry for field '{name}'" (some e.2))
  (entries.mapM read).map Schema.ofList

/-- Reads the schema from the server and keeps it. -/
def loadSchema : Work Schema := do
  let (s, _) ← get
  let entries ← ask readFailure (.hashFields s.keys.schema) Reply.hash?
  let schema ← .ofExcept (schemaOf entries)
  modify fun (s, v) => ({ s with schema }, v)
  return schema

/-- The checks that come before a connection. -/
def ofOptions (o : BackendOptions) : Except Error Store := do
  o.ensureRecognized backendName recognizedOptions
  let stem := o.keyPrefix.getD defaultStem
  if ¬ KeySpace.IsValidStem stem then
    .error (.config s!"invalid redis prefix '{stem}': must be non-empty without spaces or ':'")
  let host := o.host.getD defaultHost
  let port := o.port.getD defaultPort
  if !isAddress host port then
    .error (.config "invalid redis address")
  .ok ⟨⟨stem⟩, addressText host port, o.timeoutMs.getD defaultTimeoutMs, o.readonly, .empty⟩

/-- Opens the store that the options name and reads its schema. -/
def openWith (o : BackendOptions) : Action Server Store := do
  let s ← .ofExcept (ofOptions o)
  await s.timeoutMs
  let server ← get
  match loadSchema (s, server) with
  | .ok _ (s, server) => set server; return s
  | .error e (_, server) => set server; throw e

def ensureWritable (operation : String) : Work Unit := do
  let (s, _) ← get
  if s.readonly then throw (.readOnlyViolation operation)

/-- Writes the configuration of one field; those of other fields stay as they are. -/
def registerField (name : String) (config : FieldConfig) : Work Unit := do
  ensureWritable "register_field"
  let (s, _) ← get
  ask writeFailure (.hashPut s.keys.schema [(name, config.toJson.write)]) fun _ => some ()
  modify fun (s, v) => ({ s with schema := s.schema.insert name config }, v)

/-! ## Documents -/

/-- The posting keys that a document is under. -/
def postingsOf (id : String) : Work (List String) := do
  let (s, _) ← get
  ask readFailure (.members (s.keys.terms id)) (Reply.listOf? Reply.text?)

/-- The commands that take a document out of posting sets and drop its data. -/
def unlink (keys : KeySpace) (id : String) (postings : List String) : List Command :=
  postings.map (fun k => .remove k [id]) ++ [.delete [keys.terms id, keys.data id]]

/-- The commands that put a document in place of the one that was under `previous`. -/
def link (keys : KeySpace) (id : String) (previous : List String) (d : PreparedDocument) :
    List Command :=
  let postings := keys.postings d
  unlink keys id previous ++
    [.put (keys.data id) d.stored.toJsonText, .add keys.docs [id]] ++
    postings.map (fun k => .add k [id]) ++
    (if postings.isEmpty then [] else [.add (keys.terms id) postings])

/-- Indexes a document under an id, or under the next number of the counter. -/
def index (d : PreparedDocument) (id : Option String) : Work String := do
  ensureWritable "index"
  let (s, _) ← get
  let (id, previous) ← match id with
    | some id => do pure (id, ← postingsOf id)
    | none => do
      let n ← ask writeFailure (.increment s.keys.nextId) Reply.nat?
      pure (toString n, [])
  let _ ← transact writeFailure (link s.keys id previous d)
  return id

def contains (id : String) : Work Bool := do
  let (s, _) ← get
  return (← ask readFailure (.isMember s.keys.docs id) Reply.nat?) != 0

def delete (id : String) : Work Unit := do
  ensureWritable "delete"
  if !(← contains id) then throw (.notFound id)
  let postings ← postingsOf id
  let (s, _) ← get
  let _ ← transact writeFailure (unlink s.keys id postings ++ [.remove s.keys.docs [id]])

def storedOf (json : String) : Except Error Document :=
  match Document.ofJsonText? json with
  | some d => .ok d
  | none => .error (.serialization "the stored fields are no document")

def get? (id : String) : Work (Option StoredDocument) := do
  let (s, _) ← get
  match ← ask readFailure (.get (s.keys.data id)) Reply.optionalText? with
  | none => return none
  | some json => return some ⟨id, ← .ofExcept (storedOf json)⟩

def count : Work Nat := do
  let (s, _) ← get
  ask readFailure (.cardinality s.keys.docs) Reply.nat?

def ids (offset limit : Nat) : Work (List String) := do
  if limit = 0 then return []
  let (s, _) ← get
  ask readFailure (.sorted s.keys.docs offset limit) (Reply.listOf? Reply.text?)

/-! ## Searching -/

/-- The label of the temporary keys of a search; no two searches run at once. -/
def runLabel : String := String.ofList (List.replicate 32 '0')

def searchCommands (p : Program) (offset limit : Nat) : List Command :=
  p.steps.map .store ++ [.cardinality p.result] ++
    (if limit = 0 then [] else [.sorted p.result offset limit]) ++
    (if p.temps.isEmpty then [] else [.delete p.temps])

/-- The number of matches and the window of ids among the answers to a search. -/
def searchAnswer (p : Program) (limit : Nat) (rs : List Reply) :
    Except Error (Nat × List String) := do
  let rest := rs.drop p.steps.length
  let total ← accept readFailure Reply.nat? (rest.headD .absent)
  if limit = 0 then .ok (total, [])
  else
    let ids ← accept readFailure (Reply.listOf? Reply.text?) ((rest.drop 1).headD .absent)
    .ok (total, ids)

/-- The hits of ids and their data; an id without data is passed over. -/
def hitsOf (found : List (String × Option String)) : Except Error (List SearchHit) :=
  (found.filterMap fun f => f.2.map (f.1, ·)).mapM fun f =>
    (storedOf f.2).map fun d => ⟨f.1, .ofNat 1, d⟩

/-- A window of the matching documents in the order of their ids. -/
def search (plan : Plan) (offset limit : Nat) : Work ResultSet := do
  let (s, _) ← get
  let p := Program.compile s.keys runLabel plan
  let rs ← transact readFailure (searchCommands p offset limit)
  let (total, ids) ← .ofExcept (searchAnswer p limit rs)
  if ids.isEmpty then return ⟨[], some total⟩
  let data ← ask readFailure (.getAll (ids.map s.keys.data)) (Reply.listOf? Reply.optionalText?)
  return ⟨← .ofExcept (hitsOf (ids.zip data)), some total⟩

/-! ## Removing -/

/-- Deletes the keys of a store page by page, at most `pages` pages. -/
def deletePages : Nat → Nat → Work Unit
  | 0, _ => pure ()
  | pages + 1, cursor => do
    let (s, _) ← get
    let (next, keys) ←
      ask readFailure (.scan cursor s.keys.pattern scanPageSize) Reply.scanPage?
    if !keys.isEmpty then ask writeFailure (.delete keys) (fun _ => some ())
    if next ≠ 0 then deletePages pages next

def destroy : Work Unit := do
  ensureWritable "destroy"
  let (_, server) ← get
  deletePages (server.keys.size + 1) 0
  modify fun (s, v) => ({ s with schema := .empty }, v)

def description (s : Store) : String :=
  "RedisDriver \x7b url: " ++ Text.quote s.address ++ ", prefix: " ++ Text.quote s.keys.stem ++
    ", timeout_ms: " ++ toString s.timeoutMs ++ ", readonly: " ++ toString s.readonly ++ " \x7d"

end Store

end Searchlight.SetStore
