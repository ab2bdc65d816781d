import Searchlight.Disk.Store
import Searchlight.Driver.Host
import Searchlight.Driver.NativeQuery
import Searchlight.Memory.Limited
import Searchlight.SetStore.Store

/-!
# Drivers

A driver is an open store of one of the backends. All of them take the same operations; what
an operation does is told backend by backend.
-/

namespace Searchlight

inductive Driver where
  | memory (s : Memory.Store)
  /-- A limited in-memory store with its key. -/
  | limited (key : String) (s : Memory.Store)
  | sets (s : SetStore.Store)
  | disk (s : Disk.Store)

abbrev DriverWork (α : Type) := Action (Driver × Host) α

namespace Driver

variable {α : Type}

/-- Does work that depends on the kind of the store. -/
def work (memory : Action Memory.Store α) (sets : SetStore.Work α) (disk : Disk.Work α) :
    DriverWork α := do
  let (d, _) ← get
  match d with
  | .memory s => memory.focus (fun _ => s) fun s (_, h) => (.memory s, h)
  | .limited key s => memory.focus (fun _ => s) fun s (_, h) => (.limited key s, h)
  | .sets s =>
    sets.focus (fun (_, h) => (s, h.server)) fun (s, v) (_, h) => (.sets s, { h with server := v })
  | .disk s =>
    disk.focus (fun (_, h) => (s, h.volume)) fun (s, v) (_, h) => (.disk s, { h with volume := v })

/-! ## What a driver is -/

def name : Driver → String
  | memory _ => Memory.backendName
  | limited _ _ => Memory.Limited.backendName
  | sets _ => SetStore.backendName
  | disk _ => Disk.backendName

def capabilities : Driver → Capabilities
  | memory _ => Memory.capabilities
  | limited _ _ => Memory.Limited.capabilities
  | sets _ => SetStore.capabilities
  | disk _ => Disk.capabilities

/-- What tells the store apart, where clients can share it. -/
def storeKey (d : Driver) (h : Host) : Option String :=
  match d with
  | limited key _ => some key
  | disk s => some (s.key h.volume)
  | memory _ | sets _ => none

def isFrozen : Driver → Bool
  | disk s => s.live.isSome
  | _ => false

/-- A description of the driver; an in-memory store has none. -/
def description : Driver → String
  | memory _ | limited _ _ => ""
  | sets s => s.description
  | disk s => s.description

/-! ## Schema -/

def schemaSnapshot : DriverWork Schema :=
  work (do return (← get).schema) SetStore.Store.loadSchema (do return (← get).1.fields.schema)

def registerField (field : String) (config : FieldConfig) : DriverWork Unit :=
  work (modify (·.registerField field config)) (SetStore.Store.registerField field config) (do
    let (s, v) ← get
    set (← .ofExcept (s.registerField field config), v))

/-! ## Documents -/

/-- Indexes a document under an id, or under one of the store's choice. An id that is drawn
counts as drawn once a document is under it. -/
def index (d : PreparedDocument) (id : Option String) : DriverWork String := do
  let (_, h) ← get
  let drawn := id.getD h.nextId
  let given ← work (do modify (·.index drawn d); return drawn) (SetStore.Store.index d id)
    (Disk.Store.index d drawn)
  if id.isNone ∧ given = drawn then modify fun (s, h) => (s, { h with drawn := h.drawn + 1 })
  return given

def delete (id : String) : DriverWork Unit :=
  work (do set (← .ofExcept ((← get).delete id))) (SetStore.Store.delete id)
    (Disk.Store.delete id)

/-- A document is there, counting changes that are not visible yet. -/
def contains (id : String) : DriverWork Bool :=
  work (do return (← get).contains id) (SetStore.Store.contains id)
    (do return (← get).1.contains id)

/-- The stored fields of a visible document. -/
def get? (id : String) : DriverWork (Option StoredDocument) :=
  work (do return (← get).get? id) (SetStore.Store.get? id) (do .ofExcept ((← get).1.get? id))

def count : DriverWork Nat :=
  work (do return (← get).count) SetStore.Store.count (do return (← get).1.count)

def ids (offset limit : Nat) : DriverWork (List String) :=
  work (do return (← get).ids offset limit) (SetStore.Store.ids offset limit)
    (Disk.Store.ids offset limit)

/-! ## Queries -/

def translate (d : Driver) (q : Query) : Except Error NativeQuery :=
  match d with
  | memory s =>
    (q.translate Memory.capabilities Memory.backendName (Memory.translator s.schema)).map
      fun t => ⟨Memory.backendName, .tokens t⟩
  | limited _ s => (Memory.Limited.translate s q).map fun t => ⟨Memory.backendName, .tokens t⟩
  | sets s =>
    (q.translate SetStore.capabilities SetStore.backendName
      (SetStore.translator s.keys s.schema)).map fun p => ⟨SetStore.backendName, .plan p⟩
  | disk s =>
    (q.translate Disk.capabilities Disk.backendName (Disk.translator s.fields s.analyze)).map
      fun t => ⟨Disk.backendName, .terms t⟩

def search (q : NativeQuery) (offset limit : Nat) : DriverWork ResultSet :=
  work
    (do
      let t ← .ofExcept (q.tokens Memory.backendName)
      return (← get).search t offset limit)
    (do
      let p ← .ofExcept (q.plan SetStore.backendName)
      SetStore.Store.search p offset limit)
    (do
      let t ← .ofExcept (q.terms Disk.backendName)
      Disk.Store.search t offset limit)

/-! ## Life -/

def commit : DriverWork Unit := work (pure ()) (pure ()) Disk.Store.commit

def cancel : DriverWork Unit := work (pure ()) (pure ()) Disk.Store.cancel

def close : DriverWork Unit := work (pure ()) (pure ()) Disk.Store.close

def destroy : DriverWork Unit :=
  work (set Memory.Store.empty) SetStore.Store.destroy Disk.Store.destroy

/-- What is left to do when nothing refers to the driver any more: changes that were not
committed are gone, and locks are given back. -/
def drop : DriverWork Unit := work (pure ()) (pure ()) Disk.Store.abandon

end Driver

end Searchlight
