import Searchlight.Driver.Basic

/-!
# Catalogs

A catalog gives the backends names. It has the built-in ones, and others may be added.
-/

namespace Searchlight

inductive Backend where
  | memory
  | limited
  | sets
  | disk
  deriving DecidableEq, Repr

def Backend.openWith (b : Backend) (o : BackendOptions) : Action Host Driver :=
  match b with
  | memory => do
    .ofExcept (o.ensureRecognized Memory.backendName [])
    return .memory .empty
  | limited => do
    .ofExcept (o.ensureRecognized Memory.Limited.backendName Memory.Limited.recognizedOptions)
    return .limited (Memory.Limited.storeKey o) .empty
  | sets =>
    (Driver.sets <$> SetStore.Store.openWith o).focus (·.server) fun v h => { h with server := v }
  | disk => do
    let h ← get
    (Driver.disk <$> Disk.Store.openWith h.analyze o).focus (·.volume) fun v h =>
      { h with volume := v }

structure Catalog where
  backends : KeyMap Backend

namespace Catalog

def empty : Catalog := ⟨∅⟩

/-- The catalog with a backend under a name, whatever was there before. -/
def register (c : Catalog) (name : String) (b : Backend) : Catalog :=
  ⟨c.backends.insert name b⟩

def builtin : Catalog :=
  ((empty.register Memory.backendName .memory).register Disk.backendName .disk).register
    SetStore.backendName .sets

def withLimited : Catalog := builtin.register Memory.Limited.backendName .limited

def contains (c : Catalog) (name : String) : Bool := c.backends.contains name

def names (c : Catalog) : List String := c.backends.keys

def openStore (c : Catalog) (name : String) (o : BackendOptions) : Action Host Driver :=
  match c.backends.get? name with
  | some b => b.openWith o
  | none => throw (.unknownBackend name)

def description (c : Catalog) : String :=
  "DriverRegistry \x7b backends: " ++ Text.bracketed (c.names.map Text.quote) ++ " \x7d"

end Catalog

end Searchlight
