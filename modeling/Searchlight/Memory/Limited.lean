import Searchlight.Memory.Store
import Searchlight.Options

/-!
# Limited in-memory stores

An in-memory store that accepts text only, has neither differences nor exclusive or weighted
queries and lets one writer at a time in. Stores are told apart by an option, each opening
gives an empty one.
-/

namespace Searchlight.Memory.Limited

def backendName : String := "limited"

def recognizedOptions : List String := ["prefix"]

def defaultName : String := "shared"

def capabilities : Capabilities where
  schemaTier := .appendOnly
  durability := none
  visibility := .atCall
  idAssignment := .atCall
  valueKinds := [.text]
  operators := [.freeText, .field, .and, .or]
  singleWriter := true
  maxRetries := 0

def storeKey (o : BackendOptions) : String := backendName ++ ":" ++ o.keyPrefix.getD defaultName

def shapeCheck : Translator Unit where
  freeText _ := .ok ()
  field _ _ := .ok ()
  and _ := .ok ()
  or _ := .ok ()
  not _ _ := .ok ()
  xor _ := .ok ()
  weight _ _ := .ok ()

/-- The query as an in-memory store takes it, if the operators are there. -/
def translate (s : Store) (q : Query) : Except Error TokenQuery := do
  q.translate capabilities backendName shapeCheck
  q.translate Memory.capabilities Memory.backendName (translator s.schema)

end Searchlight.Memory.Limited
