import Searchlight.Document.Prepared
import Searchlight.Field.Tokens

/-!
# Keys of a store on a key server

Every key of a store begins with its prefix and a colon. A posting key carries the length of
its field name, since names and tokens may hold colons themselves.
-/

namespace Searchlight.SetStore

structure KeySpace where
  stem : String
  deriving DecidableEq, Repr

namespace KeySpace

def key (k : KeySpace) (parts : List String) : String := ":".intercalate (k.stem :: parts)

def docs (k : KeySpace) : String := k.key ["docs"]

/-- The counter of ids. -/
def nextId (k : KeySpace) : String := k.key ["nextid"]

def schema (k : KeySpace) : String := k.key ["schema"]

def data (k : KeySpace) (id : String) : String := k.key ["data", id]

/-- The posting keys that a document is under. -/
def terms (k : KeySpace) (id : String) : String := k.key ["terms", id]

/-- The ids with a token in a field. -/
def posting (k : KeySpace) (field token : String) : String :=
  k.key ["docs", toString field.utf8ByteSize, field, token]

/-- The ids with a token in any free-text field. -/
def anyField (k : KeySpace) (token : String) : String := k.key ["any", token]

/-- A temporary result of a run. -/
def temp (k : KeySpace) (run : String) (n : Nat) : String := k.key ["tmp", run, toString n]

/-- The characters that a pattern escapes. -/
def isPatternChar (c : Char) : Bool :=
  c == '*' || c == '?' || c == '[' || c == ']' || c == '\\'

/-- The pattern that all keys of the store match. -/
def pattern (k : KeySpace) : String :=
  String.ofList ((k.stem.toList.flatMap fun c => if isPatternChar c then ['\\', c] else [c]) ++
    [':', '*'])

def tokenKeys (k : KeySpace) (f : PreparedField) (token : String) : List String :=
  if f.config.kind = .freeText then [k.anyField token, k.posting f.name token]
  else [k.posting f.name token]

def fieldKeys (k : KeySpace) (f : PreparedField) : List String :=
  (f.values.flatMap f.config.kind.valueTokens).flatMap (k.tokenKeys f)

/-- The posting keys of a document, in ascending order and each once. -/
def postings (k : KeySpace) (d : PreparedDocument) : List String :=
  (KeyMap.ofList (((d.fields.filter (·.config.indexed)).flatMap k.fieldKeys).map (·, ()))).keys

/-- The prefix can name a store: it is not empty and has no colon or white space. -/
def IsValidStem (stem : String) : Prop :=
  stem ≠ "" ∧ ∀ c ∈ stem.toList, c ≠ ':' ∧ Text.isWhiteSpace c = false

instance (stem : String) : Decidable (IsValidStem stem) :=
  @instDecidableAnd _ _ inferInstance (List.decidableBAll _ _)

end KeySpace

end Searchlight.SetStore
