import Searchlight.Document.Prepared
import Searchlight.Hit
import Searchlight.Memory.Query

/-!
# The in-memory store

A document is kept as the counts of its tokens, per field and over all free-text fields. Its
score is the sum of the counts of the matched tokens. Hits come by score, the highest first,
and then by age: each document has a number of its own from a counter that only grows.
-/

namespace Searchlight.Memory

def backendName : String := "memory"

def capabilities : Capabilities where
  schemaTier := .appendOnly
  durability := none
  visibility := .atCall
  idAssignment := .atCall
  valueKinds := ValueKind.all
  operators := QueryOperator.all
  singleWriter := false
  maxRetries := 0

abbrev TermCounts := KeyMap Nat

def TermCounts.add (c : TermCounts) (token : String) : TermCounts :=
  c.insert token ((c.get? token).getD 0 + 1)

structure Entry where
  seq : Nat
  /-- The counts of each indexed field. -/
  fields : KeyMap TermCounts
  /-- The counts over all indexed free-text fields. -/
  freeText : TermCounts
  stored : Document

def fieldTokens (f : PreparedField) : List String := f.values.flatMap f.config.kind.valueTokens

namespace Entry

/-- The counts of a list of tokens on top of others. -/
def countTokens (counts : TermCounts) (tokens : List String) : TermCounts :=
  tokens.foldl TermCounts.add counts

def build (seq : Nat) (d : PreparedDocument) : Entry :=
  let indexed := d.fields.filter (·.config.indexed)
  { seq
    fields := indexed.foldl (fun m f =>
      m.insert f.name (countTokens ((m.get? f.name).getD ∅) (fieldTokens f))) ∅
    freeText := (indexed.filter (·.config.kind == .freeText)).foldl
      (fun c f => countTokens c (fieldTokens f)) ∅
    stored := d.stored }

end Entry

/-! ## Scores -/

/-- The sum of scores, starting from negative zero, which changes no sum. -/
def sumScores (scores : List Single) : Single :=
  scores.foldl (· + ·) (-Binary.zero)

/-- The score of tokens that must all occur. -/
def scoreTokens (counts : TermCounts) (tokens : List String) : Option Single :=
  (tokens.mapM fun t => (counts.get? t).map Binary.ofNat).map sumScores

/-- The sum over the parts that match, if there are any. -/
def sumMatching : List Single → Option Single
  | [] => none
  | s :: ss => some (ss.foldl (· + ·) s)

mutual

/-- The score of an entry, none when it does not match. -/
def Entry.score (e : Entry) : TokenQuery → Option Single
  | .freeText tokens => scoreTokens e.freeText tokens
  | .field name tokens => (e.fields.get? name).bind (scoreTokens · tokens)
  | .nothing => none
  | .and parts => ((e.scores parts).mapM id).map sumScores
  | .or parts => sumMatching ((e.scores parts).filterMap id)
  | .not p n => if (e.score n).isSome then none else e.score p
  | .xor parts =>
    let matching := (e.scores parts).filterMap id
    if matching.length % 2 = 1 then some (sumScores matching) else none
  | .weight q x => (e.score q).map (· * x)

def Entry.scores (e : Entry) : List TokenQuery → List (Option Single)
  | [] => []
  | q :: qs => e.score q :: e.scores qs

end

/-! ## The store -/

structure Store where
  schema : Schema
  docs : KeyMap Entry
  nextSeq : Nat

namespace Store

def empty : Store := ⟨.empty, ∅, 0⟩

instance : Inhabited Store := ⟨empty⟩

def registerField (s : Store) (name : String) (config : FieldConfig) : Store :=
  { s with schema := s.schema.insert name config }

/-- The store with a document under an id, whatever was there before. -/
def index (s : Store) (id : String) (d : PreparedDocument) : Store :=
  { s with docs := s.docs.insert id (Entry.build s.nextSeq d), nextSeq := s.nextSeq + 1 }

def delete (s : Store) (id : String) : Except Error Store :=
  if s.docs.contains id then .ok { s with docs := s.docs.erase id } else .error (.notFound id)

def contains (s : Store) (id : String) : Bool := s.docs.contains id

def get? (s : Store) (id : String) : Option StoredDocument :=
  (s.docs.get? id).map fun e => ⟨id, e.stored⟩

def count (s : Store) : Nat := s.docs.size

def byAge (s : Store) : List (String × Entry) :=
  s.docs.entries.mergeSort fun a b => a.2.seq ≤ b.2.seq

def documents (s : Store) : List StoredDocument := s.byAge.map fun e => ⟨e.1, e.2.stored⟩

def window {α : Type} (offset limit : Nat) (xs : List α) : List α := (xs.drop offset).take limit

def ids (s : Store) (offset limit : Nat) : List String :=
  window offset limit (s.byAge.map (·.1))

/-- Higher scores come first, and older entries among equal scores. -/
def ranksBefore (a b : Single × String × Entry) : Bool :=
  if a.1.rank = b.1.rank then a.2.2.seq ≤ b.2.2.seq else b.1.rank ≤ a.1.rank

def ranking (s : Store) (q : TokenQuery) : List (Single × String × Entry) :=
  (s.docs.entries.filterMap fun e => (e.2.score q).map (·, e)).mergeSort ranksBefore

def search (s : Store) (q : TokenQuery) (offset limit : Nat) : ResultSet :=
  let ranked := s.ranking q
  { hits := (window offset limit ranked).map fun m => ⟨m.2.1, m.1, m.2.2.stored⟩
    total := some ranked.length }

end Store

end Searchlight.Memory
