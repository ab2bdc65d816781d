import Searchlight.Binary.Basic
import Searchlight.Capability
import Searchlight.Text.Words

/-!
# Queries

A query is a tree of text leaves under set operations and weights. The operations `and`,
`or` and `xor` are built flat: a part that is already the same operation gives its parts to
the new node, so grouping leaves no trace in the tree.
-/

namespace Searchlight

/-- A query tree. Every term of a leaf must match. -/
inductive Query where
  | freeText (terms : List String)
  | field (name : String) (terms : List String)
  | all (parts : List Query)
  | any (parts : List Query)
  /-- An odd number of parts match. -/
  | odd (parts : List Query)
  /-- The first matches and the second does not. -/
  | except (positive negative : Query)
  /-- The same matches with their scores multiplied. -/
  | weight (query : Query) (factor : Single)

namespace Query

instance : Inhabited Query := ⟨freeText []⟩

/-! ## Building -/

/-- The words of a text in any free-text field. -/
def term (text : String) : Query := freeText (Text.words text)

/-- The words of a text in one field. -/
def fieldTerm (name text : String) : Query := field name (Text.words text)

/-- The parts that a query gives to a conjunction. -/
def conjuncts : Query → List Query
  | all parts => parts
  | q => [q]

def disjuncts : Query → List Query
  | any parts => parts
  | q => [q]

def exclusives : Query → List Query
  | odd parts => parts
  | q => [q]

def and (a b : Query) : Query := all (a.conjuncts ++ b.conjuncts)

def or (a b : Query) : Query := any (a.disjuncts ++ b.disjuncts)

/-- One of the two matches, or an odd number of all parts. -/
def xor (a b : Query) : Query := odd (a.exclusives ++ b.exclusives)

def not (positive negative : Query) : Query := except positive negative

/-! ## Equality -/

mutual

def decEq : (a b : Query) → Decidable (a = b)
  | freeText s, freeText t =>
    if h : s = t then isTrue (by rw [h]) else isFalse (by intro e; injection e; contradiction)
  | field m s, field n t =>
    if h : m = n ∧ s = t then isTrue (by rw [h.1, h.2])
    else isFalse (by intro e; injection e with h1 h2; exact h ⟨h1, h2⟩)
  | all p, all q =>
    match decEqAll p q with
    | isTrue h => isTrue (by rw [h])
    | isFalse h => isFalse (by intro e; injection e; contradiction)
  | any p, any q =>
    match decEqAll p q with
    | isTrue h => isTrue (by rw [h])
    | isFalse h => isFalse (by intro e; injection e; contradiction)
  | odd p, odd q =>
    match decEqAll p q with
    | isTrue h => isTrue (by rw [h])
    | isFalse h => isFalse (by intro e; injection e; contradiction)
  | except p q, except r s =>
    match decEq p r, decEq q s with
    | isTrue h, isTrue h' => isTrue (by rw [h, h'])
    | isFalse h, _ => isFalse (by intro e; injection e; contradiction)
    | _, isFalse h => isFalse (by intro e; injection e; contradiction)
  | weight p x, weight q y =>
    match decEq p q, decEq' x y with
    | isTrue h, isTrue h' => isTrue (by rw [h, h'])
    | isFalse h, _ => isFalse (by intro e; injection e; contradiction)
    | _, isFalse h => isFalse (by intro e; injection e; contradiction)
  | freeText _, field _ _ | freeText _, all _ | freeText _, any _ | freeText _, odd _
  | freeText _, except _ _ | freeText _, weight _ _
  | field _ _, freeText _ | field _ _, all _ | field _ _, any _ | field _ _, odd _
  | field _ _, except _ _ | field _ _, weight _ _
  | all _, freeText _ | all _, field _ _ | all _, any _ | all _, odd _
  | all _, except _ _ | all _, weight _ _
  | any _, freeText _ | any _, field _ _ | any _, all _ | any _, odd _
  | any _, except _ _ | any _, weight _ _
  | odd _, freeText _ | odd _, field _ _ | odd _, all _ | odd _, any _
  | odd _, except _ _ | odd _, weight _ _
  | except _ _, freeText _ | except _ _, field _ _ | except _ _, all _ | except _ _, any _
  | except _ _, odd _ | except _ _, weight _ _
  | weight _ _, freeText _ | weight _ _, field _ _ | weight _ _, all _ | weight _ _, any _
  | weight _ _, odd _ | weight _ _, except _ _ => isFalse (by intro e; injection e)
where
  decEq' (x y : Single) : Decidable (x = y) := inferInstance

def decEqAll : (p q : List Query) → Decidable (p = q)
  | [], [] => isTrue rfl
  | a :: p, b :: q =>
    match decEq a b, decEqAll p q with
    | isTrue h, isTrue h' => isTrue (by rw [h, h'])
    | isFalse h, _ => isFalse (by intro e; injection e; contradiction)
    | _, isFalse h => isFalse (by intro e; injection e; contradiction)
  | [], _ :: _ => isFalse (by intro e; injection e)
  | _ :: _, [] => isFalse (by intro e; injection e)

end

instance : DecidableEq Query := decEq

/-! ## Hashing -/

def hashFactor (x : Single) : UInt64 := hash (x.negative, x.magnitudeRank)

mutual

def hashTree : Query → UInt64
  | freeText terms => mixHash 1 (hash terms)
  | field name terms => mixHash 2 (hash (name, terms))
  | all parts => mixHash 3 (hashTrees parts)
  | any parts => mixHash 4 (hashTrees parts)
  | odd parts => mixHash 5 (hashTrees parts)
  | except p n => mixHash 6 (mixHash p.hashTree n.hashTree)
  | weight q x => mixHash 7 (mixHash q.hashTree (hashFactor x))

def hashTrees : List Query → UInt64
  | [] => 11
  | q :: qs => mixHash q.hashTree (hashTrees qs)

end

instance : Hashable Query := ⟨hashTree⟩

/-! ## Operators -/

def operator : Query → QueryOperator
  | freeText _ => .freeText
  | field _ _ => .field
  | all _ => .and
  | any _ => .or
  | odd _ => .xor
  | except _ _ => .not
  | weight _ _ => .weight

mutual

/-- The nodes of a tree, each before its parts. -/
def nodes : Query → List Query
  | all parts => all parts :: nodesAll parts
  | any parts => any parts :: nodesAll parts
  | odd parts => odd parts :: nodesAll parts
  | except p n => except p n :: (p.nodes ++ n.nodes)
  | weight q x => weight q x :: q.nodes
  | q => [q]

def nodesAll : List Query → List Query
  | [] => []
  | q :: qs => q.nodes ++ nodesAll qs

end

/-- The operators of a tree without repetitions, first use first. -/
def operators (q : Query) : List QueryOperator := (q.nodes.map operator).eraseDups

/-- The first node whose operator a backend does not have. -/
def firstUnsupported (caps : Capabilities) (q : Query) : Option Query :=
  q.nodes.find? fun n => !caps.supportsOperator n.operator

end Query

end Searchlight
