import Searchlight.Binary.Logarithm
import Searchlight.Disk.Fields
import Searchlight.Disk.Query
import Searchlight.Disk.Segments

/-!
# Ranking

A match is worth the more the fewer records have its terms, the more often they occur in the
record and the shorter the field is there. The worth of a query is made of that of its terms, in
32-bit arithmetic throughout, so the order of the sums is part of the definition. Removed records
count until their segment goes.
-/

namespace Searchlight.Disk

namespace Segments

def size (ss : Segments) : Nat := ss.flatten.length

def frequency (ss : Segments) (t : Term) : Nat := Segment.frequency ss.flatten t

def fieldLength (ss : Segments) (field : Nat) : Nat :=
  (ss.flatten.flatMap (·.record.terms)).countP (·.field == field)

end Segments

namespace Ranking

/-! ## Terms -/

def one : Single := .ofNat 1

def half : Single := .ofFraction false 1 2

/-- How slowly further occurrences of a term lose their worth. -/
def slowness : Single := .ofFraction false 12 10

/-- How much of the worth the length of the field decides. -/
def lengthShare : Single := .ofFraction false 3 4

/-- The length of a field as it is kept: from 40 on, of what exceeds 24 only the four leading bits
matter. -/
def roundLength (n : Nat) : Nat :=
  let excess := n - 24
  let low := excess.log2 - 3
  if excess < 16 then n else 24 + (excess >>> low) <<< low

/-- The worth of a term for the records that have it. -/
def rarity (ss : Segments) (t : Term) : Single :=
  let n := ss.frequency t
  (one + (.ofNat (ss.size - n) + half) / (.ofNat n + half)).log

/-- The length of the field of a term in a record. Numbers and dates have no length. -/
def lengthIn (l : Layout) (r : Record) (t : Term) : Nat :=
  match l.type? t.field with
  | some .tokens | some .whole => roundLength (r.fieldLength t.field)
  | _ => 1

/-- How often a term occurs in a record that has it. Only the tokens of free text are counted. -/
def occurrencesIn (l : Layout) (r : Record) (t : Term) : Nat :=
  if l.type? t.field = some .tokens then r.occurrences t else 1

def termScore (l : Layout) (ss : Segments) (r : Record) (boost : Single) (t : Term) : Single :=
  let mean : Single := .ofNat (ss.fieldLength t.field) / .ofNat ss.size
  let relative := lengthShare * .ofNat (lengthIn l r t) / mean
  let occurrences : Single := .ofNat (occurrencesIn l r t)
  let damping := slowness * (one + -lengthShare + relative)
  rarity ss t * (one + slowness) * boost * (occurrences / (occurrences + damping))

/-! ## Queries -/

mutual

/-- The number of records of a segment by which required queries are ordered. -/
def cost (s : Segment) : TermQuery → Nat
  | .term t => s.frequency t
  | .nothing => 0
  | .clauses required _ _ => ((costs s required).min?).getD 0
  | .boost q _ => cost s q

def costs (s : Segment) : List TermQuery → List Nat
  | [] => []
  | q :: qs => cost s q :: costs s qs

end

def sum (scores : List Single) : Single := scores.foldl (· + ·) .zero

/-- The sum over required queries, each with its cost: the cheapest two come first. -/
def sumRequired (parts : List (Nat × Single)) : Single :=
  match (parts.mergeSort fun a b => a.1 ≤ b.1).map (·.2) with
  | [] => .zero
  | [a] => a
  | a :: b :: rest => a + b + sum rest

/-- The sum over those optional queries that match the record. Of the queries that match anything
in the segment the first comes first, and the others follow from the last on. -/
def sumOptional (s : Segment) (r : Record) (parts : List (TermQuery × Single)) : Single :=
  let present := parts.filter fun p => s.any fun e => p.1.matchesRecord e.record
  let ordered := present.take 1 ++ (present.drop 1).reverse
  sum ((ordered.filter fun p => p.1.matchesRecord r).map (·.2))

mutual

/-- The worth of a query in a record of a segment that it matches. -/
def score (l : Layout) (ss : Segments) (s : Segment) (r : Record) (boost : Single) :
    TermQuery → Single
  | .term t => termScore l ss r boost t
  | .nothing => .zero
  | .clauses required optional _ =>
    let must := sumRequired ((costs s required).zip (scores l ss s r boost required))
    let may := sumOptional s r (optional.zip (scores l ss s r boost optional))
    if optional.isEmpty then must else if required.isEmpty then may else must + may
  | .boost q x => score l ss s r (boost * x) q

def scores (l : Layout) (ss : Segments) (s : Segment) (r : Record) (boost : Single) :
    List TermQuery → List Single
  | [] => []
  | q :: qs => score l ss s r boost q :: scores l ss s r boost qs

end

end Ranking

/-- The records that a query matches with their scores, the highest score first. -/
def Segments.ranking (ss : Segments) (l : Layout) (q : TermQuery) : List (Single × Record) :=
  (ss.flatMap fun s =>
    (s.records.filter fun r => q.matchesRecord r).map fun r =>
      (Ranking.score l ss s r Ranking.one q, r)).mergeSort fun a b => b.1.rank ≤ a.1.rank

end Searchlight.Disk
