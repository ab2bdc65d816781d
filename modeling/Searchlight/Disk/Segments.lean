import Searchlight.Disk.Record

/-!
# Segments

An index grows by segments: the records that one commit adds make a new one. A record that is
removed stays in its segment, marked, and is not found any more; a segment goes once all its
records are removed.
-/

namespace Searchlight.Disk

structure Entry where
  record : Record
  removed : Bool
  deriving DecidableEq

/-- The records that came together, in the order in which they were added. -/
abbrev Segment := List Entry

namespace Segment

def add (s : Segment) (r : Record) : Segment := s ++ [⟨r, false⟩]

/-- The segment after all records with a term are removed. -/
def remove (s : Segment) (t : Term) : Segment :=
  s.map fun e => if e.record.terms.contains t then { e with removed := true } else e

/-- The records that are not removed. -/
def records (s : Segment) : List Record := (s.filter (!·.removed)).map (·.record)

/-- How many records have a term; removed ones count. -/
def frequency (s : Segment) (t : Term) : Nat := s.countP (·.record.terms.contains t)

theorem records_add (s : Segment) (r : Record) : (s.add r).records = s.records ++ [r] := by
  simp [add, records]

theorem records_remove (s : Segment) (t : Term) :
    (s.remove t).records = s.records.filter fun r => !r.terms.contains t := by
  induction s with
  | nil => rfl
  | cons e s ih =>
    simp only [remove, records, List.map_cons, List.filter_cons] at ih ⊢
    cases hr : e.removed <;> cases ht : e.record.terms.contains t <;> simp_all

end Segment

abbrev Segments := List Segment

def Segments.records (ss : Segments) : List Record := ss.flatMap Segment.records

/-! ## Changes -/

/-- A change that waits for a commit. -/
inductive Write where
  /-- Removes what is found by an id. -/
  | remove (id : String)
  | add (r : Record)
  deriving DecidableEq

namespace Write

def isRemoval : Write → Bool
  | remove _ => true
  | add _ => false

/-- A change to the segments that are there and to the one that is being made. -/
def apply : Segments × Segment → Write → Segments × Segment
  | (old, new), remove id => (old.map (·.remove (.ofId id)), new.remove (.ofId id))
  | (old, new), add r => (old, new.add r)

end Write

/-- The segments after a commit; the larger ones come first. -/
def Segments.commit (ss : Segments) (writes : List Write) : Segments :=
  let (old, new) := writes.foldl Write.apply (ss, [])
  ((old ++ [new]).filter fun s => !s.records.isEmpty).mergeSort fun a b => b.length ≤ a.length

end Searchlight.Disk
