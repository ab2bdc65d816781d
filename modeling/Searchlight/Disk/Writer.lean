import Searchlight.Disk.Volume

/-!
# Writers

An index in use shows what it held when it was looked at last, and may have a writer. The writer
holds the lock of the index and gathers changes for the next commit. A record that does not fit
the fields of the index is noticed late: it is taken like any other, and the commit fails.
-/

namespace Searchlight.Disk

/-- What becomes of the records that a writer is given. -/
inductive Intake where
  /-- They wait for the commit. -/
  | ready
  /-- One did not fit: no others are taken, and the commit will fail. -/
  | failed
  /-- A commit failed: they are taken and lost. -/
  | idle
  /-- The writer could not be set back: nothing is committed any more. -/
  | dead
  deriving DecidableEq, Repr

/-- The writer of an index: what it committed last and what came since. -/
structure Writer where
  committed : Segments
  waiting : List Write
  intake : Intake
  /-- The mark by which the lock of the index is held. -/
  mark : Nat

/-- The memory is enough for a writer of one thread, and not too much for one of eight. -/
def IsWriterMemory (bytes : Nat) : Prop := 15000000 ≤ bytes ∧ bytes / 8 < 4293967295

instance (bytes : Nat) : Decidable (IsWriterMemory bytes) := inferInstanceAs (Decidable (_ ∧ _))

namespace Writer

/-- A writer of an index that nobody else writes to. -/
def start (directory : String) (segments : Segments) (memory : Nat) : Action Volume Writer := do
  let failure (why : String) : Error := .index "failed to create index writer" (some why)
  let mark ← Volume.acquire (FileTree.child directory Volume.writerLockFile)
    (failure "there is another") (failure "the lock is no file")
  if IsWriterMemory memory then return ⟨segments, [], .ready, mark⟩
  else
    Volume.release mark
    throw (failure "the memory is out of bounds")

def remove (w : Writer) (id : String) : Writer :=
  { w with waiting := w.waiting ++ [.remove id] }

/-- The writer with a record more, or with one that does not fit the fields; none when it takes
no records. -/
def add? (w : Writer) (r : Option Record) : Option Writer :=
  match w.intake, r with
  | .ready, some r => some { w with waiting := w.waiting ++ [.add r] }
  | .ready, none => some { w with intake := .failed }
  | .idle, _ | .dead, _ => some w
  | .failed, _ => none

/-- The segments that a commit leaves, or none when the commit fails. -/
def result? (w : Writer) : Option Segments :=
  match w.intake with
  | .ready | .idle => some (w.committed.commit w.waiting)
  | .failed | .dead => none

def afterCommit (w : Writer) (segments : Segments) : Writer :=
  { w with committed := segments, waiting := [] }

/-- The writer after a commit that failed: the records that waited are lost. -/
def afterFailure (w : Writer) : Writer :=
  match w.intake with
  | .failed => { w with waiting := w.waiting.filter Write.isRemoval, intake := .idle }
  | _ => w

def setBack (w : Writer) (segments : Segments) : Writer := ⟨segments, [], .ready, w.mark⟩

end Writer

/-- An index in use. -/
structure Live where
  directory : String
  visible : Segments
  writer : Option Writer

namespace Live

/-- Puts an index to use, with a writer unless it is only read. -/
def start (directory : String) (segments : Segments) (readonly : Bool) (memory : Nat) :
    Action Volume Live := do
  Volume.touch (FileTree.child directory Volume.readerLockFile) ""
    (.index "failed to create index reader" (some "the lock is no file"))
  let writer ← if readonly then pure none else some <$> Writer.start directory segments memory
  return ⟨directory, segments, writer⟩

def stop (live : Live) : Action Volume Live := do
  live.writer.forM fun w => Volume.release w.mark
  return { live with writer := none }

/-- Looks for the index in a directory and puts it to use. -/
def openIn (path : String) (readonly : Bool) (memory : Nat) : Action Volume (Layout × Live) := do
  let v ← get
  match v.files.locate? path, v.managesFiles path, v.image? path with
  | some directory, true, some image =>
    return (image.layout, ← start directory image.segments readonly memory)
  | _, _, _ => throw (.index "failed to open index" (some "the file holds no index"))

def createIn (path : String) (layout : Layout) (memory : Nat) : Action Volume Live := do
  let failure (why : String) : Error := .index "failed to create index" (some why)
  let v ← get
  match v.files.locate? path with
  | none => throw (failure "there is no such directory")
  | some directory =>
    if v.hasIndex directory then throw (failure "there is one")
    if !v.managesFiles directory then throw (failure "the list of files cannot be read")
    Volume.writeImage directory ⟨layout, []⟩ (failure "the file cannot be written")
    start directory [] false memory

end Live

end Searchlight.Disk
