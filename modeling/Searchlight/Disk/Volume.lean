import Searchlight.Action
import Searchlight.Disk.Fields
import Searchlight.Disk.Segments
import Searchlight.FileTree

/-!
# Volumes

A store on disk is a directory with the schema, the index and their locks. A volume is the file
tree with the stores on it. A file is locked by a mark on it that names the holder, and every
holder has a mark of its own; the content of a locked file is of no matter, and a file that is
removed takes its lock along.
-/

namespace Searchlight.Disk

/-- The index as the last commit left it. -/
structure Image where
  layout : Layout
  segments : Segments
  deriving DecidableEq

inductive Content where
  | text (s : String)
  | index (image : Image)
  deriving DecidableEq

/-- A file, with the mark of the one who has it locked. -/
structure File where
  content : Content
  holder : Option Nat
  deriving DecidableEq

structure Volume where
  files : FileTree File
  marks : Nat

namespace Volume

def schemaFile : String := "multisearch-schema.json"

/-- The lock of a store, held by the client that writes to it. -/
def lockFile : String := "multisearch-writer.lock"

def indexFile : String := "meta.json"

/-- The list that an index has of its files. -/
def managedFile : String := ".managed.json"

/-- The lock of an index, held by its writer. -/
def writerLockFile : String := ".tantivy-writer.lock"

/-- The lock that guards an index while it is opened. -/
def readerLockFile : String := ".tantivy-meta.lock"

/-! ## Files -/

def failure (path : String) : Error := .ioAt path "No such file or directory (os error 2)"

/-- Writes a file; whoever has it locked keeps it. -/
def write (path : String) (content : Content) (e : Error) : Action Volume Unit := do
  let v ← get
  match v.files.write? path ⟨content, (v.files.read? path).bind (·.holder)⟩ with
  | some files => set { v with files }
  | none => throw e

/-- Makes sure that there is a file; one that is missing gets a text. -/
def touch (path text : String) (e : Error) : Action Volume Unit := do
  match (← get).files.read? path with
  | some _ => pure ()
  | none => write path (.text text) e

def createDirectory (path : String) : Action Volume Unit := do
  let v ← get
  let (files, done) := v.files.createDirectory path
  set { v with files }
  if !done then throw (failure path)

def removeDirectory (path : String) : Action Volume Unit := do
  let v ← get
  let (files, done) := v.files.removeDirectory path
  set { v with files }
  if !done then throw (failure path)

/-- Writes a text file and makes the directories above it. -/
def writeText (path content : String) : Action Volume Unit := do
  createDirectory (FileTree.parent path)
  write path (.text content) (failure path)

def text? (v : Volume) (path : String) : Option String :=
  match v.files.read? path with
  | some ⟨.text s, _⟩ => some s
  | _ => none

/-! ## Schema and index -/

/-- The schema beside an index; a store without the file has the empty one. -/
def schema (v : Volume) (directory : String) : Except Error Schema :=
  let path := FileTree.child directory schemaFile
  if v.files.holds path then
    match v.text? path with
    | some s => Schema.ofJsonText s
    | none => .error (failure path)
  else .ok .empty

/-- There is an index, or at least something in its place. -/
def hasIndex (v : Volume) (directory : String) : Bool :=
  v.files.holds (FileTree.child directory indexFile)

def image? (v : Volume) (directory : String) : Option Image :=
  match v.files.read? (FileTree.child directory indexFile) with
  | some ⟨.index image, _⟩ => some image
  | _ => none

/-- The list of the files of an index can be read, or there is none. -/
def managesFiles (v : Volume) (directory : String) : Bool :=
  let path := FileTree.child directory managedFile
  match (v.text? path).map Json.read? with
  | some (some (.array items)) => items.all (·.string?.isSome)
  | some _ => false
  | none => !v.files.holds path

def writeImage (directory : String) (image : Image) (e : Error) : Action Volume Unit := do
  touch (FileTree.child directory managedFile) s!"[\"{indexFile}\"]\n" e
  write (FileTree.child directory indexFile) (.index image) e

/-! ## Locks -/

/-- Locks a file, which is made if it is not there, and gives the mark of the holder. -/
def acquire (path : String) (busy failed : Error) : Action Volume Nat := do
  touch path "" failed
  let v ← get
  match v.files.read? path with
  | some ⟨_, some _⟩ => throw busy
  | some ⟨content, none⟩ =>
    match v.files.write? path ⟨content, some v.marks⟩ with
    | some files =>
      set ({ files, marks := v.marks + 1 } : Volume)
      return v.marks
    | none => throw failed
  | none => throw failed

/-- Gives back what the holder with the mark has locked; the file stays. -/
def release (mark : Nat) : Action Volume Unit :=
  modify fun v =>
    { v with
      files := v.files.mapFiles fun f =>
        if f.holder = some mark then { f with holder := none } else f }

end Volume

end Searchlight.Disk
