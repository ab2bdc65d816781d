import Searchlight.KeyMap
import Searchlight.Text.Pieces

/-!
# File trees

A file tree holds files and directories under their canonical paths. A path is followed part by
part: every part but the last stands for a directory that is there, a point is the directory
itself, two points are the one above, and a slash at the end asks for a directory. The roots of
absolute and relative paths are always there.
-/

namespace Searchlight

/-- What stands under a path. -/
inductive FileNode (α : Type) where
  | directory
  | file (content : α)
  deriving DecidableEq

/-- Files and directories by their canonical paths. -/
structure FileTree (α : Type) where
  nodes : KeyMap (FileNode α)

namespace FileTree

variable {α β : Type}

def ofDirectories (paths : List String) : FileTree α :=
  ⟨.ofList (paths.map (·, FileNode.directory))⟩

def isDirectory (t : FileTree α) (canonical : String) : Bool :=
  canonical.isEmpty || canonical == "/" ||
    match t.nodes.get? canonical with
    | some .directory => true
    | _ => false

def hasNode (t : FileTree α) (canonical : String) : Bool :=
  t.isDirectory canonical || t.nodes.contains canonical

/-! ## Paths -/

/-- The parts of a path as they are written; an absolute path begins with an empty part. -/
def writtenParts (path : String) : List String :=
  (if path.startsWith "/" then [""] else []) ++
    ((Text.pieces '/' path.toList).filter fun p => !p.isEmpty).map String.ofList

/-- The parts of a path that is looked up: a slash at the end counts as a point. -/
def parts (path : String) : List String :=
  writtenParts path ++ if path.endsWith "/" then ["."] else []

/-- The parts of a path that are not points. -/
def names (path : String) : List String := (writtenParts path).filter (· ≠ ".")

/-- The canonical path of parts given from the last to the first. -/
def join (reversed : List String) : String :=
  if reversed = [""] then "/" else "/".intercalate reversed.reverse

def child (directory name : String) : String :=
  if directory.isEmpty then name
  else if directory.endsWith "/" then directory ++ name
  else directory ++ "/" ++ name

/-- The path without its last part, points left out. -/
def parent (path : String) : String := join ((names path).reverse.drop 1)

def descend (reversed : List String) (part : String) : List String :=
  if part = "." then reversed
  else if part = ".." then (if reversed = [""] then reversed else reversed.drop 1)
  else part :: reversed

/-- A name can be given to a file: it has at most 255 bytes and no zero among them. -/
def isName (part : String) : Bool := part.utf8ByteSize ≤ 255 && !part.toList.contains '\x00'

/-- Why a path leads nowhere. -/
inductive Obstacle where
  /-- A directory on the way is not there. -/
  | missing
  /-- A file is in the place of a directory, or a part is no name. -/
  | blocked
  deriving DecidableEq

/-- Follows parts from a place that is given by its parts from the last to the first. -/
def follow (t : FileTree α) : List String → List String → Except Obstacle (List String)
  | here, [] => .ok here
  | here, p :: ps =>
    if t.isDirectory (join here) then
      if isName p then t.follow (descend here p) ps else .error .blocked
    else .error (if t.hasNode (join here) then .blocked else .missing)

/-- The canonical form of a path; the empty path has none. -/
def canonical? (t : FileTree α) (path : String) : Option String :=
  if path.isEmpty then none else ((t.follow [] (parts path)).toOption).map join

/-! ## Looking -/

def locate? (t : FileTree α) (path : String) : Option String :=
  (t.canonical? path).filter t.hasNode

def holds (t : FileTree α) (path : String) : Bool := (t.locate? path).isSome

def read? (t : FileTree α) (path : String) : Option α :=
  (t.canonical? path).bind fun c =>
    match t.nodes.get? c with
    | some (.file content) => some content
    | _ => none

/-! ## Files -/

/-- Writes a file into a directory that is there. -/
def write? (t : FileTree α) (path : String) (content : α) : Option (FileTree α) :=
  (t.canonical? path).bind fun c =>
    if t.isDirectory c then none else some ⟨t.nodes.insert c (.file content)⟩

def remove? (t : FileTree α) (path : String) : Option (FileTree α) :=
  (t.canonical? path).bind fun c =>
    match t.nodes.get? c with
    | some (.file _) => some ⟨t.nodes.erase c⟩
    | _ => none

def mapFiles (f : α → β) (t : FileTree α) : FileTree β :=
  ⟨t.nodes.map fun _ n =>
    match n with
    | .directory => .directory
    | .file content => .file (f content)⟩

/-! ## Directories -/

/-- Makes one directory; none when there is something in its place. -/
def makeDirectory (t : FileTree α) (parts : List String) :
    Except Obstacle (Option (FileTree α)) := do
  let c := join (← t.follow [] parts)
  return if t.hasNode c then none else some ⟨t.nodes.insert c .directory⟩

/-- Makes sure of a directory, with `above` to make the directories above it where one of them is
missing; tells whether the directory is there. -/
def ensureDirectory (t : FileTree α) (parts : List String)
    (above : FileTree α → FileTree α × Bool) : FileTree α × Bool :=
  let isThere (t : FileTree α) : Bool :=
    match t.follow [] parts with
    | .ok here => t.isDirectory (join here)
    | .error _ => false
  match t.makeDirectory parts with
  | .ok (some t) => (t, true)
  | .ok none | .error .blocked => (t, isThere t)
  | .error .missing =>
    let (t, done) := above t
    if done then
      match t.makeDirectory parts with
      | .ok (some t) => (t, true)
      | _ => (t, isThere t)
    else (t, false)

/-- Makes sure of the directory that names lead to, given from the last to the first, and of all
above it. -/
def ensureDirectories : List String → FileTree α → FileTree α × Bool
  | [], t => (t, true)
  | name :: above, t => t.ensureDirectory (name :: above).reverse (ensureDirectories above)

/-- Makes a directory and all above it, and tells whether it is there; what was made before it
failed stays. -/
def createDirectory (t : FileTree α) (path : String) : FileTree α × Bool :=
  if path.isEmpty then (t, true)
  else if path.toList.contains '\x00' then (t, false)
  else t.ensureDirectory (writtenParts path) (ensureDirectories ((names path).reverse.drop 1))

/-- A canonical path is that of something in a directory, or further down. -/
def isBelow (directory path : String) : Bool :=
  if directory.isEmpty then !path.startsWith "/" else path.startsWith (child directory "")

/-- Removes a directory: first what is in it, then the directory under its path, and tells
whether that succeeded. A path that leads nowhere any more leaves the empty directory, and one
that ends in a point cannot be removed. -/
def removeDirectory (t : FileTree α) (path : String) : FileTree α × Bool :=
  match t.locate? path with
  | none => (t, true)
  | some c =>
    if t.isDirectory c then
      let emptied : FileTree α := ⟨t.nodes.filter fun k _ => !isBelow c k⟩
      match emptied.follow [] (writtenParts path) with
      | .error _ => (emptied, true)
      | .ok _ =>
        if (writtenParts path).getLast? = some "." then (emptied, false)
        else (⟨emptied.nodes.erase c⟩, true)
    else (t, false)

end FileTree

end Searchlight
