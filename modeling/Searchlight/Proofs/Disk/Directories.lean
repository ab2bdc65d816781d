import Searchlight.Disk.Writer
import Searchlight.Proofs.Action
import Searchlight.Proofs.FileTree.Files
import Searchlight.Proofs.Schema.Stored

/-!
# Indexes and their schemas

A directory with a store has an index and, beside it, the schema that the index was made for. A
schema with an indexed field that the index lacks is out of date (`Volume.OutOfDate`): no store can
be opened there. What is done to a volume apart from writing one of these two files leaves them, or
takes files away (`Volume.Stays`).
-/

namespace Searchlight.Disk

open Searchlight.Action (Keeps)
open FileTree (child join IsEntry)

/-! ## Layouts -/

/-- The index has every indexed field of the schema. -/
def Layout.Covers (l : Layout) (s : Schema) : Prop :=
  ∀ f ∈ FieldMap.indexedFields s, (l.number? f.1).isSome = true

theorem Layout.covers_indexedFields (s : Schema) : (FieldMap.indexedFields s : Layout).Covers s := by
  intro f hf
  rw [number?, List.findIdx?_isSome, List.any_eq_true]
  exact ⟨f.1, List.mem_append_right _ (List.mem_map_of_mem hf), by simp⟩

/-- The error at an index that lacks a field of the schema. -/
def missingField (name : String) : Error :=
  .config s!"index has no field '{name}'; sidecar out of date"

/-- A schema fits an index that has its fields, and only such an index. -/
theorem FieldMap.ofLayout_eq_error {l : Layout} {s : Schema} {e : Error}
    (h : FieldMap.ofLayout l s = .error e) : (∃ name, e = missingField name) ∧ ¬ l.Covers s := by
  rw [ofLayout] at h
  split at h
  · rename_i name type hfind
    cases h
    refine ⟨⟨name, rfl⟩, fun hcovers => ?_⟩
    have hlacks := List.find?_some hfind
    have hhas := hcovers _ (List.mem_of_find?_eq_some hfind)
    simp_all
  · cases h

/-! ## What is in a directory -/

def Content.image? : Content → Option Image
  | .index image => some image
  | .text _ => none

def Content.text? : Content → Option String
  | .text s => some s
  | .index _ => none

namespace Volume

def content? (v : Volume) (canonical : String) : Option Content :=
  (v.files.fileAt? canonical).map (·.content)

/-- The fields of the index in a directory. -/
def layoutAt? (v : Volume) (directory : String) : Option Layout :=
  ((v.content? (child directory indexFile)).bind Content.image?).map (·.layout)

/-- The text of the schema in a directory. -/
def schemaTextAt? (v : Volume) (directory : String) : Option String :=
  (v.content? (child directory schemaFile)).bind Content.text?

/-- In the directory is a schema with an indexed field that the index there lacks. -/
def OutOfDate (v : Volume) (directory : String) : Prop :=
  ∃ layout text schema, v.layoutAt? directory = some layout ∧
    v.schemaTextAt? directory = some text ∧ Schema.ofJsonText text = .ok schema ∧
    ¬ layout.Covers schema

/-- The index and the schema in a directory are the same. -/
structure SameStore (directory : String) (v v' : Volume) : Prop where
  layout : v'.layoutAt? directory = v.layoutAt? directory
  schemaText : v'.schemaTextAt? directory = v.schemaTextAt? directory

/-- The index and the schema in a directory are the same, or they go together. -/
def Stays (directory : String) (v v' : Volume) : Prop :=
  SameStore directory v v' ∨ ¬ v'.OutOfDate directory

variable {d path name text k : String} {u v v' : Volume} {e e' : Error} {content : Content}

theorem SameStore.refl (d : String) (v : Volume) : SameStore d v v := ⟨rfl, rfl⟩

theorem SameStore.trans (h : SameStore d u v) (h' : SameStore d v v') : SameStore d u v' :=
  ⟨h'.layout.trans h.layout, h'.schemaText.trans h.schemaText⟩

theorem SameStore.outOfDate_congr (h : SameStore d v v') : v'.OutOfDate d ↔ v.OutOfDate d := by
  rw [OutOfDate, OutOfDate, h.layout, h.schemaText]

/-- What is out of date now was so before. -/
theorem Stays.outOfDate (h : Stays d v v') (hout : v'.OutOfDate d) : v.OutOfDate d :=
  h.elim (fun h => h.outOfDate_congr.1 hout) fun h => absurd hout h

theorem Stays.refl (d : String) (v : Volume) : Stays d v v := .inl (.refl d v)

theorem Stays.trans (h : Stays d u v) (h' : Stays d v v') : Stays d u v' := by
  rcases h' with h' | h'
  · exact h.imp (fun h => h.trans h') fun h => mt h'.outOfDate_congr.1 h
  · exact .inr h'

theorem sameStore_of_content? (hindex : v'.content? (child d indexFile) = v.content? (child d indexFile))
    (hschema : v'.content? (child d schemaFile) = v.content? (child d schemaFile)) :
    SameStore d v v' := by
  refine ⟨?_, ?_⟩
  · rw [layoutAt?, layoutAt?, hindex]
  · rw [schemaTextAt?, schemaTextAt?, hschema]

theorem stays_of_fewerFiles (h : v.files.FewerFiles v'.files) : Stays d v v' := by
  by_cases hold : v'.OutOfDate d
  · obtain ⟨layout, text, schema, hlayout, htext, -, -⟩ := hold
    have hsame {k : String} (hk : v'.content? k ≠ none) : v'.content? k = v.content? k := by
      cases hf : v'.files.fileAt? k with
      | none => exact absurd (by rw [content?, hf]; rfl) hk
      | some f => rw [content?, content?, hf, h k f hf]
    refine .inl (sameStore_of_content? (hsame fun hnone => ?_) (hsame fun hnone => ?_))
    · simp [layoutAt?, hnone] at hlayout
    · simp [schemaTextAt?, hnone] at htext
  · exact .inr hold

theorem not_outOfDate_ofDirectories (directories : List String) (marks : Nat) (d : String) :
    ¬ OutOfDate ⟨.ofDirectories directories, marks⟩ d := by
  rintro ⟨layout, text, schema, -, htext, -⟩
  obtain ⟨content, hcontent, -⟩ := Option.bind_eq_some_iff.1 htext
  obtain ⟨f, hf, -⟩ := Option.map_eq_some_iff.1 hcontent
  rw [FileTree.fileAt?] at hf
  split at hf
  · rename_i hnode
    exact FileTree.every_ofDirectories (p := fun _ => False) directories _ _ hnode
  · cases hf

/-! ## Files by their paths -/

theorem content?_of_not_hasNode (h : v.files.hasNode k = false) : v.content? k = none := by
  rw [FileTree.hasNode, Bool.or_eq_false_iff, KeyMap.contains, Option.isSome_eq_false_iff,
    Option.isNone_iff_eq_none] at h
  rw [content?, FileTree.fileAt?, h.2]
  rfl

theorem isEntry_indexFile : IsEntry indexFile := ⟨⟨by decide, by decide⟩, by decide, by decide⟩

theorem isEntry_schemaFile : IsEntry schemaFile := ⟨⟨by decide, by decide⟩, by decide, by decide⟩

theorem canonical?_indexFile :
    v.files.canonical? (child path indexFile) = some k ↔
      ∃ here, v.files.Leads path here ∧ k = child (join here) indexFile :=
  FileTree.canonical?_child isEntry_indexFile (by decide)

theorem canonical?_schemaFile :
    v.files.canonical? (child path schemaFile) = some k ↔
      ∃ here, v.files.Leads path here ∧ k = child (join here) schemaFile :=
  FileTree.canonical?_child isEntry_schemaFile (by decide)

theorem image?_eq (v : Volume) (path : String) :
    v.image? path =
      ((v.files.canonical? (child path indexFile)).bind v.content?).bind Content.image? := by
  rw [image?, FileTree.read?_eq]
  cases v.files.canonical? (child path indexFile) with
  | none => rfl
  | some c =>
    rw [Option.bind_some, Option.bind_some, content?]
    cases v.files.fileAt? c with
    | none => rfl
    | some f =>
      obtain ⟨content, holder⟩ := f
      cases content <;> rfl

theorem text?_eq (v : Volume) (path : String) :
    v.text? path = ((v.files.canonical? path).bind v.content?).bind Content.text? := by
  rw [text?, FileTree.read?_eq]
  cases v.files.canonical? path with
  | none => rfl
  | some c =>
    rw [Option.bind_some, Option.bind_some, content?]
    cases v.files.fileAt? c with
    | none => rfl
    | some f =>
      obtain ⟨content, holder⟩ := f
      cases content <;> rfl

theorem layoutAt?_of_image? {image : Image} (h : v.image? path = some image) :
    ∃ here, v.files.Leads path here ∧ v.layoutAt? (join here) = some image.layout := by
  rw [image?_eq, Option.bind_eq_some_iff] at h
  obtain ⟨content, hcontent, himage⟩ := h
  obtain ⟨k, hk, hcontent⟩ := Option.bind_eq_some_iff.1 hcontent
  obtain ⟨here, hlead, rfl⟩ := canonical?_indexFile.1 hk
  exact ⟨here, hlead, by rw [layoutAt?, hcontent, Option.bind_some, himage, Option.map_some]⟩

theorem schemaTextAt?_of_text? {here : List String} (hlead : v.files.Leads path here)
    (h : v.text? (child path schemaFile) = some text) :
    v.schemaTextAt? (join here) = some text := by
  rw [text?_eq, canonical?_schemaFile.2 ⟨here, hlead, rfl⟩] at h
  exact h

/-! ## Changes to other files -/

/-- All indexes and schemas are the same, and paths lead where they led. -/
structure Alike (v v' : Volume) : Prop where
  index : ∀ d, v'.content? (child d indexFile) = v.content? (child d indexFile)
  schema : ∀ d, v'.content? (child d schemaFile) = v.content? (child d schemaFile)
  isDirectory : ∀ k, v'.files.isDirectory k = v.files.isDirectory k

namespace Alike

theorem refl (v : Volume) : Alike v v := ⟨fun _ => rfl, fun _ => rfl, fun _ => rfl⟩

theorem trans (h : Alike u v) (h' : Alike v v') : Alike u v' :=
  ⟨fun d => (h'.index d).trans (h.index d), fun d => (h'.schema d).trans (h.schema d),
    fun k => (h'.isDirectory k).trans (h.isDirectory k)⟩

theorem canonical? (h : Alike v v') (path : String) :
    v'.files.canonical? path = v.files.canonical? path :=
  FileTree.canonical?_congr h.isDirectory path

theorem sameStore (h : Alike v v') (d : String) : SameStore d v v' :=
  sameStore_of_content? (h.index d) (h.schema d)

theorem stays (h : Alike v v') (d : String) : Stays d v v' := .inl (h.sameStore d)

end Alike

/-- What depends on indexes, schemas and directories is kept by work that leaves them alike. -/
theorem keeps_of_alike {α : Type} {I : Volume → Prop} {x : Action Volume α} {Q : α → Prop}
    (hI : ∀ v v', Alike v v' → I v → I v') (hx : ∀ u, Keeps (Alike u) x Q) : Keeps I x Q := by
  intro v hv
  have h := hx v v (.refl v)
  cases hr : x v <;> rw [hr] at h
  · exact ⟨hI v _ h.1 hv, h.2⟩
  · exact hI v _ h hv

structure IsOther (name : String) : Prop where
  isEntry : IsEntry name
  isName : FileTree.isName name = true
  ne_index : name ≠ indexFile
  ne_schema : name ≠ schemaFile

theorem isOther_lockFile : IsOther lockFile :=
  ⟨⟨⟨by decide, by decide⟩, by decide, by decide⟩, by decide, by decide, by decide⟩

theorem isOther_managedFile : IsOther managedFile :=
  ⟨⟨⟨by decide, by decide⟩, by decide, by decide⟩, by decide, by decide, by decide⟩

theorem isOther_writerLockFile : IsOther writerLockFile :=
  ⟨⟨⟨by decide, by decide⟩, by decide, by decide⟩, by decide, by decide, by decide⟩

theorem isOther_readerLockFile : IsOther readerLockFile :=
  ⟨⟨⟨by decide, by decide⟩, by decide, by decide⟩, by decide, by decide, by decide⟩

/-- One file is changed, and no directory. -/
structure Writes (c : String) (content : Content) (v v' : Volume) : Prop where
  content? : ∀ k, v'.content? k = if c = k then some content else v.content? k
  isDirectory : ∀ k, v'.files.isDirectory k = v.files.isDirectory k

theorem writes_insert (hk : v.files.isDirectory k = false) (holder : Option Nat) (marks : Nat) :
    Writes k content v ⟨⟨v.files.nodes.insert k (.file ⟨content, holder⟩)⟩, marks⟩ := by
  refine ⟨fun k' => ?_, FileTree.isDirectory_insert_file hk _⟩
  rw [Volume.content?, FileTree.fileAt?_insert]
  by_cases hkk' : k = k'
  · rw [if_pos hkk', if_pos hkk']
    rfl
  · rw [if_neg hkk', if_neg hkk']
    rfl

theorem write_eq_error (h : write path content e v = .error e' v') : v' = v ∧ e' = e := by
  rw [write, Action.get_bind] at h
  cases hw : v.files.write? path ⟨content, (v.files.read? path).bind (·.holder)⟩ with
  | some files => simp [hw] at h
  | none =>
    simp only [hw] at h
    cases h
    exact ⟨rfl, rfl⟩

theorem write_eq_ok (h : write path content e v = .ok () v') :
    ∃ k, v.files.canonical? path = some k ∧ Writes k content v v' := by
  rw [write, Action.get_bind] at h
  cases hw : v.files.write? path ⟨content, (v.files.read? path).bind (·.holder)⟩ with
  | none => simp [hw] at h
  | some files =>
    obtain ⟨k, hk, hd, rfl⟩ := FileTree.write?_eq_some hw
    simp only [hw] at h
    cases h
    exact ⟨k, hk, writes_insert hd _ _⟩

theorem Writes.content?_child {other : String} (hname : IsEntry name) (hother : IsEntry other)
    (hne : name ≠ other) (h : Writes (child path name) content v v') (d : String) :
    v'.content? (child d other) = v.content? (child d other) := by
  rw [h.content?, if_neg fun hc => hne (FileTree.child_inj hname.slash hother.slash hc).1]

theorem Writes.alike (hname : IsOther name) (h : Writes (child path name) content v v') :
    Alike v v' :=
  ⟨h.content?_child hname.isEntry isEntry_indexFile hname.ne_index,
    h.content?_child hname.isEntry isEntry_schemaFile hname.ne_schema, h.isDirectory⟩

section
variable (hname : IsOther name)
include hname

theorem keeps_write_other : Keeps (Alike u) (write (child path name) content e) fun _ => True := by
  intro v hv
  cases hr : write (child path name) content e v with
  | error e' v' =>
    rw [(write_eq_error hr).1]
    exact hv
  | ok a v' =>
    obtain ⟨k, hk, hw⟩ := write_eq_ok hr
    obtain ⟨here, -, rfl⟩ := (FileTree.canonical?_child hname.isEntry hname.isName).1 hk
    exact ⟨hv.trans (hw.alike hname), trivial⟩

theorem keeps_touch_other : Keeps (Alike u) (touch (child path name) text e) fun _ => True :=
  Keeps.get.bind fun _ _ => by
    split
    · exact .pure trivial
    · exact keeps_write_other hname

theorem keeps_acquire_other :
    Keeps (Alike u) (acquire (child path name) e e') fun _ => True := by
  refine (keeps_touch_other hname).seq fun _ => Keeps.get.bind fun v hv => ?_
  split
  · exact .throw
  · split
    · rename_i hw
      obtain ⟨k, hk, hd, rfl⟩ := FileTree.write?_eq_some hw
      obtain ⟨here, -, rfl⟩ := (FileTree.canonical?_child hname.isEntry hname.isName).1 hk
      exact Keeps.seq (.set (hv.trans ((writes_insert hd _ _).alike hname))) fun _ => .pure trivial
    · exact .throw
  · exact .throw

end

theorem keeps_release_alike (mark : Nat) : Keeps (Alike u) (release mark) fun _ => True :=
  .modify fun v hv => by
    have hcontent (k : String) : (Volume.mk (v.files.mapFiles fun f =>
        if f.holder = some mark then { f with holder := none } else f) v.marks).content? k =
        v.content? k := by
      rw [content?, content?, FileTree.fileAt?_mapFiles, Option.map_map]
      refine congrArg (Option.map · _) (funext fun f => ?_)
      rw [Function.comp_apply]
      split <;> rfl
    exact hv.trans ⟨fun _ => hcontent _, fun _ => hcontent _, FileTree.isDirectory_mapFiles _ _⟩

/-! ## Directories -/

theorem keeps_createDirectory_stays : Keeps (Stays d u) (createDirectory path) fun _ => True :=
  Keeps.get.bind fun v hv => by
    have hsame := FileTree.sameFiles_createDirectory v.files path
    revert hsame
    rcases v.files.createDirectory path with ⟨files, done⟩
    intro hsame
    have hcontent (k : String) : (Volume.mk files v.marks).content? k = v.content? k := by
      rw [content?, content?, hsame]
    refine Keeps.seq (.set (hv.trans (.inl (sameStore_of_content? (hcontent _) (hcontent _)))))
      fun _ => ?_
    exact .ite (fun _ => .throw) fun _ => .pure trivial

theorem keeps_removeDirectory_stays : Keeps (Stays d u) (removeDirectory path) fun _ => True :=
  Keeps.get.bind fun v hv => by
    have hfewer := FileTree.fewerFiles_removeDirectory v.files path
    revert hfewer
    rcases v.files.removeDirectory path with ⟨files, done⟩
    intro hfewer
    refine Keeps.seq (.set (hv.trans (stays_of_fewerFiles hfewer))) fun _ => ?_
    exact .ite (fun _ => .throw) fun _ => .pure trivial

end Volume

end Searchlight.Disk
