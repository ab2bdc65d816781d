import Searchlight.Proofs.Disk.Listing
import Searchlight.Proofs.Disk.Opening

/-!
# Indexes that can be written

A store commits to the directory in which it found its index or made it, and nothing that it does
itself gets in the way: the index stays where it is (`Volume.HasIndex`), and the files that a commit
writes stay files. So a commit fails for no other reason than that the writer failed before it.
-/

namespace Searchlight.Disk

open Searchlight.Action (Keeps)
open FileTree (child join)
open Volume (Alike indexFile managedFile schemaFile)

variable {d path name : String} {u v v' : Volume} {e : Error} {ss : Segments}

theorem isDirectory_of_fileAt? {t : FileTree File} {f : File} (hname : FileTree.IsPart name)
    (h : t.fileAt? (child d name) = some f) : t.isDirectory (child d name) = false := by
  have hne : (child d name).isEmpty = false := by simpa using FileTree.child_ne_empty d hname
  have hroot : (child d name == "/") = false := by
    have hends := FileTree.endsWith_child d hname
    rw [beq_eq_false_iff_ne]
    intro heq
    rw [heq, (FileTree.endsWith_slash_iff "/").2 ⟨[], rfl⟩] at hends
    cases hends
  rw [FileTree.fileAt?] at h
  rw [FileTree.isDirectory, hne, hroot]
  cases hnode : t.nodes.get? (child d name) with
  | none => rfl
  | some n =>
    cases n with
    | directory => simp [hnode] at h
    | file f => rfl

namespace Volume

def Writable (v : Volume) (path : String) : Prop :=
  ∃ c, v.files.canonical? path = some c ∧ v.files.isDirectory c = false

theorem Writable.congr (h : ∀ k, v'.files.isDirectory k = v.files.isDirectory k)
    (hv : v.Writable path) : v'.Writable path := by
  obtain ⟨c, hc, hd⟩ := hv
  exact ⟨c, (FileTree.canonical?_congr h path).trans hc, (h c).trans hd⟩

theorem Writable.write (h : v.Writable path) (content : Content) (e : Error) :
    ∃ v', write path content e v = .ok () v' := by
  obtain ⟨c, hc, hd⟩ := h
  rw [Volume.write, Action.get_bind, FileTree.write?, hc]
  simp [hd]

theorem writable_of_write {content : Content} (h : write path content e v = .ok () v') :
    v.Writable path := by
  rw [write, Action.get_bind] at h
  cases hw : v.files.write? path ⟨content, (v.files.read? path).bind (·.holder)⟩ with
  | none => simp [hw] at h
  | some files =>
    obtain ⟨c, hc, hd, -⟩ := FileTree.write?_eq_some hw
    exact ⟨c, hc, hd⟩

theorem writable_of_read? (hname : IsOther name) {f : File}
    (h : v.files.read? (child path name) = some f) : v.Writable (child path name) := by
  rw [FileTree.read?_eq] at h
  obtain ⟨c, hc, hf⟩ := Option.bind_eq_some_iff.1 h
  obtain ⟨here, -, rfl⟩ := (FileTree.canonical?_child hname.isEntry hname.isName).1 hc
  exact ⟨_, hc, isDirectory_of_fileAt? hname.isEntry.toIsPart hf⟩

theorem exists_touch_iff (hname : IsOther name) (text : String) (e : Error) :
    (∃ v', touch (child path name) text e v = .ok () v') ↔ v.Writable (child path name) := by
  rw [touch, Action.get_bind]
  cases hf : v.files.read? (child path name) with
  | some f => exact ⟨fun _ => writable_of_read? hname hf, fun _ => ⟨v, rfl⟩⟩
  | none => exact ⟨fun ⟨_, h⟩ => writable_of_write h, fun h => h.write _ _⟩

structure HasIndex (v : Volume) (directory : String) (ss : Segments) : Prop where
  managed : v.Writable (child directory managedFile)
  index : v.Writable (child directory indexFile)
  image : (v.image? directory).map (·.segments) = some ss

theorem image?_alike (h : Alike v v') (d : String) : v'.image? d = v.image? d := by
  rw [image?_eq, image?_eq, h.canonical?]
  cases hc : v.files.canonical? (child d indexFile) with
  | none => rfl
  | some c =>
    obtain ⟨here, -, rfl⟩ := canonical?_indexFile.1 hc
    rw [Option.bind_some, Option.bind_some, h.index]

theorem HasIndex.alike (h : v.HasIndex d ss) (hv : Alike v v') : v'.HasIndex d ss :=
  ⟨h.managed.congr hv.isDirectory, h.index.congr hv.isDirectory, by rw [image?_alike hv, h.image]⟩

theorem hasIndex_of_writeImage {image : Image} (h : writeImage d image e v = .ok () v') :
    v'.HasIndex d image.segments ∧ ∀ k, v'.files.isDirectory k = v.files.isDirectory k := by
  rw [writeImage, Action.bind_eq_ok] at h
  obtain ⟨_, t, htouch, hwrite⟩ := h
  have halike : Alike v t := ((keeps_touch_other isOther_managedFile).of_ok (.refl v) htouch).1
  obtain ⟨k, hk, hw⟩ := write_eq_ok hwrite
  have hmanaged := (exists_touch_iff isOther_managedFile _ _).1 ⟨t, htouch⟩
  have hsame (k : String) : v'.files.isDirectory k = v.files.isDirectory k :=
    (hw.isDirectory k).trans (halike.isDirectory k)
  refine ⟨⟨hmanaged.congr hsame, (writable_of_write hwrite).congr hw.isDirectory, ?_⟩, hsame⟩
  rw [image?_eq, FileTree.canonical?_congr hw.isDirectory, hk, Option.bind_some, hw.content?,
    if_pos rfl]
  rfl

/-- An index that is there can be written. -/
theorem HasIndex.writeImage (h : v.HasIndex d ss) (image : Image) (e : Error) :
    ∃ v', writeImage d image e v = .ok () v' := by
  obtain ⟨t, htouch⟩ := (exists_touch_iff isOther_managedFile
    s!"[\"{indexFile}\"]\n" e).2 h.managed
  have halike : Alike v t := ((keeps_touch_other isOther_managedFile).of_ok (.refl v) htouch).1
  rw [Volume.writeImage, Action.bind_of_ok htouch]
  exact (h.index.congr halike.isDirectory).write _ _

theorem hasIndex_of_open {here : List String} {image : Image} (hlead : v.files.Leads path here)
    (hmanages : v.managesFiles path = true) (himage : v.image? path = some image) :
    v.HasIndex (join here) image.segments := by
  have hat {name : String} (hname : FileTree.IsEntry name) (hn : FileTree.isName name = true)
      {p : String} (hp : v.files.Leads p here) :
      v.files.canonical? (child p name) = some (child (join here) name) :=
    (FileTree.canonical?_child hname hn).2 ⟨here, hp, rfl⟩
  have hnofile {name : String} (hname : FileTree.IsPart name)
      (h : v.content? (child (join here) name) ≠ none) :
      v.files.isDirectory (child (join here) name) = false := by
    cases hf : v.files.fileAt? (child (join here) name) with
    | none => exact absurd (by rw [content?, hf]; rfl) h
    | some f => exact isDirectory_of_fileAt? hname hf
  rw [image?_eq, hat isEntry_indexFile (by decide) hlead, Option.bind_some] at himage
  refine ⟨⟨_, hat isOther_managedFile.isEntry isOther_managedFile.isName hlead.canonical, ?_⟩,
    ⟨_, hat isEntry_indexFile (by decide) hlead.canonical, hnofile isEntry_indexFile.toIsPart ?_⟩, ?_⟩
  · have hmanaged := hat isOther_managedFile.isEntry isOther_managedFile.isName hlead
    by_cases hnone : v.content? (child (join here) managedFile) = none
    · rw [managesFiles, text?_eq, hmanaged, Option.bind_some, hnone] at hmanages
      have hnode : v.files.hasNode (child (join here) managedFile) = false := by
        simpa [FileTree.holds, FileTree.locate?, hmanaged, Option.filter_some] using hmanages
      exact (Bool.or_eq_false_iff.1 hnode).1
    · exact hnofile isOther_managedFile.isEntry.toIsPart hnone
  · intro hnone
    rw [hnone] at himage
    cases himage
  · rw [image?_eq, hat isEntry_indexFile (by decide) hlead.canonical, Option.bind_some, himage]
    rfl

/-- The records of the index that a path leads to; none where there is no index. -/
def recordsAt (v : Volume) (path : String) : List Record :=
  ((v.image? path).map (·.segments.records)).getD []

theorem HasIndex.recordsAt (h : v.HasIndex d ss) : v.recordsAt d = ss.records := by
  obtain ⟨image, himage, rfl⟩ := Option.map_eq_some_iff.1 h.image
  rw [Volume.recordsAt, himage]
  rfl

theorem recordsAt_alike (h : Alike v v') (path : String) : v'.recordsAt path = v.recordsAt path := by
  rw [recordsAt, recordsAt, image?_alike h]

/-- All paths to a directory lead to the same index. -/
theorem recordsAt_of_leads {here : List String} (h : v.files.Leads path here) :
    v.recordsAt path = v.recordsAt (join here) := by
  rw [recordsAt, recordsAt, image?_eq, image?_eq, canonical?_indexFile.2 ⟨here, h, rfl⟩,
    canonical?_indexFile.2 ⟨here, h.canonical, rfl⟩]

theorem keeps_writeImage_nil (layout : Layout) :
    Keeps (fun v => v.recordsAt path = []) (writeImage d ⟨layout, []⟩ e) fun _ => True := by
  refine (keeps_of_alike (fun v v' h hv => (recordsAt_alike h path).trans hv)
    fun _ => keeps_touch_other isOther_managedFile).seq fun _ => ?_
  intro v hv
  cases hr : write (child d indexFile) (.index ⟨layout, []⟩) e v with
  | error e' v' =>
    rw [(write_eq_error hr).1]
    exact hv
  | ok a v' =>
    obtain ⟨k, hk, hw⟩ := write_eq_ok hr
    refine ⟨?_, trivial⟩
    rw [recordsAt, image?_eq] at hv ⊢
    rw [FileTree.canonical?_congr hw.isDirectory]
    cases hc : v.files.canonical? (child path indexFile) with
    | none => rfl
    | some c =>
      rw [hc, Option.bind_some] at hv
      rw [Option.bind_some, hw.content?]
      by_cases hkc : k = c
      · rw [if_pos hkc]
        rfl
      · rw [if_neg hkc]
        exact hv

end Volume

/-! ## Indexes in use -/

namespace Live

variable {memory : Nat} {layout : Layout} {live : Live}

theorem start_eq_ok (h : start d ss false memory v = .ok live v') :
    (∃ mark, live = ⟨d, ss, some ⟨ss, [], .ready, mark⟩⟩) ∧ Alike v v' := by
  refine ⟨?_, ((keeps_start_alike d ss).of_ok (.refl v) h).1⟩
  rw [start, Action.bind_eq_ok] at h
  obtain ⟨_, t, -, h⟩ := h
  obtain ⟨writer, t', hwriter, h⟩ := Action.bind_eq_ok.1 h
  cases h
  rw [Action.map_run] at hwriter
  cases hstart : Writer.start d ss memory t with
  | error e t => simp [hstart] at hwriter
  | ok w t =>
    rw [hstart] at hwriter
    cases hwriter
    rw [Writer.start] at hstart
    obtain ⟨mark, t₁, -, hstart⟩ := Action.bind_eq_ok.1 hstart
    split at hstart
    · cases hstart
      exact ⟨mark, rfl⟩
    · obtain ⟨_, _, -, hstart⟩ := Action.bind_eq_ok.1 hstart
      cases hstart

theorem openIn_eq_start {readonly : Bool} {found : Layout × Live}
    (h : openIn path readonly memory v = .ok found v') :
    ∃ here ss, v.files.Leads path here ∧ v.HasIndex (join here) ss ∧
      start (join here) ss readonly memory v = .ok found.2 v' := by
  rw [openIn, Action.get_bind] at h
  cases hlocate : v.files.locate? path <;> cases hmanages : v.managesFiles path <;>
    cases himage : v.image? path <;> simp only [hlocate, hmanages, himage] at h <;> try cases h
  rename_i directory image
  obtain ⟨live, t, hstart, h⟩ := Action.bind_eq_ok.1 h
  cases h
  -- The index is found below the path, so the path leads to a directory.
  obtain ⟨here, hlead, -⟩ := Volume.layoutAt?_of_image? himage
  have hne : path ≠ "" := by
    rintro rfl
    cases hlocate
  have hdirectory : directory = join here := by
    obtain ⟨hcanonical, -⟩ := Option.filter_eq_some_iff.1 hlocate
    rw [hlead.canonical?_eq hne] at hcanonical
    exact (Option.some.inj hcanonical).symm
  subst hdirectory
  exact ⟨here, image.segments, hlead, Volume.hasIndex_of_open hlead hmanages himage, hstart⟩

theorem createIn_writes {here : List String} (hlead : v.files.Leads path here)
    (h : createIn path layout memory v = .ok live v') :
    v'.files.Leads path here ∧ v'.HasIndex (join here) [] ∧
      ∃ mark, live = ⟨join here, [], some ⟨[], [], .ready, mark⟩⟩ := by
  rw [createIn, Action.get_bind] at h
  cases hlocate : v.files.locate? path with
  | none =>
    simp only [hlocate] at h
    cases h
  | some directory =>
    simp only [hlocate] at h
    have hne : path ≠ "" := by
      rintro rfl
      cases hlocate
    have hdirectory : directory = join here := by
      obtain ⟨hcanonical, -⟩ := Option.filter_eq_some_iff.1 hlocate
      rw [hlead.canonical?_eq hne] at hcanonical
      exact (Option.some.inj hcanonical).symm
    subst hdirectory
    cases hindex : v.hasIndex (join here) with
    | true => simp only [hindex] at h; cases h
    | false =>
      cases hmanages : v.managesFiles (join here) with
      | false => simp only [hindex, hmanages] at h; cases h
      | true =>
        simp only [hindex, hmanages, Bool.false_eq_true, Bool.not_true, if_false] at h
        obtain ⟨_, t, hwrite, hstart⟩ := Action.bind_eq_ok.1 h
        obtain ⟨hindex, hsame⟩ := Volume.hasIndex_of_writeImage hwrite
        obtain ⟨hlive, halike⟩ := start_eq_ok hstart
        exact ⟨(hlead.congr hsame).congr halike.isDirectory, hindex.alike halike, hlive⟩

theorem keeps_createIn_nil :
    Keeps (fun v => v.recordsAt path = []) (createIn d layout memory) fun _ => True :=
  Keeps.get.bind fun v _ => by
    simp only [Action.throw_bind]
    split
    · exact .throw
    · refine .ite (fun _ => .throw) fun _ => .ite (fun _ => .throw) fun _ => ?_
      refine (Volume.keeps_writeImage_nil layout).seq fun _ => ?_
      exact Volume.keeps_of_alike (fun v v' h hv => (Volume.recordsAt_alike h path).trans hv)
        fun _ => (keeps_start_alike _ _).mono fun _ _ => trivial

end Live

/-! ## Stores -/

/-- Where there is no index there are no records. -/
theorem Volume.recordsAt_of_hasIndex (h : v.hasIndex path = false) : v.recordsAt path = [] := by
  have himage : v.image? path = none := by
    rw [image?_eq]
    cases hc : v.files.canonical? (child path indexFile) with
    | none => rfl
    | some c =>
      have hnode : v.files.hasNode c = false := by
        simpa [hasIndex, FileTree.holds, FileTree.locate?, hc, Option.filter_some] using h
      rw [Option.bind_some, content?_of_not_hasNode hnode]
      rfl
  rw [recordsAt, himage]
  rfl

/-- What is loaded: an index that was put to use, or nothing where there is none. -/
theorem load_eq_start {readonly : Bool} {memory : Nat} {found : FieldMap × Option Live}
    (h : load path readonly memory v = .ok found v') :
    found.1.IsNumbered ∧
      (found.2 = none ∧ v' = v ∧ v.hasIndex path = false ∨
        ∃ here ss live, v.files.Leads path here ∧ v.HasIndex (join here) ss ∧
          Live.start (join here) ss readonly memory v = .ok live v' ∧ found.2 = some live) := by
  rw [load, Action.get_bind] at h
  obtain ⟨schema, t, hschema, h⟩ := Action.bind_eq_ok.1 h
  obtain ⟨-, rfl⟩ := Action.ofExcept_eq_ok.1 hschema
  cases hindex : t.hasIndex path with
  | false =>
    simp only [hindex] at h
    cases h
    exact ⟨FieldMap.isNumbered_build schema, .inl ⟨rfl, rfl, rfl⟩⟩
  | true =>
    simp only [hindex, if_true] at h
    obtain ⟨⟨layout, live⟩, t₁, hopen, hload⟩ := Action.bind_eq_ok.1 h
    obtain ⟨fields, t₂, hlaid, hfound⟩ := Action.bind_eq_ok.1 hload
    obtain ⟨hfields, rfl⟩ := Action.ofExcept_eq_ok.1 (Action.orUndo_eq_ok.1 hlaid)
    cases hfound
    obtain ⟨here, ss, hlead, hhas, hstart⟩ := Live.openIn_eq_start hopen
    exact ⟨FieldMap.isNumbered_of_ofLayout hfields, .inr ⟨here, ss, live, hlead, hhas, hstart, rfl⟩⟩

theorem load_writes {memory : Nat} {found : FieldMap × Option Live}
    (h : load path false memory v = .ok found v') :
    found.1.IsNumbered ∧
      (found.2 = none ∧ v'.recordsAt path = [] ∨
        ∃ here mark ss, v'.files.Leads path here ∧ v'.HasIndex (join here) ss ∧
          found.2 = some ⟨join here, ss, some ⟨ss, [], .ready, mark⟩⟩) := by
  refine (load_eq_start h).imp_right (.imp ?_ ?_)
  · rintro ⟨hnone, rfl, hindex⟩
    exact ⟨hnone, Volume.recordsAt_of_hasIndex hindex⟩
  · rintro ⟨here, ss, live, hlead, hhas, hstart, hfound⟩
    obtain ⟨⟨mark, rfl⟩, halike⟩ := Live.start_eq_ok hstart
    exact ⟨here, mark, ss, hlead.congr halike.isDirectory, hhas.alike halike, hfound⟩

namespace Store

variable {s : Store} {w : Writer}

/-- The store shows what its writer committed last, and that is the index in its directory, which
the writer goes on to write. -/
structure Serves (s : Store) (v : Volume) (w : Writer) : Prop where
  here : ∃ here, s.live = some ⟨join here, w.committed, some w⟩ ∧ v.files.Leads s.path here ∧
    v.HasIndex (join here) w.committed
  ready : w.intake = .ready

theorem serves_of_live {here : List String} {mark : Nat}
    (hlive : s.live = some ⟨join here, ss, some ⟨ss, [], .ready, mark⟩⟩)
    (hlead : v.files.Leads s.path here) (hindex : v.HasIndex (join here) ss) :
    s.Serves v ⟨ss, [], .ready, mark⟩ := ⟨⟨here, hlive, hlead, hindex⟩, rfl⟩

namespace Serves

theorem visible (h : s.Serves v w) : s.visible = w.committed := by
  obtain ⟨here, hlive, -⟩ := h.here
  rw [Store.visible, hlive]

theorem recordsAt (h : s.Serves v w) : v.recordsAt s.path = w.committed.records := by
  obtain ⟨here, -, hlead, hindex⟩ := h.here
  rw [Volume.recordsAt_of_leads hlead, hindex.recordsAt]

theorem withWriter (h : s.Serves v w) {f : Writer → Except Error Writer} {w' : Writer}
    (hf : f w = .ok w') (hcommitted : w'.committed = w.committed) (hready : w'.intake = .ready) :
    ∃ live, Store.withWriter f (s, v) = .ok () ({ s with live := some live }, v) ∧
      Serves { s with live := some live } v w' := by
  obtain ⟨here, hlive, hlead, hindex⟩ := h.here
  refine ⟨_, by rw [withWriter_of_live hlive rfl, hf], ⟨here, ?_, hlead, ?_⟩, hready⟩
  · rw [hcommitted]
  · rw [hcommitted]
    exact hindex

/-- **A commit** succeeds, and then the store shows what waited. -/
theorem commit (h : s.Serves v w) :
    ∃ live v', Store.commit (s, v) = .ok () ({ s.clearPending with live := some live }, v') ∧
      Serves { s.clearPending with live := some live } v'
        (w.afterCommit (w.committed.commit w.waiting)) := by
  obtain ⟨here, hlive, hlead, hindex⟩ := h.here
  obtain ⟨v', hwrite⟩ := hindex.writeImage ⟨s.fields.layout, w.committed.commit w.waiting⟩
    (.index "commit failed" (some "the file cannot be written"))
  obtain ⟨hindex', hsame⟩ := Volume.hasIndex_of_writeImage hwrite
  have hresult : w.result? = some (w.committed.commit w.waiting) := by
    rw [Writer.result?, h.ready]
  refine ⟨_, v', ?_, ⟨here, rfl, hlead.congr hsame, hindex'⟩, h.ready⟩
  rw [Store.commit, Action.get_bind]
  simp only [hlive, hresult, Action.bind_run, Action.second, Action.focus, hwrite]
  rfl

theorem setBack (h : s.Serves v w) :
    ∃ live, Store.setBack (s, v) = .ok () ({ s with live := some live }, v) ∧
      Serves { s with live := some live } v (w.setBack w.committed) := by
  obtain ⟨here, hlive, hlead, hindex⟩ := h.here
  obtain ⟨image, himage, hsegments⟩ := Option.map_eq_some_iff.1 hindex.image
  refine ⟨_, ?_, ⟨here, rfl, hlead, hindex⟩, rfl⟩
  rw [Store.setBack, Action.get_bind]
  simp only [hlive, himage, hsegments]
  rfl

end Serves

/-! ### Getting an index -/

/-- A store that made the index serves an empty one. -/
theorem makeIndex_serves {live : Live} (h : s.makeIndex v = .ok live v') :
    ∃ mark, Serves { s with live := some live } v' ⟨[], [], .ready, mark⟩ := by
  obtain ⟨_, t, hwrite, hcreate⟩ := Action.bind_eq_ok.1 h
  obtain ⟨k, hk, hw⟩ := Volume.write_eq_ok hwrite
  obtain ⟨here, hlead, -⟩ := Volume.canonical?_schemaFile.1 hk
  obtain ⟨hlead', hindex, mark, rfl⟩ := Live.createIn_writes (hlead.congr hw.isDirectory) hcreate
  exact ⟨mark, serves_of_live rfl hlead' hindex⟩

theorem keeps_makeIndex_nil :
    Keeps (fun v => v.recordsAt path = []) s.makeIndex fun _ => True := by
  refine Keeps.seq (fun v hv => ?_) fun _ => Live.keeps_createIn_nil
  cases hr : Volume.write (child s.path schemaFile) (.text s.fields.schema.toJsonText)
      (Volume.failure (child s.path schemaFile)) v with
  | error e v' =>
    rw [(Volume.write_eq_error hr).1]
    exact hv
  | ok a v' =>
    obtain ⟨k, hk, hw⟩ := Volume.write_eq_ok hr
    obtain ⟨here, -, rfl⟩ := Volume.canonical?_schemaFile.1 hk
    refine ⟨?_, trivial⟩
    have himage : v'.image? path = v.image? path := by
      rw [Volume.image?_eq, Volume.image?_eq, FileTree.canonical?_congr hw.isDirectory]
      cases hc : v.files.canonical? (child path indexFile) with
      | none => rfl
      | some c =>
        obtain ⟨there, -, rfl⟩ := Volume.canonical?_indexFile.1 hc
        rw [Option.bind_some, Option.bind_some, hw.content?_child Volume.isEntry_schemaFile
          Volume.isEntry_indexFile (by decide)]
    rw [Volume.recordsAt, himage]
    exact hv

structure Fresh (s : Store) (v : Volume) : Prop where
  readonly : s.readonly = false
  closed : s.closed = false
  pendingAdds : s.pendingAdds = ∅
  pendingDeletes : s.pendingDeletes = ∅
  isNumbered : s.fields.IsNumbered
  index : s.live = none ∧ v.recordsAt s.path = [] ∨ ∃ mark ss, s.Serves v ⟨ss, [], .ready, mark⟩

theorem fresh_of_openWith {analyze : Analyzer} {o : BackendOptions}
    (hwritable : o.readonly = false) (h : openWith analyze o v = .ok s v') : s.Fresh v' := by
  rw [openWith] at h
  obtain ⟨_, t, -, h⟩ := Action.bind_eq_ok.1 h
  cases hpath : o.path with
  | none =>
    simp only [hpath] at h
    cases h
  | some path =>
    simp only [hpath, hwritable, Bool.false_eq_true, if_false] at h
    obtain ⟨_, t₁, -, h⟩ := Action.bind_eq_ok.1 h
    obtain ⟨lock, t₂, -, h⟩ := Action.bind_eq_ok.1 h
    obtain ⟨⟨fields, live⟩, t₃, hload, h⟩ := Action.bind_eq_ok.1 h
    cases h
    obtain ⟨hnumbered, hlive⟩ := load_writes (Action.orUndo_eq_ok.1 hload)
    refine ⟨rfl, rfl, rfl, rfl, hnumbered, hlive.imp_right ?_⟩
    rintro ⟨here, mark, ss, hlead, hindex, hlive⟩
    exact ⟨mark, ss, serves_of_live hlive hlead hindex⟩

end Store

end Searchlight.Disk
