import Searchlight.Proofs.Disk.Opening

/-!
# Locks on disk

A file is locked by whoever holds the mark on it. A store that is opened locks what it owns then
(`yields_openWith`), and nothing if it cannot be opened. A directory whose lock is held cannot be
opened for writing (`openWith_of_locked`), and no other failure is worded like that
(`locked_of_openWith`).
-/

namespace Searchlight.Disk

open Searchlight.Action (Keeps Yields)
open FileTree (child join IsEntry)

variable {u v v' : Volume} {path name k : String} {mark : Nat} {e e' : Error} {content : Content}
  {O : String → Nat → Prop}

/-! ## Locked files -/

namespace Volume

/-- The file at a canonical path is locked with a mark. -/
def Locked (v : Volume) (k : String) (mark : Nat) : Prop :=
  ∃ f, v.files.fileAt? k = some f ∧ f.holder = some mark

def LockedBy (O : String → Nat → Prop) (v : Volume) : Prop := ∀ k mark, v.Locked k mark → O k mark

theorem not_locked_ofDirectories (directories : List String) (marks : Nat) :
    ¬ Locked ⟨.ofDirectories directories, marks⟩ k mark := by
  rintro ⟨f, hf, -⟩
  rw [FileTree.fileAt?] at hf
  split at hf
  · rename_i hnode
    exact FileTree.every_ofDirectories (p := fun _ => False) directories _ _ hnode
  · cases hf

theorem LockedBy.mono {O' : String → Nat → Prop} (h : LockedBy O v)
    (hO : ∀ k mark, O k mark → O' k mark) : LockedBy O' v := fun k mark hk => hO k mark (h k mark hk)

theorem LockedBy.of_fewerFiles (h : LockedBy O v) (hf : v.files.FewerFiles v'.files) :
    LockedBy O v' := by
  rintro k mark ⟨f, hk, hmark⟩
  exact h k mark ⟨f, hf k f hk, hmark⟩

theorem locked_insert {t : FileTree File} {marks : Nat} {f : File} {k' : String} :
    Locked ⟨⟨t.nodes.insert k (.file f)⟩, marks⟩ k' mark ↔
      if k = k' then f.holder = some mark else Locked ⟨t, marks⟩ k' mark := by
  rw [Locked, FileTree.fileAt?_insert]
  split
  · simp
  · rfl

theorem keeps_write_locks : Keeps (LockedBy O) (write path content e) fun _ => True := by
  intro v hv
  rw [write, Action.get_bind]
  cases hw : v.files.write? path ⟨content, (v.files.read? path).bind (·.holder)⟩ with
  | none => simpa [hw] using hv
  | some files =>
    obtain ⟨k, hk, -, rfl⟩ := FileTree.write?_eq_some hw
    refine ⟨fun k' mark h => ?_, trivial⟩
    rw [locked_insert] at h
    split at h
    · rename_i heq
      subst heq
      obtain ⟨f, hf, hmark⟩ := Option.bind_eq_some_iff.1 h
      rw [FileTree.read?_eq, hk, Option.bind_some] at hf
      exact hv k mark ⟨f, hf, hmark⟩
    · exact hv k' mark h

theorem keeps_touch_locks {text : String} :
    Keeps (LockedBy O) (touch path text e) fun _ => True :=
  Keeps.get.bind fun _ _ => by
    split
    · exact .pure trivial
    · exact keeps_write_locks

theorem keeps_createDirectory_locks : Keeps (LockedBy O) (createDirectory path) fun _ => True :=
  Keeps.get.bind fun v hv => by
    have hsame := FileTree.sameFiles_createDirectory v.files path
    revert hsame
    rcases v.files.createDirectory path with ⟨files, done⟩
    intro hsame
    refine Keeps.seq (.set (hv.of_fewerFiles fun k f h => hsame k ▸ h)) fun _ => ?_
    exact .ite (fun _ => .throw) fun _ => .pure trivial

theorem keeps_removeDirectory_locks : Keeps (LockedBy O) (removeDirectory path) fun _ => True :=
  Keeps.get.bind fun v hv => by
    have hfewer := FileTree.fewerFiles_removeDirectory v.files path
    revert hfewer
    rcases v.files.removeDirectory path with ⟨files, done⟩
    intro hfewer
    refine Keeps.seq (.set (hv.of_fewerFiles hfewer)) fun _ => ?_
    exact .ite (fun _ => .throw) fun _ => .pure trivial

theorem keeps_writeImage_locks {image : Image} :
    Keeps (LockedBy O) (writeImage path image e) fun _ => True :=
  keeps_touch_locks.seq fun _ => keeps_write_locks

/-- **To release a mark** leaves nothing locked with it. -/
theorem yields_release (mark : Nat) {E : Volume → Prop} :
    Yields (LockedBy O) (release mark) (fun _ => LockedBy fun k m => O k m ∧ m ≠ mark) E := by
  intro v hv k m ⟨f, hf, hm⟩
  rw [FileTree.fileAt?_mapFiles] at hf
  obtain ⟨f, hk, rfl⟩ := Option.map_eq_some_iff.1 hf
  split at hm
  · cases hm
  · rename_i hmark
    exact ⟨hv k m ⟨f, hk, hm⟩, fun h => hmark (h ▸ hm)⟩

theorem keeps_release_locks (mark : Nat) : Keeps (LockedBy O) (release mark) fun _ => True :=
  .of_after fun _ hv => ((yields_release mark).after hv).mono fun _ _ h => h.1

/-- **To acquire a lock** locks one file more. -/
theorem yields_acquire (hname : IsOther name) :
    Yields (LockedBy O) (acquire (child path name) e e')
      (fun mark v => ∃ here, v.files.Leads path here ∧
        LockedBy (fun k m => O k m ∨ m = mark ∧ k = child (join here) name) v)
      (LockedBy O) := by
  refine keeps_touch_locks.then fun _ _ => Yields.look fun v hv => ?_
  have hthrow {e : Error} : Yields (· = v) (throw e : Action Volume Nat)
      (fun mark v => ∃ here, v.files.Leads path here ∧
        LockedBy (fun k m => O k m ∨ m = mark ∧ k = child (join here) name) v) (LockedBy O) :=
    .throw fun _ h => h ▸ hv
  split
  · exact hthrow
  · split
    · rename_i hw
      obtain ⟨k, hk, hd, rfl⟩ := FileTree.write?_eq_some hw
      obtain ⟨here, hlead, rfl⟩ := (FileTree.canonical?_child hname.isEntry hname.isName).1 hk
      rintro _ rfl
      refine ⟨here, hlead.congr (FileTree.isDirectory_insert_file hd _), fun k' m h => ?_⟩
      rw [locked_insert] at h
      split at h
      · rename_i heq
        exact .inr ⟨(Option.some.inj h).symm, heq.symm⟩
      · exact .inl (hv k' m h)
    · exact hthrow
  · exact hthrow

end Volume

open Volume (Locked LockedBy)

/-! ## Locked indexes -/

/-- A path is that of the lock of an index. -/
def IsWriterLock (k : String) : Prop := ∃ directory, k = child directory Volume.writerLockFile

theorem not_isWriterLock (directory : String) : ¬ IsWriterLock (child directory Volume.lockFile) := by
  rintro ⟨directory', h⟩
  have hnames := (FileTree.child_inj Volume.isOther_lockFile.isEntry.slash
    Volume.isOther_writerLockFile.isEntry.slash h).1
  exact absurd hnames (by decide)

def Live.Owns (live : Live) (k : String) (mark : Nat) : Prop :=
  (∃ w, live.writer = some w ∧ w.mark = mark) ∧ IsWriterLock k

namespace Live

theorem yields_start (directory : String) (ss : Segments) (readonly : Bool) (memory : Nat) :
    Yields (LockedBy O) (start directory ss readonly memory)
      (fun live => LockedBy fun k m => O k m ∨ live.Owns k m) (LockedBy O) := by
  refine Volume.keeps_touch_locks.then fun _ _ => ?_
  have hwriter : Yields (LockedBy O) (Writer.start directory ss memory)
      (fun w => LockedBy fun k m => O k m ∨ m = w.mark ∧ IsWriterLock k) (LockedBy O) := by
    refine (Volume.yields_acquire Volume.isOther_writerLockFile).bind fun mark =>
      Yields.of_state fun v ⟨here, _, hv⟩ => ?_
    refine .ite (fun _ => .pure ?_) fun _ => ?_
    · rintro _ rfl
      exact hv.mono fun k m h => h.imp id fun ⟨hm, hk⟩ => ⟨hm, _, hk⟩
    · refine ((Volume.yields_release mark).bind fun _ => .throw fun v hv => hv.mono ?_).pre
        fun _ h => h ▸ hv
      exact fun k m h => h.1.resolve_right fun hm => h.2 hm.1
  refine .ite (fun _ => ?_) fun _ => ?_
  · exact Yields.pure fun v hv => hv.mono fun _ _ h => .inl h
  · refine Yields.bind (Yields.map (R := fun w v => ∃ w', w = some w' ∧
      LockedBy (fun k m => O k m ∨ m = w'.mark ∧ IsWriterLock k) v)
      (hwriter.mono (fun w v hv => ⟨w, rfl, hv⟩) fun _ h => h)) fun writer => .pure ?_
    rintro v ⟨w, rfl, hv⟩
    exact hv.mono fun k m h => h.imp id fun ⟨hm, hk⟩ => ⟨⟨w, rfl, hm.symm⟩, hk⟩

theorem yields_stop (live : Live) {E : Volume → Prop} :
    Yields (LockedBy fun k m => O k m ∨ live.Owns k m) live.stop
      (fun stopped v => stopped.writer = none ∧ LockedBy O v) E := by
  cases hw : live.writer with
  | none =>
    rw [stop, hw]
    refine .pure fun v hv => ⟨rfl, hv.mono fun k m h => h.resolve_right ?_⟩
    rintro ⟨⟨w, hsome, -⟩, -⟩
    cases hw.symm.trans hsome
  | some w =>
    rw [stop, hw]
    refine (Volume.yields_release w.mark).bind fun _ => .pure fun v hv =>
      ⟨rfl, hv.mono fun k m ⟨h, hne⟩ => h.resolve_right ?_⟩
    rintro ⟨⟨w', hsome, rfl⟩, -⟩
    cases hw.symm.trans hsome
    exact hne rfl

theorem yields_openIn {readonly : Bool} {memory : Nat} :
    Yields (LockedBy O) (openIn path readonly memory)
      (fun found => LockedBy fun k m => O k m ∨ found.2.Owns k m) (LockedBy O) :=
  Keeps.get.then fun v _ => by
    split
    · exact (yields_start _ _ _ _).bind fun live => .pure fun _ h => h
    · exact .throw fun _ h => h

theorem yields_createIn {layout : Layout} {memory : Nat} :
    Yields (LockedBy O) (createIn path layout memory)
      (fun live => LockedBy fun k m => O k m ∨ live.Owns k m) (LockedBy O) :=
  Keeps.get.then fun v _ => by
    dsimp only
    split
    · exact .throw fun _ h => h
    · refine .ite (fun _ => .throw fun _ h => h) fun _ => ?_
      refine .ite (fun _ => .throw fun _ h => h) fun _ => ?_
      exact Volume.keeps_writeImage_locks.then fun _ _ => yields_start _ _ _ _

end Live

theorem yields_load {readonly : Bool} {memory : Nat} :
    Yields (LockedBy O) (load path readonly memory)
      (fun found => LockedBy fun k m => O k m ∨ ∃ live, found.2 = some live ∧ live.Owns k m)
      (LockedBy O) := by
  refine Keeps.get.then fun v _ => Keeps.then (S := fun _ => True)
    (.ofExcept fun _ _ => trivial) fun schema _ => ?_
  refine .ite (fun _ => Live.yields_openIn.bind fun (layout, live) => ?_) fun _ => ?_
  · refine Yields.bind (Yields.orUndo (Q := fun _ => LockedBy fun k m => O k m ∨ live.Owns k m)
      ((Keeps.ofExcept (Q := fun _ => True) fun _ _ => trivial).yields.mono (fun _ _ h => h.1)
        fun _ h => h)
      ((Live.yields_stop live).bind fun _ => .pure fun _ h => h.2)) fun fields => .pure ?_
    exact fun v hv => hv.mono fun k m h => h.imp id fun h => ⟨live, rfl, h⟩
  · exact .pure fun v hv => hv.mono fun k m h => .inl h

/-! ## Locked stores -/

theorem yields_acquire :
    Yields (LockedBy O) (acquire path)
      (fun mark v => path ≠ "" ∧ ∃ here, v.files.Leads path here ∧
        LockedBy (fun k m => O k m ∨ m = mark ∧ k = child (join here) Volume.lockFile) v)
      (LockedBy O) := by
  intro v hv
  rw [acquire, Action.get_bind]
  cases hlocate : v.files.locate? path with
  | none => exact hv
  | some directory =>
    have hne : path ≠ "" := by
      rintro rfl
      cases hlocate
    dsimp only
    generalize Volume.failure (child directory Volume.lockFile) = e
    have hacquire : Yields _ (Volume.acquire (child directory Volume.lockFile)
        (.exclusiveLockHeld path) e) _ _ := Volume.yields_acquire (O := O) Volume.isOther_lockFile
    have halike : Keeps _ (Volume.acquire (child directory Volume.lockFile)
        (.exclusiveLockHeld path) e) _ := Volume.keeps_acquire_other (u := v) Volume.isOther_lockFile
    replace hacquire := hacquire v hv
    replace halike := halike v (.refl v)
    cases hr : Volume.acquire (child directory Volume.lockFile) (.exclusiveLockHeld path) e v with
    | error e v' =>
      rw [hr] at hacquire
      exact hacquire
    | ok mark v' =>
      rw [hr] at hacquire halike
      obtain ⟨here, hlead, hlocks⟩ := hacquire
      have hback := hlead.congr fun k => (halike.1.isDirectory k).symm
      obtain ⟨hpath, rfl⟩ := FileTree.Leads.of_locate? hlocate hback
      exact ⟨hne, here, hpath.congr halike.1.isDirectory, hlocks⟩

namespace Store

/-- The store has the file at a canonical path locked: as a store, where its lock may be, or as the
writer of an index. -/
def Owns (s : Store) (L : String → Prop) (k : String) (mark : Nat) : Prop :=
  s.lock = some mark ∧ L k ∨ ∃ live, s.live = some live ∧ live.Owns k mark

def LocksAt (s : Store) (v : Volume) (k : String) : Prop :=
  s.path ≠ "" ∧ ∃ here, v.files.Leads s.path here ∧ k = child (join here) Volume.lockFile

theorem yields_loadLocked {analyze : Analyzer} {readonly : Bool} {memory : Nat}
    (here : List String) {lock : Option Nat} (hlock : lock ≠ none → path ≠ "") :
    Yields (fun v => LockedBy (fun k m => O k m ∨
        lock = some m ∧ k = child (join here) Volume.lockFile) v ∧
          (lock ≠ none → v.files.Leads path here))
      (loadLocked analyze path readonly memory lock)
      (fun s v => s.lock = lock ∧
        LockedBy (fun k m => O k m ∨ s.Owns (s.LocksAt v) k m) v)
      (LockedBy O) := by
  have hleads : Keeps (fun v => lock ≠ none → v.files.Leads path here)
      (load path readonly memory) fun _ => True :=
    (Volume.keeps_of_alike (fun v v' h hv hne => (hv hne).congr h.isDirectory)
      fun _ => keeps_load_alike).mono fun _ _ => trivial
  have hrelease : Yields
      (LockedBy fun k m => O k m ∨ lock = some m ∧ k = child (join here) Volume.lockFile)
      (lock.forM Volume.release) (fun _ => LockedBy O) (LockedBy O) := by
    cases lock with
    | none => exact .pure fun v hv => hv.mono fun k m h => h.resolve_right (by simp)
    | some mark =>
      refine (Volume.yields_release mark).mono (fun _ v hv => hv.mono fun k m ⟨h, hne⟩ => ?_)
        fun _ h => h
      exact h.resolve_right fun hm => hne (Option.some.inj hm.1).symm
  refine Yields.bind ((yields_load.and hleads).orUndo hrelease) fun (fields, live) => .pure ?_
  rintro v ⟨hv, hleads⟩
  refine ⟨rfl, hv.mono fun k m h => ?_⟩
  rcases h with (h | ⟨hm, hk⟩) | h
  · exact .inl h
  · have hne : lock ≠ none := by simp [hm]
    exact .inr (.inl ⟨hm, hlock hne, here, hleads hne, hk⟩)
  · exact .inr (.inr h)

/-- **To open a store** locks what the store then owns, and nothing if it fails. -/
theorem yields_openWith (analyze : Analyzer) (o : BackendOptions) :
    Yields (LockedBy O) (openWith analyze o)
      (fun s v => (o.readonly = true → s.lock = none) ∧
        LockedBy (fun k m => O k m ∨ s.Owns (s.LocksAt v) k m) v)
      (LockedBy O) := by
  refine Keeps.then (S := fun _ => True) (.ofExcept fun _ _ => trivial) fun _ _ => ?_
  split
  · exact .throw fun _ h => h
  · rename_i path _
    refine .ite (fun hreadonly => ?_) fun hwritable => ?_
    · refine ((yields_loadLocked [] (by simp)).mono
        (fun s v h => ⟨fun _ => h.1, h.2⟩) fun _ h => h).pre fun v hv => ?_
      exact ⟨hv.mono fun k m h => .inl h, by simp⟩
    · refine Volume.keeps_createDirectory_locks.then fun _ _ => ?_
      refine Yields.bind (Yields.map (R := fun lock v => ∃ mark, lock = some mark ∧ path ≠ "" ∧
        ∃ here, v.files.Leads path here ∧
          LockedBy (fun k m => O k m ∨ m = mark ∧ k = child (join here) Volume.lockFile) v)
        (yields_acquire.mono (fun mark v h => ⟨mark, rfl, h⟩) fun _ h => h)) fun lock => ?_
      refine .of_state fun v ⟨mark, hlock, hne, here, hlead, hv⟩ => ?_
      subst hlock
      refine ((yields_loadLocked here fun _ => hne).mono
        (fun s v h => ⟨fun hreadonly => absurd hreadonly hwritable, h.2⟩) fun _ h => h).pre ?_
      rintro _ rfl
      exact ⟨hv.mono fun k m h => h.imp id fun ⟨hm, hk⟩ => ⟨congrArg _ hm.symm, hk⟩, fun _ => hlead⟩

end Store

/-! ## Opening locked directories -/

def IsNoLock (e : Error) : Prop := ∀ store, e ≠ .exclusiveLockHeld store

namespace Volume

/-- A file that is locked cannot be acquired. -/
theorem acquire_of_locked (hname : IsOther name) {here : List String} (hlead : v.files.Leads path here)
    (hlocked : v.Locked (child (join here) name) mark) :
    acquire (child path name) e e' v = .error e v := by
  obtain ⟨⟨content, _⟩, hf, rfl⟩ := hlocked
  have hread : v.files.read? (child path name) = some ⟨content, some mark⟩ := by
    rw [FileTree.read?_eq,
      (FileTree.canonical?_child hname.isEntry hname.isName).2 ⟨here, hlead, rfl⟩]
    exact hf
  have htouch : touch (child path name) "" e' v = .ok () v := by
    rw [touch, Action.get_bind, hread]
    rfl
  rw [acquire, Action.bind_of_ok htouch, Action.get_bind]
  simp only [hread, Action.throw_run]

theorem acquire_eq_error (hname : IsOther name) {e₁ : Error}
    (h : acquire (child path name) e e' v = .error e₁ v') :
    e₁ = e' ∨ e₁ = e ∧ ∃ here mark, v.files.Leads path here ∧ v.Locked (child (join here) name) mark := by
  rw [acquire] at h
  rcases Action.bind_eq_error.1 h with h | ⟨_, v₁, htouch, h⟩
  · exact .inl (failsAs_touch (P := (· = e')) rfl _ _ _ h)
  have hdirectories := (((keeps_touch_other hname).of_ok (.refl v) htouch).1).isDirectory
  have hlocks := ((keeps_touch_locks (O := v.Locked)).of_ok (fun _ _ h => h) htouch).1
  rw [Action.get_bind] at h
  cases hread : v₁.files.read? (child path name) with
  | none =>
    simp only [hread] at h
    cases h
    exact .inl rfl
  | some f =>
    obtain ⟨content, _ | mark⟩ := f
    · simp only [hread] at h
      cases hw : v₁.files.write? (child path name) ⟨content, some v₁.marks⟩ <;>
        simp only [hw] at h <;> cases h
      exact .inl rfl
    · simp only [hread] at h
      cases h
      rw [FileTree.read?_eq] at hread
      obtain ⟨k, hk, hf⟩ := Option.bind_eq_some_iff.1 hread
      obtain ⟨here, hlead, rfl⟩ := (FileTree.canonical?_child hname.isEntry hname.isName).1 hk
      exact .inr ⟨rfl, here, mark, hlead.congr fun k => (hdirectories k).symm,
        hlocks _ _ ⟨_, hf, rfl⟩⟩

theorem isNoLock_of_schema (h : v.schema path = .error e) : IsNoLock e := by
  rw [schema] at h
  split at h
  · split at h
    · rename_i text _
      rw [Schema.ofJsonText] at h
      split at h
      · cases h
      · split at h
        · cases h
          rintro _ ⟨⟩
        · split at h
          · cases h
          · cases h
            rintro _ ⟨⟩
    · cases h
      rintro _ ⟨⟩
  · cases h

end Volume

theorem failsAs_load {readonly : Bool} {memory : Nat} :
    Action.FailsAs IsNoLock (load path readonly memory) := by
  have hopen : Action.FailsAs IsNoLock (Live.openIn path readonly memory) := by
    refine .get_bind fun v => ?_
    split
    · exact (Live.failsAs_start fun _ _ => nofun).bind fun _ => .pure
    · exact .throw nofun
  refine .get_bind fun v => (Action.FailsAs.ofExcept fun e he => Volume.isNoLock_of_schema he).bind
    fun schema => .ite (fun _ => hopen.bind fun (layout, live) => ?_) fun _ => .pure
  refine Action.FailsAs.bind (fun v e v' h => ?_) fun _ => .pure
  obtain ⟨t, hfailed, -⟩ := Action.orUndo_eq_error ((Live.failsAs_stop live).bind fun _ => .pure) h
  obtain ⟨⟨name, rfl⟩, -⟩ := FieldMap.ofLayout_eq_error (Action.ofExcept_eq_error.1 hfailed).1
  exact nofun

namespace Store

def directory? (o : BackendOptions) (v : Volume) : Option String :=
  match o.ensureRecognized backendName recognizedOptions, o.path with
  | .ok _, some path =>
    let (files, done) := v.files.createDirectory path
    if done then files.locate? path else none
  | _, _ => none

def made (path : String) (v : Volume) : Volume :=
  { v with files := (v.files.createDirectory path).1 }

theorem createDirectory_run : Volume.createDirectory path v =
    if (v.files.createDirectory path).2 then .ok () (made path v)
    else .error (Volume.failure path) (made path v) := by
  rw [Volume.createDirectory, Action.get_bind, made]
  rcases v.files.createDirectory path with ⟨files, done⟩
  cases done <;> rfl

theorem locked_made : (made path v).Locked k mark ↔ v.Locked k mark := by
  rw [Locked, Locked, made, FileTree.sameFiles_createDirectory v.files path k]

theorem directory?_eq_some {o : BackendOptions} {d : String} :
    directory? o v = some d ↔ ∃ path, o.ensureRecognized backendName recognizedOptions = .ok () ∧
      o.path = some path ∧ (v.files.createDirectory path).2 = true ∧ path ≠ "" ∧
      ∃ here, (made path v).files.Leads path here ∧ d = join here := by
  rw [directory?]
  cases hrecognized : o.ensureRecognized backendName recognizedOptions with
  | error e => simp
  | ok a =>
    cases hpath : o.path with
    | none => simp
    | some path =>
      dsimp only
      cases hdone : (v.files.createDirectory path).2 with
      | false => simp [hdone]
      | true =>
        rw [if_pos rfl]
        constructor
        · intro h
          have hne : path ≠ "" := by
            rintro rfl
            cases h
          obtain ⟨here, hlead⟩ := FileTree.leads_of_createDirectory hne hdone
          refine ⟨path, rfl, rfl, hdone, hne, here, hlead, ?_⟩
          exact (Option.some.inj ((hlead.locate?_eq hne).symm.trans h)).symm
        · rintro ⟨_, -, ⟨⟩, -, hne, here, hlead, rfl⟩
          exact hlead.locate?_eq hne

theorem failsAs_loadLocked {analyze : Analyzer} {readonly : Bool} {memory : Nat}
    {lock : Option Nat} : Action.FailsAs IsNoLock (loadLocked analyze path readonly memory lock) := by
  refine Action.FailsAs.bind (fun v e v' h => ?_) fun _ => .pure
  obtain ⟨t, hfailed, -⟩ := Action.orUndo_eq_error (.forM_option Volume.failsAs_release) h
  exact failsAs_load _ _ _ hfailed

theorem isNoLock_of_ensureRecognized {o : BackendOptions} {backend : String} {names : List String}
    (h : o.ensureRecognized backend names = .error e) : IsNoLock e := by
  rw [BackendOptions.ensureRecognized] at h
  split at h <;> cases h
  rintro _ ⟨⟩

/-- A store that may write is opened in the directory that was made for it, unless that cannot be
made. -/
theorem openWith_cases {o : BackendOptions} (hwritable : o.readonly = false) (analyze : Analyzer)
    (v : Volume) :
    (∃ e v', openWith analyze o v = .error e v' ∧ IsNoLock e) ∨
      ∃ path, o.ensureRecognized backendName recognizedOptions = .ok () ∧ o.path = some path ∧
        (v.files.createDirectory path).2 = true ∧
        openWith analyze o v = (acquire path >>= fun mark =>
          loadLocked analyze path false (o.writerMemoryBytes.getD defaultWriterMemory)
            (some mark))
            (made path v) := by
  rw [openWith, hwritable]
  cases hrecognized : o.ensureRecognized backendName recognizedOptions with
  | error e => exact .inl ⟨e, v, rfl, isNoLock_of_ensureRecognized hrecognized⟩
  | ok a =>
    cases hpath : o.path with
    | none => exact .inl ⟨_, v, rfl, by rintro _ ⟨⟩⟩
    | some path =>
      simp only [Action.bind_run, Action.ofExcept_run, Action.map_run, Bool.false_eq_true, if_false,
        createDirectory_run]
      cases hdone : (v.files.createDirectory path).2 with
      | false => exact .inl ⟨_, _, rfl, by rintro _ ⟨⟩⟩
      | true =>
        refine .inr ⟨path, trivial, rfl, hdone, ?_⟩
        rw [if_pos rfl]
        dsimp only
        cases acquire path (made path v) with
        | error e v' => rfl
        | ok mark v' => simp only [loadLocked, Action.bind_run]

/-- **A directory whose lock is held** cannot be opened for writing. -/
theorem openWith_of_locked (analyze : Analyzer) {o : BackendOptions} {d : String}
    (hwritable : o.readonly = false) (hd : directory? o v = some d)
    (hlocked : v.Locked (child d Volume.lockFile) mark) :
    ∃ path v', openWith analyze o v = .error (.exclusiveLockHeld path) v' := by
  obtain ⟨path, hrecognized, hpath, hdone, hne, here, hlead, rfl⟩ := directory?_eq_some.1 hd
  have hacquire : acquire path (made path v) = .error (.exclusiveLockHeld path) (made path v) := by
    rw [acquire, Action.get_bind, hlead.locate?_eq hne]
    exact Volume.acquire_of_locked Volume.isOther_lockFile hlead.canonical (locked_made.2 hlocked)
  refine ⟨path, made path v, ?_⟩
  rw [openWith, hrecognized, hpath, hwritable]
  simp only [Action.bind_run, Action.ofExcept_run, Action.map_run, Bool.false_eq_true, if_false,
    createDirectory_run, hdone, if_true, hacquire]

/-- **Opening finds a lock** only in the directory of the store, and only to write. -/
theorem locked_of_openWith {analyze : Analyzer} {o : BackendOptions} {store : String}
    (h : openWith analyze o v = .error (.exclusiveLockHeld store) v') :
    o.readonly = false ∧ ∃ d mark, directory? o v = some d ∧
      v.Locked (child d Volume.lockFile) mark := by
  cases hreadonly : o.readonly with
  | true =>
    rw [openWith, hreadonly] at h
    rcases Action.bind_eq_error.1 h with h | ⟨_, t, -, h⟩
    · exact absurd rfl (isNoLock_of_ensureRecognized (Action.ofExcept_eq_error.1 h).1 store)
    · cases hpath : o.path with
      | none =>
        simp only [hpath] at h
        cases h
      | some path =>
        simp only [hpath] at h
        exact absurd rfl (failsAs_loadLocked _ _ _ h store)
  | false =>
    refine ⟨rfl, ?_⟩
    obtain ⟨e, v₁, hfails, hno⟩ | ⟨path, hrecognized, hpath, hdone, hrun⟩ :=
      openWith_cases hreadonly analyze v
    · cases h.symm.trans hfails
      exact absurd rfl (hno store)
    rcases Action.bind_eq_error.1 (hrun.symm.trans h) with h | ⟨mark, v₂, -, h⟩
    swap
    · exact absurd rfl (failsAs_loadLocked _ _ _ h store)
    rw [acquire, Action.get_bind] at h
    cases hlocate : (made path v).files.locate? path with
    | none =>
      simp only [hlocate] at h
      cases h
    | some d =>
      simp only [hlocate] at h
      obtain herror | ⟨-, here, mark, hlead, hlocked⟩ :=
        Volume.acquire_eq_error Volume.isOther_lockFile h
      · cases herror
      obtain ⟨hpath', rfl⟩ := FileTree.Leads.of_locate? hlocate hlead
      have hne : path ≠ "" := by
        rintro rfl
        cases hlocate
      exact ⟨_, mark, directory?_eq_some.2 ⟨path, hrecognized, hpath, hdone, hne, here, hpath', rfl⟩,
        locked_made.1 hlocked⟩

theorem directory?_of_openWith {analyze : Analyzer} {o : BackendOptions} {s : Store}
    (hwritable : o.readonly = false) (h : openWith analyze o v = .ok s v') :
    ∃ d, directory? o v = some d ∧ v'.files.locate? s.path = some d := by
  obtain ⟨e, v₁, hfails, -⟩ | ⟨path, hrecognized, hpath, hdone, hrun⟩ :=
    openWith_cases hwritable analyze v
  · cases h.symm.trans hfails
  obtain ⟨mark, v₂, hacquire, hload⟩ := Action.bind_eq_ok.1 (hrun.symm.trans h)
  obtain ⟨hacquired, hne⟩ := keeps_acquire_alike.of_ok (.refl _) hacquire
  obtain ⟨here, hlead⟩ := FileTree.leads_of_createDirectory hne hdone
  obtain ⟨found, v₃, hload, hs⟩ := Action.bind_eq_ok.1 hload
  have hloaded := (keeps_load_alike.of_ok (.refl v₂) (Action.orUndo_eq_ok.1 hload)).1
  cases hs
  refine ⟨_, directory?_eq_some.2 ⟨path, hrecognized, hpath, hdone, hne, here, hlead, rfl⟩, ?_⟩
  exact ((hlead.congr hacquired.isDirectory).congr hloaded.isDirectory).locate?_eq hne

end Store

end Searchlight.Disk
