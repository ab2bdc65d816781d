import Searchlight.Proofs.Disk.Directories
import Searchlight.Proofs.Disk.Following
import Searchlight.Proofs.Disk.Sound

/-!
# What stores leave in directories

A store writes the schema and the index of a directory when it makes the index, and the index again
with every commit. Two things can go wrong: the store finds an index that another one made, once its
own schema is in the place of the other's (`Store.Oversteps`), or the index that its writer writes
is not there any more (`Store.Strays`). Whatever else a store does, and whether it succeeds or not,
no schema gets out of date by it.
-/

namespace Searchlight.Disk

open Searchlight.Action (Keeps KeepsUnless)
open FileTree (child join)
open Volume (Alike Stays SameStore indexFile schemaFile)

variable {d path : String} {u v v' : Volume} {layout : Layout} {e : Error}

/-! ## Putting an index in a directory -/

namespace Volume

/-- The index that a path leads to may have got other fields; nothing else happened. -/
structure Puts (path : String) (layout : Layout) (u v : Volume) : Prop where
  isDirectory : ∀ k, v.files.isDirectory k = u.files.isDirectory k
  schemaText : ∀ d, v.schemaTextAt? d = u.schemaTextAt? d
  layoutAt : ∀ d, v.layoutAt? d = u.layoutAt? d ∨
    u.files.canonical? (child path indexFile) = some (child d indexFile) ∧
      v.layoutAt? d = some layout

namespace Puts

theorem refl (v : Volume) : Puts path layout v v := ⟨fun _ => rfl, fun _ => rfl, fun _ => .inl rfl⟩

theorem alike (h : Puts path layout u v) (h' : Alike v v') : Puts path layout u v' where
  isDirectory k := (h'.isDirectory k).trans (h.isDirectory k)
  schemaText d := (h'.sameStore d).schemaText.trans (h.schemaText d)
  layoutAt d := by
    rw [(h'.sameStore d).layout]
    exact h.layoutAt d

/-- An index with the fields that it had is the same store. -/
theorem sameStore (h : Puts path layout u v)
    (hown : u.files.canonical? (child path indexFile) = some (child d indexFile) →
      u.layoutAt? d = some layout) : SameStore d u v := by
  refine ⟨?_, h.schemaText d⟩
  rcases h.layoutAt d with hsame | ⟨hd, hlayout⟩
  · exact hsame
  · rw [hlayout, hown hd]

end Puts

theorem keeps_writeImage_puts (image : Image) :
    Keeps (Puts path image.layout u) (writeImage path image e) fun _ => True := by
  refine (keeps_of_alike (fun _ _ h' h => h.alike h')
    fun _ => keeps_touch_other isOther_managedFile).seq fun _ => ?_
  intro v hv
  cases hr : write (child path indexFile) (.index image) e v with
  | error e' v' =>
    rw [(write_eq_error hr).1]
    exact hv
  | ok a v' =>
    obtain ⟨k, hk, hw⟩ := write_eq_ok hr
    obtain ⟨here, -, rfl⟩ := canonical?_indexFile.1 hk
    rw [FileTree.canonical?_congr hv.isDirectory] at hk
    have hschema (d : String) : v'.schemaTextAt? d = v.schemaTextAt? d := by
      rw [schemaTextAt?, schemaTextAt?,
        hw.content?_child isEntry_indexFile isEntry_schemaFile (by decide)]
    refine ⟨⟨fun k => (hw.isDirectory k).trans (hv.isDirectory k),
      fun d => (hschema d).trans (hv.schemaText d), fun d => ?_⟩, trivial⟩
    by_cases hd : child (join here) indexFile = child d indexFile
    · refine .inr ⟨hd ▸ hk, ?_⟩
      rw [layoutAt?, hw.content?, if_pos hd]
      rfl
    · have hlayout : v'.layoutAt? d = v.layoutAt? d := by
        rw [layoutAt?, layoutAt?, hw.content?, if_neg hd]
      rw [hlayout]
      exact hv.layoutAt d

end Volume

/-! ## Indexes in use -/

theorem Writer.keeps_start_alike (directory : String) (ss : Segments) (memory : Nat) :
    Keeps (Alike u) (Writer.start directory ss memory) fun _ => True :=
  (Volume.keeps_acquire_other Volume.isOther_writerLockFile).seq fun mark =>
    .ite (fun _ => .pure trivial) fun _ => (Volume.keeps_release_alike mark).seq fun _ => .throw

namespace Live

variable {readonly : Bool} {memory : Nat}

theorem keeps_start_alike (directory : String) (ss : Segments) :
    Keeps (Alike u) (start directory ss readonly memory) fun live =>
      readonly = true → live.writer = none := by
  refine (Volume.keeps_touch_other Volume.isOther_readerLockFile).seq fun _ => ?_
  refine .ite (fun _ => .pure fun _ => rfl) fun hwritable => ?_
  exact Keeps.seq ((Writer.keeps_start_alike directory ss memory).map fun _ _ => trivial)
    fun writer => .pure fun h => absurd h hwritable

theorem keeps_stop_alike (live : Live) :
    Keeps (Alike u) live.stop fun stopped => stopped.writer = none :=
  (Keeps.forM_option fun w _ => Volume.keeps_release_alike w.mark).seq fun _ => .pure rfl

theorem keeps_openIn_alike :
    Keeps (Alike u) (openIn path readonly memory) fun found =>
      readonly = true → found.2.writer = none :=
  Keeps.get.bind fun _ _ => by
    split
    · exact (keeps_start_alike _ _).bind fun _ hlive => .pure hlive
    · exact .throw

def indexExists : Error := .index "failed to create index" (some "there is one")

/-- To make an index fails where there is one, and changes nothing; or there was none, and now
there may be the new one. -/
theorem createIn_cases (layout : Layout) (memory : Nat) {here : List String}
    (hlead : v.files.Leads path here) (hne : path ≠ "") :
    createIn path layout memory v = .error indexExists v ∨
      v.layoutAt? (join here) = none ∧
        Volume.Puts (join here) layout v ((createIn path layout memory).after v) := by
  have hlocate := hlead.locate?_eq hne
  by_cases hindex : v.hasIndex (join here) = true
  · refine .inl ?_
    rw [createIn, Action.get_bind]
    simp only [hlocate, hindex]
    rfl
  have hnone : v.layoutAt? (join here) = none := by
    have hcanonical := Volume.canonical?_indexFile.2 ⟨here, hlead.canonical, rfl⟩
    rw [Volume.hasIndex, FileTree.holds, FileTree.locate?, hcanonical, Option.isSome_filter] at hindex
    rw [Volume.layoutAt?, Volume.content?_of_not_hasNode (by simpa using hindex)]
    rfl
  refine .inr ⟨hnone, ?_⟩
  rw [createIn, Action.after_get_bind]
  simp only [hlocate, hindex, Bool.false_eq_true, if_false]
  refine Keeps.after (Q := fun _ => True) ?_ (.refl v)
  refine .ite (fun _ => .throw) fun _ => ?_
  refine (Volume.keeps_writeImage_puts ⟨layout, []⟩).seq fun _ => ?_
  exact Volume.keeps_of_alike (fun _ _ h' h => h.alike h') fun _ =>
    (keeps_start_alike _ _).mono fun _ _ => trivial

end Live

theorem keeps_load_alike {readonly : Bool} {memory : Nat} :
    Keeps (Alike u) (load path readonly memory) fun found =>
      (found.2 = none → found.1 = .build found.1.schema) ∧
        ∀ live, readonly = true → found.2 = some live → live.writer = none :=
  Keeps.get.bind fun v hv => Keeps.seq (.ofExcept fun _ _ => trivial) fun schema => by
    refine .ite (fun _ => Live.keeps_openIn_alike.bind fun found hlive => ?_)
      fun _ => .pure ⟨fun _ => rfl, fun _ _ h => nomatch h⟩
    refine Keeps.seq (Keeps.orUndo (.ofExcept fun _ _ => trivial) ?_) fun _ => .pure ⟨?_, ?_⟩
    · exact (Live.keeps_stop_alike found.2).map fun _ _ => trivial
    · exact fun h => nomatch h
    · rintro _ hreadonly ⟨⟩
      exact hlive hreadonly

namespace Store

def target? (s : Store) : Option String :=
  s.live.bind fun live => live.writer.map fun _ => live.directory

/-- As long as a store has no index in use, it can make one. -/
structure Prepared (s : Store) : Prop where
  built : s.closed = false → s.live = none → s.fields = .build s.fields.schema
  pending : s.closed = false → s.live = none → s.pendingAdds = ∅
  path : s.readonly = false → s.path ≠ ""

/-- The index that the writer of a store writes in a directory is not there as it was made: the
directory was removed under the writer. -/
def Strays (s : Store) (v : Volume) (d : String) : Prop :=
  ∃ directory, s.target? = some directory ∧
    v.files.canonical? (child directory indexFile) = some (child d indexFile) ∧
    v.layoutAt? d ≠ some s.fields.layout

/-- A store without an index in use has put its schema in a directory, beside an index that lacks
one of the fields. -/
structure Oversteps (s : Store) (v : Volume) (d : String) : Prop where
  without : s.live = none
  schemaFile : v.files.canonical? (child s.path schemaFile) = some (child d schemaFile)
  schemaText : v.schemaTextAt? d = some s.fields.schema.toJsonText
  lacks : ∃ layout, v.layoutAt? d = some layout ∧ ¬ layout.Covers s.fields.schema

theorem Oversteps.outOfDate {s : Store} (h : s.Oversteps v d) : v.OutOfDate d := by
  obtain ⟨layout, hlayout, hlacks⟩ := h.lacks
  exact ⟨layout, _, _, hlayout, h.schemaText, s.fields.schema.ofJsonText_toJsonText, hlacks⟩

variable {s t : Store} {V : Volume → Prop} {I : Store × Volume → Prop}

theorem prepared_of_live (hlive : s.live.isSome = true) (hpath : s.readonly = false → s.path ≠ "") :
    s.Prepared := by
  refine ⟨fun _ h => ?_, fun _ h => ?_, hpath⟩
  · simp [h] at hlive
  · simp [h] at hlive

theorem prepared_of_closed (hclosed : s.closed = true) (hpath : s.readonly = false → s.path ≠ "") :
    s.Prepared := by
  refine ⟨fun h => ?_, fun h => ?_, hpath⟩
  · simp [hclosed] at h
  · simp [hclosed] at h

/-! ### Making the index -/

def makeIndex (s : Store) : Action Volume Live := do
  let file := child s.path schemaFile
  Volume.write file (.text s.fields.schema.toJsonText) (Volume.failure file)
  Live.createIn s.path s.fields.layout s.writerMemory

theorem ensureLive_of_live_none (h : s.live = none) :
    ensureLive (s, v) =
      match s.makeIndex v with
      | .ok live v' => .ok live ({ s with live := some live }, v')
      | .error e v' => .error e (s, v') := by
  rw [ensureLive, Action.get_bind, makeIndex]
  simp only [h, Action.bind_run, Action.second, Action.focus]
  cases Volume.write (child s.path schemaFile) (.text s.fields.schema.toJsonText)
      (Volume.failure (child s.path schemaFile)) v with
  | error e v' => rfl
  | ok a v' =>
    dsimp only
    cases Live.createIn s.path s.fields.layout s.writerMemory v' <;> rfl

/-- **Making an index** leaves no schema out of date, unless there is an index of other fields. -/
theorem makeIndex_stays (hs : s.Prepared) (hopen : s.closed = false) (hlive : s.live = none)
    (hwritable : s.readonly = false) :
    Stays d v (s.makeIndex.after v) ∨
      ∃ v', s.makeIndex v = .error Live.indexExists v' ∧ s.Oversteps v' d := by
  let file := child s.path schemaFile
  cases hwrite : Volume.write file (.text s.fields.schema.toJsonText) (Volume.failure file) v with
  | error e v' =>
    obtain ⟨rfl, -⟩ := Volume.write_eq_error hwrite
    refine .inl ?_
    rw [makeIndex, Action.after, Action.bind_run, hwrite]
    exact .refl d v'
  | ok a v₁ =>
    obtain ⟨k, hk, hw⟩ := Volume.write_eq_ok hwrite
    obtain ⟨here, hlead, rfl⟩ := Volume.canonical?_schemaFile.1 hk
    have hlead₁ : v₁.files.Leads s.path here := hlead.congr hw.isDirectory
    have hrun : s.makeIndex v = Live.createIn s.path s.fields.layout s.writerMemory v₁ := by
      rw [makeIndex, Action.bind_of_ok hwrite]
    have htext (hd : child (join here) schemaFile = child d schemaFile) :
        v₁.schemaTextAt? d = some s.fields.schema.toJsonText := by
      rw [Volume.schemaTextAt?, hw.content?, if_pos hd]
      rfl
    have helse (hd : child (join here) schemaFile ≠ child d schemaFile) : SameStore d v v₁ := by
      refine Volume.sameStore_of_content? ?_ ?_
      · exact hw.content?_child Volume.isEntry_schemaFile Volume.isEntry_indexFile (by decide) d
      · rw [hw.content?, if_neg hd]
    rw [hrun, Action.after, hrun]
    rcases Live.createIn_cases _ _ hlead₁ (hs.path hwritable) with hexists | ⟨hnone, hputs⟩
    · rw [hexists]
      by_cases hd : child (join here) schemaFile = child d schemaFile
      · by_cases hout : v₁.OutOfDate d
        · obtain ⟨layout, text, schema, hlayout, htext', hschema, hlacks⟩ := hout
          cases (htext hd).symm.trans htext'
          cases (Schema.ofJsonText_toJsonText _).symm.trans hschema
          refine .inr ⟨v₁, rfl, hlive, ?_, htext hd, layout, hlayout, hlacks⟩
          rw [FileTree.canonical?_congr hw.isDirectory, hk, hd]
        · exact .inl (.inr hout)
      · exact .inl (.inl (helse hd))
    · rw [Action.after] at hputs
      refine .inl ?_
      by_cases hd : child (join here) schemaFile = child d schemaFile
      · refine .inr ?_
        rintro ⟨layout, text, schema, hlayout, htext', hschema, hlacks⟩
        rw [hputs.schemaText, htext hd] at htext'
        cases htext'
        cases (Schema.ofJsonText_toJsonText _).symm.trans hschema
        rcases hputs.layoutAt d with hsame | ⟨-, hmade⟩
        · have hchild := (FileTree.child_inj Volume.isEntry_schemaFile.slash
            Volume.isEntry_schemaFile.slash hd).2 indexFile
          rw [hsame, Volume.layoutAt?, ← hchild, ← Volume.layoutAt?, hnone] at hlayout
          cases hlayout
        · cases hmade.symm.trans hlayout
          rw [hs.built hopen hlive] at hlacks
          exact hlacks (Layout.covers_indexedFields _)
      · refine .inl ((helse hd).trans (hputs.sameStore fun hcanonical => absurd ?_ hd))
        rw [Volume.canonical?_indexFile.2 ⟨here, hlead₁.canonical, rfl⟩] at hcanonical
        exact (FileTree.child_inj Volume.isEntry_indexFile.slash Volume.isEntry_indexFile.slash
          (Option.some.inj hcanonical)).2 schemaFile

/-! ### With an index in use -/

/-- A store that goes on with an index: its fields are the same, and its writer, if it has one,
writes where it wrote. -/
structure GoesOn (s t : Store) : Prop where
  fields : t.fields = s.fields
  path : t.path = s.path
  readonly : t.readonly = s.readonly
  closed : t.closed = s.closed
  live : t.live.isSome = true
  target : ∀ directory, t.target? = some directory → s.target? = some directory

theorem GoesOn.refl (h : s.live.isSome = true) : s.GoesOn s := ⟨rfl, rfl, rfl, rfl, h, fun _ h => h⟩

/-- An index in use is put in the place of the one that is there, with no writer or with one that
writes where the other does. -/
theorem GoesOn.put (h : s.GoesOn t) {live : Live}
    (hlive : ∀ w, live.writer = some w → s.target? = some live.directory) :
    s.GoesOn { t with live := some live } := by
  refine ⟨h.fields, h.path, h.readonly, h.closed, rfl, fun directory hd => ?_⟩
  obtain ⟨w, hw, rfl⟩ := Option.map_eq_some_iff.1 hd
  exact hlive w hw

theorem GoesOn.pending (h : s.GoesOn t) (adds deletes : TextSet) :
    s.GoesOn { t with pendingAdds := adds, pendingDeletes := deletes } :=
  ⟨h.fields, h.path, h.readonly, h.closed, h.live, h.target⟩

theorem GoesOn.prepared (h : s.GoesOn t) (hs : s.Prepared) : t.Prepared :=
  prepared_of_live h.live (by rw [h.readonly, h.path]; exact hs.path)

/-- What is kept when a volume changes in other files than indexes and schemas, and when a store
goes on or lets go what it has. -/
structure Lasting (I : Store × Volume → Prop) : Prop where
  alike : ∀ {s v v'}, Alike v v' → I (s, v) → I (s, v')
  goesOn : ∀ {s t v}, s.GoesOn t → I (s, v) → I (t, v)
  closed : ∀ {s v}, I (s, v) → I ({ s with closed := true }, v)
  unlocked : ∀ {s v}, I (s, v) → I ({ s with lock := none }, v)

def On (V : Volume → Prop) (x : Store × Volume) : Prop := x.1.Prepared ∧ V x.2

theorem on_lasting (hV : ∀ v v', Alike v v' → V v → V v') : Lasting (On V) where
  alike h hx := ⟨hx.1, hV _ _ h hx.2⟩
  goesOn h hx := ⟨h.prepared hx.1, hx.2⟩
  closed hx := ⟨prepared_of_closed rfl hx.1.path, hx.2⟩
  unlocked hx := ⟨⟨hx.1.built, hx.1.pending, hx.1.path⟩, hx.2⟩

def WentOn (s : Store) (I : Store × Volume → Prop) (x : Store × Volume) : Prop :=
  s.GoesOn x.1 ∧ I (s, x.2)

theorem WentOn.on {x : Store × Volume} (h : s.WentOn (On V) x) : On V x :=
  ⟨h.1.prepared h.2.1, h.2.2⟩

section
variable (hI : Lasting I)
include hI

theorem Lasting.of_wentOn {x : Store × Volume} (h : s.WentOn I x) : I x := hI.goesOn h.1 h.2

theorem Lasting.keeps_second {α : Type} {x : Action Volume α} {Q : α → Prop}
    (hx : ∀ u, Keeps (Alike u) x Q) : Keeps I (Action.second x) Q := by
  intro (s, v) hs
  have hkeeps := Volume.keeps_of_alike (I := fun v => I (s, v)) (fun _ _ => hI.alike) hx v hs
  rw [Action.second, Action.focus]
  cases hr : x v <;> rw [hr] at hkeeps <;> exact hkeeps

theorem Lasting.keeps_wentOn_second {α : Type} {x : Action Volume α} {Q : α → Prop}
    (hx : ∀ u, Keeps (Alike u) x Q) : Keeps (s.WentOn I) (Action.second x) Q :=
  Keeps.second (Volume.keeps_of_alike (fun _ _ => hI.alike) hx)

theorem Lasting.keeps_stopWriter : Keeps I stopWriter fun _ => True :=
  Keeps.look fun (s, v) hs => by
    dsimp only
    split
    · exact ⟨I, hs, fun _ h => h, .pure trivial⟩
    · rename_i live hlive
      refine ⟨s.WentOn I, ⟨.refl (by simp [hlive]), hs⟩, fun _ => hI.of_wentOn, ?_⟩
      refine (hI.keeps_wentOn_second fun _ => Live.keeps_stop_alike live).bind fun live' hw => ?_
      exact .modify fun (t, v) ht => ⟨ht.1.put (by simp [hw]), ht.2⟩

theorem Lasting.keeps_releaseLock : Keeps I releaseLock fun _ => True :=
  Keeps.get.bind fun _ _ =>
    Keeps.seq (.forM_option fun mark _ => hI.keeps_second fun _ => Volume.keeps_release_alike mark)
      fun _ => .modify fun _ hs => hI.unlocked hs

theorem Lasting.keeps_close (hcommit : Keeps I commit fun _ => True) :
    Keeps I close fun _ => True := by
  have hrest : Keeps I (do
      modify fun x => ({ x.1 with closed := true }, x.2)
      stopWriter
      releaseLock) fun _ => True :=
    Keeps.seq (.modify fun _ hs => hI.closed hs) fun _ =>
      hI.keeps_stopWriter.seq fun _ => hI.keeps_releaseLock
  exact Keeps.get.bind fun _ _ => .ite (fun _ => hcommit.seq fun _ => hrest) fun _ => hrest

theorem Lasting.keeps_setBack : Keeps I setBack fun _ => True :=
  Keeps.look fun (s, v) hs => by
    dsimp only
    split
    · rename_i directory visible w hlive
      have htarget : s.target? = some directory := by rw [target?, hlive]; rfl
      refine ⟨s.WentOn I, ⟨.refl (by rw [hlive]; rfl), hs⟩, fun _ => hI.of_wentOn, ?_⟩
      split
      · exact .modify fun (t, v) ht => ⟨ht.1.put fun _ _ => htarget, ht.2⟩
      · refine (hI.keeps_wentOn_second fun _ => Volume.keeps_release_alike w.mark).seq fun _ => ?_
        exact Keeps.seq (.modify fun (t, v) ht => ⟨ht.1.put fun _ _ => htarget, ht.2⟩)
          fun _ => .throw
    · exact ⟨I, hs, fun _ h => h, .pure trivial⟩

/-- A commit keeps what outlasts that the index gets its own fields anew. -/
theorem Lasting.keeps_commit
    (hputs : ∀ {s v v'} directory, s.target? = some directory →
      Volume.Puts directory s.fields.layout v v' → I (s, v) → I (s, v')) :
    Keeps I commit fun _ => True :=
  Keeps.look fun (s, v) hs => by
    dsimp only
    split
    · rename_i directory visible w hlive
      have htarget : s.target? = some directory := by rw [target?, hlive]; rfl
      refine ⟨s.WentOn I, ⟨.refl (by rw [hlive]; rfl), hs⟩, fun _ => hI.of_wentOn, ?_⟩
      split
      · rename_i segments _
        have hwrite (e : Error) : Keeps (fun v => I (s, v))
            (Volume.writeImage directory ⟨s.fields.layout, segments⟩ e) fun _ => True := by
          refine .of_after fun v hv => hputs directory htarget ?_ hv
          exact (Volume.keeps_writeImage_puts ⟨s.fields.layout, segments⟩).after (.refl v)
        exact Keeps.seq (Keeps.second (hwrite _)) fun _ =>
          .modify fun (t, v) ht => ⟨(ht.1.pending ∅ ∅).put fun _ _ => htarget, ht.2⟩
      · exact Keeps.seq (.modify fun (t, v) ht => ⟨ht.1.put fun _ _ => htarget, ht.2⟩)
          fun _ => .throw
    · exact ⟨I, hs, fun _ h => h, .pure trivial⟩

end

/-! ### Documents -/

theorem keeps_withWriter_wentOn {f : Writer → Except Error Writer} :
    Keeps (s.WentOn I) (withWriter f) fun _ => True := by
  have hlive : Keeps (s.WentOn I) ensureLive fun live =>
      ∀ w, live.writer = some w → s.target? = some live.directory :=
    Keeps.get.bind fun (t, v) ht => by
      dsimp only
      split
      · rename_i live hlive
        refine .pure fun w hw => ht.1.target _ ?_
        rw [target?, hlive, Option.bind_some, hw]
        rfl
      · rename_i hlive
        exact absurd ht.1.live (by simp [hlive])
  refine hlive.bind fun live htarget => ?_
  split
  · exact .throw
  · rename_i w hw
    exact Keeps.seq (.ofExcept fun _ _ => trivial) fun w' =>
      .modify fun (t, v) ht => ⟨ht.1.put fun _ _ => htarget w hw, ht.2⟩

theorem withWriter_bind_of_live_none {α : Type} {f : Writer → Except Error Writer}
    {x : Unit → Work α} (h : s.live = none) :
    (withWriter f >>= x) (s, v) =
      match s.makeIndex v with
      | .ok live v' => (withWriter f >>= x) ({ s with live := some live }, v')
      | .error e v' => .error e (s, v') := by
  have hlive (live : Live) (v : Volume) : ensureLive ({ s with live := some live }, v) =
      .ok live ({ s with live := some live }, v) := rfl
  simp only [withWriter, Action.bind_run, ensureLive_of_live_none h]
  cases s.makeIndex v with
  | error e v' => rfl
  | ok live v' => simp only [hlive]

theorem writing_run {α : Type} {operation : String} {x : Work α} :
    (do ensureWritable operation; ensureOpen; x) (s, v) =
      if s.readonly = true then .error (.readOnlyViolation operation) (s, v)
      else if s.closed = true then .error .clientClosed (s, v)
      else x (s, v) := by
  cases hreadonly : s.readonly <;> cases hclosed : s.closed <;>
    simp [ensureWritable, ensureOpen, hreadonly, hclosed]

theorem keeps_writing {α : Type} {operation : String} {f : Store × Volume → Work α} {Q : α → Prop}
    (hf : ∀ s v, I (s, v) → s.closed = false →
      ∃ J : Store × Volume → Prop, J (s, v) ∧ (∀ y, J y → I y) ∧ Keeps J (f (s, v)) Q) :
    Keeps I (do ensureWritable operation; ensureOpen; let y ← get; f y) Q := by
  intro (s, v) hs
  rw [writing_run]
  by_cases hreadonly : s.readonly = true
  · rw [if_pos hreadonly]
    exact hs
  by_cases hclosed : s.closed = true
  · rw [if_neg hreadonly, if_pos hclosed]
    exact hs
  rw [if_neg hreadonly, if_neg hclosed, Action.get_bind]
  obtain ⟨J, hJ, hI, hkeeps⟩ := hf s v hs (by simpa using hclosed)
  have := hkeeps (s, v) hJ
  cases hr : f (s, v) (s, v) <;> rw [hr] at this
  · exact ⟨hI _ this.1, this.2⟩
  · exact hI _ this

section
variable {E : Error → Store × Volume → Prop}
  (hmake : ∀ {s : Store}, s.Prepared → s.closed = false → s.live = none → s.readonly = false →
    KeepsUnless (fun e v => E e (s, v)) V s.makeIndex)
include hmake

/-- Work that begins with the writer fails as the making of the index does. -/
theorem withWriter_unless {α : Type} {f : Writer → Except Error Writer} {x : Unit → Work α}
    (hx : ∀ s : Store, Keeps (s.WentOn (On V)) (x ()) fun _ => True) (hs : On V (s, v))
    (hwritable : s.readonly = false) (hopen : s.closed = false) :
    Action.EndsUnless E (On V) ((withWriter f >>= x) (s, v)) := by
  have hwork (s : Store) := (keeps_withWriter_wentOn (s := s) (I := On V) (f := f)).seq
    fun _ => hx s
  have hgo (s : Store) (v : Volume) (hlive : s.live.isSome = true) (hs : On V (s, v)) :
      Action.EndsUnless E (On V) ((withWriter f >>= x) (s, v)) := by
    have := hwork s (s, v) ⟨.refl hlive, hs⟩
    cases hr : (withWriter f >>= x) (s, v) <;> rw [hr] at this
    · exact this.1.on
    · exact .inl this.on
  cases hlive : s.live with
  | some live => exact hgo s v (by simp [hlive]) hs
  | none =>
    rw [withWriter_bind_of_live_none hlive]
    have := hmake hs.1 hopen hlive hwritable v hs.2
    cases hr : s.makeIndex v <;> rw [hr] at this
    · exact hgo _ _ rfl ⟨prepared_of_live rfl hs.1.path, this⟩
    · exact this.imp (fun h => ⟨hs.1, h⟩) id

theorem keepsUnless_index (d : PreparedDocument) (id : String) :
    KeepsUnless E (On V) (index d id) := by
  intro (s, v) hs
  rw [index, writing_run]
  by_cases hreadonly : s.readonly = true
  · rw [if_pos hreadonly]
    exact .inl hs
  by_cases hclosed : s.closed = true
  · rw [if_neg hreadonly, if_pos hclosed]
    exact .inl hs
  rw [if_neg hreadonly, if_neg hclosed, Action.get_bind]
  refine withWriter_unless hmake (fun s' => ?_) hs (by simpa using hreadonly) (by simpa using hclosed)
  exact keeps_withWriter_wentOn.seq fun _ =>
    Keeps.seq (.modify fun (t, v) ht => ⟨ht.1.pending _ _, ht.2⟩) fun _ => .pure trivial

end

theorem contains_of_live_none (hs : s.Prepared) (hopen : s.closed = false) (hlive : s.live = none)
    (id : String) : s.contains id = false := by
  have hpending : s.pendingAdds.contains id = false := by
    rw [hs.pending hopen hlive]
    rfl
  have hshows : s.shows id = false := by
    rw [shows, visible, hlive]
    rfl
  rw [contains, hpending, hshows, Bool.or_false, Bool.and_false]

theorem keeps_delete_on (id : String) : Keeps (On V) (delete id) fun _ => True := by
  rw [delete]
  refine keeps_writing fun s v hs hopen => ?_
  dsimp only
  cases hlive : s.live with
  | none =>
    refine ⟨On V, hs, fun _ h => h, ?_⟩
    rw [contains_of_live_none hs.1 hopen hlive]
    exact .throw
  | some live =>
    refine ⟨s.WentOn (On V), ⟨.refl (by rw [hlive]; rfl), hs⟩, fun _ => WentOn.on, ?_⟩
    exact .ite (fun _ => .throw) fun _ => keeps_withWriter_wentOn.seq fun _ =>
      .modify fun (t, v) ht => ⟨ht.1.pending _ _, ht.2⟩

/-! ### Looking and ending -/

section
variable (hV : ∀ v v', Alike v v' → V v → V v')
include hV

theorem keeps_refresh_on : Keeps (On V) refresh fun _ => True := by
  intro (s, v) hs
  cases hlive : s.live with
  | none =>
    rw [refresh_of_live_none hlive]
    by_cases hload : s.readonly = true ∧ v.hasIndex s.path = true
    · rw [if_pos hload]
      have halike (u : Volume) : Keeps (Alike u) (load s.path true defaultWriterMemory) fun _ => True :=
        keeps_load_alike.mono fun _ _ => trivial
      have hkeeps := Volume.keeps_of_alike hV halike v hs.2
      cases hr : load s.path true defaultWriterMemory v with
      | error e v' =>
        rw [hr] at hkeeps
        exact ⟨hs.1, hkeeps⟩
      | ok found v' =>
        rw [hr] at hkeeps
        exact ⟨⟨prepared_of_live (load_eq_ok hload.2 hr) hs.1.path, hkeeps.1⟩, trivial⟩
    · rw [if_neg hload]
      exact ⟨hs, trivial⟩
  | some live =>
    rw [refresh, Action.get_bind]
    by_cases hreadonly : s.readonly = true
    · simp only [hlive, Action.ite_run, if_pos hreadonly]
      cases v.image? live.directory with
      | none => exact hs
      | some image => exact ⟨⟨prepared_of_live rfl hs.1.path, hs.2⟩, trivial⟩
    · simp only [Action.ite_run, if_neg hreadonly]
      exact ⟨hs, trivial⟩

theorem keeps_ids_on (offset limit : Nat) : Keeps (On V) (ids offset limit) fun _ => True :=
  (keeps_refresh_on hV).seq fun _ => Keeps.get.bind fun _ _ => .pure trivial

theorem keeps_search_on (q : TermQuery) (offset limit : Nat) :
    Keeps (On V) (search q offset limit) fun _ => True :=
  (keeps_refresh_on hV).seq fun _ => Keeps.get.bind fun _ _ => .ite (fun _ => .throw) fun _ =>
    Keeps.seq (.ofExcept fun _ _ => trivial) fun _ => .pure trivial

theorem keeps_cancel_on : Keeps (On V) cancel fun _ => True :=
  (on_lasting hV).keeps_setBack.seq fun _ => .modify fun (_, _) hs =>
    ⟨⟨hs.1.built, fun _ _ => rfl, hs.1.path⟩, hs.2⟩

def Ended (V : Volume → Prop) (x : Store × Volume) : Prop :=
  (x.1.closed = true ∧ (x.1.readonly = false → x.1.path ≠ "")) ∧ V x.2

theorem ended_lasting : Lasting (Ended V) where
  alike h hx := ⟨hx.1, hV _ _ h hx.2⟩
  goesOn h hx := by
    refine ⟨⟨h.closed.trans hx.1.1, ?_⟩, hx.2⟩
    rw [h.readonly, h.path]
    exact hx.1.2
  closed hx := ⟨⟨rfl, hx.1.2⟩, hx.2⟩
  unlocked hx := hx

theorem keeps_destroy_on
    (hremove : ∀ path, Keeps V (Volume.removeDirectory path) fun _ => True) :
    Keeps (On V) destroy fun _ => True := by
  have hI := ended_lasting hV
  have hstop : Keeps (Ended V) (do
      stopWriter
      modify fun x => ({ x.1 with live := none }, x.2)) fun _ => True :=
    hI.keeps_stopWriter.seq fun _ => .modify fun _ hs => hs
  refine keeps_ensureWritable.seq fun _ => ?_
  refine Keeps.turn (K := Ended V) ?_ (fun _ hs => ⟨⟨rfl, hs.1.path⟩, hs.2⟩)
    fun _ hs => ⟨prepared_of_closed hs.1.1 hs.1.2, hs.2⟩
  refine (hI.keeps_setBack.thenAlways hstop).seq fun _ => ?_
  refine Keeps.seq (.modify fun _ hs => hs) fun _ => hI.keeps_releaseLock.seq fun _ => ?_
  refine Keeps.get.bind fun x _ => ?_
  exact Keeps.second (I := fun s : Store => s.closed = true ∧ (s.readonly = false → s.path ≠ ""))
    (hremove x.1.path)

end

/-! ### Schemas that stay up to date -/

section
variable {d : String} {u : Volume}

theorem stays_of_alike (v v' : Volume) (h : Alike v v') (hv : Stays d u v) : Stays d u v' :=
  hv.trans (h.stays d)

/-- **To place a document** makes no schema out of date, unless there is an index of other
fields. -/
theorem keepsUnless_index_stays (p : PreparedDocument) (id : String) :
    KeepsUnless (fun e x => e = Live.indexExists ∧ x.1.Oversteps x.2 d) (On (Stays d u))
      (index p id) := by
  refine keepsUnless_index (fun {s} hs hopen hlive hwritable v hv => ?_) p id
  have hmade := makeIndex_stays (d := d) (v := v) hs hopen hlive hwritable
  rw [Action.after] at hmade
  cases hr : s.makeIndex v with
  | ok live v' =>
    rw [hr] at hmade
    rcases hmade with hmade | ⟨v'', h, -⟩
    · exact hv.trans hmade
    · cases h
  | error e v' =>
    rw [hr] at hmade
    rcases hmade with hmade | ⟨v'', h, hover⟩
    · exact .inl (hv.trans hmade)
    · cases h
      exact .inr ⟨rfl, hover⟩

/-- A store whose writer, if it writes in the directory, writes an index that is there as it was
made. -/
def Settled (d : String) (u : Volume) (x : Store × Volume) : Prop :=
  x.1.Prepared ∧ ¬ x.1.Strays x.2 d ∧ Stays d u x.2

theorem settled_lasting : Lasting (Settled d u) where
  alike h hx := by
    refine ⟨hx.1, fun ⟨directory, htarget, hd, hlayout⟩ => hx.2.1 ⟨directory, htarget, ?_, ?_⟩,
      stays_of_alike _ _ h hx.2.2⟩
    · rwa [← h.canonical?]
    · rwa [← (h.sameStore d).layout]
  goesOn h hx := by
    refine ⟨h.prepared hx.1, fun ⟨directory, htarget, hd, hlayout⟩ => ?_, hx.2.2⟩
    exact hx.2.1 ⟨directory, h.target directory htarget, hd, h.fields ▸ hlayout⟩
  closed hx := ⟨prepared_of_closed rfl hx.1.path, hx.2⟩
  unlocked hx := ⟨⟨hx.1.built, hx.1.pending, hx.1.path⟩, hx.2⟩

/-- **A commit** over the index that the writer was made for makes no schema out of date. -/
theorem keeps_commit_settled : Keeps (Settled d u) commit fun _ => True := by
  refine settled_lasting.keeps_commit fun {s v v'} directory htarget hputs hx => ?_
  have hsame : SameStore d v v' := hputs.sameStore fun hd => by
    by_contra hlayout
    exact hx.2.1 ⟨directory, htarget, hd, hlayout⟩
  refine ⟨hx.1, fun ⟨directory', htarget', hd, hlayout⟩ => hx.2.1 ⟨directory', htarget', ?_, ?_⟩,
    hx.2.2.trans (.inl hsame)⟩
  · rwa [← FileTree.canonical?_congr hputs.isDirectory]
  · rwa [← hsame.layout]

theorem keeps_close_settled : Keeps (Settled d u) close fun _ => True :=
  settled_lasting.keeps_close keeps_commit_settled

end

end Store

end Searchlight.Disk
