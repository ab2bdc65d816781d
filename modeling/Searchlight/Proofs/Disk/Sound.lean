import Searchlight.Proofs.Disk.Listing
import Searchlight.Proofs.Schema.Stored

/-!
# Stores on disk keep ids apart

The records of every index on a volume, and of every open store, have ids of their own
(`Volume.Sound`, `Store.Sound`). That no record is found by the id of another is due to the names of
fields, so that these are kept apart as well from those that every index has. Every operation of a
store keeps this, those that fail included: first for the volume, then for an index in use, then for
the store.
-/

namespace Searchlight.Disk

open Searchlight.Action (Keeps)

/-! ## Volumes -/

/-- An index has records with ids of their own, and a text that is a schema has no field with the
name of one that every index has. -/
structure Content.Sound (c : Content) : Prop where
  index : ∀ image, c = .index image → OwnIds image.segments.records
  text : ∀ text schema, c = .text text → Schema.ofJsonText text = .ok schema →
    (FieldMap.build schema).Unreserved

def Volume.Sound (v : Volume) : Prop := v.files.Every fun f => f.content.Sound

namespace Volume

theorem sound_text {s : String}
    (h : ∀ schema, Schema.ofJsonText s = .ok schema → (FieldMap.build schema).Unreserved) :
    (Content.text s).Sound where
  index _ hi := by cases hi
  text _ schema ht := by
    cases ht
    exact h schema

theorem sound_index {image : Image} (h : OwnIds image.segments.records) :
    (Content.index image).Sound where
  index _ hi := by
    cases hi
    exact h
  text _ _ ht := by cases ht

theorem sound_blank : (Content.text "").Sound :=
  sound_text fun schema h => by
    rw [Schema.ofJsonText, if_pos (by decide +kernel)] at h
    cases h
    exact FieldMap.unreserved_empty

/-- The list of the files of an index is no schema. -/
theorem sound_managed : (Content.text s!"[\"{indexFile}\"]\n").Sound :=
  sound_text fun schema h => by
    have hfails : (Schema.ofJsonText s!"[\"{indexFile}\"]\n").toBool = false := by
      decide +kernel
    rw [h] at hfails
    cases hfails

theorem sound_schema {m : FieldMap} (h : m.Unreserved) :
    (Content.text m.schema.toJsonText).Sound :=
  sound_text fun schema hs => by
    cases (Schema.ofJsonText_toJsonText m.schema).symm.trans hs
    exact h

theorem Sound.image {v : Volume} (h : v.Sound) {directory : String} {image : Image}
    (hi : v.image? directory = some image) : OwnIds image.segments.records := by
  rw [image?] at hi
  split at hi
  · rename_i hread
    cases hi
    exact (h.read? hread).index _ rfl
  · cases hi

theorem Sound.schema {v : Volume} (h : v.Sound) {directory : String} {schema : Schema}
    (hs : v.schema directory = .ok schema) : (FieldMap.build schema).Unreserved := by
  simp only [Volume.schema, text?] at hs
  split at hs
  · split at hs
    · rename_i htext
      split at htext
      · rename_i hread
        cases htext
        exact (h.read? hread).text _ _ rfl hs
      · cases htext
    · cases hs
  · cases hs
    exact FieldMap.unreserved_empty

variable {path directory text : String} {e e' : Error} {content : Content} {image : Image}

theorem keeps_files {files : FileTree File} {marks : Nat}
    (h : files.Every fun f => f.content.Sound) :
    Keeps Sound (set (⟨files, marks⟩ : Volume)) fun _ => True := .set h

theorem keeps_write (hc : content.Sound) : Keeps Sound (write path content e) fun _ => True :=
  Keeps.get.bind fun v hv => by
    split
    · rename_i hw
      exact .set (FileTree.Every.write? hv hc hw)
    · exact .throw

theorem keeps_touch (hc : (Content.text text).Sound) :
    Keeps Sound (touch path text e) fun _ => True :=
  Keeps.get.bind fun _ _ => by
    split
    · exact .pure trivial
    · exact keeps_write hc

theorem keeps_createDirectory : Keeps Sound (createDirectory path) fun _ => True :=
  Keeps.get.bind fun v hv => by
    have h := FileTree.Every.createDirectory hv path
    revert h
    rcases v.files.createDirectory path with ⟨files, done⟩
    intro h
    exact (keeps_files h).bind fun _ _ => .ite (fun _ => .throw) fun _ => .pure trivial

theorem keeps_removeDirectory : Keeps Sound (removeDirectory path) fun _ => True :=
  Keeps.get.bind fun v hv => by
    have h := FileTree.Every.removeDirectory hv path
    revert h
    rcases v.files.removeDirectory path with ⟨files, done⟩
    intro h
    exact (keeps_files h).bind fun _ _ => .ite (fun _ => .throw) fun _ => .pure trivial

theorem keeps_writeImage (hi : OwnIds image.segments.records) :
    Keeps Sound (writeImage directory image e) fun _ => True :=
  (keeps_touch sound_managed).bind fun _ _ => keeps_write (sound_index hi)

theorem keeps_acquire : Keeps Sound (acquire path e e') fun _ => True :=
  (keeps_touch sound_blank).bind fun _ _ => Keeps.get.bind fun v hv => by
    split
    · exact .throw
    · rename_i hread
      split
      · rename_i hw
        have hc : Content.Sound _ := FileTree.Every.read? hv hread
        have hfiles := FileTree.Every.write? hv (by exact hc) hw
        exact (keeps_files hfiles).bind fun _ _ => .pure trivial
      · exact .throw
    · exact .throw

theorem keeps_release (mark : Nat) : Keeps Sound (release mark) fun _ => True :=
  .modify fun v hv => FileTree.Every.mapFiles hv fun f hf => by
    split
    · exact hf
    · exact hf

end Volume

/-! ## Indexes in use -/

structure Live.Sound (live : Live) : Prop where
  visible : OwnIds live.visible.records
  writer : ∀ w, live.writer = some w → w.Sound

theorem Writer.keeps_start {directory : String} {ss : Segments} {memory : Nat}
    (h : OwnIds ss.records) :
    Keeps Volume.Sound (Writer.start directory ss memory) Writer.Sound :=
  Volume.keeps_acquire.bind fun mark _ => by
    split
    · exact .pure (.of_segments h)
    · exact (Volume.keeps_release mark).bind fun _ _ => .throw

namespace Live

variable {directory path : String} {ss : Segments} {readonly : Bool} {memory : Nat}

theorem keeps_start (h : OwnIds ss.records) :
    Keeps Volume.Sound (start directory ss readonly memory) Sound := by
  refine (Volume.keeps_touch Volume.sound_blank).bind fun _ _ => ?_
  refine .ite (fun _ => .pure ⟨h, fun _ hw => by cases hw⟩) fun _ => ?_
  refine Keeps.bind (Q := fun o : Option Writer => ∀ w, o = some w → w.Sound) ?_
    fun writer hw => .pure ⟨h, hw⟩
  exact (Writer.keeps_start h).map fun w hw _ h => by cases h; exact hw

theorem keeps_stop {live : Live} (h : live.Sound) : Keeps Volume.Sound live.stop Sound :=
  (Keeps.forM_option fun w _ => Volume.keeps_release w.mark).bind fun _ _ =>
    .pure ⟨h.visible, fun _ hw => by cases hw⟩

theorem keeps_openIn :
    Keeps Volume.Sound (openIn path readonly memory) fun found => found.2.Sound :=
  Keeps.get.bind fun v hv => by
    split
    · rename_i hi
      exact (keeps_start (hv.image hi)).bind fun _ hlive => .pure hlive
    · exact .throw

theorem keeps_createIn {layout : Layout} :
    Keeps Volume.Sound (createIn path layout memory) Sound :=
  Keeps.get.bind fun v hv => by
    simp only [Action.throw_bind]
    split
    · exact .throw
    · refine .ite (fun _ => .throw) fun _ => .ite (fun _ => .throw) fun _ => ?_
      have hnil : OwnIds (Segments.records []) := .nil
      exact (Volume.keeps_writeImage hnil).bind fun _ _ => keeps_start hnil

end Live

structure FieldMap.Sound (m : FieldMap) : Prop where
  isNumbered : m.IsNumbered
  unreserved : m.Unreserved
  complete : m.Complete

theorem FieldMap.sound_build {schema : Schema} (h : (build schema).Unreserved) :
    (build schema).Sound := ⟨isNumbered_build schema, h, complete_build schema⟩

theorem keeps_load {path : String} {readonly : Bool} {memory : Nat} :
    Keeps Volume.Sound (load path readonly memory) fun found =>
      found.1.Sound ∧ ∀ live, found.2 = some live → live.Sound :=
  Keeps.get.bind fun v hv => (Keeps.ofExcept fun _ h => h).bind fun schema hschema => by
    have hunreserved := hv.schema hschema
    refine .ite (fun _ => Live.keeps_openIn.bind fun found hlive => ?_) fun _ => .pure ?_
    · refine ((Keeps.ofExcept fun _ h => h).orUndo ?_).bind fun fields hfields => .pure ?_
      · exact (Live.keeps_stop hlive).map fun _ _ => trivial
      · refine ⟨⟨FieldMap.isNumbered_of_ofLayout hfields, ?_, FieldMap.complete_of_ofLayout hfields⟩,
          fun _ h => by cases h; exact hlive⟩
        rw [FieldMap.Unreserved, FieldMap.schema_of_ofLayout hfields]
        exact hunreserved
    · exact ⟨FieldMap.sound_build hunreserved, fun _ h => by cases h⟩

/-! ## Stores -/

namespace Store

structure Sound (s : Store) : Prop where
  fields : s.fields.Sound
  live : ∀ live, s.live = some live → live.Sound

def OnSound (x : Store × Volume) : Prop := x.1.Sound ∧ x.2.Sound

variable {s : Store} {v : Volume}

theorem Sound.visible (h : s.Sound) : OwnIds s.visible.records := by
  rw [Store.visible]
  split
  · rename_i live hlive
    exact (h.live live hlive).visible
  · exact .nil

theorem Sound.put {t : Store} {live : Live} (h : s.Sound) (hfields : t.fields = s.fields)
    (hlive : live.Sound) (ht : t.live = some live) : t.Sound :=
  ⟨hfields ▸ h.fields, fun _ h' => by rw [ht] at h'; cases h'; exact hlive⟩

theorem Sound.registerField {t : Store} (h : s.Sound) {name : String} {config : FieldConfig}
    (hok : s.registerField name config = .ok t) : t.Sound := by
  rw [Store.registerField] at hok
  split at hok
  · cases hok
  rename_i hname
  split at hok
  · cases hok
    exact h
  split at hok
  · cases hok
  · cases hok
    exact ⟨FieldMap.sound_build (h.fields.unreserved.insert (by simpa using hname) config), h.live⟩

theorem keeps_openWith {analyze : Analyzer} {o : BackendOptions} :
    Keeps Volume.Sound (openWith analyze o) Sound := by
  refine (Keeps.ofExcept fun _ _ => trivial).bind fun _ _ => ?_
  split
  · exact .throw
  · have hload {path : String} {memory : Nat} {lock : Option Nat} :
        Keeps Volume.Sound ((load path o.readonly memory).orUndo (lock.forM Volume.release))
          fun found => found.1.Sound ∧ ∀ live, found.2 = some live → live.Sound :=
      keeps_load.orUndo (.forM_option fun mark _ => Volume.keeps_release mark)
    refine .ite
      (fun _ => Keeps.seq (.pure trivial) fun _ => hload.bind fun found h => .pure ⟨h.1, h.2⟩)
      fun _ => Volume.keeps_createDirectory.bind fun _ _ => ?_
    refine Keeps.seq (Keeps.map (Q := fun _ => True) ?_ fun _ _ => trivial) fun _ =>
      hload.bind fun found h => .pure ⟨h.1, h.2⟩
    refine Keeps.get.bind fun v _ => ?_
    split
    · exact .throw
    · exact Volume.keeps_acquire

theorem keeps_volume {α : Type} {x : Action Volume α} {Q : α → Prop}
    (h : Keeps Volume.Sound x Q) : Keeps OnSound (Action.second x) Q := Keeps.second h

/-- Whatever does not touch the fields, the index in use and the volume keeps ids apart. -/
theorem keeps_modify {f : Store × Volume → Store × Volume}
    (hf : ∀ x, (f x).1.fields = x.1.fields ∧ (f x).1.live = x.1.live ∧ (f x).2 = x.2) :
    Keeps OnSound (modify f) fun _ => True :=
  .modify fun x h => by
    obtain ⟨hfields, hlive, hvolume⟩ := hf x
    exact ⟨⟨hfields ▸ h.1.fields, fun live h' => h.1.live live (hlive ▸ h')⟩, hvolume ▸ h.2⟩

theorem keeps_putLive {live : Live} (h : live.Sound) :
    Keeps OnSound (modify fun (s, v) => ({ s with live := some live }, v)) fun _ => True :=
  .modify fun _ hs => ⟨hs.1.put rfl h rfl, hs.2⟩

theorem keeps_releaseLock : Keeps OnSound releaseLock fun _ => True :=
  Keeps.get.bind fun _ _ =>
    (Keeps.forM_option fun mark _ => keeps_volume (Volume.keeps_release mark)).bind fun _ _ =>
      keeps_modify fun _ => ⟨rfl, rfl, rfl⟩

theorem keeps_stopWriter : Keeps OnSound stopWriter fun _ => True :=
  Keeps.get.bind fun (s, v) hs => by
    dsimp only
    split
    · exact .pure trivial
    · rename_i live hlive
      exact (keeps_volume (Live.keeps_stop (hs.1.live live hlive))).bind fun _ h => keeps_putLive h

/-! ## Writing -/

theorem keeps_ensureWritable {I : Store × Volume → Prop} {operation : String} :
    Keeps I (ensureWritable operation) fun _ => True :=
  Keeps.get.bind fun _ _ => .ite (fun _ => .throw) fun _ => .pure trivial

theorem keeps_ensureOpen {I : Store × Volume → Prop} : Keeps I ensureOpen fun _ => True :=
  Keeps.get.bind fun _ _ => .ite (fun _ => .throw) fun _ => .pure trivial

theorem keeps_ensureLive : Keeps OnSound ensureLive Live.Sound :=
  Keeps.get.bind fun (s, v) hs => by
    dsimp only
    split
    · rename_i live hlive
      exact .pure (hs.1.live live hlive)
    · refine (keeps_volume (Volume.keeps_write
        (Volume.sound_schema hs.1.fields.unreserved))).bind fun _ _ => ?_
      refine (keeps_volume Live.keeps_createIn).bind fun live hlive => ?_
      exact (keeps_putLive hlive).bind fun _ _ => .pure hlive

theorem keeps_withWriter {f : Writer → Except Error Writer}
    (hf : ∀ w w', w.Sound → f w = .ok w' → w'.Sound) :
    Keeps OnSound (withWriter f) fun _ => True :=
  keeps_ensureLive.bind fun live hlive => by
    split
    · exact .throw
    · rename_i w hw
      refine (Keeps.ofExcept fun w' h' => hf w w' (hlive.writer w hw) h').bind fun w' hw' => ?_
      exact keeps_putLive ⟨hlive.visible, fun _ h => by cases h; exact hw'⟩

theorem withWriter_of_live {f : Writer → Except Error Writer} {live : Live} {w : Writer}
    (hs : s.live = some live) (hw : live.writer = some w) :
    withWriter f (s, v) =
      match f w with
      | .ok w' => .ok () ({ s with live := some { live with writer := some w' } }, v)
      | .error e => .error e (s, v) := by
  have hlive : ensureLive (s, v) = .ok live (s, v) := by
    rw [ensureLive, Action.get_bind]
    simp only [hs]
    rfl
  rw [withWriter, Action.bind_of_ok hlive]
  simp only [hw]
  cases f w <;> rfl

theorem withWriter_eq_ok {f : Writer → Except Error Writer} {x : Store × Volume}
    (hx : OnSound x) (h : withWriter f x = .ok () (s, v)) :
    ∃ (live : Live) (w w' : Writer), live.Sound ∧ live.writer = some w ∧ f w = .ok w' ∧
      s.live = some { live with writer := some w' } := by
  rw [withWriter, Action.bind_eq_ok] at h
  obtain ⟨live, t, hlive, h⟩ := h
  cases hw : live.writer with
  | none =>
    simp only [hw] at h
    cases h
  | some w =>
    simp only [hw, Action.bind_eq_ok, Action.ofExcept_eq_ok] at h
    obtain ⟨w', t', ⟨hf, rfl⟩, h⟩ := h
    cases h
    exact ⟨live, w, w', (keeps_ensureLive.of_ok hx hlive).2, hw, hf, rfl⟩

def gather (r : Option Record) (e : Error) (w : Writer) : Except Error Writer :=
  match w.add? r with
  | some w => .ok w
  | none => .error e

/-- A record that takes the place of what its id finds. The writer that removes is the one that
adds, so nothing comes in between. -/
theorem keeps_exchange {id : String} {r : Option Record} {e : Error}
    (hr : ∀ r', r = some r' → r'.id = id ∧ ∀ id', .ofId id' ∈ r'.terms ↔ finds id' r'.id = true) :
    Keeps OnSound (do
      withWriter fun w => .ok (w.remove id)
      withWriter (gather r e)) fun _ => True := by
  have hremove : Keeps OnSound (withWriter fun w => .ok (w.remove id)) fun _ => True :=
    keeps_withWriter fun w _ hw h => by cases h; exact hw.remove id
  intro x hx
  simp only [bind, EStateM.bind]
  cases hrun : withWriter (fun w => .ok (w.remove id)) x with
  | error e t => exact hremove.of_error hx hrun
  | ok _ t =>
    obtain ⟨s, v⟩ := t
    have ht := (hremove.of_ok hx hrun).1
    obtain ⟨live, w, w', hlive, hw, hwr, hs⟩ := withWriter_eq_ok hx hrun
    cases hwr
    dsimp only
    rw [withWriter_of_live hs rfl, gather]
    dsimp only
    cases hadd : (w.remove id).add? r with
    | none => exact ht
    | some w' =>
      have hw' : w'.Sound := (hlive.writer w hw).add hr hadd
      have hlive' : Live.Sound { live with writer := some w' } :=
        ⟨hlive.visible, fun _ h => by cases h; exact hw'⟩
      exact ⟨⟨ht.1.put rfl hlive' rfl, ht.2⟩, trivial⟩

theorem keeps_index (d : PreparedDocument) (id : String) :
    Keeps OnSound (index d id) fun _ => True := by
  refine keeps_ensureWritable.seq fun _ => keeps_ensureOpen.seq fun _ => ?_
  refine Keeps.get.bind fun (s, v) hs => ?_
  dsimp only
  rw [← bind_assoc]
  refine Keeps.seq (keeps_exchange fun r hr => ?_) fun _ =>
    Keeps.seq (keeps_modify fun _ => ⟨rfl, rfl, rfl⟩) fun _ => .pure trivial
  obtain ⟨hid, -, hown⟩ := FieldMap.record?_eq_some hs.1.fields.isNumbered
    hs.1.fields.unreserved hr
  exact ⟨hid, hown⟩

theorem keeps_delete (id : String) : Keeps OnSound (delete id) fun _ => True := by
  refine keeps_ensureWritable.seq fun _ => keeps_ensureOpen.seq fun _ => ?_
  refine Keeps.get.bind fun (s, v) _ => .ite (fun _ => .throw) fun _ => ?_
  refine Keeps.seq (keeps_withWriter fun w _ hw h => ?_)
    fun _ => keeps_modify fun _ => ⟨rfl, rfl, rfl⟩
  cases h
  exact hw.remove id

/-! ## Looking -/

theorem keeps_refresh : Keeps OnSound refresh fun _ => True :=
  Keeps.get.bind fun (s, v) hs => .ite (fun _ => by
    dsimp only
    split
    · refine .ite (fun _ => (keeps_volume keeps_load).bind fun found h => ?_)
        fun _ => .pure trivial
      exact .modify fun _ hs => ⟨⟨h.1, h.2⟩, hs.2⟩
    · rename_i live hlive
      split
      · rename_i image hi
        have hlive : Live.Sound { live with visible := image.segments } :=
          ⟨hs.2.image hi, (hs.1.live live hlive).writer⟩
        exact .set ⟨hs.1.put rfl hlive rfl, hs.2⟩
      · exact .throw) fun _ => .pure trivial

theorem keeps_ids (offset limit : Nat) : Keeps OnSound (ids offset limit) fun _ => True :=
  keeps_refresh.bind fun _ _ => Keeps.get.bind fun _ _ => .pure trivial

theorem keeps_search (q : TermQuery) (offset limit : Nat) :
    Keeps OnSound (search q offset limit) fun _ => True :=
  keeps_refresh.bind fun _ _ => Keeps.get.bind fun _ _ => .ite (fun _ => .throw) fun _ =>
    (Keeps.ofExcept fun _ _ => trivial).bind fun _ _ => .pure trivial

/-! ## Commits -/

theorem keeps_commit : Keeps OnSound commit fun _ => True :=
  Keeps.get.bind fun (s, v) hs => by
    dsimp only
    split
    · rename_i directory visible w hlive
      have hw : w.Sound := (hs.1.live _ hlive).writer w rfl
      split
      · rename_i segments hr
        have hsegments : OwnIds segments.records := hw.result hr
        have hlive : Live.Sound ⟨directory, segments, some (w.afterCommit segments)⟩ :=
          ⟨hsegments, fun _ h => by cases h; exact .of_segments hsegments⟩
        exact (keeps_volume (Volume.keeps_writeImage hsegments)).seq fun _ =>
          .modify fun _ hs => ⟨hs.1.put rfl hlive rfl, hs.2⟩
      · have hlive : Live.Sound ⟨directory, visible, some w.afterFailure⟩ :=
          ⟨(hs.1.live _ hlive).visible, fun _ h => by cases h; exact hw.afterFailure⟩
        exact (keeps_putLive hlive).seq fun _ => .throw
    · exact .pure trivial

theorem keeps_setBack : Keeps OnSound setBack fun _ => True :=
  Keeps.get.bind fun (s, v) hs => by
    dsimp only
    split
    · rename_i directory visible w hlive
      have hvisible := (hs.1.live _ hlive).visible
      have hw : w.Sound := (hs.1.live _ hlive).writer w rfl
      have put (w' : Writer) (hw' : w'.Sound) : Live.Sound ⟨directory, visible, some w'⟩ :=
        ⟨hvisible, fun _ h => by cases h; exact hw'⟩
      split
      · rename_i hi
        exact keeps_putLive (put _ (.of_segments (hs.2.image hi)))
      · exact (keeps_volume (Volume.keeps_release _)).seq fun _ =>
          (keeps_putLive (put { w with intake := .dead } ⟨hw.committed, hw.upcoming⟩)).seq
            fun _ => .throw
    · exact .pure trivial

theorem keeps_cancel : Keeps OnSound cancel fun _ => True :=
  keeps_setBack.seq fun _ => keeps_modify fun _ => ⟨rfl, rfl, rfl⟩

theorem keeps_close : Keeps OnSound close fun _ => True := by
  have rest : Keeps OnSound (do
      modify fun (s, v) => ({ s with closed := true }, v)
      stopWriter
      releaseLock) fun _ => True :=
    Keeps.seq (keeps_modify fun _ => ⟨rfl, rfl, rfl⟩)
      fun _ => keeps_stopWriter.seq fun _ => keeps_releaseLock
  exact Keeps.get.bind fun _ _ => .ite (fun _ => keeps_commit.seq fun _ => rest) fun _ => rest

theorem keeps_abandon : Keeps OnSound abandon fun _ => True :=
  keeps_stopWriter.seq fun _ => keeps_releaseLock

theorem keeps_destroy : Keeps OnSound destroy fun _ => True := by
  refine keeps_ensureWritable.seq fun _ =>
    Keeps.seq (keeps_modify fun _ => ⟨rfl, rfl, rfl⟩) fun _ => ?_
  have hstop : Keeps OnSound (do
      stopWriter
      modify fun (s, v) => ({ s with live := none }, v)) fun _ => True :=
    keeps_stopWriter.seq fun _ => .modify fun _ hs => ⟨⟨hs.1.fields, fun _ h => nomatch h⟩, hs.2⟩
  have hcleared : Keeps OnSound
      (modify fun (s, v) => ({ s.clearPending with fields := .build .empty }, v)) fun _ => True :=
    .modify fun _ hs => ⟨⟨FieldMap.sound_build FieldMap.unreserved_empty, hs.1.live⟩, hs.2⟩
  exact (keeps_setBack.thenAlways hstop).seq fun _ => hcleared.seq fun _ =>
    keeps_releaseLock.seq fun _ => Keeps.get.bind fun _ _ =>
      keeps_volume Volume.keeps_removeDirectory

end Store

end Searchlight.Disk
