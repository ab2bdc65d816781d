import Searchlight.Proofs.Disk.Making

/-!
# Opening directories

A store that is opened can make the index if there is none, and no schema gets out of date by that
(`keeps_openWith_on`). The error at an index that lacks a field of the schema tells that the
schema in the directory is out of date (`openWith_eq_error`): no other failure is worded like it.
-/

namespace Searchlight.Disk

open Searchlight.Action (Keeps FailsAs)
open FileTree (child join)
open Volume (Alike Stays SameStore indexFile schemaFile)

variable {d path name : String} {u v v' : Volume} {e : Error}

/-! ## Failures of another kind -/

def IsOtherError (e : Error) : Prop := ∀ name, e ≠ missingField name

theorem isOtherError_config {m : String} (h : m.toList.head? ≠ some 'i') :
    IsOtherError (.config m) := by
  intro name hm
  have hm : m = "index has no field '" ++ name ++ "'; sidecar out of date" := Error.config.inj hm
  exact h (by simp [hm])

namespace Volume

section
variable {P : Error → Prop}

theorem failsAs_write {content : Content} (h : P e) : FailsAs P (write path content e) := by
  intro v e' v' hr
  rw [(write_eq_error hr).2]
  exact h

theorem failsAs_touch {text : String} (h : P e) : FailsAs P (touch path text e) :=
  .get_bind fun _ => by
    split
    · exact .pure
    · exact failsAs_write h

theorem failsAs_createDirectory : FailsAs IsOtherError (createDirectory path) :=
  .get_bind fun v => by
    rcases v.files.createDirectory path with ⟨files, done⟩
    exact FailsAs.set.bind fun _ => .ite (fun _ => .throw nofun) fun _ => .pure

theorem failsAs_acquire {busy failed : Error} (hbusy : P busy) (hfailed : P failed) :
    FailsAs P (acquire path busy failed) :=
  (failsAs_touch hfailed).bind fun _ => .get_bind fun v => by
    split
    · exact .throw hbusy
    · split
      · exact FailsAs.set.bind fun _ => .pure
      · exact .throw hfailed
    · exact .throw hfailed

theorem failsAs_release (mark : Nat) : FailsAs P (release mark) := .modify

end

theorem isOtherError_of_schema (h : v.schema path = .error e) : IsOtherError e := by
  rw [schema] at h
  split at h
  · split at h
    · rename_i text _
      rw [Schema.ofJsonText] at h
      split at h
      · cases h
      · split at h
        · cases h
          intro _ h
          cases h
        · split at h
          · cases h
          · cases h
            exact isOtherError_config (by simp [toString])
    · cases h
      intro _ h
      cases h
  · cases h

end Volume

theorem Live.failsAs_stop {P : Error → Prop} (live : Live) : FailsAs P live.stop :=
  (FailsAs.forM_option fun w : Writer => Volume.failsAs_release w.mark).bind fun _ => .pure

theorem Live.failsAs_start {P : Error → Prop} (hP : ∀ m why, P (.index m (some why)))
    {directory : String} {ss : Segments} {readonly : Bool} {memory : Nat} :
    FailsAs P (start directory ss readonly memory) := by
  have hwriter : FailsAs P (Writer.start directory ss memory) :=
    (Volume.failsAs_acquire (hP _ _) (hP _ _)).bind fun mark =>
      .ite (fun _ => .pure) fun _ => (Volume.failsAs_release mark).bind fun _ => .throw (hP _ _)
  refine (Volume.failsAs_touch (hP _ _)).bind fun _ => ?_
  exact .ite (fun _ => .pure) fun _ => hwriter.map.bind fun _ => .pure

theorem Live.failsAs_openIn {readonly : Bool} {memory : Nat} :
    FailsAs IsOtherError (openIn path readonly memory) := by
  have hindex (m why : String) : IsOtherError (.index m (some why)) := nofun
  refine .get_bind fun v => ?_
  split
  · exact (Live.failsAs_start hindex).bind fun _ => .pure
  · exact .throw (hindex _ _)

/-! ## Opening -/

theorem Live.openIn_eq_ok {readonly : Bool} {memory : Nat} {found : Layout × Live}
    (h : openIn path readonly memory v = .ok found v') :
    ∃ image, v.image? path = some image ∧ found.1 = image.layout ∧ Alike v v' := by
  have halike := (keeps_openIn_alike.of_ok (.refl v) h).1
  rw [openIn, Action.get_bind] at h
  cases hlocate : v.files.locate? path <;> cases hmanages : v.managesFiles path <;>
    cases himage : v.image? path <;> simp only [hlocate, hmanages, himage] at h <;> try cases h
  obtain ⟨live, t, -, h⟩ := Action.bind_eq_ok.1 h
  cases h
  exact ⟨_, rfl, rfl, halike⟩

theorem Volume.schemaTextAt?_of_schema {schema : Schema} {here : List String}
    (hlead : v.files.Leads path here) (h : v.schema path = .ok schema) :
    schema = .empty ∨
      ∃ text, v.schemaTextAt? (join here) = some text ∧ Schema.ofJsonText text = .ok schema := by
  rw [Volume.schema] at h
  split at h
  · split at h
    · rename_i text htext
      exact .inr ⟨text, schemaTextAt?_of_text? hlead htext, h⟩
    · cases h
  · cases h
    exact .inl rfl

/-- Loading fails at an index without one of the fields only where the schema is out of date. -/
theorem load_eq_error {readonly : Bool} {memory : Nat}
    (h : load path readonly memory v = .error (missingField name) v') :
    ∃ here, v'.files.Leads path here ∧ v.OutOfDate (join here) := by
  have halike := keeps_load_alike.of_error (.refl v) h
  rw [load, Action.get_bind] at h
  rcases Action.bind_eq_error.1 h with h | ⟨schema, t, hschema, h⟩
  · exact absurd rfl (Volume.isOtherError_of_schema (Action.ofExcept_eq_error.1 h).1 name)
  obtain ⟨hschema, rfl⟩ := Action.ofExcept_eq_ok.1 hschema
  by_cases hindex : t.hasIndex path = true
  · rw [if_pos hindex] at h
    rcases Action.bind_eq_error.1 h with h | ⟨⟨layout, live⟩, t, hopen, h⟩
    · exact absurd rfl (Live.failsAs_openIn _ _ _ h name)
    obtain ⟨image, himage, rfl, -⟩ := Live.openIn_eq_ok hopen
    obtain ⟨here, hlead, hlayout⟩ := Volume.layoutAt?_of_image? himage
    have hfails : (FieldMap.ofLayout image.layout schema) = .error (missingField name) := by
      rcases Action.bind_eq_error.1 h with h | ⟨_, _, -, h⟩
      · obtain ⟨t', h, -⟩ := Action.orUndo_eq_error ((Live.failsAs_stop live).bind fun _ => .pure) h
        exact (Action.ofExcept_eq_error.1 h).1
      · cases h
    have hlacks := (FieldMap.ofLayout_eq_error hfails).2
    refine ⟨here, hlead.congr halike.isDirectory, ?_⟩
    rcases Volume.schemaTextAt?_of_schema hlead hschema with rfl | ⟨text, htext, hread⟩
    · exact absurd (fun f hf => absurd hf List.not_mem_nil) hlacks
    · exact ⟨image.layout, text, schema, hlayout, htext, hread, hlacks⟩
  · rw [if_neg hindex] at h
    cases h

namespace Store

theorem keeps_acquire_alike :
    Keeps (Alike u) (acquire path) fun _ => path ≠ "" :=
  Keeps.get.bind fun v _ => by
    split
    · exact .throw
    · rename_i directory hlocate
      refine (Volume.keeps_acquire_other Volume.isOther_lockFile).mono fun _ _ => ?_
      rintro rfl
      cases hlocate

theorem failsAs_acquire : FailsAs IsOtherError (acquire path) :=
  .get_bind fun v => by
    split
    · exact .throw nofun
    · exact Volume.failsAs_acquire nofun nofun

/-- What opening does with the directory: it loads what is there, and gives the lock up if that
fails. -/
def loadLocked (analyze : Analyzer) (path : String) (readonly : Bool) (memory : Nat)
    (lock : Option Nat) : Action Volume Store := do
  let (fields, live) ← (load path readonly memory).orUndo (lock.forM Volume.release)
  return ⟨path, readonly, memory, analyze, fields, live, ∅, ∅, false, lock⟩

theorem keeps_openWith_on {V : Volume → Prop} (hV : ∀ v v', Alike v v' → V v → V v')
    (hcreate : ∀ path, Keeps V (Volume.createDirectory path) fun _ => True)
    (analyze : Analyzer) (o : BackendOptions) : Keeps V (openWith analyze o) Prepared := by
  refine Keeps.seq (.ofExcept fun _ _ => trivial) fun _ => ?_
  split
  · exact .throw
  · rename_i path _
    have hload (lock : Option Nat) (memory : Nat) (hpath : o.readonly = false → path ≠ "") :
        Keeps V (loadLocked analyze path o.readonly memory lock) Prepared := by
      refine Keeps.bind ((Volume.keeps_of_alike hV fun _ => keeps_load_alike).orUndo ?_)
        fun found hfound => .pure ⟨fun _ => hfound.1, fun _ _ => rfl, hpath⟩
      exact Volume.keeps_of_alike hV fun _ =>
        .forM_option fun mark _ => Volume.keeps_release_alike mark
    refine .ite (fun hreadonly => hload none _ (by simp [hreadonly])) fun _ => ?_
    refine (hcreate path).seq fun _ => ?_
    have hacquire : Keeps V (acquire path) fun _ => path ≠ "" :=
      Volume.keeps_of_alike hV fun _ => keeps_acquire_alike
    refine Keeps.bind (hacquire.map (R := fun _ => path ≠ "") fun _ h => h) fun lock hpath => ?_
    exact hload lock _ fun _ => hpath

/-- **An index that lacks a field** is met where the schema in the directory is out of date. -/
theorem openWith_eq_error {analyze : Analyzer} {o : BackendOptions}
    (hopen : openWith analyze o v = .error (missingField name) v') :
    ∃ path here, o.path = some path ∧ v'.files.Leads path here ∧ v.OutOfDate (join here) := by
  rw [openWith] at hopen
  rcases Action.bind_eq_error.1 hopen with hoptions | ⟨_, t, hoptions, hrest⟩
  · have hrecognized := (Action.ofExcept_eq_error.1 hoptions).1
    rw [BackendOptions.ensureRecognized] at hrecognized
    split at hrecognized <;> cases hrecognized
  obtain ⟨-, rfl⟩ := Action.ofExcept_eq_ok.1 hoptions
  cases hpath : o.path with
  | none =>
    simp only [hpath] at hrest
    have hother : IsOtherError (.config "tantivy backend requires 'path'") :=
      isOtherError_config (by simp)
    exact absurd (EStateM.Result.error.inj hrest).1 (hother name)
  | some path =>
    simp only [hpath] at hrest
    have hload {lock : Option Nat} {memory : Nat} {v v' : Volume}
        (h : loadLocked analyze path o.readonly memory lock v = .error (missingField name) v') :
        ∃ here, v'.files.Leads path here ∧ v.OutOfDate (join here) := by
      rcases Action.bind_eq_error.1 h with hundone | ⟨_, _, -, h⟩
      · obtain ⟨v₁, hfailed, rfl⟩ :=
          Action.orUndo_eq_error (.forM_option Volume.failsAs_release) hundone
        obtain ⟨here, hlead, hout⟩ := load_eq_error hfailed
        have hrelease : Keeps (Alike v₁) (lock.forM Volume.release) fun _ => True :=
          .forM_option fun mark _ => Volume.keeps_release_alike mark
        exact ⟨here, hlead.congr (hrelease.after (.refl v₁)).isDirectory, hout⟩
      · cases h
    by_cases hreadonly : o.readonly = true
    · rw [if_pos hreadonly] at hrest
      obtain ⟨here, h⟩ := hload hrest
      exact ⟨path, here, rfl, h⟩
    · rw [if_neg hreadonly] at hrest
      rcases Action.bind_eq_error.1 hrest with hfailed | ⟨_, v₁, hcreate, hlocking⟩
      · exact absurd rfl (Volume.failsAs_createDirectory _ _ _ hfailed name)
      rcases Action.bind_eq_error.1 hlocking with hfailed | ⟨lock, v₂, hlock, hloading⟩
      · exact absurd rfl (failsAs_acquire.map _ _ _ hfailed name)
      obtain ⟨here, hlead, hout⟩ := hload hloading
      have hstays : Stays (join here) t v₂ := by
        have hcreated := (Volume.keeps_createDirectory_stays.of_ok (.refl (join here) t) hcreate).1
        have hlocked : Keeps (Alike v₁) (some <$> acquire path) fun _ => True :=
          keeps_acquire_alike.map fun _ _ => trivial
        exact hcreated.trans ((hlocked.of_ok (.refl v₁) hlock).1.stays _)
      exact ⟨path, here, rfl, hlead, hstays.outOfDate hout⟩

end Store

end Searchlight.Disk
