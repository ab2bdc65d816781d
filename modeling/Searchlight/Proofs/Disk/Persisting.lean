import Searchlight.Proofs.Disk.Listing
import Searchlight.Proofs.Disk.Opening
import Searchlight.Proofs.Driver.Registering

/-!
# The schema beside an index

A store on disk puts its schema in the directory when it makes the index, and never again
(`Store.Filed`). From then on its fields are fixed, so that the schema in the directory is that of
the store; until then it is the one that was there when the store was opened, whatever fields were
registered since.
-/

namespace Searchlight.Disk

open Searchlight.Action (Keeps)
open FileTree (child join)
open Volume (Alike indexFile schemaFile)

variable {d path : String} {here : List String} {u v v' : Volume} {schema schema' before : Schema}

namespace Volume

/-- The schema in a directory is this one; where there is none, it is the empty one. -/
def Stores (v : Volume) (directory : String) (schema : Schema) : Prop :=
  match v.schemaTextAt? directory with
  | some text => Schema.ofJsonText text = .ok schema
  | none => schema = .empty

namespace Stores

theorem congr (h : v'.schemaTextAt? d = v.schemaTextAt? d) (hv : v.Stores d schema) :
    v'.Stores d schema := by
  rwa [Stores, h]

theorem unique (h : v.Stores d schema) (h' : v.Stores d schema') : schema' = schema := by
  rw [Stores] at h h'
  split at h
  · rename_i text htext
    rw [htext] at h'
    exact Except.ok.inj (h'.symm.trans h)
  · rename_i htext
    rw [htext] at h'
    exact h'.trans h.symm

end Stores

/-- A schema that is read is the one in the directory. -/
theorem stores_of_schema (hlead : v.files.Leads path here) (h : v.schema path = .ok schema) :
    v.Stores (join here) schema := by
  have hcanonical := canonical?_schemaFile.2 ⟨here, hlead, rfl⟩
  rw [Volume.schema] at h
  split at h
  · split at h
    · rename_i text htext
      rw [Stores, schemaTextAt?_of_text? hlead htext]
      exact h
    · cases h
  · rename_i hholds
    rw [FileTree.holds, FileTree.locate?, hcanonical, Option.isSome_filter] at hholds
    cases h
    rw [Stores, schemaTextAt?, content?_of_not_hasNode (by simpa using hholds)]
    rfl

theorem keeps_createDirectory_stores :
    Keeps (fun v => v.Stores d schema) (createDirectory path) fun _ => True :=
  Keeps.get.bind fun v hv => by
    have hsame := FileTree.sameFiles_createDirectory v.files path
    revert hsame
    rcases v.files.createDirectory path with ⟨files, done⟩
    intro hsame
    have htext : (Volume.mk files v.marks).schemaTextAt? d = v.schemaTextAt? d := by
      rw [schemaTextAt?, schemaTextAt?, content?, content?, hsame]
    exact Keeps.seq (.set (hv.congr htext)) fun _ => .ite (fun _ => .throw) fun _ => .pure trivial

def HasSchema (path : String) (here : List String) (schema : Schema) (v : Volume) : Prop :=
  v.files.Leads path here ∧ v.Stores (join here) schema

theorem HasSchema.congr (hdirectory : ∀ k, v'.files.isDirectory k = v.files.isDirectory k)
    (htext : ∀ d, v'.schemaTextAt? d = v.schemaTextAt? d) (hv : v.HasSchema path here schema) :
    v'.HasSchema path here schema :=
  ⟨hv.1.congr hdirectory, hv.2.congr (htext _)⟩

theorem HasSchema.alike (h : Alike v v') (hv : v.HasSchema path here schema) :
    v'.HasSchema path here schema :=
  hv.congr h.isDirectory fun d => (h.sameStore d).schemaText

end Volume

namespace Store

variable {s t : Store} {x : Store × Volume}

/-- What holds of a store that may write, in the directory that its path leads to: the schema there
is that of the store as soon as there is an index. -/
structure Filed (here : List String) (before : Schema) (x : Store × Volume) : Prop where
  writable : x.1.readonly = false
  prepared : x.1.Prepared
  schema : x.2.HasSchema x.1.path here (if x.1.live.isSome then x.1.fields.schema else before)

structure Indexed (s : Store) (V : Volume → Prop) (x : Store × Volume) : Prop where
  fields : x.1.fields = s.fields
  path : x.1.path = s.path
  readonly : x.1.readonly = s.readonly
  live : x.1.live.isSome = true
  volume : V x.2

variable {V : Volume → Prop}

theorem indexed_lasting (hV : ∀ v v', Alike v v' → V v → V v') : Lasting (Indexed s V) where
  alike h hx := { hx with volume := hV _ _ h hx.volume }
  goesOn h hx :=
    ⟨h.fields.trans hx.fields, h.path.trans hx.path, h.readonly.trans hx.readonly, h.live, hx.volume⟩
  closed hx := { hx with }
  unlocked hx := { hx with }

theorem Filed.of_indexed (hpath : s.path ≠ "") (hwritable : s.readonly = false)
    (h : Indexed s (Volume.HasSchema s.path here s.fields.schema) x) : Filed here before x where
  writable := h.readonly.trans hwritable
  prepared := prepared_of_live h.live fun _ => h.path ▸ hpath
  schema := by
    rw [if_pos h.live, h.path, h.fields]
    exact h.volume

theorem Filed.indexed (h : Filed here before (s, v)) (hlive : s.live.isSome = true) :
    Indexed s (Volume.HasSchema s.path here s.fields.schema) (s, v) :=
  ⟨rfl, rfl, rfl, hlive, by
    have := h.schema
    rwa [if_pos hlive] at this⟩

/-- Work keeps what is told of a store if it leaves one without an index as it is told, and goes on
with an index in use. -/
theorem keeps_filed {α : Type} {x : Work α}
    (hwithout : ∀ s v, Filed here before (s, v) → s.live = none →
      Filed here before (x.after (s, v)))
    (hwith : ∀ s : Store, Keeps (Indexed s (Volume.HasSchema s.path here s.fields.schema)) x
      fun _ => True) : Keeps (Filed here before) x fun _ => True := by
  refine .of_after fun (s, v) h => ?_
  cases hlive : s.live with
  | none => exact hwithout s v h hlive
  | some live =>
    exact .of_indexed (h.prepared.path h.writable) h.writable
      ((hwith s).after (h.indexed (by rw [hlive]; rfl)))

/-! ### Looking -/

theorem keeps_filed_refresh : Keeps (Filed here before) refresh fun _ => True := by
  intro (s, v) h
  rw [refresh_of_writable h.writable]
  exact ⟨h, trivial⟩

theorem keeps_filed_ids (offset limit : Nat) :
    Keeps (Filed here before) (ids offset limit) fun _ => True :=
  keeps_filed_refresh.seq fun _ => Keeps.get.bind fun _ _ => .pure trivial

theorem keeps_filed_search (q : TermQuery) (offset limit : Nat) :
    Keeps (Filed here before) (search q offset limit) fun _ => True :=
  keeps_filed_refresh.seq fun _ => Keeps.get.bind fun _ _ => .ite (fun _ => .throw) fun _ =>
    Keeps.seq (.ofExcept fun _ _ => trivial) fun _ => .pure trivial

/-! ### Commits -/

theorem commit_of_live_none (hs : s.live = none) : commit (s, v) = .ok () (s, v) := by
  rw [commit, Action.get_bind]
  simp [hs]

theorem keeps_filed_commit : Keeps (Filed here before) commit fun _ => True := by
  refine keeps_filed (fun s v h hlive => ?_) fun s => ?_
  · rw [Action.after, commit_of_live_none hlive]
    exact h
  · refine (indexed_lasting fun _ _ h hv => hv.alike h).keeps_commit
      fun {t v v'} directory _ hputs h => ?_
    exact { h with volume := h.volume.congr hputs.isDirectory hputs.schemaText }

theorem keeps_filed_cancel : Keeps (Filed here before) cancel fun _ => True := by
  refine keeps_filed (fun s v h hlive => ?_) fun s => ?_
  · have hrun : cancel (s, v) = .ok () (s.clearPending, v) := by
      rw [cancel, setBack, Action.bind_run, Action.get_bind]
      simp [hlive]
    rw [Action.after, hrun]
    exact ⟨h.writable, ⟨h.prepared.built, fun _ _ => rfl, h.prepared.path⟩, h.schema⟩
  · exact (indexed_lasting fun _ _ h hv => hv.alike h).keeps_setBack.seq fun _ =>
      .modify fun _ h => { h with }

/-! ### Documents -/

theorem keeps_filed_delete (id : String) : Keeps (Filed here before) (delete id) fun _ => True := by
  refine keeps_filed (fun s v h hlive => ?_) fun s => ?_
  · have hwritable : s.readonly = false := h.writable
    have hrun : (delete id).after (s, v) = (s, v) := by
      rw [Action.after, delete, writing_run]
      by_cases hclosed : s.closed = true
      · simp [hwritable, hclosed]
      · rw [Action.get_bind]
        simp [hwritable, hclosed,
          contains_of_live_none h.prepared (by simpa using hclosed) hlive id]
    rw [hrun]
    exact h
  · have hlasting := indexed_lasting (s := s) (V := Volume.HasSchema s.path here s.fields.schema)
      fun _ _ h hv => hv.alike h
    rw [delete]
    refine keeps_writing fun t v h _ =>
      ⟨t.WentOn (Indexed s (Volume.HasSchema s.path here s.fields.schema)), ⟨.refl h.live, h⟩,
        fun _ => hlasting.of_wentOn, ?_⟩
    exact .ite (fun _ => .throw) fun _ => keeps_withWriter_wentOn.seq fun _ =>
      .modify fun _ ht => ⟨ht.1.pending _ _, ht.2⟩

theorem hasSchema_of_makeIndex {live : Live} (hlead : v.files.Leads s.path here) (hpath : s.path ≠ "")
    (h : s.makeIndex v = .ok live v') : v'.HasSchema s.path here s.fields.schema := by
  obtain ⟨⟨⟩, v₁, hwrite, hmake⟩ := Action.bind_eq_ok.1 h
  obtain ⟨k, hk, hw⟩ := Volume.write_eq_ok hwrite
  obtain ⟨here', hlead', rfl⟩ := Volume.canonical?_schemaFile.1 hk
  cases hlead.unique hlead'
  have hlead₁ : v₁.files.Leads s.path here := hlead.congr hw.isDirectory
  have htext : v₁.schemaTextAt? (join here) = some s.fields.schema.toJsonText := by
    rw [Volume.schemaTextAt?, hw.content?, if_pos rfl]
    rfl
  have hstores : v₁.Stores (join here) s.fields.schema := by
    rw [Volume.Stores, htext]
    exact s.fields.schema.ofJsonText_toJsonText
  rcases Live.createIn_cases s.fields.layout s.writerMemory hlead₁ hpath with
    hexists | ⟨-, hputs⟩
  · cases hexists.symm.trans hmake
  · rw [Action.after, hmake] at hputs
    exact ⟨hlead₁.congr hputs.isDirectory, hstores.congr (hputs.schemaText _)⟩

/-- What a store does when it is given a document, with an index in use. -/
theorem keeps_indexed_place (hV : ∀ v v', Alike v v' → V v → V v') (r : Option Record) (id : String)
    (e : Error) :
    Keeps (Indexed s V) (do
      withWriter fun w => .ok (w.remove id)
      withWriter (gather r e)
      modify fun (s, v) =>
        ({ s with
          pendingDeletes := s.pendingDeletes.erase id, pendingAdds := s.pendingAdds.add id }, v)
      return id) fun _ => True := by
  refine Keeps.of_after fun (t, v) h => (indexed_lasting hV).of_wentOn (s := t) ?_
  refine Keeps.after (Q := fun _ => True) ?_ ⟨.refl h.live, h⟩
  exact keeps_withWriter_wentOn.seq fun _ => keeps_withWriter_wentOn.seq fun _ =>
    Keeps.seq (.modify fun _ ht => ⟨ht.1.pending _ _, ht.2⟩) fun _ => .pure trivial

/-- **A document that is indexed** leaves a store with its schema in the directory. -/
theorem Filed.of_index {d : PreparedDocument} {id given : String} (h : Filed here before (s, v))
    (hrun : index d id (s, v) = .ok given x) : Filed here before x := by
  have hwritable : s.readonly = false := h.writable
  have hpath : s.path ≠ "" := h.prepared.path h.writable
  rw [index, writing_run, hwritable, if_neg Bool.false_ne_true] at hrun
  by_cases hclosed : s.closed = true
  · rw [if_pos hclosed] at hrun
    cases hrun
  rw [if_neg hclosed, Action.get_bind] at hrun
  dsimp only at hrun
  have hplace (t : Store) := keeps_indexed_place (s := t)
    (V := Volume.HasSchema s.path here s.fields.schema) (fun _ _ h hv => hv.alike h)
    (s.fields.record? s.analyze id d) id
    (.index "failed to add document" (some "the writer has failed"))
  cases hlive : s.live with
  | some live =>
    exact .of_indexed hpath hwritable
      ((hplace s).of_ok (h.indexed (by rw [hlive]; rfl)) hrun).1
  | none =>
    rw [withWriter_bind_of_live_none hlive] at hrun
    split at hrun
    · rename_i live v' hmake
      have hmade : Indexed { s with live := some live }
          (Volume.HasSchema s.path here s.fields.schema) ({ s with live := some live }, v') :=
        ⟨rfl, rfl, rfl, rfl, hasSchema_of_makeIndex h.schema.1 hpath hmake⟩
      exact Filed.of_indexed (s := { s with live := some live }) hpath hwritable
        ((hplace _).of_ok hmade hrun).1
    · cases hrun

/-! ### Fields -/

/-- A field that is registered does not change the directory, and is a new one only where there is
no index. -/
theorem Filed.registerField (h : Filed here before (s, v)) {name : String} {config : FieldConfig}
    (hok : s.registerField name config = .ok t) : Filed here before (t, v) := by
  rcases registerField_eq_ok hok with ⟨-, rfl⟩ | ⟨-, hlive, rfl⟩
  · exact h
  · refine ⟨h.writable, ⟨fun _ _ => rfl, h.prepared.pending, h.prepared.path⟩, ?_⟩
    have := h.schema
    simpa [hlive] using this

/-! ### Closing and opening -/

theorem keeps_close_stores : Keeps (On fun v => v.Stores d schema) close fun _ => True := by
  have hlasting : Lasting (On fun v => v.Stores d schema) :=
    on_lasting fun _ _ h hv => hv.congr (h.sameStore d).schemaText
  exact hlasting.keeps_close (hlasting.keeps_commit fun _ _ hputs h =>
    ⟨h.1, h.2.congr (hputs.schemaText d)⟩)

theorem keeps_openWith_stores (analyze : Analyzer) (o : BackendOptions) :
    Keeps (fun v => v.Stores d schema) (openWith analyze o) Prepared :=
  keeps_openWith_on (fun _ _ h hv => hv.congr (h.sameStore d).schemaText)
    (fun _ => Volume.keeps_createDirectory_stores) analyze o

theorem stores_of_load {readonly : Bool} {memory : Nat} {found : FieldMap × Option Live}
    (h : load path readonly memory v = .ok found v') (hlead : v'.files.Leads path here) :
    v'.Stores (join here) found.1.schema := by
  have halike : Alike v v' := (keeps_load_alike.of_ok (.refl v) h).1
  rw [load, Action.get_bind] at h
  obtain ⟨schema, t, hread, h⟩ := Action.bind_eq_ok.1 h
  obtain ⟨hschema, rfl⟩ := Action.ofExcept_eq_ok.1 hread
  have hstores : v'.Stores (join here) schema :=
    (Volume.stores_of_schema (hlead.congr fun k => (halike.isDirectory k).symm) hschema).congr
      (halike.sameStore _).schemaText
  by_cases hindex : t.hasIndex path = true
  · rw [if_pos hindex] at h
    obtain ⟨⟨layout, live⟩, t₁, -, h⟩ := Action.bind_eq_ok.1 h
    obtain ⟨fields, t₂, hmatch, h⟩ := Action.bind_eq_ok.1 h
    obtain ⟨hfields, -⟩ := Action.ofExcept_eq_ok.1 (Action.orUndo_eq_ok.1 hmatch)
    cases h
    rw [FieldMap.ofLayout] at hfields
    split at hfields
    · cases hfields
    · cases hfields
      exact hstores
  · rw [if_neg hindex] at h
    cases h
    exact hstores

/-- **A store that was opened** has the schema in its directory. -/
theorem stores_of_openWith {analyze : Analyzer} {o : BackendOptions}
    (h : openWith analyze o v = .ok s v') (hlead : v'.files.Leads s.path here) :
    v'.Stores (join here) s.fields.schema := by
  rw [openWith] at h
  obtain ⟨_, t, -, h⟩ := Action.bind_eq_ok.1 h
  cases hpath : o.path with
  | none =>
    simp only [hpath] at h
    cases h
  | some path =>
    simp only [hpath] at h
    have hloaded {lock : Option Nat} {memory : Nat} {t : Volume}
        (h : loadLocked analyze path o.readonly memory lock t = .ok s v') :
        v'.Stores (join here) s.fields.schema := by
      obtain ⟨found, t₁, hload, h⟩ := Action.bind_eq_ok.1 h
      cases h
      exact stores_of_load (Action.orUndo_eq_ok.1 hload) hlead
    by_cases hreadonly : o.readonly = true
    · rw [if_pos hreadonly] at h
      exact hloaded h
    · rw [if_neg hreadonly] at h
      obtain ⟨_, t₁, -, h⟩ := Action.bind_eq_ok.1 h
      obtain ⟨lock, t₂, -, h⟩ := Action.bind_eq_ok.1 h
      exact hloaded h

end Store

end Searchlight.Disk
