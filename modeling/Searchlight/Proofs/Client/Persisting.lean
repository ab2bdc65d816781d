import Searchlight.Proofs.Client.Invariant
import Searchlight.Proofs.Client.Slips
import Searchlight.Proofs.Driver.Persisting
import Searchlight.Text.Stem

/-!
# Schemas that outlive clients

The fields that a client registered are there for the next client of the store, with one exception:
a store on disk that has no index when it is closed forgets them (`reopened_schema`).
-/

namespace Searchlight.Client

open Searchlight.Action (Keeps)
open FileTree (join)

variable {place : Place} {before schema : Schema} {c c' c'' : Client} {h h' : Host}
  {catalog : Catalog} {backend : String} {o : BackendOptions} {settings : ClientSettings}

/-! ## Opening -/

theorem keeps_connect_stores (hplace : place.IsValid) (schema : Schema) :
    Keeps (fun h => h.Stores place schema) (connect catalog backend o settings) fun _ => True := by
  cases place with
  | keys k =>
    exact ((SetStore.kept_stores hplace schema).opening.keeps_connect catalog backend o
      settings).mono fun _ _ => trivial
  | directory here =>
    have hopening := Driver.prepared_opening (V := fun v => v.Stores (join here) schema)
      (fun _ _ h hv => hv.congr (h.sameStore _).schemaText) Disk.Store.keeps_openWith_stores
    exact (hopening.keeps_connect catalog backend o settings).mono fun _ _ => trivial

/-- **A client that was opened** has the schema that is stored. -/
theorem stores_of_connect (hrun : connect catalog backend o settings h = .ok c h')
    (hplace : c.driver.IsAt h' place) : h'.Stores place c.schema := by
  obtain ⟨d, h₁, h₂, hopen, hvolume, hserver, hschema, -⟩ := connect_eq_ok hrun
  cases place with
  | keys k => exact Driver.stores_of_schemaSnapshot hschema hplace
  | directory here =>
    obtain ⟨s, hs, hlead⟩ := hplace
    rw [hs] at hschema
    obtain ⟨rfl, rfl, hs⟩ := Driver.schemaSnapshot_eq_ok_disk hschema
    have hstores := Disk.Store.stores_of_openWith (Driver.openStore_eq_ok_disk hopen)
      (hvolume ▸ hlead)
    rw [hs, ← hvolume] at hstores
    exact hstores

/-! ## Requests -/

/-- A client and its driver have the same fields, and the driver is as it is stored. -/
def Filed (before : Schema) (place : Place) (x : Client × Host) : Prop :=
  x.1.registry.schema = x.1.driver.schema ∧ Driver.Filed before place (x.1.driver, x.2)

theorem filed_question (q : Question) (hx : Filed before place (c, h)) :
    Filed before place (q.perform.after (c, h)) := by
  have hdriver : Along (Driver.Filed before place) (q.perform.after (c, h)) := by
    refine (keeps_asking (fun hx => keeps_drive (Driver.keeps_filed_calm hx)) keeps_translate q
      fun hx => keeps_drive ?_).after (s := (c, h)) hx.2
    cases hx with
    | delete id => exact Driver.keeps_filed_delete id
    | commit => exact Driver.keeps_filed_commit
  have hused := Used.question q c h
  rcases hused.follows with hsame | hpick
  · exact ⟨hused.schema.trans (hx.1.trans hsame.schema.symm), hdriver⟩
  · exact absurd hpick hx.2.not_picksUp

/-- Fields that are taken are stored, or will be with the index. -/
theorem filed_registerNew {fields : List (String × FieldConfig)} (hx : Filed before place (c, h))
    (hrun : registerNew fields (c, h) = .ok () (c', h')) : Filed before place (c', h') := by
  obtain ⟨d, r, rfl, hregister, hregistry⟩ := registerNew_eq_ok hrun
  obtain ⟨hschema, -⟩ := Registry.registerAll_eq_ok hregistry
  refine ⟨?_, hx.2.registerFields hregister⟩
  rw [hschema, (Driver.registerFields_eq_ok hregister).1, ← hx.1]

/-- **A document that is written** has its fields stored, in a store on disk with the index. -/
theorem filed_write {target : WriteTarget} {doc : Document} {id : String}
    (hx : Filed before place (c, h)) (hrun : write target doc (c, h) = .ok id (c', h')) :
    Filed before place (c', h') := by
  obtain ⟨⟨plan, p⟩, ⟨c₁, h₁⟩, hprepare, hplace⟩ := Action.bind_eq_ok.1 hrun
  obtain ⟨-, -, -, -, ws, hnew⟩ := prepareWrite_eq_ok hprepare
  have hwarned : Filed before place (c, { h with warnings := ws }) :=
    ⟨hx.1, Driver.Filed.aside (h := h) rfl rfl hx.2⟩
  have hregistered := filed_registerNew hwarned hnew
  have hused := Used.place plan p target.id? c₁ h₁
  dsimp only at hplace
  rw [Action.after, hplace] at hused
  obtain ⟨id', ⟨c₂, h₂⟩, hdrive, hplace⟩ := Action.bind_eq_ok.1 hplace
  rw [drive_run] at hdrive
  split at hdrive
  · rename_i d h₂ hindex
    cases hdrive
    cases hplace
    have hdriver := Driver.filed_of_index hregistered.2 hindex
    rcases hused.follows with hsame | hpick
    · exact ⟨hused.schema.trans (hregistered.1.trans hsame.schema.symm), hdriver⟩
    · exact absurd hpick hregistered.2.not_picksUp
  · cases hdrive

/-- **A request** that succeeds has the fields of the client stored, other than one that closes the
client or removes the store. -/
theorem filed_perform {r : Request} {x y : Client × Host} (hclose : r ≠ .close) (hdestroy : r ≠ .destroy)
    (hx : Filed before place x) (hrun : r.perform x = .ok () y) : Filed before place y := by
  obtain ⟨c, h⟩ := x
  obtain ⟨c', h'⟩ := y
  cases r with
  | question q =>
    have := filed_question q hx
    rw [Action.after] at this
    rwa [show q.perform (c, h) = _ from hrun] at this
  | write target doc =>
    obtain ⟨id, y, hwrite, hrun⟩ := Action.bind_eq_ok.1 hrun
    cases hrun
    exact filed_write hx hwrite
  | registerField name config => exact filed_registerNew hx (registerField_eq_ok hrun)
  | close => exact absurd rfl hclose
  | destroy => exact absurd rfl hdestroy

/-- **A run** of such requests. -/
theorem filed_run {rs : List Request} {x y : Client × Host}
    (hrs : ∀ r ∈ rs, r ≠ .close ∧ r ≠ .destroy) (hx : Filed before place x)
    (hrun : rs.forM Request.perform x = .ok () y) : Filed before place y := by
  induction rs generalizing x with
  | nil =>
    cases hrun
    exact hx
  | cons r rs ih =>
    obtain ⟨_, x₁, hr, hrun⟩ := Action.bind_eq_ok.1 hrun
    obtain ⟨hclose, hdestroy⟩ := hrs r List.mem_cons_self
    exact ih (fun r hr => hrs r (List.mem_cons_of_mem _ hr)) (filed_perform hclose hdestroy hx hr) hrun

/-! ## Closing -/

theorem stores_of_close (hx : Filed before place (c, h)) (hs : h.Stores place schema)
    (hrun : close (c, h) = .ok () (c', h')) : h'.Stores place schema := by
  cases place with
  | keys k =>
    have hkeeps : Keeps (Along (Driver.OnKeys fun v => v.Stores k schema)) close fun _ => True :=
      Driver.Aside.keeps_close (Driver.aside_server (P := Driver.HasValidStem)
        (J := fun v => v.Stores k schema)) Driver.keeps_close_server
    exact (hkeeps.of_ok (s := (c, h)) ⟨hx.2.hasValidStem, hs⟩ hrun).1.2
  | directory here =>
    have haside : Driver.Aside (Driver.On Driver.Prepared fun v => v.Stores (join here) schema) :=
      fun _ _ _ hvolume _ hy => ⟨hy.1, show Disk.Volume.Stores _ _ _ from hvolume ▸ hy.2⟩
    have hkeeps := haside.keeps_close (Driver.prepared_work Disk.Store.keeps_close_stores)
    exact (hkeeps.of_ok (s := (c, h)) ⟨hx.2.prepared, hs⟩ hrun).1.2

/-- **A client that was opened for writing** has its fields stored. -/
theorem filed_of_connect (hrun : connect catalog backend o settings h = .ok c h')
    (hwritable : o.readonly = false) (hplace : c.driver.IsAt h' place) :
    Filed c.schema place (c, h') := by
  have hstores := stores_of_connect hrun hplace
  obtain ⟨d, h₁, h₂, hopen, -, -, hsnapshot, -⟩ := connect_eq_ok hrun
  obtain ⟨hschema, hdisk⟩ := schemaSnapshot_eq_ok hsnapshot
  refine ⟨hschema.symm, ?_⟩
  cases place with
  | keys k =>
    have hvalid : c.driver.HasValidStem :=
      ((SetStore.kept_of_given (J := fun _ => True) (fun _ _ _ _ => trivial)
        fun _ _ _ _ _ _ => trivial).opening.keeps_connect catalog backend o settings).of_ok
          trivial hrun |>.2
    cases hdriver : c.driver with
    | sets s =>
      rw [hdriver] at hplace hvalid hschema
      cases hplace
      have hfields : s.schema = c.schema := hschema
      exact .sets hvalid (by rw [hfields]; exact hstores)
    | memory s | limited key s | disk s =>
      rw [hdriver] at hplace
      cases hplace
  | directory here =>
    obtain ⟨s, hs, hlead⟩ := hplace
    have hprepared : c.driver.Prepared :=
      (Driver.prepared_invariant.keeps_connect catalog backend o settings).of_ok trivial hrun |>.2
    have hreadonly := ((readonly_openStore catalog backend o).of_ok trivial hopen).2
    rw [hs] at hprepared hschema hdisk ⊢
    refine .disk ⟨(hreadonly _ hdisk.symm).trans hwritable, hprepared, hlead, ?_⟩
    have hfields : s.fields.schema = c.schema := hschema
    rw [hfields, ite_self]
    exact hstores

/-! ## The next client -/

/-- **What the next client of a store finds.** A store is opened for writing, is asked for anything
that succeeds, and is closed; then the next client of the store, however it is opened, has the
fields that the first one had when it was closed. There is one exception: a store on disk that has
no index by then. Of that the next client has the fields that were there when the first one was
opened, so that the fields are the same only if none was registered. -/
theorem reopened_schema {catalog' : Catalog} {backend' : String} {o' : BackendOptions}
    {settings' : ClientSettings} {c₀ : Client} {h₀ h₁ h'' : Host} {rs : List Request}
    (hopen : connect catalog backend o settings h₀ = .ok c₀ h₁) (hwritable : o.readonly = false)
    (hplace : c₀.driver.IsAt h₁ place) (hrs : ∀ r ∈ rs, r ≠ .close ∧ r ≠ .destroy)
    (hrun : rs.forM Request.perform (c₀, h₁) = .ok () (c, h))
    (hclose : close (c, h) = .ok () (c', h'))
    (hnext : connect catalog' backend' o' settings' h' = .ok c'' h'')
    (hsame : c''.driver.IsAt h'' place) :
    c''.schema = (if c.driver.unindexed then c₀ else c).schema ∧
      (c''.schema = c.schema ↔ (c.driver.unindexed = true → c.schema = c₀.schema)) := by
  have hfiled := filed_run hrs (filed_of_connect hopen hwritable hplace) hrun
  have hstored := stores_of_close hfiled hfiled.2.stores hclose
  have hkept := (keeps_connect_stores hfiled.2.isValid _).of_ok hstored hnext
  have hschema : c''.schema = (if c.driver.unindexed then c₀ else c).schema := by
    rw [hkept.1.unique (stores_of_connect hnext hsame), ← hfiled.1]
    split <;> rfl
  refine ⟨hschema, ?_⟩
  rw [hschema]
  cases c.driver.unindexed with
  | false => simp
  | true => exact ⟨fun h _ => h.symm, fun h => (h rfl).symm⟩

def emptyDirectory : Host := .initial Text.stems ["d"] (.fresh true) ""

def onDirectory : Action Host Client :=
  connect .builtin "tantivy" { BackendOptions.none with path := some "d" } .default

/-- A field that was registered in an empty directory is forgotten when the client is closed before
any document was written. -/
theorem reopened_schema_forgets :
    ∃ c₀ c c' c'' h₁ h h' h'', onDirectory emptyDirectory = .ok c₀ h₁ ∧
      registerField "title" .freeText (c₀, h₁) = .ok () (c, h) ∧
      close (c, h) = .ok () (c', h') ∧ onDirectory h' = .ok c'' h'' ∧
      c.schema = .ofList [("title", .freeText)] ∧ c''.schema = .empty := by
  have hrun : onDirectory.passes emptyDirectory (fun c₀ h₁ =>
      (registerField "title" .freeText).passes (c₀, h₁) fun _ x => close.passes x fun _ y =>
        onDirectory.passes y.2 fun c'' h'' =>
          c₀.driver.IsAt h₁ (.directory ["d"]) ∧ c''.driver.IsAt h'' (.directory ["d"]) ∧
            x.1.driver.unindexed = true ∧ c₀.schema = .empty ∧
            x.1.schema = .ofList [("title", .freeText)]) = true := by
    decide +kernel
  obtain ⟨c₀, h₁, hopen, hrun⟩ := Action.passes_iff.1 hrun
  obtain ⟨_, x, hregister, hrun⟩ := Action.passes_iff.1 hrun
  obtain ⟨_, y, hclose, hrun⟩ := Action.passes_iff.1 hrun
  obtain ⟨c'', h'', hnext, hrun⟩ := Action.passes_iff.1 hrun
  obtain ⟨hplace, hsame, hunindexed, hbefore, hafter⟩ := of_decide_eq_true hrun
  have hregisters : [Request.registerField "title" .freeText].forM Request.perform (c₀, h₁) =
      .ok () x := Action.bind_eq_ok.2 ⟨_, _, hregister, rfl⟩
  obtain ⟨hschema, -⟩ := reopened_schema hopen rfl hplace (by simp) hregisters hclose hnext hsame
  rw [if_pos hunindexed, hbefore] at hschema
  exact ⟨c₀, x.1, y.1, c'', h₁, x.2, y.2, h'', hopen, hregister, hclose, hnext, hafter, hschema⟩

end Searchlight.Client
