import Searchlight.Proofs.Disk.Persisting
import Searchlight.Proofs.Driver.Following
import Searchlight.Proofs.Driver.Reopening
import Searchlight.Proofs.SetStore.Registrations

/-!
# Where drivers keep their schemas

A store on a key server keeps its schema under the keys of its prefix, and writes each field as it
is registered. A store on disk keeps it in a directory, and writes it with the index. What is stored
is told by `Driver.Filed`, which all successful work with documents and fields keeps.
-/

namespace Searchlight

open Searchlight.Action (Keeps)
open FileTree (join)

/-- Where the schema of a store is: with the keys of a prefix, or in a directory. -/
inductive Place where
  | keys (k : SetStore.KeySpace)
  | directory (here : List String)

def Place.IsValid : Place → Prop
  | keys k => SetStore.KeySpace.IsValidStem k.stem
  | directory _ => True

def Host.Stores (h : Host) (place : Place) (schema : Schema) : Prop :=
  match place with
  | .keys k => h.server.Stores k schema
  | .directory here => h.volume.Stores (join here) schema

theorem Host.Stores.unique {h : Host} {place : Place} {schema schema' : Schema}
    (hs : h.Stores place schema) (hs' : h.Stores place schema') : schema' = schema := by
  cases place with
  | keys k => exact SetStore.Server.Stores.unique hs hs'
  | directory here => exact Disk.Volume.Stores.unique hs hs'

namespace Driver

variable {place : Place} {before schema : Schema} {d : Driver} {h h' : Host} {x : Driver × Host}
  {name : String} {config : FieldConfig}

/-- The place where a store keeps its schema. -/
def IsAt (d : Driver) (h : Host) (place : Place) : Prop :=
  match place with
  | .keys k => d.keys? = some k
  | .directory here => ∃ s, d = .disk s ∧ h.volume.files.Leads s.path here

instance (t : FileTree Disk.File) (path : String) (here : List String) :
    Decidable (t.Leads path here) :=
  decidable_of_iff (t.follow [] (FileTree.writtenParts path) = .ok here ∧
      t.isDirectory (join here) = true)
    ⟨fun h => ⟨h.1, h.2⟩, fun h => ⟨h.1, h.2⟩⟩

instance (d : Driver) (h : Host) (place : Place) : Decidable (d.IsAt h place) :=
  match place, d with
  | .keys k, d => inferInstanceAs (Decidable (d.keys? = some k))
  | .directory here, disk s =>
    decidable_of_iff (h.volume.files.Leads s.path here)
      ⟨fun hlead => ⟨s, rfl, hlead⟩, fun ⟨_, hs, hlead⟩ => by cases hs; exact hlead⟩
  | .directory _, memory _ | .directory _, limited _ _ | .directory _, sets _ =>
    isFalse fun ⟨_, hs, _⟩ => nomatch hs

/-- A store on disk that has no index in use. -/
def unindexed : Driver → Bool
  | disk s => s.live.isNone
  | _ => false

/-- What is stored of a store that may write, in its place: its own schema, or the one that was
there before as long as a store on disk has no index. -/
inductive Filed (before : Schema) : Place → Driver × Host → Prop
  | sets {s : SetStore.Store} {h : Host} (hk : SetStore.KeySpace.IsValidStem s.keys.stem)
    (hs : h.server.Stores s.keys s.schema) : Filed before (.keys s.keys) (.sets s, h)
  | disk {here : List String} {s : Disk.Store} {h : Host}
      (hs : Disk.Store.Filed here before (s, h.volume)) :
    Filed before (.directory here) (.disk s, h)

namespace Filed

theorem isValid (hx : Filed before place x) : place.IsValid := by
  cases hx with
  | sets hk hs => exact hk
  | disk hs => trivial

theorem stores (hx : Filed before place (d, h)) :
    h.Stores place (if d.unindexed then before else d.schema) := by
  cases hx with
  | sets hk hs => exact hs
  | @disk here s h hs =>
    obtain ⟨-, hstores⟩ := hs.schema
    cases hlive : s.live with
    | none => simpa [Host.Stores, unindexed, hlive] using hstores
    | some live => simpa [Host.Stores, unindexed, hlive, Driver.schema] using hstores

theorem hasValidStem (hx : Filed before place (d, h)) : d.HasValidStem := by
  cases hx with
  | sets hk hs => exact hk
  | disk hs => trivial

theorem prepared (hx : Filed before place (d, h)) : d.Prepared := by
  cases hx with
  | sets hk hs => trivial
  | disk hs => exact hs.prepared

theorem aside : Aside (Filed before place) := by
  intro d h h' hvolume hserver hx
  cases hx with
  | sets hk hs => exact .sets hk (hserver ▸ hs)
  | disk hs => exact .disk (hvolume ▸ hs)

theorem not_picksUp (hx : Filed before place (d, h)) {e : Driver} : ¬d.PicksUp e := by
  rintro ⟨hpick⟩
  cases hx with
  | disk hs => exact Bool.false_ne_true (hs.writable.symm.trans hpick.readonly)

end Filed

/-! ## Documents -/

section
variable {α : Type} {memory : Action Memory.Store α} {sets : SetStore.Work α} {disk : Disk.Work α}
  (haside : ∀ P, Keeps (SetStore.Store.Aside P) sets fun _ => True)
  (hkept : ∀ {k : SetStore.KeySpace}, SetStore.KeySpace.IsValidStem k.stem →
    ∀ {J : SetStore.Server → Prop}, SetStore.Kept J →
      Keeps (SetStore.Store.OnServer k J) sets fun _ => True)
include haside hkept

theorem filed_after_sets {s : SetStore.Store} (hk : SetStore.KeySpace.IsValidStem s.keys.stem)
    (hs : h.server.Stores s.keys s.schema) :
    Filed before (.keys s.keys) ((work memory sets disk).after (.sets s, h)) := by
  have hkeeps := (haside fun t => t = s).and (hkept hk (SetStore.kept_stores hk s.schema))
  have hafter := hkeeps.after (s := (s, h.server)) ⟨rfl, rfl, hs⟩
  rw [Action.after] at hafter ⊢
  rw [work_sets]
  cases hr : sets (s, h.server) with
  | ok a y =>
    obtain ⟨t, v⟩ := y
    rw [hr] at hafter
    obtain ⟨rfl, -, hs⟩ := hafter
    exact .sets hk hs
  | error e y =>
    obtain ⟨t, v⟩ := y
    rw [hr] at hafter
    obtain ⟨rfl, -, hs⟩ := hafter
    exact .sets hk hs

/-- Work on one store keeps what is stored of it. -/
theorem keeps_filed_work
    (hdisk : ∀ here, Keeps (Disk.Store.Filed here before) disk fun _ => True) :
    Keeps (Filed before place) (work memory sets disk) fun _ => True := by
  refine .of_after fun (d, h) hx => ?_
  cases hx with
  | sets hk hs => exact filed_after_sets haside hkept hk hs
  | @disk here s h hs =>
    have hafter := (hdisk here).after hs
    rw [Action.after] at hafter ⊢
    rw [work_disk]
    cases hr : disk (s, h.volume) <;> rw [hr] at hafter <;> exact .disk hafter

end

theorem keeps_filed_calm {α : Type} {x : DriverWork α} (hx : Calm x) :
    Keeps (Filed before place) x fun _ => True := by
  cases hx with
  | contains id =>
    exact keeps_filed_work (fun _ => SetStore.Store.keeps_contains id)
      (fun _ _ hJ => hJ.ofKeys.contains id) fun _ => Keeps.get.bind fun _ _ => .pure trivial
  | get? id =>
    exact keeps_filed_work (fun _ => SetStore.Store.keeps_get? id)
      (fun _ _ hJ => hJ.ofKeys.get? id)
      fun _ => Keeps.get.bind fun _ _ => .ofExcept fun _ _ => trivial
  | count =>
    exact keeps_filed_work (fun _ => SetStore.Store.keeps_count)
      (fun _ _ hJ => hJ.ofKeys.count) fun _ => Keeps.get.bind fun _ _ => .pure trivial
  | ids offset limit =>
    exact keeps_filed_work (fun _ => SetStore.Store.keeps_ids offset limit)
      (fun _ _ hJ => hJ.ofKeys.ids offset limit) fun _ => Disk.Store.keeps_filed_ids offset limit
  | search q offset limit =>
    exact keeps_filed_work
      (fun _ => Keeps.seq (.ofExcept fun _ _ => trivial)
        fun p => SetStore.Store.keeps_search p offset limit)
      (fun hk _ hJ => Keeps.seq (.ofExcept fun _ _ => trivial)
        fun p => hJ.search hk p offset limit)
      fun _ => Keeps.seq (.ofExcept fun _ _ => trivial)
        fun t => Disk.Store.keeps_filed_search t offset limit
  | cancel =>
    exact keeps_filed_work (fun _ => .pure trivial) (fun _ _ _ => .pure trivial)
      fun _ => Disk.Store.keeps_filed_cancel

theorem keeps_filed_commit : Keeps (Filed before place) commit fun _ => True :=
  keeps_filed_work (fun _ => .pure trivial) (fun _ _ _ => .pure trivial)
    fun _ => Disk.Store.keeps_filed_commit

theorem keeps_filed_delete (id : String) : Keeps (Filed before place) (delete id) fun _ => True :=
  keeps_filed_work (fun _ => SetStore.Store.keeps_delete id) (fun hk _ hJ => hJ.delete hk id)
    fun _ => Disk.Store.keeps_filed_delete id

/-- **A document that is indexed** is: to make an index may fail when its schema is there
already. -/
theorem filed_of_index {p : PreparedDocument} {id : Option String} {given : String}
    (hx : Filed before place (d, h)) (hrun : index p id (d, h) = .ok given x) :
    Filed before place x := by
  rw [index, Action.get_bind] at hrun
  obtain ⟨given', ⟨d', h'⟩, hwork, hrun⟩ := Action.bind_eq_ok.1 hrun
  have hfiled : Filed before place (d', h') := by
    cases hx with
    | @sets s h hk hs =>
      have hafter : Filed before (.keys s.keys)
          ((work (do modify (·.index (id.getD h.nextId) p); return id.getD h.nextId)
            (SetStore.Store.index p id) (Disk.Store.index p (id.getD h.nextId))).after
              (.sets s, h)) :=
        filed_after_sets (fun _ => SetStore.Store.keeps_index p id)
          (fun hk _ hJ => hJ.index hk p id) hk hs
      rw [Action.after, hwork] at hafter
      exact hafter
    | @disk here s h hs =>
      rw [work_disk] at hwork
      cases hindex : Disk.Store.index p (id.getD h.nextId) (s, h.volume) with
      | ok a y =>
        rw [hindex] at hwork
        cases hwork
        exact .disk (hs.of_index hindex)
      | error e y =>
        rw [hindex] at hwork
        cases hwork
  split at hrun
  · cases hrun
    exact Filed.aside (h := h') rfl rfl hfiled
  · cases hrun
    exact hfiled

/-! ## Fields -/

theorem Filed.registerField (hx : Filed before place (d, h))
    (hrun : Driver.registerField name config (d, h) = .ok () x) : Filed before place x := by
  cases hx with
  | @sets s h hk hs =>
    rw [Driver.registerField, work_sets] at hrun
    split at hrun
    · rename_i y hregister
      cases hrun
      have hstores := hs.registerField hk hregister
      obtain ⟨-, hy⟩ := SetStore.Store.registerField_eq_ok hregister
      rw [hy] at hstores ⊢
      exact Filed.sets (s := { s with schema := s.schema.insert name config })
        (h := { h with server := _ }) hk hstores
    · cases hrun
  | @disk here s h hs =>
    rw [registerField_disk] at hrun
    split at hrun
    · rename_i t ht
      cases hrun
      exact .disk (hs.registerField ht)
    · cases hrun

theorem Filed.registerFields {fields : List (String × FieldConfig)} (hx : Filed before place (d, h))
    (hrun : Driver.registerFields fields (d, h) = .ok () x) : Filed before place x := by
  induction fields generalizing d h with
  | nil =>
    cases hrun
    exact hx
  | cons f fields ih =>
    rw [registerFields_cons] at hrun
    obtain ⟨_, ⟨d₁, h₁⟩, hf, hrun⟩ := Action.bind_eq_ok.1 hrun
    exact ih (hx.registerField hf) hrun

/-! ## Opening -/

theorem stores_of_schemaSnapshot {k : SetStore.KeySpace}
    (hrun : schemaSnapshot (d, h) = .ok schema x) (hk : x.1.keys? = some k) :
    x.2.server.Stores k schema := by
  cases d with
  | sets s =>
    rw [schemaSnapshot, work_sets] at hrun
    split at hrun
    · rename_i hload
      cases hrun
      obtain ⟨rfl, hstores⟩ := SetStore.Store.loadSchema_eq_ok hload
      cases hk
      exact hstores
    · cases hrun
  | memory s | limited key s | disk s =>
    cases hrun
    cases hk

theorem schemaSnapshot_eq_ok_disk {s : Disk.Store}
    (hrun : schemaSnapshot (d, h) = .ok schema (.disk s, h')) :
    d = .disk s ∧ h' = h ∧ s.fields.schema = schema := by
  cases d with
  | sets t =>
    rw [schemaSnapshot, work_sets] at hrun
    split at hrun <;> cases hrun
  | memory t | limited key t | disk t =>
    cases hrun
    try exact ⟨rfl, rfl, rfl⟩

theorem openStore_eq_ok_disk {catalog : Catalog} {backend : String} {o : BackendOptions}
    {s : Disk.Store} (hrun : catalog.openStore backend o h = .ok (.disk s) h') :
    Disk.Store.openWith h.analyze o h.volume = .ok s h'.volume := by
  cases hb : catalog.backends.get? backend with
  | none =>
    simp only [Catalog.openStore, hb] at hrun
    cases hrun
  | some b =>
    rw [Catalog.openStore_eq hb] at hrun
    cases b with
    | disk =>
      rw [Backend.openWith_disk_run] at hrun
      cases hr : Disk.Store.openWith h.analyze o h.volume with
      | ok t v =>
        rw [hr] at hrun
        cases hrun
        rfl
      | error e v =>
        rw [hr] at hrun
        cases hrun
    | memory | limited =>
      obtain ⟨_, _, -, hrun⟩ := Action.bind_eq_ok.1 hrun
      cases hrun
    | sets =>
      simp only [Backend.openWith, Action.focus, Action.map_run] at hrun
      cases hr : SetStore.Store.openWith o h.server with
      | ok t v =>
        rw [hr] at hrun
        cases hrun
      | error e v =>
        rw [hr] at hrun
        cases hrun

end Driver

end Searchlight
