import Searchlight.Proofs.Disk.Looking
import Searchlight.Proofs.SetStore.Compiling
import Searchlight.Proofs.SetStore.Keeping

/-!
# Drivers that are open for reading

What a client that is open for reading asks of its driver changes nothing that is stored: neither
what is in memory, nor a key of the key server, nor a file (`keeps_looking`). A search on a key
server makes keys of its own for a time; these have names that nobody else uses.
-/

namespace Searchlight

open Searchlight.Action (Keeps)

/-- Whatever is stored on a host is as it was. -/
structure Host.SameStores (h h' : Host) : Prop where
  keys : h'.server.keys = h.server.keys
  /-- All files, apart from empty locks of readers. -/
  files : h.volume.Guards h'.volume

namespace Host.SameStores

variable {h h' h'' : Host}

theorem refl (h : Host) : h.SameStores h := ⟨rfl, .refl _⟩

theorem trans (h₁ : h.SameStores h') (h₂ : h'.SameStores h'') : h.SameStores h'' :=
  ⟨h₂.keys.trans h₁.keys, h₁.files.trans h₂.files⟩

end Host.SameStores

namespace Driver

/-- A store on disk is open for reading. -/
def OnlyReads : Driver → Prop
  | disk s => s.OnlyReads
  | memory _ | limited _ _ | sets _ => True

/-- A driver and what it may be after it was looked at: what is in memory is the same. -/
inductive Looked : Driver → Driver → Prop where
  | memory (s : Memory.Store) : Looked (memory s) (memory s)
  | limited (key : String) (s : Memory.Store) : Looked (limited key s) (limited key s)
  | sets {s t : SetStore.Store} (h : t.keys = s.keys) : Looked (sets s) (sets t)
  | disk {s t : Disk.Store} (h : t.OnlyReads) : Looked (disk s) (disk t)

variable {d d' d'' : Driver} {h h' : Host} {α : Type}

theorem Looked.refl (hd : d.OnlyReads) : Looked d d := by
  cases d with
  | memory s => exact .memory s
  | limited key s => exact .limited key s
  | sets s => exact .sets rfl
  | disk s => exact .disk hd

theorem Looked.trans (h : Looked d d') (h' : Looked d' d'') : Looked d d'' := by
  cases h with
  | memory s => exact h'
  | limited key s => exact h'
  | sets hkeys =>
    cases h' with
    | sets hkeys' => exact .sets (hkeys'.trans hkeys)
  | disk _ =>
    cases h' with
    | disk hs => exact .disk hs

theorem Looked.onlyReads (h : Looked d d') : d'.OnlyReads := by
  cases h with
  | disk hs => exact hs
  | _ => trivial

/-- The names of the keys that a search makes are free. -/
def HasRoom (d : Driver) (h : Host) : Prop :=
  ∀ s, d = .sets s → ∀ n,
    h.server.keys.contains (s.keys.temp SetStore.Store.runLabel n) = false

theorem HasRoom.looked (hroom : d.HasRoom h) (hd : Looked d d') (hh : h.SameStores h') :
    d'.HasRoom h' := by
  rintro t rfl n
  cases hd with
  | sets hkeys =>
    rw [hh.keys, hkeys]
    exact hroom _ rfl n

/-- What drivers keep that are open for reading; the keys are the same where there is room for those
of a search. -/
structure Looks (d : Driver) (h : Host) (room : Prop) (x : Driver × Host) : Prop where
  driver : Looked d x.1
  files : h.volume.Guards x.2.volume
  keys : room → x.2.server.keys = h.server.keys

variable {room : Prop}

theorem Looks.refl (hd : d.OnlyReads) (h : Host) : Looks d h room (d, h) :=
  ⟨.refl hd, .refl _, fun _ => rfl⟩

theorem Looks.sameStores {x : Driver × Host} (hx : Looks d h room x) (hroom : room) :
    h.SameStores x.2 := ⟨hx.keys hroom, hx.files⟩

theorem Looks.trans {x y : Driver × Host} (hx : Looks d h (d.HasRoom h) x)
    (hy : Looks x.1 x.2 (x.1.HasRoom x.2) y) : Looks d h (d.HasRoom h) y where
  driver := hx.driver.trans hy.driver
  files := hx.files.trans hy.files
  keys hroom := (hy.keys (hroom.looked hx.driver (hx.sameStores hroom))).trans (hx.keys hroom)

theorem aside_looks : Aside (Looks d h room) := fun _ _ _ hvolume hserver hx =>
  ⟨hx.driver, by rw [hvolume]; exact hx.files, fun hroom => (congrArg _ hserver).trans (hx.keys hroom)⟩

theorem keeps_work_looks {memory : Action Memory.Store α} {sets : SetStore.Work α}
    {disk : Disk.Work α} (hmemory : ∀ s, memory.after s = s)
    (hsets : ∀ s, d = .sets s →
      Keeps (SetStore.Store.OnServer s.keys fun v => room → v.keys = h.server.keys) sets
        fun _ => True)
    (hdisk : ∀ u, Keeps (Disk.Store.Looks u) disk fun _ => True) :
    Keeps (Looks d h room) (work memory sets disk) fun _ => True := by
  rintro ⟨d', h'⟩ ⟨hd, hfiles, hkeys⟩
  cases hd with
  | memory s =>
    have hs := hmemory s
    rw [Action.after] at hs
    rw [work_memory]
    cases hr : memory s <;> rw [hr] at hs <;> cases hs
    · exact ⟨⟨.memory _, hfiles, hkeys⟩, trivial⟩
    · exact ⟨.memory _, hfiles, hkeys⟩
  | limited key s =>
    have hs := hmemory s
    rw [Action.after] at hs
    rw [work_limited]
    cases hr : memory s <;> rw [hr] at hs <;> cases hs
    · exact ⟨⟨.limited key _, hfiles, hkeys⟩, trivial⟩
    · exact ⟨.limited key _, hfiles, hkeys⟩
  | @sets s t hsame =>
    have hkeeps := hsets s rfl (t, h'.server) ⟨hsame, hkeys⟩
    rw [work_sets]
    cases hr : sets (t, h'.server) <;> rw [hr] at hkeeps
    · exact ⟨⟨.sets hkeeps.1.1, hfiles, hkeeps.1.2⟩, trivial⟩
    · exact ⟨.sets hkeeps.1, hfiles, hkeeps.2⟩
  | @disk s t ht =>
    have hkeeps := hdisk h.volume (t, h'.volume) ⟨ht, hfiles⟩
    rw [work_disk]
    cases hr : disk (t, h'.volume) <;> rw [hr] at hkeeps
    · exact ⟨⟨.disk hkeeps.1.1, hkeeps.1.2, hkeys⟩, trivial⟩
    · exact ⟨.disk hkeeps.1, hkeeps.2, hkeys⟩

theorem ofKeys_keys (h : Host) (p : Prop) :
    SetStore.OfKeys fun v => p → v.keys = h.server.keys := fun _ _ hkeys hv hp => hkeys.trans (hv hp)

/-- **To look changes nothing.** -/
theorem keeps_calm_looks (hroom : room → d.HasRoom h) {x : DriverWork α} (hx : Calm x) :
    Keeps (Looks d h room) x fun _ => True := by
  have hkeys := ofKeys_keys h room
  cases hx with
  | contains id =>
    exact keeps_work_looks (fun _ => rfl) (fun _ _ => hkeys.contains id) fun _ =>
      Keeps.get.bind fun _ _ => .pure trivial
  | get? id =>
    exact keeps_work_looks (fun _ => rfl) (fun _ _ => hkeys.get? id) fun _ =>
      Keeps.get.bind fun _ _ => .ofExcept fun _ _ => trivial
  | count =>
    exact keeps_work_looks (fun _ => rfl) (fun _ _ => hkeys.count) fun _ =>
      Keeps.get.bind fun _ _ => .pure trivial
  | ids offset limit =>
    exact keeps_work_looks (fun _ => rfl) (fun _ _ => hkeys.ids offset limit) fun _ =>
      Disk.Store.keeps_ids_looks offset limit
  | search q offset limit =>
    refine keeps_work_looks (fun s => ?_) (fun s hs => ?_) fun _ => ?_
    · rw [Action.after, Action.bind_run, Action.ofExcept_run]
      cases q.tokens Memory.backendName <;> rfl
    · refine Keeps.seq (.ofExcept fun _ _ => trivial) fun p => .of_after ?_
      rintro ⟨t, v⟩ ⟨hsame, hv⟩
      refine ⟨(SetStore.Store.keeps_search (P := fun t => t.keys = s.keys) p offset limit).after
        (s := (t, v)) hsame, fun hr => ?_⟩
      have hfree : ∀ n, v.keys.contains (t.keys.temp SetStore.Store.runLabel n) = false := by
        rw [hv hr, show t.keys = s.keys from hsame]
        exact hroom hr s hs
      exact (SetStore.Store.keys_search hfree offset limit).trans (hv hr)
    · exact Keeps.seq (.ofExcept fun _ _ => trivial) fun _ =>
        Disk.Store.keeps_search_looks _ offset limit
  | cancel =>
    exact keeps_work_looks (fun _ => rfl) (fun _ _ => .pure trivial) fun _ =>
      Disk.Store.keeps_cancel_looks

theorem keeps_commit_looks : Keeps (Looks d h room) commit fun _ => True :=
  keeps_work_looks (fun _ => rfl) (fun _ _ => .pure trivial) fun _ => Disk.Store.keeps_commit_looks

theorem keeps_close_looks : Keeps (Looks d h room) close fun _ => True :=
  keeps_work_looks (fun _ => rfl) (fun _ _ => .pure trivial) fun _ => Disk.Store.keeps_close_looks

theorem keeps_drop_looks : Keeps (Looks d h room) drop fun _ => True :=
  keeps_work_looks (fun _ => rfl) (fun _ _ => .pure trivial) fun _ => Disk.Store.keeps_abandon_looks

theorem keeps_schemaSnapshot_looks : Keeps (Looks d h room) schemaSnapshot fun _ => True :=
  keeps_work_looks (fun _ => rfl) (fun _ _ => (ofKeys_keys h _).loadSchema) fun _ =>
    Keeps.get.bind fun _ _ => .pure trivial

end Driver

/-! ## Opening -/

/-- A store that is opened for reading changes nothing. -/
theorem Catalog.keeps_openStore_looks (catalog : Catalog) (name : String) {o : BackendOptions}
    (hreadonly : o.readonly = true) {h : Host} :
    Action.Keeps h.SameStores (catalog.openStore name o) Driver.OnlyReads := by
  rw [openStore]
  split
  · rename_i b _
    cases b with
    | memory => exact Keeps.seq (.ofExcept fun _ _ => trivial) fun _ => .pure trivial
    | limited => exact Keeps.seq (.ofExcept fun _ _ => trivial) fun _ => .pure trivial
    | sets =>
      exact Keeps.focus (((Driver.ofKeys_keys h True).openWith o).map fun _ _ => trivial)
        (fun _ hh _ => hh.keys) fun _ _ hh hv => ⟨hv trivial, hh.files⟩
    | disk =>
      exact Keeps.get.bind fun _ _ =>
        Keeps.focus ((Disk.Store.keeps_openWith_guards hreadonly).map fun _ hs => hs)
          (fun _ hh => hh.files) fun _ _ hh hv => ⟨hh.keys, hv⟩
  · exact .throw

end Searchlight
