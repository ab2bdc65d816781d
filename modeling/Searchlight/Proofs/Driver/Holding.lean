import Searchlight.Proofs.Disk.Holding
import Searchlight.Proofs.Driver.Use

/-!
# What drivers have locked

Only a store on disk locks files. What a driver does for its client leaves all leases as they are,
and no lock that is neither its own nor was there before (`Driver.Accounts`).
-/

namespace Searchlight

open Searchlight.Action (Keeps Yields)
open Disk.Volume (LockedBy)
open FileTree (child join)

namespace Driver

variable {α : Type} {d : Driver} {h : Host} {L : String → Prop} {l : Option Nat}
  {O : String → Nat → Prop} {kind : Capabilities} {leases : TextSet}

/-- The mark of the lock on a store on disk. -/
def lock? : Driver → Option Nat
  | disk s => s.lock
  | memory _ | limited _ _ | sets _ => none

/-- The driver has the file at a canonical path locked. -/
def Owns (d : Driver) (L : String → Prop) (k : String) (mark : Nat) : Prop :=
  ∃ s, d = .disk s ∧ s.Owns L k mark

theorem owns_disk {s : Disk.Store} {k : String} {mark : Nat} :
    (disk s).Owns L k mark ↔ s.Owns L k mark :=
  ⟨fun ⟨_, hs, h⟩ => by cases hs; exact h, fun h => ⟨s, rfl, h⟩⟩

/-- A driver answers for its locks, and the leases are those that are told. -/
structure Accounts (kind : Capabilities) (leases : TextSet) (l : Option Nat) (L : String → Prop)
    (O : String → Nat → Prop) (x : Driver × Host) : Prop where
  kind : x.1.capabilities = kind
  leases : x.2.leases = leases
  lock : x.1.lock? = none ∨ x.1.lock? = l
  locks : LockedBy (fun k m => O k m ∨ x.1.Owns L k m) x.2.volume

theorem Accounts.enters (hlocks : LockedBy (fun k m => O k m ∨ d.Owns L k m) h.volume) :
    Accounts d.capabilities h.leases d.lock? L O (d, h) :=
  ⟨rfl, rfl, .inr rfl, hlocks⟩

theorem Accounts.offDisk (hx : Accounts kind leases l L O (d, h)) (hd : ∀ s, d ≠ .disk s)
    {d' : Driver} {h' : Host} (hd' : ∀ s, d' ≠ .disk s) (hkind : d'.capabilities = d.capabilities)
    (hvolume : h'.volume = h.volume) (hleases : h'.leases = h.leases) :
    Accounts kind leases l L O (d', h') ∧ d'.lock? = none ∧ LockedBy O h'.volume := by
  have hnone : d'.lock? = none := by
    cases d' with
    | disk s => exact absurd rfl (hd' s)
    | _ => rfl
  have hlocks : LockedBy O h'.volume := by
    rw [hvolume]
    exact hx.locks.mono fun k m hk => hk.resolve_right fun ⟨s, hs, _⟩ => hd s hs
  exact ⟨⟨hkind.trans hx.kind, hleases.trans hx.leases, .inl hnone, hlocks.mono fun _ _ => .inl⟩,
    hnone, hlocks⟩

theorem yields_work {memory : Action Memory.Store α} {sets : SetStore.Work α} {disk : Disk.Work α}
    {P : Option Nat → Disk.Volume → Prop} (hnone : ∀ v, LockedBy O v → P none v)
    (hdisk : Yields (Disk.Store.Accounts l L O) disk
      (fun _ x => Disk.Store.Accounts l L O x ∧ P x.1.lock x.2) (Disk.Store.Accounts l L O)) :
    Yields (Accounts kind leases l L O) (work memory sets disk)
      (fun _ x => Accounts kind leases l L O x ∧ P x.1.lock? x.2.volume)
      (Accounts kind leases l L O) := by
  intro (d, h) hx
  have hoff (d' : Driver) (h' : Host) (hd : ∀ s, d ≠ .disk s) (hd' : ∀ s, d' ≠ .disk s)
      (hkind : d'.capabilities = d.capabilities) (hvolume : h'.volume = h.volume)
      (hleases : h'.leases = h.leases) :
      Accounts kind leases l L O (d', h') ∧ P d'.lock? h'.volume := by
    obtain ⟨hx', hlock, hlocks⟩ := hx.offDisk hd hd' hkind hvolume hleases
    exact ⟨hx', hlock ▸ hnone _ hlocks⟩
  cases d with
  | memory s =>
    rw [work_memory]
    cases memory s with
    | ok a s' => exact hoff (.memory s') h nofun nofun rfl rfl rfl
    | error e s' => exact (hoff (.memory s') h nofun nofun rfl rfl rfl).1
  | limited key s =>
    rw [work_limited]
    cases memory s with
    | ok a s' => exact hoff (.limited key s') h nofun nofun rfl rfl rfl
    | error e s' => exact (hoff (.limited key s') h nofun nofun rfl rfl rfl).1
  | sets s =>
    rw [work_sets]
    cases sets (s, h.server) with
    | ok a x => exact hoff (.sets x.1) { h with server := x.2 } nofun nofun rfl rfl rfl
    | error e x => exact (hoff (.sets x.1) { h with server := x.2 } nofun nofun rfl rfl rfl).1
  | disk s =>
    have hs : Disk.Store.Accounts l L O (s, h.volume) :=
      ⟨hx.lock, hx.locks.mono fun k m hk => hk.imp id owns_disk.1⟩
    have hback {s' : Disk.Store} {v : Disk.Volume} (hs' : Disk.Store.Accounts l L O (s', v)) :
        Accounts kind leases l L O (.disk s', { h with volume := v }) :=
      ⟨hx.kind, hx.leases, hs'.lock, hs'.locks.mono fun k m hk => hk.imp id owns_disk.2⟩
    have hrun := hdisk (s, h.volume) hs
    rw [work_disk]
    cases hr : disk (s, h.volume) <;> rw [hr] at hrun
    · exact ⟨hback hrun.1, hrun.2⟩
    · exact hback hrun

theorem keeps_work_accounts {memory : Action Memory.Store α} {sets : SetStore.Work α}
    {disk : Disk.Work α} (hdisk : Keeps (Disk.Store.Accounts l L O) disk fun _ => True) :
    Keeps (Accounts kind leases l L O) (work memory sets disk) fun _ => True :=
  yields_work (P := fun _ _ => True) (fun _ _ => trivial) hdisk

/-- **The use of a driver** leaves what others have locked, and all leases. -/
theorem keeps_use_accounts {x : DriverWork α} (hx : Use x) :
    Keeps (Accounts kind leases l L O) x fun _ => True := by
  have hread {β : Type} {f : Disk.Store × Disk.Volume → Disk.Work β}
      (hf : ∀ x, Keeps (Disk.Store.Accounts l L O) (f x) fun _ => True) :
      Keeps (Disk.Store.Accounts l L O) (get >>= f) fun _ => True :=
    Keeps.get.bind fun x _ => hf x
  cases hx with
  | index d id =>
    refine Keeps.get.bind fun _ _ =>
      (keeps_work_accounts (Disk.Store.keeps_index_accounts d _)).seq fun _ => ?_
    refine Keeps.ite (fun _ => Keeps.seq (.modify fun _ h => ?_) fun _ => .pure trivial)
      fun _ => .pure trivial
    exact ⟨h.kind, h.leases, h.lock, h.locks⟩
  | delete id => exact keeps_work_accounts (Disk.Store.keeps_delete_accounts id)
  | commit => exact keeps_work_accounts Disk.Store.keeps_commit_accounts
  | calm hx =>
    cases hx with
    | contains id => exact keeps_work_accounts (hread fun _ => .pure trivial)
    | get? id => exact keeps_work_accounts (hread fun _ => .ofExcept fun _ _ => trivial)
    | count => exact keeps_work_accounts (hread fun _ => .pure trivial)
    | ids offset limit => exact keeps_work_accounts (Disk.Store.keeps_ids_accounts offset limit)
    | search q offset limit =>
      exact keeps_work_accounts (Keeps.seq (.ofExcept fun _ _ => trivial) fun _ =>
        Disk.Store.keeps_search_accounts _ offset limit)
    | cancel => exact keeps_work_accounts Disk.Store.keeps_cancel_accounts

theorem keeps_registerField_accounts (name : String) (config : FieldConfig) :
    Keeps (Accounts kind leases l L O) (registerField name config) fun _ => True := by
  refine keeps_work_accounts (Keeps.get.bind fun (s, v) hs => ?_)
  refine Keeps.bind (.ofExcept fun s' hs' => hs') fun s' hs' => .set ?_
  rcases Disk.Store.registerField_eq_ok hs' with ⟨-, rfl⟩ | ⟨-, -, rfl⟩
  · exact hs
  · exact hs.same rfl rfl

theorem keeps_schemaSnapshot_accounts : Keeps (Accounts kind leases l L O) schemaSnapshot fun _ => True :=
  keeps_work_accounts (Keeps.get.bind fun _ _ => .pure trivial)

/-! ## The end of a driver -/

theorem yields_close_accounts : Yields (Accounts kind leases l L O) close
    (fun _ x => Accounts kind leases l L O x ∧ x.1.lock? = none) (Accounts kind leases l L O) :=
  yields_work (P := fun lock _ => lock = none) (fun _ _ => rfl) Disk.Store.yields_close

theorem yields_destroy_accounts : Yields (Accounts kind leases l L O) destroy
    (fun _ x => Accounts kind leases l L O x ∧ x.1.lock? = none) (Accounts kind leases l L O) :=
  yields_work (P := fun lock _ => lock = none) (fun _ _ => rfl) Disk.Store.yields_destroy

theorem yields_drop_accounts : Yields (Accounts kind leases l L O) drop
    (fun _ x => Accounts kind leases l L O x ∧ LockedBy O x.2.volume) (Accounts kind leases l L O) :=
  yields_work (P := fun _ v => LockedBy O v) (fun _ h => h)
    (Disk.Store.yields_abandon.mono (fun _ _ h => ⟨h.1, h.2.2⟩) fun _ h => h)

end Driver

/-! ## Opening -/

namespace Driver

def LocksAt (d : Driver) (v : Disk.Volume) (k : String) : Prop := ∃ s, d = .disk s ∧ s.LocksAt v k

end Driver

def Host.LockedAt (h : Host) (key : String) : Prop :=
  ∃ here mark, FileTree.IsPlace here ∧ key = Disk.backendName ++ ":" ++ join here ∧
    h.volume.Locked (child (join here) Disk.Volume.lockFile) mark

namespace Backend

def storeKey? (b : Backend) (o : BackendOptions) (h : Host) : Option String :=
  match b with
  | limited =>
    match o.ensureRecognized Memory.Limited.backendName Memory.Limited.recognizedOptions with
    | .ok _ => some (Memory.Limited.storeKey o)
    | .error _ => none
  | disk => (Disk.Store.directory? o h.volume).map (Disk.backendName ++ ":" ++ ·)
  | memory | sets => none

/-- The backend lets one writer at a time in. -/
def SingleWriter (b : Backend) : Prop := b = limited ∨ b = disk

variable {b : Backend} {o : BackendOptions} {h h' : Host} {d : Driver} {e : Error}
  {leases : TextSet} {O : String → Nat → Prop}

theorem openWith_limited_run : limited.openWith o h =
    match o.ensureRecognized Memory.Limited.backendName Memory.Limited.recognizedOptions with
    | .ok _ => .ok (.limited (Memory.Limited.storeKey o) .empty) h
    | .error e => .error e h := by
  rw [openWith, Action.bind_run, Action.ofExcept_run]
  cases o.ensureRecognized Memory.Limited.backendName Memory.Limited.recognizedOptions <;> rfl

/-- **To open a driver** leaves the leases, and locks what the driver has locked then; nothing if it
only reads. -/
theorem yields_openWith :
    Action.Yields (fun h => h.leases = leases ∧ LockedBy O h.volume) (b.openWith o)
      (fun d h => h.leases = leases ∧ (o.readonly = true → d.lock? = none) ∧
        LockedBy (fun k m => O k m ∨ d.Owns (d.LocksAt h.volume) k m) h.volume)
      (fun h => h.leases = leases ∧ LockedBy O h.volume) := by
  have hweaken {d : Driver} {h : Host} (hd : d.lock? = none)
      (hh : h.leases = leases ∧ LockedBy O h.volume) :
      h.leases = leases ∧ (o.readonly = true → d.lock? = none) ∧
        LockedBy (fun k m => O k m ∨ d.Owns (d.LocksAt h.volume) k m) h.volume :=
    ⟨hh.1, fun _ => hd, hh.2.mono fun _ _ => .inl⟩
  intro h hh
  cases b with
  | memory =>
    rw [openWith, Action.bind_run, Action.ofExcept_run]
    cases o.ensureRecognized Memory.backendName []
    · exact hh
    · exact hweaken (d := .memory .empty) rfl hh
  | limited =>
    rw [openWith_limited_run]
    cases o.ensureRecognized Memory.Limited.backendName Memory.Limited.recognizedOptions
    · exact hh
    · exact hweaken (d := .limited _ .empty) rfl hh
  | sets =>
    simp only [openWith, Action.focus, Action.map_run]
    cases SetStore.Store.openWith o h.server
    · exact hweaken (d := .sets _) (h := { h with server := _ }) rfl hh
    · exact hh
  | disk =>
    have hopen := Disk.Store.yields_openWith h.analyze o h.volume hh.2
    rw [openWith_disk_run]
    cases hr : Disk.Store.openWith h.analyze o h.volume with
    | ok s v =>
      rw [hr] at hopen
      obtain ⟨hlock, hlocks⟩ := hopen
      refine ⟨hh.1, hlock, hlocks.mono fun k m hk => hk.imp id fun hk => ⟨s, rfl, ?_⟩⟩
      exact hk.imp (And.imp_right fun hk => ⟨s, rfl, hk⟩) id
    | error e v =>
      rw [hr] at hopen
      exact ⟨hh.1, hopen⟩

theorem leases_of_openWith (hopen : b.openWith o h = .ok d h') : h'.leases = h.leases :=
  (yields_openWith (O := fun _ _ => True) |>.of_ok ⟨rfl, fun _ _ _ => trivial⟩ hopen).1

theorem storeKey_of_openWith (hb : b.SingleWriter) (hopen : b.openWith o h = .ok d h') :
    d.capabilities.singleWriter = true ∧
      (o.readonly = false → b.storeKey? o h = d.storeKey h' ∧ (d.storeKey h').isSome) := by
  obtain rfl | rfl := hb
  · rw [openWith_limited_run] at hopen
    rw [storeKey?]
    cases hrecognized :
        o.ensureRecognized Memory.Limited.backendName Memory.Limited.recognizedOptions with
    | error e => simp [hrecognized] at hopen
    | ok a =>
      rw [hrecognized] at hopen
      cases hopen
      exact ⟨rfl, fun _ => ⟨rfl, rfl⟩⟩
  · rw [openWith_disk_run] at hopen
    cases hr : Disk.Store.openWith h.analyze o h.volume with
    | error e v => simp [hr] at hopen
    | ok s v =>
      rw [hr] at hopen
      cases hopen
      refine ⟨rfl, fun hwritable => ⟨?_, rfl⟩⟩
      obtain ⟨directory, hasked, hfound⟩ := Disk.Store.directory?_of_openWith hwritable hr
      rw [storeKey?, hasked, Driver.storeKey, Disk.Store.key, hfound]
      rfl

/-- The driver refuses to be opened for a lock only where the directory that was asked for is
locked. -/
theorem locked_of_openWith {store : String} (hb : b.SingleWriter)
    (hopen : b.openWith o h = .error (.exclusiveLockHeld store) h') :
    o.readonly = false ∧ ∃ key, b.storeKey? o h = some key ∧ h.LockedAt key := by
  obtain rfl | rfl := hb
  · rw [openWith_limited_run] at hopen
    cases hrecognized :
        o.ensureRecognized Memory.Limited.backendName Memory.Limited.recognizedOptions with
    | ok a => simp [hrecognized] at hopen
    | error e =>
      rw [hrecognized] at hopen
      cases hopen
      exact absurd rfl (Disk.Store.isNoLock_of_ensureRecognized hrecognized store)
  · rw [openWith_disk_run] at hopen
    cases hr : Disk.Store.openWith h.analyze o h.volume with
    | ok s v => simp [hr] at hopen
    | error e v =>
      rw [hr] at hopen
      cases hopen
      obtain ⟨hwritable, directory, mark, hasked, hlocked⟩ := Disk.Store.locked_of_openWith hr
      obtain ⟨path, -, -, -, -, here, hlead, rfl⟩ := Disk.Store.directory?_eq_some.1 hasked
      exact ⟨hwritable, _, by rw [storeKey?, hasked]; rfl, here, mark, hlead.isPlace, rfl, hlocked⟩

/-- A directory that is locked cannot be opened to write. -/
theorem openWith_of_locked {key : String} (hwritable : o.readonly = false)
    (hkey : b.storeKey? o h = some key) (hlocked : h.LockedAt key) :
    ∃ path h', b.openWith o h = .error (.exclusiveLockHeld path) h' := by
  obtain ⟨here, mark, -, rfl, hlocked⟩ := hlocked
  cases b with
  | memory => cases hkey
  | sets => cases hkey
  | limited =>
    rw [storeKey?] at hkey
    split at hkey
    · exact absurd (congrArg (·.toList.head?) (Option.some.inj hkey)) (by
        simp [Memory.Limited.storeKey, Memory.Limited.backendName, Disk.backendName])
    · cases hkey
  | disk =>
    rw [storeKey?, Option.map_eq_some_iff] at hkey
    obtain ⟨directory', hasked, hsame⟩ := hkey
    obtain rfl := (String.append_right_inj _).1 hsame
    obtain ⟨path, v', hfails⟩ :=
      Disk.Store.openWith_of_locked h.analyze hwritable hasked hlocked
    exact ⟨path, { h with volume := v' }, by rw [openWith_disk_run, hfails]⟩

end Backend

theorem Catalog.yields_openStore (catalog : Catalog) (backend : String) (o : BackendOptions)
    {leases : TextSet} {O : String → Nat → Prop} :
    Yields (fun h => h.leases = leases ∧ LockedBy O h.volume) (catalog.openStore backend o)
      (fun d h => h.leases = leases ∧ (o.readonly = true → d.lock? = none) ∧
        LockedBy (fun k m => O k m ∨ d.Owns (d.LocksAt h.volume) k m) h.volume)
      (fun h => h.leases = leases ∧ LockedBy O h.volume) := by
  rw [openStore]
  split
  · exact Backend.yields_openWith
  · exact .throw fun _ h => h

end Searchlight
