import Searchlight.Proofs.Client.Lifecycle
import Searchlight.Proofs.Driver.Holding

/-!
# What clients have leased and locked

A client that may write has the lease on its store from the moment it is opened until it is closed, if
the store takes one writer at a time; its driver has the lock of the directory. Whatever a client is
asked for, it answers for both (`conserves_perform`).
-/

namespace Searchlight

open Searchlight.Action (Keeps)
open Disk.Volume (LockedBy)
open FileTree (child join)

namespace Driver

variable {d : Driver} {h : Host} {L L' : String → Prop} {k : String} {mark : Nat}

theorem Owns.mono (hd : d.Owns L k mark) (hL : L k → L' k) : d.Owns L' k mark := by
  obtain ⟨s, rfl, hs⟩ := hd
  exact ⟨s, rfl, hs.imp (fun ⟨hm, hk⟩ => ⟨hm, hL hk⟩) id⟩

theorem singleWriter_of_lock? (hd : d.lock? = some mark) : d.capabilities.singleWriter = true := by
  cases d with
  | disk s => rfl
  | _ => cases hd

theorem Accounts.drop {kind : Capabilities} {leases : TextSet} {l : Option Nat}
    {O : String → Nat → Prop} (hx : Accounts kind leases l L O (d, h)) :
    (drop.after (d, h)).2.leases = leases ∧ LockedBy O (drop.after (d, h)).2.volume := by
  have hdropped := yields_drop_accounts.of_ok hx (Action.run_of_failsAs_false failsAs_drop _)
  exact ⟨hdropped.1.leases, hdropped.2⟩

theorem of_singleWriter (hd : d.capabilities.singleWriter = true) :
    (∀ h, (d.storeKey h).isSome) ∧ ∀ h, ∃ schema, schemaSnapshot (d, h) = .ok schema (d, h) := by
  cases d with
  | memory s => cases hd
  | sets s => cases hd
  | limited key s => exact ⟨fun _ => rfl, fun _ => ⟨_, rfl⟩⟩
  | disk s => exact ⟨fun _ => rfl, fun _ => ⟨_, rfl⟩⟩

end Driver

namespace Client

variable {c : Client} {h h' : Host} {O : String → Nat → Prop} {k : String} {mark : Nat}

def LeasedAt (lease : Option String) (k : String) : Prop :=
  ∃ here, FileTree.IsPlace here ∧ k = child (join here) Disk.Volume.lockFile ∧
    ∀ key ∈ lease, key = Disk.backendName ++ ":" ++ join here

/-- The driver of a client has the file at a canonical path locked. -/
def Owns (c : Client) (k : String) (mark : Nat) : Prop := c.driver.Owns (LeasedAt c.lease) k mark

/-! ## Requests -/

/-- What becomes of a client that answers for its lease and locks: it keeps its lease or gives it back,
and does not touch those of others. -/
structure Conserves (O : String → Nat → Prop) (x y : Client × Host) : Prop where
  readonly : y.1.readonly = x.1.readonly
  kind : y.1.driver.capabilities = x.1.driver.capabilities
  lock : y.1.driver.lock? = none ∨ y.1.driver.lock? = x.1.driver.lock?
  lease : y.1.lease = x.1.lease ∧ y.2.leases = x.2.leases ∨
    y.1.lease = none ∧ y.2.leases = (x.2.released x.1.lease).leases
  locks : LockedBy (fun k m => O k m ∨ y.1.Owns k m) y.2.volume

theorem Conserves.refl (hlocks : LockedBy (fun k m => O k m ∨ c.Owns k m) h.volume) :
    Conserves O (c, h) (c, h) :=
  ⟨rfl, rfl, .inr rfl, .inl ⟨rfl, rfl⟩, hlocks⟩

theorem Owns.of_released {d : Driver} (hd : d.Owns (LeasedAt c.lease) k mark) :
    d.Owns (LeasedAt none) k mark :=
  hd.mono fun ⟨here, hplace, hk, _⟩ => ⟨here, hplace, hk, nofun⟩

theorem leases_released (hsame : h'.leases = h.leases) (lease : Option String) :
    (h'.released lease).leases = (h.released lease).leases := by
  cases lease with
  | none => exact hsame
  | some key => exact congrArg (·.erase key) hsame

theorem conserves_releaseLease (hlocks : LockedBy (fun k m => O k m ∨ c.Owns k m) h.volume) :
    Conserves O (c, h) (releaseLease.after (c, h)) := by
  rw [Action.after, releaseLease_eq]
  refine ⟨rfl, rfl, .inr rfl, .inr ⟨rfl, rfl⟩, ?_⟩
  rw [Host.volume_released]
  exact hlocks.mono fun k m hk => hk.imp id Owns.of_released

theorem leases_leased (hsame : h'.leases = h.leases) (lease : Option String) :
    (h'.leased lease).leases = (h.leased lease).leases := by
  cases lease with
  | none => exact hsame
  | some key => exact congrArg (·.add key) hsame

theorem conserves_ended {d : Driver} (hd : Driver.Accounts c.driver.capabilities h.leases c.driver.lock?
    (LeasedAt c.lease) O (d, h')) : Conserves O (c, h) (c.ended d, h'.released c.lease) := by
  refine ⟨rfl, hd.kind, hd.lock, .inr ⟨rfl, leases_released hd.leases _⟩, ?_⟩
  rw [Host.volume_released]
  exact hd.locks.mono fun k m hk => hk.imp id Owns.of_released

/-- A client goes on as it was, but for what it remembers and what its driver does. -/
structure Continues (O : String → Nat → Prop) (x y : Client × Host) : Prop where
  readonly : y.1.readonly = x.1.readonly
  closed : y.1.closed = x.1.closed
  lease : y.1.lease = x.1.lease
  driver : Driver.Accounts x.1.driver.capabilities x.2.leases x.1.driver.lock? (LeasedAt x.1.lease) O
    (y.1.driver, y.2)

theorem continues_drive {x : Client × Host} {α : Type} {w : DriverWork α}
    (hw : ∀ {kind leases l L}, Keeps (Driver.Accounts kind leases l L O) w fun _ => True) :
    Keeps (Continues O x) (drive w) fun _ => True :=
  hw.focus (fun _ hy => hy.driver) fun _ _ hy hd => ⟨hy.readonly, hy.closed, hy.lease, hd⟩

theorem serves_continues (x : Client × Host) : Serves (Continues O x) where
  remembers _ _ _ hy := ⟨hy.readonly, hy.closed, hy.lease, hy.driver⟩
  warns _ hy := ⟨hy.readonly, hy.closed, hy.lease, hy.driver.kind, hy.driver.leases, hy.driver.lock,
    hy.driver.locks⟩
  calm hx := continues_drive (Driver.keeps_use_accounts (.calm hx))
  registerField name config := continues_drive (Driver.keeps_registerField_accounts name config)

theorem Continues.conserves {x y : Client × Host} (hy : Continues O x y) : Conserves O x y := by
  refine ⟨hy.readonly, hy.driver.kind, hy.driver.lock, .inl ⟨hy.lease, hy.driver.leases⟩, ?_⟩
  have hlocks := hy.driver.locks
  rw [← hy.lease] at hlocks
  exact hlocks

def EndsOrStays (c c' : Client) : Prop :=
  c'.closed = c.closed ∧ c'.lease = c.lease ∨ c'.closed = true ∧ c'.lease = none

/-- **A request** is answered for. -/
theorem conserves_perform (hlocks : LockedBy (fun k m => O k m ∨ c.Owns k m) h.volume) (r : Request) :
    Conserves O (c, h) (r.perform.after (c, h)) ∧ c.EndsOrStays (r.perform.after (c, h)).1 := by
  have hstart := Driver.Accounts.enters hlocks
  have hsame {x : ClientWork Unit} (hx : x.after (c, h) = (c, h)) :
      Conserves O (c, h) (x.after (c, h)) ∧ c.EndsOrStays (x.after (c, h)).1 := by
    rw [hx]
    exact ⟨.refl hlocks, .inl ⟨rfl, rfl⟩⟩
  by_cases hends : r = .close ∨ r = .destroy
  · cases hclosed : c.closed with
    | true =>
      obtain rfl | rfl := hends
      · exact hsame (by rw [Action.after, Request.perform, close_of_closed hclosed])
      · exact hsame (by rw [Action.after, Request.perform, (shut_of_closed hclosed).destroy])
    | false =>
      obtain rfl | rfl := hends
      · have hend := Driver.yields_close_accounts (c.driver, h) hstart
        rw [Action.after, Request.perform, close_run hclosed]
        cases hr : Driver.close (c.driver, h) <;> rw [hr] at hend
        · exact ⟨conserves_ended hend.1, .inr ⟨rfl, rfl⟩⟩
        · exact ⟨conserves_ended hend, .inr ⟨rfl, rfl⟩⟩
      · cases hreadonly : c.readonly with
        | true =>
          exact hsame (by
            rw [Action.after, Request.perform, (refusesWrites_of_readonly hreadonly hclosed).destroy])
        | false =>
          have hend := Driver.yields_destroy_accounts (c.driver, h) hstart
          rw [Action.after, Request.perform, destroy_run hclosed hreadonly]
          cases hr : Driver.destroy (c.driver, h) <;> rw [hr] at hend
          · exact ⟨conserves_ended hend.1, .inr ⟨rfl, rfl⟩⟩
          · exact ⟨conserves_ended hend, .inr ⟨rfl, rfl⟩⟩
  · have hkeeps : Keeps (Continues O (c, h)) r.perform fun _ => True := by
      refine (serves_continues (c, h)).keeps_perform r (fun hx => ?_) fun h => absurd h hends
      cases hx with
      | index target doc d id => exact continues_drive (Driver.keeps_use_accounts (.index d id))
      | delete id => exact continues_drive (Driver.keeps_use_accounts (.delete id))
      | commit => exact continues_drive (Driver.keeps_use_accounts .commit)
      | close => exact absurd (.inl rfl) hends
    have hy := hkeeps.after (s := (c, h)) ⟨rfl, rfl, rfl, hstart⟩
    exact ⟨hy.conserves, .inl ⟨hy.closed, hy.lease⟩⟩

/-- **A client that ended without failing** has no lock. -/
theorem lock?_of_ended {r : Request} (hr : r = .close ∨ r = .destroy) (hopen : c.closed = false)
    {y : Client × Host} (hrun : r.perform (c, h) = .ok () y) : y.1.driver.lock? = none := by
  have hstart : Driver.Accounts _ _ _ (fun _ => True) (fun _ _ => True) (c.driver, h) :=
    .enters fun _ _ _ => .inl trivial
  obtain rfl | rfl := hr
  · have hend := Driver.yields_close_accounts (c.driver, h) hstart
    rw [Request.perform, close_run hopen] at hrun
    cases hr : Driver.close (c.driver, h) with
    | error e x =>
      rw [hr] at hrun
      cases hrun
    | ok a x =>
      rw [hr] at hrun hend
      cases hrun
      exact hend.2
  · cases hreadonly : c.readonly with
    | true =>
      rw [Request.perform, (refusesWrites_of_readonly hreadonly hopen).destroy] at hrun
      cases hrun
    | false =>
      have hend := Driver.yields_destroy_accounts (c.driver, h) hstart
      rw [Request.perform, destroy_run hopen hreadonly] at hrun
      cases hr : Driver.destroy (c.driver, h) with
      | error e x =>
        rw [hr] at hrun
        cases hrun
      | ok a x =>
        rw [hr] at hrun hend
        cases hrun
        exact hend.2

/-! ## Opening -/

section
variable {catalog : Catalog} {backend : String} {b : Backend} {o : BackendOptions}
  {settings : ClientSettings}

structure Enters (O : String → Nat → Prop) (o : BackendOptions) (h : Host) (y : Client × Host) :
    Prop where
  readonly : y.1.readonly = o.readonly
  closed : y.1.closed = false
  leased : y.1.lease ≠ none ↔ y.1.driver.capabilities.singleWriter = true ∧ o.readonly = false
  reads : o.readonly = true → y.1.driver.lock? = none
  vacant : ∀ key ∈ y.1.lease, h.leases.contains key = false
  leases : y.2.leases = (h.leased y.1.lease).leases
  locks : LockedBy (fun k m => O k m ∨ y.1.Owns k m) y.2.volume

theorem leaseOf_ne_none {d : Driver} {readonly : Bool} :
    leaseOf readonly d h ≠ none ↔ d.capabilities.singleWriter = true ∧ readonly = false := by
  rw [leaseOf]
  cases hd : d.capabilities.singleWriter with
  | false => simp
  | true => cases readonly <;> simp [← Option.isSome_iff_ne_none, (Driver.of_singleWriter hd).1]

/-- The lock of a store on disk is where its lease is for. -/
theorem leasedAt_of_locksAt {d : Driver} {readonly : Bool} (hk : d.LocksAt h.volume k) :
    LeasedAt (leaseOf readonly d h) k := by
  obtain ⟨s, rfl, hne, here, hlead, rfl⟩ := hk
  refine ⟨here, hlead.isPlace, rfl, fun key hkey => ?_⟩
  rw [leaseOf] at hkey
  split at hkey
  · obtain rfl := Option.some.inj hkey
    rw [Disk.Store.key, hlead.locate?_eq hne]
    rfl
  · cases hkey

/-- **To open a client** takes its lease and its locks, or leaves all as they were. -/
theorem connect_enters (catalog : Catalog) (backend : String) (o : BackendOptions)
    (settings : ClientSettings) (hlocks : LockedBy O h.volume) :
    match connect catalog backend o settings h with
    | .ok c h' => Enters O o h (c, h')
    | .error _ h' => h'.leases = h.leases ∧ LockedBy O h'.volume := by
  have hopened := catalog.yields_openStore backend o h ⟨rfl, hlocks⟩
  obtain ⟨e, h₁, hopen, hrun⟩ | ⟨d, h₁, hopen, hrun⟩ := connect_cases catalog backend o settings h
  · rw [hopen] at hopened
    rw [hrun]
    exact hopened
  rw [hopen] at hopened
  obtain ⟨hleases, hreads, hlocks₁⟩ := hopened
  have hlease : LockedBy
      (fun k m => O k m ∨ d.Owns (LeasedAt (leaseOf o.readonly d h₁)) k m) h₁.volume :=
    hlocks₁.mono fun k m hk => hk.imp id fun hk => hk.mono leasedAt_of_locksAt
  have hread := Driver.keeps_schemaSnapshot_accounts (d, h₁.leased (leaseOf o.readonly d h₁))
    (.enters (Host.volume_leased (h := h₁) ▸ hlease))
  obtain ⟨key, -, -, hrun⟩ | ⟨hfree, ⟨e, d', h', hsnapshot, hrun⟩ | ⟨schema, d', h', hsnapshot, hrun⟩⟩ :=
    hrun
  · rw [hrun]
    exact hleases ▸ (Driver.Accounts.enters hlease).drop
  · rw [hsnapshot] at hread
    rw [hrun]
    refine Driver.Accounts.drop (L := LeasedAt (leaseOf o.readonly d h₁))
      ⟨hread.kind, ?_, hread.lock, ?_⟩
    · rw [Host.leases_released_of_leased hfree hread.leases, hleases]
    · rw [Host.volume_released]
      exact hread.locks
  · rw [hsnapshot] at hread
    obtain ⟨hd, -⟩ := hread
    rw [hrun]
    refine ⟨rfl, rfl, ?_, fun hreadonly => ?_, fun key hkey => hleases ▸ hfree key hkey, ?_, hd.locks⟩
    · change _ ↔ d'.capabilities.singleWriter = true ∧ _
      rw [hd.kind]
      exact leaseOf_ne_none
    · exact hd.lock.elim id fun h => h.trans (hreads hreadonly)
    · exact hd.leases.trans (leases_leased hleases _)

/-! ## Refusals -/

variable (hb : catalog.backends.get? backend = some b) (hs : b.SingleWriter)
include hb hs

/-- A client that was opened to write has the lease that was asked for. -/
theorem lease_of_connect (hwritable : o.readonly = false)
    (hrun : connect catalog backend o settings h = .ok c h') :
    c.lease = b.storeKey? o h ∧ c.lease ≠ none := by
  obtain ⟨e, h₁, -, hfails⟩ | ⟨d, h₁, hopen, ⟨key, -, -, hfails⟩ | ⟨-, ⟨e, d', h₂, -, hfails⟩ |
    ⟨schema, d', h₂, -, hruns⟩⟩⟩ := connect_cases catalog backend o settings h
  · cases hrun.symm.trans hfails
  · cases hrun.symm.trans hfails
  · cases hrun.symm.trans hfails
  · cases hrun.symm.trans hruns
    rw [Catalog.openStore_eq hb] at hopen
    obtain ⟨hwriter, hkey⟩ := Backend.storeKey_of_openWith hs hopen
    obtain ⟨hkey, -⟩ := hkey hwritable
    refine ⟨?_, leaseOf_ne_none.2 ⟨hwriter, hwritable⟩⟩
    simp [started, leaseOf, hwriter, hwritable, hkey]

/-- **A client is refused for a lock** only to write, and only where the lease that it asks for is
taken or the directory is locked. -/
theorem held_of_connect {store : String}
    (hrun : connect catalog backend o settings h = .error (.exclusiveLockHeld store) h') :
    o.readonly = false ∧ ∃ key, b.storeKey? o h = some key ∧
      (h.leases.contains key = true ∨ h.LockedAt key) := by
  obtain ⟨e, h₁, hopen, hfails⟩ | ⟨d, h₁, hopen, hcases⟩ := connect_cases catalog backend o settings h
  · cases hrun.symm.trans hfails
    rw [Catalog.openStore_eq hb] at hopen
    obtain ⟨hwritable, key, hkey, hlocked⟩ := Backend.locked_of_openWith hs hopen
    exact ⟨hwritable, key, hkey, .inr hlocked⟩
  rw [Catalog.openStore_eq hb] at hopen
  obtain ⟨hwriter, hkey⟩ := Backend.storeKey_of_openWith hs hopen
  obtain ⟨key, hlease, hheld, -⟩ | ⟨-, ⟨e, d', h₂, hsnapshot, -⟩ | ⟨schema, d', h₂, -, hruns⟩⟩ := hcases
  · obtain ⟨-, hwritable⟩ := leaseOf_ne_none.1 (Option.ne_none_iff_exists'.2 ⟨key, hlease⟩)
    refine ⟨hwritable, key, ?_, .inl (Backend.leases_of_openWith hopen ▸ hheld)⟩
    rw [(hkey hwritable).1, ← hlease]
    simp [leaseOf, hwriter, hwritable]
  · obtain ⟨_, hread⟩ := (Driver.of_singleWriter hwriter).2 (h₁.leased (leaseOf o.readonly d h₁))
    cases hsnapshot.symm.trans hread
  · cases hrun.symm.trans hruns

variable {key : String} (hwritable : o.readonly = false) (hkey : b.storeKey? o h = some key)
include hwritable hkey

omit hs in
theorem connect_of_lockedAt (hlocked : h.LockedAt key) :
    ∃ path h', connect catalog backend o settings h = .error (.exclusiveLockHeld path) h' := by
  obtain ⟨path, h', hfails⟩ := Backend.openWith_of_locked hwritable hkey hlocked
  obtain ⟨e, h₁, hopen, hrun⟩ | ⟨d, h₁, hopen, -⟩ := connect_cases catalog backend o settings h <;>
    rw [Catalog.openStore_eq hb, hfails] at hopen <;> cases hopen
  exact ⟨path, _, hrun⟩

/-- A client is refused where the lease is taken, if its driver is not. -/
theorem connect_of_leased (hleased : h.leases.contains key = true) :
    (∃ store h', connect catalog backend o settings h = .error (.exclusiveLockHeld store) h') ∨
      ∃ e h', catalog.openStore backend o h = .error e h' ∧
        connect catalog backend o settings h = .error e h' := by
  obtain ⟨e, h₁, hopen, hrun⟩ | ⟨d, h₁, hopen, hcases⟩ := connect_cases catalog backend o settings h
  · exact .inr ⟨e, h₁, hopen, hrun⟩
  rw [Catalog.openStore_eq hb] at hopen
  obtain ⟨hwriter, hasked⟩ := Backend.storeKey_of_openWith hs hopen
  have hlease : leaseOf o.readonly d h₁ = some key := by
    simp [leaseOf, hwriter, hwritable, ← (hasked hwritable).1, hkey]
  obtain ⟨key', -, -, hrun⟩ | ⟨hfree, -⟩ := hcases
  · exact .inl ⟨key', _, hrun⟩
  · have hheld := hfree key hlease
    rw [Backend.leases_of_openWith hopen, hleased] at hheld
    cases hheld

end

end Client

end Searchlight
