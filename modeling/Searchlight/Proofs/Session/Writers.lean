import Searchlight.Proofs.Session.Ledger
import Searchlight.Text.Stem

/-!
# One writer to a store

In every run of a session, a store that takes one writer at a time has at most one client that is open
to write (`one_writer`). Who opens it to write meanwhile is refused, and nobody is refused for a client
that was closed or destroyed, or is gone, but for one whose iterators are left.
-/

namespace Searchlight.Session

open Client (Request)
open FileTree (child join)

/-- A client is open to write to the store with a key, under its name. -/
def Writes (s : Session) (n : Nat) (key : String) : Prop :=
  s.Names n ∧ ∃ c, s.held.lookup n = some c ∧ c.state = .writable ∧ c.lease = some key

/-- A client that does not write any more has the directory of the store with a key locked. -/
def Lingers (s : Session) (n : Nat) (key : String) : Prop :=
  ∃ c here mark, s.held.lookup n = some c ∧ c.lease = none ∧ c.driver.lock? = some mark ∧
    FileTree.IsPlace here ∧ key = Disk.backendName ++ ":" ++ join here ∧
    s.host.volume.Locked (child (join here) Disk.Volume.lockFile) mark

/-- An iterator that a client has given is left. -/
def Iterates (s : Session) (n : Nat) : Prop :=
  (∃ cursor k, s.results.get? cursor = some (n, k)) ∨
    ∃ cursor k, s.documents.get? cursor = some (n, k)

/-- What comes of it when a client of a backend that lets one writer at a time in is opened. -/
structure Opens (s : Session) (catalog : Catalog) (backend : String) (b : Backend)
    (o : BackendOptions) (settings : ClientSettings) : Prop where
  /-- It is refused for a lock only to write, and for a client that has the lease or lingers. -/
  held : ∀ store h, Client.connect catalog backend o settings s.host =
      .error (.exclusiveLockHeld store) h →
    o.readonly = false ∧ ∃ key n, b.storeKey? o s.host = some key ∧
      (s.Writes n key ∨ s.Lingers n key)
  /-- A writer is refused while another has the lease. The driver may refuse for a reason of its
  own where the lock of the other was taken away with an enclosing directory. -/
  writer : ∀ key n, o.readonly = false → b.storeKey? o s.host = some key → s.Writes n key →
    (∃ store h, Client.connect catalog backend o settings s.host =
      .error (.exclusiveLockHeld store) h) ∨
    ¬ s.host.LockedAt key ∧ ∃ e h, catalog.openStore backend o s.host = .error e h ∧
      Client.connect catalog backend o settings s.host = .error e h
  /-- A writer is refused while another lingers. -/
  lingerer : ∀ key n, o.readonly = false → b.storeKey? o s.host = some key → s.Lingers n key →
    ∃ store h, Client.connect catalog backend o settings s.host =
      .error (.exclusiveLockHeld store) h
  /-- A writer that is let in has the lease. -/
  leased : ∀ c h, o.readonly = false →
    Client.connect catalog backend o settings s.host = .ok c h →
    ∃ key, c.lease = some key ∧ b.storeKey? o s.host = some key

/-- Each store has one writer. -/
structure OneWriter (s : Session) : Prop where
  /-- The leases that are taken are those of the writers. -/
  leases : ∀ key, s.host.leases.contains key = true ↔ ∃ n, s.Writes n key
  once : ∀ key n n', s.Writes n key → s.Writes n' key → n = n'
  writes : ∀ name n c, s.names.get? name = some n → s.held.lookup n = some c →
    c.state = .writable → c.driver.capabilities.singleWriter = true → ∃ key, s.Writes n key
  /-- Only a client that was opened to write lingers, and only once it is closed, or gone but for its
  iterators. -/
  lingers : ∀ n key, s.Lingers n key → ∃ c, s.held.lookup n = some c ∧ c.readonly = false ∧
    (c.closed = true ∨ ¬ s.Names n ∧ s.Iterates n)
  opens : ∀ catalog backend b o settings, catalog.backends.get? backend = some b →
    b.SingleWriter → s.Opens catalog backend b o settings

namespace Orderly

variable {ended : Set Nat} {s : Session} {n : Nat} {key : String}

theorem lease_iff (hs : Orderly ended ∅ s) :
    s.Writes n key ↔ ∃ c, (n, c) ∈ s.held ∧ c.lease = some key := by
  constructor
  · rintro ⟨-, c, hc, -, hlease⟩
    exact ⟨c, mem_held_of_lookup hc, hlease⟩
  · rintro ⟨c, hc, hlease⟩
    obtain ⟨hn, hstate, -⟩ := (hs.leased _ hc).1 (Option.ne_none_iff_exists'.2 ⟨key, hlease⟩)
    exact ⟨hn, c, hs.lookup_eq_some_iff.2 hc, hstate, hlease⟩

theorem leases_iff (hs : Orderly ended ∅ s) :
    s.host.leases.contains key = true ↔ ∃ n, s.Writes n key := by
  rw [hs.ledger.leases]
  simp only [hs.lease_iff, Set.empty_union, Set.mem_ofPred_eq, Prod.exists]

/-- The directory of a store is locked only by a client that writes to it, or lingers. -/
theorem of_lockedAt (hs : Orderly ended ∅ s) (hlocked : s.host.LockedAt key) :
    ∃ n, s.Writes n key ∨ s.Lingers n key := by
  obtain ⟨here, mark, hplace, rfl, hlocked⟩ := hlocked
  obtain ⟨⟨n, c⟩, hc, d, hd, howns⟩ := hs.ledger.locks _ _ hlocked
  rw [Set.empty_union] at hc
  refine ⟨n, ?_⟩
  obtain ⟨hmark, here', hplace', hhere, hlease⟩ | ⟨live, -, -, hwriter⟩ := howns
  · obtain rfl := FileTree.child_join_inj hplace hplace' Disk.Volume.isOther_lockFile.isEntry hhere
    cases hkey : c.lease with
    | some key => exact .inl (hs.lease_iff.2 ⟨c, hc, by rw [hkey, hlease key hkey]⟩)
    | none =>
      have hlock : c.driver.lock? = some mark := by
        change c.driver = _ at hd
        rw [hd]
        exact hmark
      exact .inr ⟨c, here, mark, hs.lookup_eq_some_iff.2 hc, hkey, hlock, hplace, rfl, hlocked⟩
  · exact absurd hwriter (Disk.not_isWriterLock _)

theorem oneWriter (hs : Orderly ended ∅ s) (hswept : s.Swept) : OneWriter s where
  leases _ := hs.leases_iff
  once key n n' hn hn' := by
    obtain ⟨c, hc, hlease⟩ := hs.lease_iff.1 hn
    obtain ⟨c', hc', hlease'⟩ := hs.lease_iff.1 hn'
    exact congrArg Prod.fst (hs.ledger.once _ (.inr hc) _ (.inr hc') key hlease hlease')
  writes name n c hname hc hstate hwriter := by
    obtain ⟨key, hlease⟩ := Option.ne_none_iff_exists'.1
      ((hs.leased _ (mem_held_of_lookup hc)).2 ⟨⟨name, hname⟩, hstate, hwriter⟩)
    exact ⟨key, ⟨name, hname⟩, c, hc, hstate, hlease⟩
  lingers n key := by
    rintro ⟨c, here, mark, hc, hlease, hlock, -⟩
    have hheld := mem_held_of_lookup hc
    have hwritable : c.readonly = false := by
      by_contra hreadonly
      cases hlock.symm.trans (hs.free _ hheld (.inr (by simpa using hreadonly)))
    refine ⟨c, hc, hwritable, or_iff_not_imp_left.2 fun hclosed => ?_⟩
    have hnames : ¬ s.Names n := fun hn => (hs.leased _ hheld).2
      ⟨hn, by simp [Client.state, hclosed, hwritable], Driver.singleWriter_of_lock? hlock⟩ hlease
    exact ⟨hnames, (refersTo_iff.1 (hswept _ hheld)).resolve_left hnames⟩
  opens catalog backend b o settings hb hwriter := {
    held store h hrun := by
      obtain ⟨hwritable, key, hkey, hheld⟩ := Client.held_of_connect hb hwriter hrun
      refine ⟨hwritable, key, ?_⟩
      obtain hleased | hlocked := hheld
      · obtain ⟨n, hn⟩ := hs.leases_iff.1 hleased
        exact ⟨n, hkey, .inl hn⟩
      · obtain ⟨n, hn⟩ := hs.of_lockedAt hlocked
        exact ⟨n, hkey, hn⟩
    writer key n hwritable hkey hn := by
      by_cases hlocked : s.host.LockedAt key
      · exact .inl (Client.connect_of_lockedAt hb hwritable hkey hlocked)
      · exact (Client.connect_of_leased hb hwriter hwritable hkey (hs.leases_iff.2 ⟨n, hn⟩)).imp id
          fun h => ⟨hlocked, h⟩
    lingerer key n hwritable hkey hn := by
      obtain ⟨c, here, mark, -, -, -, hplace, rfl, hlocked⟩ := hn
      exact Client.connect_of_lockedAt hb hwritable hkey ⟨here, mark, hplace, rfl, hlocked⟩
    leased c h hwritable hrun := by
      obtain ⟨hasked, hlease⟩ := Client.lease_of_connect hb hwriter hwritable hrun
      obtain ⟨key, hkey⟩ := Option.ne_none_iff_exists'.1 hlease
      exact ⟨key, hkey, hasked.symm.trans hkey⟩ }

end Orderly

/-- **One writer to a store.** After every run, the leases that are taken are those of the clients that
are open to write under their names, one to a store. A client is refused for a lock only where it would
write, and another writes or lingers: that was closed or destroyed with a failure, or is gone while an
iterator of it is left. -/
theorem one_writer {h : Host} (hleases : h.leases = ∅)
    (hlocks : ∀ k mark, ¬ h.volume.Locked k mark) (es : List Event) :
    let s := (new h).after es
    s.OneWriter ∧
      -- Whoever was closed or destroyed without failing does not linger.
      ∀ name n c r x, s.names.get? name = some n → s.held.lookup n = some c → c.closed = false →
        r = .close ∨ r = .destroy → r.perform (c, s.host) = .ok () x →
        ∀ es' key, ¬ ((s.apply (.ask name r)).after es').Lingers n key := by
  intro s
  obtain ⟨hnew, hswept⟩ := orderly_new hleases hlocks
  obtain ⟨hs, hswept⟩ := hnew.after hswept es
  refine ⟨hs.oneWriter hswept, fun name n c r x hname hc hopen hr hrun es' key => ?_⟩
  have hasked : s.apply (.ask name r) = s.put n x.1 x.2 := by
    simp [apply, run, runAt, hname, hc, hrun]
  obtain ⟨hs', hswept'⟩ := hs.apply hswept (.ask name r)
  have hheld : (n, x.1) ∈ (s.apply (.ask name r)).held := by
    rw [hasked]
    exact (Orderly.mem_put (mem_held_of_lookup hc)).2 (.inl rfl)
  obtain ⟨hs'', -⟩ := (hs'.ends hheld (Client.lock?_of_ended hr hopen hrun)).after hswept' es'
  rintro ⟨c', -, mark, hc', -, hlock, -⟩
  cases hlock.symm.trans (hs''.free _ (mem_held_of_lookup hc') (.inl (.inl rfl)))

/-- A client opens a store to write. -/
def writing : List Event :=
  [.openClient "a" .builtin "tantivy" { BackendOptions.none with path := some "d/s" } .default]

/-- Who opens the store to write, too, is refused. -/
theorem one_writer_writing :
    (∃ n, (oneDirectory.after writing).Writes n "tantivy:d/s") ∧
      ∃ store h, Client.connect .builtin "tantivy" { BackendOptions.none with path := some "d/s" }
        .default (oneDirectory.after writing).host = .error (.exclusiveLockHeld store) h := by
  obtain ⟨hs, -⟩ := one_writer (h := .initial Text.stems ["d"] (.fresh true) "") rfl
    (fun _ _ => Disk.Volume.not_locked_ofDirectories ["d"] 0) writing
  obtain ⟨n, hn⟩ := (hs.leases "tantivy:d/s").1 (by decide +kernel)
  have hkey : Backend.disk.storeKey? { BackendOptions.none with path := some "d/s" }
      (oneDirectory.after writing).host = some "tantivy:d/s" := by
    decide +kernel
  have hholder : ((oneDirectory.after writing).host.volume.files.fileAt?
      (child (join ["s", "d"]) Disk.Volume.lockFile)).map (·.holder) = some (some 0) := by
    decide +kernel
  have hplace : FileTree.IsPlace ["s", "d"] :=
    .entry ⟨⟨by decide, by decide⟩, by decide, by decide⟩
      (.entry ⟨⟨by decide, by decide⟩, by decide, by decide⟩ .relative)
  have hopens := hs.opens .builtin "tantivy" .disk
    { BackendOptions.none with path := some "d/s" } .default rfl (.inr rfl)
  refine ⟨⟨n, hn⟩, (hopens.writer _ n rfl hkey hn).resolve_right fun h => h.1 ?_⟩
  obtain ⟨f, hf, hmark⟩ := Option.map_eq_some_iff.1 hholder
  exact ⟨["s", "d"], 0, hplace, rfl, f, hf, hmark⟩

/-- A client gives an iterator and is gone. -/
def iterating : List Event := writing ++ [.openDocuments "a" "k", .forget "a"]

/-- The store in the enclosing directory is destroyed beneath a client. Another that would write is
refused, but leaves the directory, and the client writes into it. -/
def enclosed : List Event :=
  [.openClient "outer" .builtin "tantivy" { BackendOptions.none with path := some "d" } .default,
    .openClient "inner" .builtin "tantivy" { BackendOptions.none with path := some "d/s" } .default,
    .ask "outer" .destroy,
    .openClient "other" .builtin "tantivy" { BackendOptions.none with path := some "d/s" } .default,
    .ask "inner" (.write .fresh ⟨[("title", .text "red boat")]⟩)]

/-- For an iterator alone, a store cannot be opened to write; and where a store was destroyed beneath
a client that writes, another is refused for the lock of the index. -/
theorem refused_otherwise :
    ((oneDirectory.after iterating).names = ∅ ∧
      ∃ h, Client.connect .builtin "tantivy" { BackendOptions.none with path := some "d/s" }
        .default (oneDirectory.after iterating).host = .error (.exclusiveLockHeld "d/s") h) ∧
    (oneDirectory.after enclosed).host.leases.contains "tantivy:d/s" = true ∧
      ∃ h, Client.connect .builtin "tantivy" { BackendOptions.none with path := some "d/s" }
        .default (oneDirectory.after enclosed).host =
          .error (.index "failed to create index writer" (some "there is another")) h := by
  have hiterating : (oneDirectory.after iterating).names = ∅ ∧
      ((Client.connect .builtin "tantivy" { BackendOptions.none with path := some "d/s" }
        .default).outcome (oneDirectory.after iterating).host).map (fun _ => ()) =
          .error (.exclusiveLockHeld "d/s") := by
    decide +kernel
  have henclosed : (oneDirectory.after enclosed).host.leases.contains "tantivy:d/s" = true ∧
      ((Client.connect .builtin "tantivy" { BackendOptions.none with path := some "d/s" }
        .default).outcome (oneDirectory.after enclosed).host).map (fun _ => ()) =
          .error (.index "failed to create index writer" (some "there is another")) := by
    decide +kernel
  exact ⟨hiterating.imp_right fun h => Action.outcome_eq_error.1 (Except.map_eq_error.1 h),
    henclosed.imp_right fun h => Action.outcome_eq_error.1 (Except.map_eq_error.1 h)⟩

end Searchlight.Session
