import Searchlight.Proofs.Client.Invariant
import Searchlight.Proofs.Client.Opening

/-!
# Clients and the schemas on disk

A schema in a directory gets out of date by two kinds of requests (`Client.Spoils`) and by no other.
To open a client at an index that lacks a field fails only where the schema is out of date.
-/

namespace Searchlight

open Searchlight.Action (Keeps KeepsUnless)

/-! ## Requests -/

namespace Client

variable {directory name : String} {u : Disk.Volume} {c : Client} {h h' : Host}

/-- A request by which a schema may have got out of date: a document was placed where there is an
index of other fields, or changes were committed over an index that was taken away. -/
inductive Spoils (c : Client) (h : Host) (directory : String) : Request → Prop where
  | oversteps {target : WriteTarget} {doc : Document} {c' : Client} {h' : Host}
    (hrun : write target doc (c, h) = .error Disk.Live.indexExists (c', h'))
    (hover : c'.driver.Oversteps h'.volume directory) : Spoils c h directory (.write target doc)
  | strays {r : Request} (hr : r = .question .commit ∨ r = .close)
    (hstrays : c.driver.Strays h.volume directory) : Spoils c h directory r

/-- A document is placed without harm, or the schema came in the way of another index. -/
theorem keepsUnless_write (target : WriteTarget) (doc : Document) :
    KeepsUnless
      (fun e x => e = Disk.Live.indexExists ∧ x.1.driver.Oversteps x.2.volume directory)
      (Along (Driver.On Driver.Prepared (Disk.Volume.Stays directory u))) (write target doc) := by
  have hsteady := Driver.prepared_steady (Disk.Store.stays_of_alike (d := directory) (u := u))
    fun _ => Disk.Volume.keeps_removeDirectory_stays
  refine (hsteady.serves.keeps_prepareWrite target doc).unless.bind fun (plan, prepared) => ?_
  have hindex := Driver.keepsUnless_index
    (E := fun e x => e = Disk.Live.indexExists ∧ x.1.Oversteps x.2.volume directory)
    (Disk.Store.keepsUnless_index_stays (d := directory) (u := u)) (fun _ _ _ _ h => h)
    prepared target.id?
  refine KeepsUnless.bind (hindex.focus (fun _ h => h) (fun _ _ _ h => h) fun _ _ _ _ h => h)
    fun id => Keeps.unless (Q := fun _ => True) ?_
  exact Keeps.seq (.modify fun _ h => h) fun _ => .pure trivial

/-- **A request** makes no schema out of date in any other way. -/
theorem stays_perform (hc : c.driver.Prepared) {r : Request} (hr : ¬ c.Spoils h directory r) :
    Disk.Volume.Stays directory h.volume (r.perform.after (c, h)).2.volume := by
  have hstart : Along (Driver.On Driver.Prepared (Disk.Volume.Stays directory h.volume)) (c, h) :=
    ⟨hc, .refl directory h.volume⟩
  have hsettled (hcommits : r = .question .commit ∨ r = .close) :
      Along (Driver.Settled directory h.volume) (c, h) :=
    ⟨hc, fun hstrays => hr (.strays hcommits hstrays), .refl directory h.volume⟩
  have hsteady := Driver.prepared_steady
    (Disk.Store.stays_of_alike (d := directory) (u := h.volume))
    fun _ => Disk.Volume.keeps_removeDirectory_stays
  by_cases hcommits : r = .question .commit ∨ r = .close
  · rcases hcommits with rfl | rfl
    · have hkeeps : Keeps (Along (Driver.Settled directory h.volume)) commit fun _ => True :=
        keeps_ensureOpen.seq fun _ => keeps_drive Driver.keeps_commit_settled
      exact (hkeeps.after (hsettled (.inl rfl))).2.2
    · have hkeeps : Keeps (Along (Driver.Settled directory h.volume)) close fun _ => True :=
        Driver.settled_aside.keeps_close Driver.keeps_close_settled
      exact (hkeeps.after (hsettled (.inr rfl))).2.2
  rw [not_or] at hcommits
  cases r with
  | write target doc =>
    have hwrite := keepsUnless_write target doc (c, h) hstart
    rw [Request.perform, after_void, Action.after]
    cases hrun : write target doc (c, h) with
    | ok id x =>
      rw [hrun] at hwrite
      exact hwrite.2
    | error e x =>
      rw [hrun] at hwrite
      rcases hwrite with hwrite | ⟨rfl, hover⟩
      · exact hwrite.2
      · exact absurd (.oversteps hrun hover) hr
  | question q =>
    refine ((hsteady.keeps_perform (.question q) fun hx => ?_).after hstart).2
    cases hx with
    | delete id =>
      exact (Driver.prepared_calmKeeper Disk.Store.stays_of_alike).keeps_delete
        (Disk.Store.keeps_delete_on id)
    | commit => exact absurd rfl hcommits.1
  | registerField name config =>
    refine ((hsteady.keeps_perform (.registerField name config) fun hx => ?_).after hstart).2
    cases hx
  | close => exact absurd rfl hcommits.2
  | destroy =>
    refine ((hsteady.keeps_perform .destroy fun hx => ?_).after hstart).2
    cases hx

/-! ## Opening -/

/-- **No index that lacks a field** is met where no schema is out of date. -/
theorem connect_eq_error {catalog : Catalog} {backend : String} {o : BackendOptions}
    {settings : ClientSettings} (hbackend : catalog.backends.get? backend = some .disk)
    (hconnect : connect catalog backend o settings h = .error (Disk.missingField name) h') :
    ∃ path here, o.path = some path ∧ h'.volume.files.Leads path here ∧
      h.volume.OutOfDate (FileTree.join here) := by
  obtain ⟨e, h₁, hopen, hrun⟩ | ⟨d, h₁, hopen, hcases⟩ := connect_cases catalog backend o settings h <;>
    rw [Catalog.openStore_eq hbackend, Backend.openWith_disk_run] at hopen
  · cases hrun.symm.trans hconnect
    cases hr : Disk.Store.openWith h.analyze o h.volume with
    | ok s v => simp [hr] at hopen
    | error e v =>
      rw [hr] at hopen
      cases hopen
      exact Disk.Store.openWith_eq_error hr
  · obtain ⟨s, rfl⟩ : ∃ s, d = .disk s := by
      cases hr : Disk.Store.openWith h.analyze o h.volume with
      | error e v => simp [hr] at hopen
      | ok s v =>
        rw [hr] at hopen
        cases hopen
        exact ⟨s, rfl⟩
    -- Once the driver is open, only the lease can be missed.
    obtain ⟨key, -, -, hrun⟩ | ⟨-, ⟨e, d', h₂, hread, -⟩ | ⟨schema, d', h₂, -, hrun⟩⟩ := hcases
    · cases hrun.symm.trans hconnect
    · cases hread
    · cases hrun.symm.trans hconnect

end Client

end Searchlight
