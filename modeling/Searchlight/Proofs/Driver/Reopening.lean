import Searchlight.Proofs.Disk.Opening
import Searchlight.Proofs.Driver.Use

/-!
# Drivers and the schemas on disk

What stores on disk keep, told of drivers: a store that is open and has no index in use can make one
(`prepared_invariant`), and no schema in a directory gets out of date by what a driver does, but for
placing a document (`keepsUnless_index`) and for committing over an index that was taken away
(`keeps_commit_settled`).
-/

namespace Searchlight

open Searchlight.Action (Keeps KeepsUnless FailsAs)

namespace Driver

def Prepared : Driver → Prop
  | disk s => s.Prepared
  | _ => True

/-- The writer of a store on disk writes an index in the directory that is not there as it was
made. -/
def Strays (d : Driver) (v : Disk.Volume) (directory : String) : Prop :=
  match d with
  | disk s => s.Strays v directory
  | _ => False

/-- A store on disk has put its schema beside an index that lacks one of the fields. -/
def Oversteps (d : Driver) (v : Disk.Volume) (directory : String) : Prop :=
  match d with
  | disk s => s.Oversteps v directory
  | _ => False

theorem prepared_work {α : Type} {V : Disk.Volume → Prop} {memory : Action Memory.Store α}
    {sets : SetStore.Work α} {disk : Disk.Work α}
    (hdisk : Keeps (Disk.Store.On V) disk fun _ => True) :
    Keeps (On Prepared V) (work memory sets disk) fun _ => True :=
  keeps_work .nothing (fun _ => .nothing) .nothing hdisk

section
variable {V : Disk.Volume → Prop} (hV : ∀ v v', Disk.Volume.Alike v v' → V v → V v')
include hV

theorem prepared_calmKeeper : CalmKeeper Prepared V where
  memory _ _ _ _ := trivial
  limited _ _ _ _ _ := trivial
  ids offset limit := Disk.Store.keeps_ids_on hV offset limit
  search q offset limit := Disk.Store.keeps_search_on hV q offset limit
  cancel := Disk.Store.keeps_cancel_on hV

/-- What stores on disk keep whatever is done with them, but for placing and committing
documents. -/
theorem prepared_steady
    (hremove : ∀ path, Keeps V (Disk.Volume.removeDirectory path) fun _ => True) :
    Steady (On Prepared V) where
  calm := (prepared_calmKeeper hV).keeps_calm
  registerField name config := by
    refine prepared_work <| Keeps.get.bind fun (s, v) hs =>
      Keeps.bind (.ofExcept fun _ h => h) fun t ht => ?_
    refine .set ⟨?_, hs.2⟩
    rcases Disk.Store.registerField_eq_ok ht with ⟨-, rfl⟩ | ⟨-, -, rfl⟩
    · exact hs.1
    · exact ⟨fun _ _ => rfl, hs.1.pending, hs.1.path⟩
  destroy := prepared_work (Disk.Store.keeps_destroy_on hV hremove)
  aside _ _ h' hv _ hx := ⟨hx.1, show V h'.volume from hv ▸ hx.2⟩

theorem prepared_opening
    (hopen : ∀ analyze o, Keeps V (Disk.Store.openWith analyze o) Disk.Store.Prepared) :
    Opening Prepared fun h => V h.volume where
  openStore := Catalog.keeps_openStore trivial (fun _ => trivial) (fun _ => trivial) hopen
  schemaSnapshot := prepared_work (Keeps.get.bind fun _ _ => .pure trivial)
  drop := by
    have hI := Disk.Store.on_lasting hV
    exact prepared_work (hI.keeps_stopWriter.seq fun _ => hI.keeps_releaseLock)
  aside _ _ h' hv _ hx := ⟨hx.1, show V h'.volume from hv ▸ hx.2⟩

end

theorem keepsUnless_work {α : Type} {P : Driver → Prop} {V : Disk.Volume → Prop}
    {E : Error → Driver × Host → Prop} {F : Error → Disk.Store × Disk.Volume → Prop}
    {memory : Action Memory.Store α} {sets : SetStore.Work α} {disk : Disk.Work α}
    (hmemory : Keeps (fun s => P (.memory s)) memory fun _ => True)
    (hlimited : ∀ key, Keeps (fun s => P (.limited key s)) memory fun _ => True)
    (hsets : Keeps (SetStore.Store.Aside fun s => P (.sets s)) sets fun _ => True)
    (hdisk : KeepsUnless F (OnDisk P V) disk)
    (hfail : ∀ e s v (h : Host), F e (s, v) → E e (.disk s, { h with volume := v })) :
    KeepsUnless E (On P V) (work memory sets disk) := by
  -- Other stores do not care for what is done on disk.
  have hother : Keeps (On P V) (work memory sets (throw .clientClosed)) fun _ => True :=
    keeps_work hmemory hlimited hsets .throw
  intro (d, h) hs
  cases d with
  | disk s =>
    have := hdisk (s, h.volume) hs
    rw [work_disk]
    cases hr : disk (s, h.volume) <;> rw [hr] at this
    · exact this
    · exact this.imp id (hfail _ _ _ h)
  | memory s => exact hother.unless (.memory s, h) hs
  | limited key s => exact hother.unless (.limited key s, h) hs
  | sets s => exact hother.unless (.sets s, h) hs

theorem keepsUnless_index {V : Disk.Volume → Prop} {E : Error → Driver × Host → Prop}
    {F : Error → Disk.Store × Disk.Volume → Prop}
    (hdisk : ∀ p id, KeepsUnless F (Disk.Store.On V) (Disk.Store.index p id))
    (hfail : ∀ e s v (h : Host), F e (s, v) → E e (.disk s, { h with volume := v }))
    (p : PreparedDocument) (id : Option String) : KeepsUnless E (On Prepared V) (index p id) := by
  refine Keeps.get.unless.bind fun (_, h) => ?_
  refine (keepsUnless_work (P := Prepared) ?_ (fun _ => ?_) ?_ (hdisk p _) hfail).bind
    fun given => Keeps.unless (Q := fun _ => True) ?_
  · exact Keeps.seq (.modify fun _ _ => trivial) fun _ => .pure trivial
  · exact Keeps.seq (.modify fun _ _ => trivial) fun _ => .pure trivial
  · exact SetStore.Store.keeps_index p id
  · exact .ite (fun _ => Keeps.seq (.modify fun _ hs => hs) fun _ => .pure trivial)
      fun _ => .pure trivial

/-- Of all drivers, those of stores that are open can make an index. -/
theorem prepared_invariant : Invariant Prepared fun _ => True :=
  have hV : ∀ v v' : Disk.Volume, v.Alike v' → True → True := fun _ _ _ _ => trivial
  have hcommit : Keeps (Disk.Store.On fun _ => True) Disk.Store.commit fun _ => True :=
    (Disk.Store.on_lasting hV).keeps_commit fun _ _ _ hs => hs
  have hsteady : Steady (Under Prepared fun _ => True) := prepared_steady hV fun _ => .nothing
  have hopening : Opening Prepared fun _ => True :=
    prepared_opening hV fun analyze o =>
      Disk.Store.keeps_openWith_on hV (fun _ => .nothing) analyze o
  { hsteady, hopening with
    index := fun p id =>
      (keepsUnless_index (E := fun _ _ => False) (F := fun _ _ => False)
        (Disk.Store.keepsUnless_index fun _ _ _ _ => Keeps.nothing.unless) (fun _ _ _ _ h => h)
        p id).keeps
    delete := fun id =>
      (prepared_calmKeeper hV).keeps_delete (Disk.Store.keeps_delete_on (V := fun _ => True) id)
    commit := prepared_work hcommit
    close := prepared_work ((Disk.Store.on_lasting hV).keeps_close hcommit) }

section
variable {directory : String} {u : Disk.Volume}

/-- The writer of a store on disk, if it writes in the directory, writes an index that is there as
it was made. -/
def Settled (directory : String) (u : Disk.Volume) (x : Driver × Host) : Prop :=
  x.1.Prepared ∧ ¬ x.1.Strays x.2.volume directory ∧ Disk.Volume.Stays directory u x.2.volume

theorem settled_aside : Aside (Settled directory u) := by
  intro d h h' hv _ hx
  rw [Settled, hv]
  exact hx

theorem keeps_idle {α : Type} {a : α} {disk : Disk.Work α}
    (hdisk : Keeps (Disk.Store.Settled directory u) disk fun _ => True) :
    Keeps (Settled directory u) (work (pure a) (pure a) disk) fun _ => True := by
  intro (d, h) hs
  cases d with
  | disk s =>
    have := hdisk (s, h.volume) hs
    rw [work_disk]
    cases hr : disk (s, h.volume) <;> rw [hr] at this <;> exact this
  | memory s => exact ⟨hs, trivial⟩
  | limited key s => exact ⟨hs, trivial⟩
  | sets s => exact ⟨hs, trivial⟩

theorem keeps_commit_settled : Keeps (Settled directory u) commit fun _ => True :=
  keeps_idle Disk.Store.keeps_commit_settled

theorem keeps_close_settled : Keeps (Settled directory u) close fun _ => True :=
  keeps_idle Disk.Store.keeps_close_settled

end

theorem failsAs_drop {P : Error → Prop} : FailsAs P drop := by
  have hstop : FailsAs P Disk.Store.stopWriter := .get_bind fun (s, _) => by
    dsimp only
    split
    · exact .pure
    · exact (Disk.Live.failsAs_stop _).second.bind fun _ => .modify
  have hunlock : FailsAs P Disk.Store.releaseLock := .get_bind fun _ =>
    (FailsAs.forM_option fun mark => (Disk.Volume.failsAs_release mark).second).bind
      fun _ => .modify
  intro (d, h) e x hr
  cases d with
  | disk s =>
    rw [drop, work_disk] at hr
    cases hw : Disk.Store.abandon (s, h.volume) with
    | ok a y =>
      rw [hw] at hr
      cases hr
    | error e y =>
      rw [hw] at hr
      cases hr
      exact (hstop.bind fun _ => hunlock) _ _ _ hw
  | memory s => cases hr
  | limited key s => cases hr
  | sets s => cases hr

end Driver

end Searchlight
