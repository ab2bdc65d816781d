import Searchlight.Driver.Catalog
import Searchlight.Proofs.Disk.Sound
import Searchlight.Proofs.Driver.Registering

/-!
# What the use of a driver keeps

Documents are kept and searched with a handful of operations of a driver (`Use`). What holds of a
driver and of the volume of its host is kept by all of them if it does not depend on the documents
in memory and the operations of stores on disk keep it (`Keeper`): stores on a key server are not
changed by use at all. What all other work of drivers keeps as well is an `Invariant`.
-/

namespace Searchlight

open Searchlight.Action (Keeps)

namespace SetStore.Store

variable {α : Type} {P : Store → Prop}

def Aside (P : Store → Prop) (x : Store × Server) : Prop := P x.1

theorem keeps_second {x : Action Server α} : Keeps (Aside P) (Action.second x) fun _ => True := by
  intro (s, v) h
  rw [Action.second, Action.focus]
  cases x v
  · exact ⟨h, trivial⟩
  · exact h

theorem keeps_ask {e : String → Error} {c : Command} {decode : Reply → Option α} :
    Keeps (Aside P) (ask e c decode) fun _ => True :=
  Keeps.get.bind fun _ _ => keeps_second.seq fun _ => .ofExcept fun _ _ => trivial

theorem keeps_transact {e : String → Error} {cs : List Command} :
    Keeps (Aside P) (transact e cs) fun _ => True :=
  Keeps.get.bind fun _ _ => keeps_second.seq fun _ => .ofExcept fun _ _ => trivial

theorem keeps_ensureWritable {operation : String} :
    Keeps (Aside P) (ensureWritable operation) fun _ => True :=
  Keeps.get.bind fun _ _ => .ite (fun _ => .throw) fun _ => .pure trivial

theorem keeps_index (d : PreparedDocument) (id : Option String) :
    Keeps (Aside P) (index d id) fun _ => True := by
  refine keeps_ensureWritable.seq fun _ => Keeps.get.bind fun (s, _) _ => ?_
  have hplace (x : String × List String) : Keeps (Aside P) (do
      let _ ← transact writeFailure (link s.keys x.1 x.2 d)
      return x.1) fun _ => True := keeps_transact.seq fun _ => .pure trivial
  cases id with
  | some id =>
    exact Keeps.seq (Keeps.get.bind fun _ _ => keeps_ask) fun _ => Keeps.seq (.pure trivial) hplace
  | none => exact Keeps.seq keeps_ask fun _ => Keeps.seq (.pure trivial) hplace

theorem keeps_contains (id : String) : Keeps (Aside P) (contains id) fun _ => True :=
  Keeps.get.bind fun _ _ => keeps_ask.seq fun _ => .pure trivial

theorem keeps_delete (id : String) : Keeps (Aside P) (delete id) fun _ => True :=
  keeps_ensureWritable.seq fun _ => (keeps_contains id).seq fun _ =>
    .ite (fun _ => .throw) fun _ => Keeps.seq (Keeps.get.bind fun _ _ => keeps_ask) fun _ =>
      Keeps.get.bind fun _ _ => keeps_transact.seq fun _ => .pure trivial

theorem keeps_get? (id : String) : Keeps (Aside P) (get? id) fun _ => True :=
  Keeps.get.bind fun _ _ => keeps_ask.seq fun o => by
    cases o with
    | none => exact .pure trivial
    | some json => exact Keeps.seq (.ofExcept fun _ _ => trivial) fun _ => .pure trivial

theorem keeps_count : Keeps (Aside P) count fun _ => True :=
  Keeps.get.bind fun _ _ => keeps_ask

theorem keeps_ids (offset limit : Nat) : Keeps (Aside P) (ids offset limit) fun _ => True :=
  .ite (fun _ => .pure trivial) fun _ => Keeps.get.bind fun _ _ => keeps_ask

theorem keeps_search (p : Plan) (offset limit : Nat) :
    Keeps (Aside P) (search p offset limit) fun _ => True :=
  Keeps.get.bind fun _ _ => keeps_transact.seq fun _ =>
    Keeps.seq (.ofExcept fun _ _ => trivial) fun _ => .ite (fun _ => .pure trivial) fun _ =>
      keeps_ask.seq fun _ => Keeps.seq (.ofExcept fun _ _ => trivial) fun _ => .pure trivial

end SetStore.Store

namespace Driver

inductive Calm : {α : Type} → DriverWork α → Prop where
  | contains (id : String) : Calm (contains id)
  | get? (id : String) : Calm (get? id)
  | count : Calm count
  | ids (offset limit : Nat) : Calm (ids offset limit)
  | search (q : NativeQuery) (offset limit : Nat) : Calm (search q offset limit)
  | cancel : Calm cancel

/-- The work of a driver that documents are kept and searched with. -/
inductive Use : {α : Type} → DriverWork α → Prop where
  | index (d : PreparedDocument) (id : Option String) : Use (index d id)
  | delete (id : String) : Use (delete id)
  | commit : Use commit
  | calm {α : Type} {x : DriverWork α} (hx : Calm x) : Use x

variable {α : Type} {P : Driver → Prop} {V : Disk.Volume → Prop}

def On (P : Driver → Prop) (V : Disk.Volume → Prop) (x : Driver × Host) : Prop :=
  P x.1 ∧ V x.2.volume

def OnDisk (P : Driver → Prop) (V : Disk.Volume → Prop) (x : Disk.Store × Disk.Volume) : Prop :=
  P (.disk x.1) ∧ V x.2

/-- Work keeps what the work on each kind of store keeps. -/
theorem keeps_work {memory : Action Memory.Store α} {sets : SetStore.Work α}
    {disk : Disk.Work α} {Q : α → Prop} (hmemory : Keeps (fun s => P (.memory s)) memory Q)
    (hlimited : ∀ key, Keeps (fun s => P (.limited key s)) memory Q)
    (hsets : Keeps (SetStore.Store.Aside fun s => P (.sets s)) sets Q)
    (hdisk : Keeps (OnDisk P V) disk Q) : Keeps (On P V) (work memory sets disk) Q := by
  intro (d, h) ⟨hd, hv⟩
  cases d with
  | memory s =>
    have := hmemory s hd
    rw [work_memory]
    cases hr : memory s <;> rw [hr] at this
    · exact ⟨⟨this.1, hv⟩, this.2⟩
    · exact ⟨this, hv⟩
  | limited key s =>
    have := hlimited key s hd
    rw [work_limited]
    cases hr : memory s <;> rw [hr] at this
    · exact ⟨⟨this.1, hv⟩, this.2⟩
    · exact ⟨this, hv⟩
  | sets s =>
    have := hsets (s, h.server) hd
    rw [work_sets]
    cases hr : sets (s, h.server) <;> rw [hr] at this
    · exact ⟨⟨this.1, hv⟩, this.2⟩
    · exact ⟨this, hv⟩
  | disk s =>
    have := hdisk (s, h.volume) ⟨hd, hv⟩
    rw [work_disk]
    cases hr : disk (s, h.volume) <;> rw [hr] at this
    · exact this
    · exact this

/-- What holds of a driver whatever documents are in memory, and is kept by looking at documents on
disk. -/
structure CalmKeeper (P : Driver → Prop) (V : Disk.Volume → Prop) : Prop where
  memory : ∀ s t, t.schema = s.schema → P (.memory s) → P (.memory t)
  limited : ∀ key s t, t.schema = s.schema → P (.limited key s) → P (.limited key t)
  ids : ∀ offset limit, Keeps (OnDisk P V) (Disk.Store.ids offset limit) fun _ => True
  search : ∀ q offset limit, Keeps (OnDisk P V) (Disk.Store.search q offset limit) fun _ => True
  cancel : Keeps (OnDisk P V) Disk.Store.cancel fun _ => True

/-- What is kept by all that is done with documents on disk. -/
structure Keeper (P : Driver → Prop) (V : Disk.Volume → Prop) : Prop extends CalmKeeper P V where
  index : ∀ d id, Keeps (OnDisk P V) (Disk.Store.index d id) fun _ => True
  delete : ∀ id, Keeps (OnDisk P V) (Disk.Store.delete id) fun _ => True
  commit : Keeps (OnDisk P V) Disk.Store.commit fun _ => True

namespace CalmKeeper

variable (k : CalmKeeper P V)
include k

theorem work {memory : Action Memory.Store α} {sets : SetStore.Work α} {disk : Disk.Work α}
    (hmemory : ∀ I : Memory.Store → Prop, (∀ s t, t.schema = s.schema → I s → I t) →
      Keeps I memory fun _ => True)
    (hsets : ∀ I, Keeps (SetStore.Store.Aside I) sets fun _ => True)
    (hdisk : Keeps (OnDisk P V) disk fun _ => True) :
    Keeps (On P V) (Driver.work memory sets disk) fun _ => True :=
  keeps_work (hmemory _ k.memory) (fun key => hmemory _ (k.limited key)) (hsets _) hdisk

theorem keeps_calm {x : DriverWork α} (hx : Calm x) : Keeps (On P V) x fun _ => True := by
  cases hx with
  | contains id =>
    exact k.work (fun _ _ => Keeps.get.bind fun _ _ => .pure trivial)
      (fun _ => SetStore.Store.keeps_contains id) (Keeps.get.bind fun _ _ => .pure trivial)
  | get? id =>
    exact k.work (fun _ _ => Keeps.get.bind fun _ _ => .pure trivial)
      (fun _ => SetStore.Store.keeps_get? id)
      (Keeps.get.bind fun _ _ => .ofExcept fun _ _ => trivial)
  | count =>
    exact k.work (fun _ _ => Keeps.get.bind fun _ _ => .pure trivial)
      (fun _ => SetStore.Store.keeps_count) (Keeps.get.bind fun _ _ => .pure trivial)
  | ids offset limit =>
    exact k.work (fun _ _ => Keeps.get.bind fun _ _ => .pure trivial)
      (fun _ => SetStore.Store.keeps_ids offset limit) (k.ids offset limit)
  | search q offset limit =>
    refine k.work (fun _ _ => ?_) (fun _ => ?_) ?_
    · exact Keeps.seq (.ofExcept fun _ _ => trivial) fun _ => Keeps.get.bind fun _ _ =>
        .pure trivial
    · exact Keeps.seq (.ofExcept fun _ _ => trivial) fun _ =>
        SetStore.Store.keeps_search _ offset limit
    · exact Keeps.seq (.ofExcept fun _ _ => trivial) fun _ => k.search _ offset limit
  | cancel => exact k.work (fun _ _ => .pure trivial) (fun _ => .pure trivial) k.cancel

theorem keeps_delete {id : String}
    (hdisk : Keeps (OnDisk P V) (Disk.Store.delete id) fun _ => True) :
    Keeps (On P V) (delete id) fun _ => True := by
  refine k.work (fun I hI => ?_) (fun _ => SetStore.Store.keeps_delete id) hdisk
  intro s hs
  rw [Action.get_bind, Memory.Store.delete]
  by_cases hid : s.docs.contains id
  · rw [if_pos hid]
    exact ⟨hI s _ rfl hs, trivial⟩
  · rw [if_neg hid]
    exact hs

end CalmKeeper

/-- Every use of a driver keeps it. -/
theorem Keeper.keeps (k : Keeper P V) {x : DriverWork α} (hx : Use x) :
    Keeps (On P V) x fun _ => True := by
  cases hx with
  | calm h => exact k.keeps_calm h
  | commit => exact k.work (fun _ _ => .pure trivial) (fun _ => .pure trivial) k.commit
  | index d id =>
    refine Keeps.get.bind fun (_, h) _ => ?_
    refine Keeps.seq (k.work (fun I hI => ?_) (fun _ => SetStore.Store.keeps_index d id)
      (k.index d _)) fun _ => Keeps.ite (fun _ => ?_) fun _ => .pure trivial
    · exact Keeps.seq (.modify fun s hs => hI s _ rfl hs) fun _ => .pure trivial
    · exact Keeps.seq (.modify fun _ h => h) fun _ => .pure trivial
  | delete id => exact k.keeps_delete (k.delete id)

end Driver

/-! ## Opening -/

theorem Backend.openWith_disk_run {o : BackendOptions} {h : Host} : disk.openWith o h =
    match Disk.Store.openWith h.analyze o h.volume with
    | .ok s v => .ok (.disk s) { h with volume := v }
    | .error e v => .error e { h with volume := v } := by
  rw [openWith, Action.get_bind]
  simp only [Action.focus, Action.map_run]
  cases Disk.Store.openWith h.analyze o h.volume <;> rfl

theorem Catalog.openStore_eq {catalog : Catalog} {backend : String} {b : Backend} {o : BackendOptions}
    (hb : catalog.backends.get? backend = some b) : catalog.openStore backend o = b.openWith o := by
  rw [openStore, hb]

/-- What a store on disk has once it is open, and every other store has, is had by every store that
is opened. -/
theorem Catalog.keeps_openStore {P : Driver → Prop} {V : Disk.Volume → Prop}
    (hmemory : P (.memory .empty)) (hlimited : ∀ key, P (.limited key .empty))
    (hsets : ∀ s, P (.sets s))
    (hdisk : ∀ analyze o, Keeps V (Disk.Store.openWith analyze o) fun s => P (.disk s))
    (c : Catalog) (name : String) (o : BackendOptions) :
    Keeps (fun h : Host => V h.volume) (c.openStore name o) P := by
  rw [openStore]
  split
  · rename_i b _
    cases b with
    | memory => exact Keeps.seq (.ofExcept fun _ _ => trivial) fun _ => .pure hmemory
    | limited => exact Keeps.seq (.ofExcept fun _ _ => trivial) fun _ => .pure (hlimited _)
    | sets =>
      exact Keeps.focus (J := fun _ => True) (Keeps.map .nothing fun s _ => hsets s)
        (fun _ _ => trivial) fun _ _ h _ => h
    | disk =>
      exact Keeps.get.bind fun host _ =>
        Keeps.focus ((hdisk host.analyze o).map fun _ h => h) (fun _ h => h) fun _ _ _ h => h
  · exact .throw

namespace Driver

/-! ## Invariants -/

def Under (P : Driver → Prop) (H : Host → Prop) (x : Driver × Host) : Prop := P x.1 ∧ H x.2

def Aside (I : Driver × Host → Prop) : Prop :=
  ∀ ⦃d : Driver⦄ ⦃h h' : Host⦄, h'.volume = h.volume → h'.server = h.server → I (d, h) → I (d, h')

/-- What all work of a driver keeps by which no document is placed, removed or committed, whether it
succeeds or not. -/
structure Steady (I : Driver × Host → Prop) : Prop where
  calm : ∀ {α : Type} {x : DriverWork α}, Calm x → Keeps I x fun _ => True
  registerField : ∀ name config, Keeps I (registerField name config) fun _ => True
  destroy : Keeps I destroy fun _ => True
  aside : Aside I

structure Opening (P : Driver → Prop) (H : Host → Prop) : Prop where
  openStore : ∀ (catalog : Catalog) name o, Keeps H (catalog.openStore name o) P
  schemaSnapshot : Keeps (Under P H) schemaSnapshot fun _ => True
  drop : Keeps (Under P H) drop fun _ => True
  aside : Aside (Under P H)

/-- Something of a driver and something of the host that all work of drivers keeps. -/
structure Invariant (P : Driver → Prop) (H : Host → Prop) : Prop
    extends Steady (Under P H), Opening P H where
  index : ∀ d id, Keeps (Under P H) (index d id) fun _ => True
  delete : ∀ id, Keeps (Under P H) (delete id) fun _ => True
  commit : Keeps (Under P H) commit fun _ => True
  close : Keeps (Under P H) close fun _ => True

end Driver

end Searchlight
