import Searchlight.Proofs.Driver.Use
import Searchlight.Proofs.SetStore.Removing

/-!
# What stores keep on a key server

Whatever is to be kept on a key server is shown for the work of any one store. Most of that work
only looks: it keeps what the keys of the server decide on (`OfKeys`). To index, to delete and to
search is to give a few commands (`Command.Given`), so that what these keep is kept (`Kept`); what
is left are the fields that are registered and the stores that are removed. From there the work of
all drivers keeps it, and opening stores does (`Kept.invariant`).
-/

namespace Searchlight

open Searchlight.Action (Keeps)

namespace SetStore

variable {k : KeySpace} {J : Server → Prop}

/-! ## Looking -/

def OfKeys (J : Server → Prop) : Prop := ∀ ⦃v v' : Server⦄, v'.keys = v.keys → J v → J v'

namespace OfKeys

variable (hJ : OfKeys J)
include hJ

theorem ask {α : Type} {e : String → Error} {c : Command} {decode : Reply → Option α}
    (hc : c.writes = []) : Keeps (Store.OnServer k J) (Store.ask e c decode) fun _ => True :=
  Store.keeps_ask_server fun _ hv => hJ (Server.keys_run_of_writes_eq_nil hc) hv

theorem loadSchema : Keeps (Store.OnServer k J) Store.loadSchema fun _ => True :=
  Keeps.get.bind fun _ _ => Keeps.seq (hJ.ask rfl) fun _ =>
    Keeps.seq (.ofExcept fun _ _ => trivial) fun _ => Keeps.seq (.modify fun _ hs => hs) fun _ =>
      .pure trivial

theorem contains (id : String) : Keeps (Store.OnServer k J) (Store.contains id) fun _ => True :=
  Keeps.get.bind fun _ _ => Keeps.seq (hJ.ask rfl) fun _ => .pure trivial

theorem postingsOf (id : String) :
    Keeps (Store.OnServer k J) (Store.postingsOf id) fun _ => True :=
  Keeps.get.bind fun _ _ => hJ.ask rfl

theorem get? (id : String) : Keeps (Store.OnServer k J) (Store.get? id) fun _ => True :=
  Keeps.get.bind fun _ _ => Keeps.seq (hJ.ask rfl) fun o => by
    cases o with
    | none => exact .pure trivial
    | some json => exact Keeps.seq (.ofExcept fun _ _ => trivial) fun _ => .pure trivial

theorem count : Keeps (Store.OnServer k J) Store.count fun _ => True :=
  Keeps.get.bind fun _ _ => hJ.ask rfl

theorem ids (offset limit : Nat) :
    Keeps (Store.OnServer k J) (Store.ids offset limit) fun _ => True :=
  .ite (fun _ => .pure trivial) fun _ => Keeps.get.bind fun _ _ => hJ.ask rfl

end OfKeys

theorem Store.valid_ofOptions {o : BackendOptions} {s : Store} (h : Store.ofOptions o = .ok s) :
    KeySpace.IsValidStem s.keys.stem := by
  simp only [Store.ofOptions] at h
  obtain ⟨_, -, h⟩ := Except.bind_eq_ok.1 h
  split at h
  · cases h
  · rename_i hstem
    split at h
    · cases h
    · cases h
      exact not_not.1 hstem

theorem OfKeys.openWith (hJ : OfKeys J) (o : BackendOptions) :
    Keeps J (Store.openWith o) fun s => KeySpace.IsValidStem s.keys.stem := by
  refine Keeps.bind (.ofExcept fun _ hs => Store.valid_ofOptions hs) fun s hs => ?_
  refine Keeps.seq (Keeps.get.bind fun _ _ => .ite (fun _ => .throw) fun _ => .pure trivial)
    fun _ => Keeps.get.bind fun v hv => ?_
  have hload := hJ.loadSchema (k := s.keys) (s, v) ⟨rfl, hv⟩
  split
  · rename_i s' v' hrun
    rw [hrun] at hload
    obtain ⟨⟨hkeys, hv'⟩, -⟩ := hload
    have hs' : KeySpace.IsValidStem s'.keys.stem := by rwa [show s'.keys = s.keys from hkeys]
    exact Keeps.seq (.set hv') fun _ => .pure hs'
  · rename_i hrun
    rw [hrun] at hload
    exact Keeps.seq (.set hload.2) fun _ => .throw

/-! ## Documents -/

inductive Command.Given (k : KeySpace) : Command → Prop where
  | look {c : Command} (h : c.writes = []) : Given k c
  | number : Given k (.increment k.nextId)
  | text (id json : String) : Given k (.put (k.data id) json)
  | forget (id : String) : Given k (.delete [k.terms id, k.data id])
  | add {r : Role} (hr : r.kind = .set) (members : List String) : Given k (.add (r.key k) members)
  /-- An id is taken out of what was noted for it, whatever that is. -/
  | remove (key : String) (members : List String) : Given k (.remove key members)
  | result {step : Step} (name : String) (h : step.dest = (Role.temp name).key k) :
    Given k (.store step)
  | clear {keys : List String} (h : ∀ key ∈ keys, ∃ name, key = (Role.temp name).key k) :
    Given k (.delete keys)

namespace Store

theorem given_unlink (id : String) (previous : List String) :
    ∀ c ∈ unlink k id previous, c.Given k := by
  intro c hc
  simp only [unlink, List.mem_append, List.mem_map, List.mem_singleton] at hc
  rcases hc with ⟨key, -, rfl⟩ | rfl
  · exact .remove key [id]
  · exact .forget id

theorem given_link (id : String) (previous : List String) (d : PreparedDocument) :
    ∀ c ∈ link k id previous d, c.Given k := by
  intro c hc
  simp only [link, List.mem_append, List.mem_cons, List.not_mem_nil, or_false, List.mem_map] at hc
  rcases hc with ((hc | rfl | rfl) | ⟨key, hkey, rfl⟩) | hc
  · exact given_unlink id previous c hc
  · exact .text id _
  · rw [KeySpace.docs_eq_key]
    exact .add rfl [id]
  · obtain ⟨r, hr, rfl⟩ := k.exists_role_of_mem_postings hkey
    exact .add hr.kind [id]
  · split at hc
    · cases hc
    · obtain rfl := List.mem_singleton.1 hc
      rw [KeySpace.terms_eq_key]
      exact .add rfl _

theorem given_searchCommands (run : String) (plan : Plan) (offset limit : Nat) :
    ∀ c ∈ searchCommands (.compile k run plan) offset limit, c.Given k := by
  obtain ⟨hsteps, htemps⟩ := Program.writes_compileFrom (k.temp run) 0 plan
  have htemp : ∀ key ∈ (Program.compile k run plan).temps, ∃ name, key = (Role.temp name).key k := by
    intro key hkey
    obtain ⟨n, rfl⟩ := htemps key hkey
    exact ⟨_, KeySpace.temp_eq_key k run n⟩
  intro c hc
  simp only [searchCommands, List.mem_append, List.mem_map, List.mem_singleton] at hc
  rcases hc with ((⟨step, hstep, rfl⟩ | rfl) | hc) | hc
  · obtain ⟨name, hdest⟩ := htemp _ (hsteps step hstep)
    exact .result name hdest
  · exact .look rfl
  · split at hc
    · cases hc
    · rw [List.mem_singleton.1 hc]
      exact .look rfl
  · split at hc
    · cases hc
    · rw [List.mem_singleton.1 hc]
      exact .clear htemp

end Store

theorem Store.keeps_destroy_server
    (hJ : ∀ v v' : Server, (∀ key, v'.keys.get? key = if k.Owns key then none else v.keys.get? key) →
      J v → J v') : Keeps (Store.OnServer k J) Store.destroy fun _ => True := by
  rintro ⟨s, v⟩ ⟨rfl, hv⟩
  obtain ⟨-, -, v', hrun, -, hkeys, -⟩ | ⟨-, e, hrun⟩ := Store.destroy_cases s v
  · rw [hrun]
    exact ⟨⟨rfl, hJ v v' hkeys hv⟩, trivial⟩
  · rw [hrun]
    exact ⟨rfl, hv⟩

/-- Something that stores keep on a key server with all that they do with documents. -/
structure Kept (J : Server → Prop) : Prop where
  ofKeys : OfKeys J
  index : ∀ {k : KeySpace}, KeySpace.IsValidStem k.stem → ∀ d id,
    Keeps (Store.OnServer k J) (Store.index d id) fun _ => True
  delete : ∀ {k : KeySpace}, KeySpace.IsValidStem k.stem → ∀ id,
    Keeps (Store.OnServer k J) (Store.delete id) fun _ => True
  search : ∀ {k : KeySpace}, KeySpace.IsValidStem k.stem → ∀ plan offset limit,
    Keeps (Store.OnServer k J) (Store.search plan offset limit) fun _ => True

/-- **What the commands of stores keep** is kept. -/
theorem kept_of_given (hJ : OfKeys J)
    (hgiven : ∀ k : KeySpace, KeySpace.IsValidStem k.stem → ∀ c : Command, c.Given k →
      ∀ v, J v → J (v.run c).1) : Kept J := by
  have hask {k : KeySpace} (hk : KeySpace.IsValidStem k.stem) {α : Type} {e : String → Error}
      {c : Command} {decode : Reply → Option α} (hc : c.Given k) :
      Keeps (Store.OnServer k J) (Store.ask e c decode) fun _ => True :=
    Store.keeps_ask_server (hgiven k hk c hc)
  have htransact {k : KeySpace} (hk : KeySpace.IsValidStem k.stem) {e : String → Error}
      {cs : List Command} (hcs : ∀ c ∈ cs, c.Given k) :
      Keeps (Store.OnServer k J) (Store.transact e cs) fun _ => True := by
    refine Store.keeps_transact_server fun v hv => ?_
    induction cs generalizing v with
    | nil => exact hv
    | cons c cs ih =>
      rw [List.forall_mem_cons] at hcs
      exact ih hcs.2 _ (hgiven k hk c hcs.1 v hv)
  have hwritable {k : KeySpace} (operation : String) :
      Keeps (Store.OnServer k J) (Store.ensureWritable operation) fun _ => True :=
    Keeps.get.bind fun _ _ => .ite (fun _ => .throw) fun _ => .pure trivial
  refine ⟨hJ, fun {k} hk d id => ?_, fun {k} hk id => ?_, fun {k} hk plan offset limit => ?_⟩
  · refine (hwritable _).seq fun _ => Keeps.get.bind fun x hx => ?_
    have hkeys : x.1.keys = k := hx.1
    have hplace (y : String × List String) : Keeps (Store.OnServer k J) (do
        let _ ← Store.transact Store.writeFailure (Store.link x.1.keys y.1 y.2 d)
        return y.1) fun _ => True := by
      rw [hkeys]
      exact (htransact hk (Store.given_link y.1 y.2 d)).seq fun _ => .pure trivial
    cases id with
    | some id => exact Keeps.seq (hJ.postingsOf id) fun _ => Keeps.seq (.pure trivial) hplace
    | none =>
      have hnumber : Keeps (Store.OnServer k J)
          (Store.ask Store.writeFailure (.increment x.1.keys.nextId) Reply.nat?) fun _ => True := by
        rw [hkeys]
        exact hask hk .number
      exact Keeps.seq hnumber fun _ => Keeps.seq (.pure trivial) hplace
  · refine (hwritable _).seq fun _ => (hJ.contains id).seq fun _ => .ite (fun _ => .throw) fun _ =>
      (hJ.postingsOf id).seq fun postings => Keeps.get.bind fun x hx => ?_
    have hkeys : x.1.keys = k := hx.1
    dsimp only
    rw [hkeys]
    refine (htransact hk fun c hc => ?_).seq fun _ => .pure trivial
    rcases List.mem_append.1 hc with hc | hc
    · exact Store.given_unlink id postings c hc
    · rw [List.mem_singleton.1 hc]
      exact .remove k.docs [id]
  · refine Keeps.get.bind fun x hx => ?_
    have hkeys : x.1.keys = k := hx.1
    dsimp only
    rw [hkeys]
    refine (htransact hk (Store.given_searchCommands Store.runLabel plan offset limit)).seq fun _ => ?_
    exact Keeps.seq (.ofExcept fun _ _ => trivial) fun _ => .ite (fun _ => .pure trivial) fun _ =>
      Keeps.seq (hJ.ask rfl) fun _ => Keeps.seq (.ofExcept fun _ _ => trivial) fun _ => .pure trivial

end SetStore

/-! ## Drivers -/

namespace Driver

/-- The keys of a store on a key server. -/
def keys? : Driver → Option SetStore.KeySpace
  | sets s => some s.keys
  | _ => none

def HasValidStem : Driver → Prop
  | sets s => SetStore.KeySpace.IsValidStem s.keys.stem
  | _ => True

theorem hasValidStem_iff {d : Driver} :
    d.HasValidStem ↔ ∀ k, d.keys? = some k → SetStore.KeySpace.IsValidStem k.stem := by
  cases d <;> simp [HasValidStem, keys?]

theorem hasValidStem_congr {d d' : Driver} (h : d'.keys? = d.keys?) (hd : d.HasValidStem) :
    d'.HasValidStem := by
  rw [hasValidStem_iff, h, ← hasValidStem_iff]
  exact hd

abbrev OnKeys (J : SetStore.Server → Prop) : Driver × Host → Prop :=
  Under HasValidStem fun h => J h.server

abbrev OnStore (keys : Option SetStore.KeySpace) (J : SetStore.Server → Prop) : Driver × Host → Prop :=
  Under (fun d => d.keys? = keys) fun h => J h.server

variable {J : SetStore.Server → Prop}

theorem aside_server {P : Driver → Prop} : Aside (Under P fun h => J h.server) :=
  fun _ _ h' _ hs hx => ⟨hx.1, show J h'.server from hs ▸ hx.2⟩

/-- Work of one store keeps what holds of the key server when its work on the server does. -/
theorem keeps_work_store {α : Type} {memory : Action Memory.Store α} {sets : SetStore.Work α}
    {disk : Disk.Work α} {keys : Option SetStore.KeySpace}
    (hsets : ∀ k, keys = some k → Keeps (SetStore.Store.OnServer k J) sets fun _ => True) :
    Keeps (OnStore keys J) (work memory sets disk) fun _ => True := by
  rintro ⟨d, h⟩ ⟨hd, hh⟩
  cases d with
  | memory s =>
    rw [work_memory]
    cases memory s
    · exact ⟨⟨hd, hh⟩, trivial⟩
    · exact ⟨hd, hh⟩
  | limited key s =>
    rw [work_limited]
    cases memory s
    · exact ⟨⟨hd, hh⟩, trivial⟩
    · exact ⟨hd, hh⟩
  | disk s =>
    rw [work_disk]
    cases disk (s, h.volume)
    · exact ⟨⟨hd, hh⟩, trivial⟩
    · exact ⟨hd, hh⟩
  | sets s =>
    have hkeeps := hsets s.keys hd.symm (s, h.server) ⟨rfl, hh⟩
    have hkeys {s' : SetStore.Store} (h : s'.keys = s.keys) : keys? (.sets s') = keys :=
      (congrArg some h).trans hd
    rw [work_sets]
    cases hr : sets (s, h.server) <;> rw [hr] at hkeeps
    · exact ⟨⟨hkeys hkeeps.1.1, hkeeps.1.2⟩, trivial⟩
    · exact ⟨hkeys hkeeps.1, hkeeps.2⟩

/-- What work keeps of the key server for each single store, it keeps for all that can be named. -/
theorem keeps_onKeys {α : Type} {x : DriverWork α}
    (hx : ∀ d : Driver, d.HasValidStem → Keeps (OnStore d.keys? J) x fun _ => True) :
    Keeps (OnKeys J) x fun _ => True := by
  rintro ⟨d, h⟩ ⟨hd, hh⟩
  have hkeeps := hx d hd (d, h) ⟨rfl, hh⟩
  cases hr : x (d, h) <;> rw [hr] at hkeeps
  · exact ⟨⟨hasValidStem_congr hkeeps.1.1 hd, hkeeps.1.2⟩, trivial⟩
  · exact ⟨hasValidStem_congr hkeeps.1 hd, hkeeps.2⟩

theorem keeps_work_server {α : Type} {memory : Action Memory.Store α} {sets : SetStore.Work α}
    {disk : Disk.Work α}
    (hsets : ∀ k : SetStore.KeySpace, SetStore.KeySpace.IsValidStem k.stem →
      Keeps (SetStore.Store.OnServer k J) sets fun _ => True) :
    Keeps (OnKeys J) (work memory sets disk) fun _ => True :=
  keeps_onKeys fun _ hd => keeps_work_store fun k hk => hsets k (hasValidStem_iff.1 hd k hk)

theorem keeps_commit_server : Keeps (OnKeys J) commit fun _ => True :=
  keeps_work_server fun _ _ => .pure trivial

theorem keeps_close_server : Keeps (OnKeys J) close fun _ => True :=
  keeps_work_server fun _ _ => .pure trivial

end Driver

namespace SetStore.Kept

variable {J : Server → Prop} (hJ : Kept J)
include hJ

open Driver (OnKeys keeps_work_server)

theorem keeps_calm {α : Type} {x : DriverWork α} (hx : Driver.Calm x) :
    Keeps (OnKeys J) x fun _ => True := by
  cases hx with
  | contains id => exact keeps_work_server fun _ _ => hJ.ofKeys.contains id
  | get? id => exact keeps_work_server fun _ _ => hJ.ofKeys.get? id
  | count => exact keeps_work_server fun _ _ => hJ.ofKeys.count
  | ids offset limit => exact keeps_work_server fun _ _ => hJ.ofKeys.ids offset limit
  | search q offset limit =>
    exact keeps_work_server fun _ hk => Keeps.seq (.ofExcept fun _ _ => trivial) fun p =>
      hJ.search hk p offset limit
  | cancel => exact keeps_work_server fun _ _ => .pure trivial

theorem keeps_index (d : PreparedDocument) (id : Option String) :
    Keeps (OnKeys J) (Driver.index d id) fun _ => True :=
  Keeps.get.bind fun _ _ => Keeps.seq (keeps_work_server fun _ hk => hJ.index hk d id) fun _ =>
    .ite (fun _ => Keeps.seq (.modify fun _ hs => hs) fun _ => .pure trivial) fun _ => .pure trivial

theorem keeps_delete (id : String) : Keeps (OnKeys J) (Driver.delete id) fun _ => True :=
  keeps_work_server fun _ hk => hJ.delete hk id

theorem opening : Driver.Opening Driver.HasValidStem fun h => J h.server where
  schemaSnapshot := keeps_work_server fun _ _ => hJ.ofKeys.loadSchema
  drop := keeps_work_server fun _ _ => .pure trivial
  openStore catalog name o := by
    rw [Catalog.openStore]
    split
    · rename_i b _
      cases b with
      | memory => exact Keeps.seq (.ofExcept fun _ _ => trivial) fun _ => .pure trivial
      | limited => exact Keeps.seq (.ofExcept fun _ _ => trivial) fun _ => .pure trivial
      | sets =>
        exact Keeps.focus ((hJ.ofKeys.openWith o).map fun _ hs => hs) (fun _ h => h)
          fun _ _ _ hv => hv
      | disk =>
        exact Keeps.get.bind fun _ _ =>
          Keeps.focus (J := fun _ => True) (Keeps.map .nothing fun _ _ => trivial)
            (fun _ _ => trivial) fun _ _ h _ => h
    · exact .throw
  aside := Driver.aside_server

/-- **What stores keep on a key server, drivers keep**, where registering fields and removing stores
keeps it, too. -/
theorem invariant
    (hregister : ∀ k : KeySpace, KeySpace.IsValidStem k.stem → ∀ name config,
      Keeps (Store.OnServer k J) (Store.registerField name config) fun _ => True)
    (hdestroy : ∀ k : KeySpace, KeySpace.IsValidStem k.stem →
      Keeps (Store.OnServer k J) Store.destroy fun _ => True) :
    Driver.Invariant Driver.HasValidStem fun h => J h.server where
  toOpening := hJ.opening
  index := hJ.keeps_index
  delete := hJ.keeps_delete
  commit := Driver.keeps_commit_server
  close := Driver.keeps_close_server
  calm := hJ.keeps_calm
  registerField name config := keeps_work_server fun k hk => hregister k hk name config
  destroy := keeps_work_server hdestroy

end SetStore.Kept

end Searchlight
