import Searchlight.Proofs.Client.Requests

/-!
# What clients keep

A client touches files and the key server through its driver alone. So what all work of drivers
keeps (`Driver.Invariant`), a client keeps whatever it is asked for, and so does opening and
forgetting it. Where placing, removing or committing documents may break something
(`Driver.Steady`), all requests keep it that do no such thing.
-/

namespace Searchlight

open Searchlight.Action (Keeps)

namespace Client

variable {α : Type} {I : Driver × Host → Prop}

def Along (I : Driver × Host → Prop) (x : Client × Host) : Prop := I (x.1.driver, x.2)

theorem keeps_drive {x : DriverWork α} {Q : α → Prop} (hx : Keeps I x Q) :
    Keeps (Along I) (drive x) Q :=
  hx.focus (fun _ h => h) fun _ _ _ h => h

theorem keeps_translate_of {J : Client × Host → Prop}
    (hJ : ∀ {c h} cache, J (c, h) → J ({ c with cache }, h)) (q : Query) :
    Keeps J (translate q) fun _ => True :=
  keeps_ensureOpen.seq fun _ => Keeps.get.bind fun (c, h) hs => Keeps.seq (.set (hJ _ hs)) fun _ => by
    split
    · exact .pure trivial
    · exact Keeps.seq (.ofExcept fun _ _ => trivial) fun _ => Keeps.seq (.set (hJ _ hs)) fun _ =>
        .pure trivial

theorem keeps_translate (q : Query) : Keeps (Along I) (translate q) fun _ => True :=
  keeps_translate_of (fun _ hs => hs) q

end Client

namespace Driver

variable {α σ : Type} {I : Driver × Host → Prop}

/-! ## Leases and warnings -/

/-- Work on a host that leaves files and the key server alone. -/
def LeavesStores (x : Action Host α) : Prop :=
  ∀ h, (x.after h).volume = h.volume ∧ (x.after h).server = h.server

theorem leavesStores_acquireLease (store : String) : LeavesStores (Host.acquireLease store) := by
  intro h
  rw [Action.after, Host.acquireLease, Action.get_bind]
  by_cases hheld : h.leases.contains store = true
  · simp [hheld]
  · simp [hheld]

theorem leavesStores_releaseLease (store : String) : LeavesStores (Host.releaseLease store) :=
  fun _ => ⟨rfl, rfl⟩

theorem Aside.keeps_second (hI : Aside I) {x : Action Host α} (hx : LeavesStores x) :
    Keeps I (Action.second x) fun _ => True := by
  intro (d, h) hs
  obtain ⟨hvolume, hserver⟩ := hx h
  rw [Action.after] at hvolume hserver
  rw [Action.second, Action.focus]
  cases hr : x h <;> rw [hr] at hvolume hserver
  · exact ⟨hI hvolume hserver hs, trivial⟩
  · exact hI hvolume hserver hs

theorem Aside.keeps_onHost (hI : Aside I) {x : Action Host α} (hx : LeavesStores x) :
    Keeps (Client.Along I) (Action.second x) fun _ => True := by
  intro (c, h) hs
  have hkeeps := hI.keeps_second hx (c.driver, h) hs
  rw [Action.second, Action.focus] at hkeeps ⊢
  cases hr : x h <;> rw [hr] at hkeeps <;> exact hkeeps

theorem Aside.keeps_releaseLease (hI : Aside I) :
    Keeps (Client.Along I) Client.releaseLease fun _ => True :=
  Keeps.get.bind fun _ _ =>
    Keeps.seq (.forM_option fun store _ => hI.keeps_onHost (leavesStores_releaseLease store))
      fun _ => .modify fun _ h => h

theorem Aside.keeps_close (hI : Aside I) (hx : Keeps I close fun _ => True) :
    Keeps (Client.Along I) Client.close fun _ => True :=
  Keeps.get.bind fun _ hs => .ite (fun _ => .pure trivial) fun _ =>
    Keeps.seq (.set hs) fun _ => (Client.keeps_drive hx).thenAlways hI.keeps_releaseLease

end Driver

/-! ## Requests -/

namespace Client

variable {I : Driver × Host → Prop}

theorem keeps_registerField {name : String} {config : FieldConfig}
    (hx : Keeps I (Driver.registerField name config) fun _ => True) :
    Keeps (Along I) (registerField name config) fun _ => True := by
  refine keeps_ensureWritable.seq fun _ => Keeps.get.bind fun _ _ => ?_
  refine Keeps.seq (.ofExcept fun _ _ => trivial) fun _ => (keeps_drive hx).seq fun _ => ?_
  refine Keeps.get.bind fun (c, h) hs => Keeps.seq (.ofExcept fun _ _ => trivial) fun _ => ?_
  exact .set hs

theorem keeps_destroy (hI : Driver.Aside I) (hx : Keeps I Driver.destroy fun _ => True) :
    Keeps (Along I) destroy fun _ => True :=
  keeps_ensureWritable.seq fun _ => Keeps.seq (.modify fun _ h => h) fun _ =>
    (keeps_drive hx).thenAlways hI.keeps_releaseLease

end Client

namespace Client

/-- What is not about what a client remembers, nor about warnings, and is kept as the driver of the
client looks at documents and registers fields. -/
structure Serves (J : Client × Host → Prop) : Prop where
  remembers : ∀ {c h} registry ignored cache, J (c, h) → J ({ c with registry, ignored, cache }, h)
  warns : ∀ {c h} warnings, J (c, h) → J (c, { h with warnings })
  calm : ∀ {α : Type} {x : DriverWork α}, Driver.Calm x → Keeps J (drive x) fun _ => True
  registerField : ∀ name config, Keeps J (drive (Driver.registerField name config)) fun _ => True

namespace Serves

variable {J : Client × Host → Prop} (hJ : Serves J)
include hJ

theorem keeps_registerNew (fields : List (String × FieldConfig)) :
    Keeps J (registerNew fields) fun _ => True := by
  refine .ite (fun _ => .pure trivial) fun _ => Keeps.get.bind fun _ _ => ?_
  refine Keeps.seq (.ofExcept fun _ _ => trivial) fun _ => ?_
  refine Keeps.seq (.forM_list fun f _ => hJ.registerField f.1 f.2) fun _ => ?_
  refine Keeps.get.bind fun (c, h) hs => Keeps.seq (.ofExcept fun _ _ => trivial) fun registry => ?_
  exact .set (hJ.remembers registry c.ignored c.cache hs)

theorem keeps_prepareWrite (target : WriteTarget) (doc : Document) :
    Keeps J (prepareWrite target doc) fun _ => True := by
  have hvacant : Keeps J (ensureVacant target) fun _ => True := by
    cases target with
    | fresh => exact .pure trivial
    | under id mode =>
      cases mode with
      | upsert => exact .pure trivial
      | failIfExists =>
        exact (hJ.calm (.contains id)).seq fun _ => .ite (fun _ => .throw) fun _ => .pure trivial
  have hwarn (ws : List String) : Keeps J (Action.second (Host.warn ws)) fun _ => True :=
    fun (c, h) hs => ⟨hJ.warns (h.warnings ++ ws) hs, trivial⟩
  refine keeps_ensureWritable.seq fun _ => hvacant.seq fun _ => Keeps.get.bind fun _ _ => ?_
  refine Keeps.seq (.ofExcept fun _ _ => trivial) fun plan => (hwarn _).seq fun _ => ?_
  refine Keeps.seq (.ofExcept fun _ _ => trivial) fun _ => ?_
  exact (hJ.keeps_registerNew plan.newFields).seq fun _ => .pure trivial

/-- **A request** keeps it, if the driver keeps it as it places, removes and commits documents and the
end of the client keeps it. -/
theorem keeps_perform (r : Request)
    (hstirs : ∀ {α : Type} {x : DriverWork α}, r.Stirs x → Keeps J (drive x) fun _ => True)
    (hends : r = .close ∨ r = .destroy → Keeps J r.perform fun _ => True) :
    Keeps J r.perform fun _ => True := by
  cases r with
  | question q =>
    exact keeps_asking (fun hx => hJ.calm hx)
      (keeps_translate_of fun {c _} cache hs => hJ.remembers c.registry c.ignored cache hs) q hstirs
  | write target doc =>
    refine keeps_void <| (hJ.keeps_prepareWrite target doc).seq fun _ => ?_
    refine (hstirs (.index target doc _ _)).seq fun _ => Keeps.seq ?_ fun _ => .pure trivial
    exact .modify fun (c, h) hs => hJ.remembers _ _ c.cache hs
  | registerField name config =>
    refine keeps_ensureWritable.seq fun _ => Keeps.get.bind fun _ _ => ?_
    refine Keeps.seq (.ofExcept fun _ _ => trivial) fun _ =>
      (hJ.registerField name config).seq fun _ => Keeps.get.bind fun (c, h) hs => ?_
    refine Keeps.seq (.ofExcept fun _ _ => trivial) fun registry => ?_
    exact .set (hJ.remembers registry c.ignored c.cache hs)
  | close => exact hends (.inl rfl)
  | destroy => exact hends (.inr rfl)

end Serves

end Client

namespace Driver.Steady

open Client (Request Along keeps_drive)

variable {I : Driver × Host → Prop} (hI : Driver.Steady I)
include hI

theorem serves : Client.Serves (Along I) where
  remembers _ _ _ hs := hs
  warns {c h} _ hs := hI.aside (d := c.driver) (h := h) rfl rfl hs
  calm hx := keeps_drive (hI.calm hx)
  registerField name config := keeps_drive (hI.registerField name config)

/-- **What drivers keep, a client keeps**, whatever it is asked for: a request may have the driver
place, remove or commit documents where that keeps it, too. -/
theorem keeps_perform (r : Request)
    (hstirs : ∀ {α : Type} {x : DriverWork α}, r.Stirs x → Keeps I x fun _ => True) :
    Keeps (Along I) r.perform fun _ => True := by
  refine hI.serves.keeps_perform r (fun hx => keeps_drive (hstirs hx)) ?_
  rintro (rfl | rfl)
  · exact hI.aside.keeps_close (hstirs .close)
  · exact Client.keeps_destroy hI.aside hI.destroy

end Driver.Steady

/-! ## Opening -/

namespace Driver.Opening

variable {P : Driver → Prop} {H : Host → Prop} (hO : Driver.Opening P H)
include hO

theorem keeps_start (readonly : Bool) (settings : ClientSettings) :
    Keeps (Driver.Under P H) (Client.start readonly settings) fun c => P c.driver := by
  refine Keeps.get.bind fun (_, _) _ => ?_
  refine Keeps.seq (.forM_option fun store _ =>
    hO.aside.keeps_second (leavesStores_acquireLease store)) fun _ => ?_
  refine Keeps.seq (hO.schemaSnapshot.orUndo ?_) fun _ => ?_
  · exact .forM_option fun store _ => hO.aside.keeps_second (leavesStores_releaseLease store)
  · exact Keeps.get.bind fun (_, _) hs => .pure hs.1

theorem keeps_connect (catalog : Catalog) (backend : String) (o : BackendOptions)
    (settings : ClientSettings) :
    Keeps H (Client.connect catalog backend o settings) fun c => P c.driver := by
  refine (hO.openStore catalog backend o).bind fun driver hd => ?_
  have hstart := (hO.keeps_start o.readonly settings).orUndo hO.drop
  refine Keeps.get.bind fun host hh => ?_
  have := hstart (driver, host) ⟨hd, hh⟩
  split
  · rename_i hr
    rw [hr] at this
    exact Keeps.seq (.set this.1.2) fun _ => .pure this.2
  · rename_i hr
    rw [hr] at this
    exact Keeps.seq (.set this.2) fun _ => .throw

end Driver.Opening

/-! ## All requests -/

/-- What all work of drivers keeps, a client keeps whatever it is asked for. -/
theorem Driver.Invariant.keeps_perform {P : Driver → Prop} {H : Host → Prop}
    (hI : Driver.Invariant P H) (r : Client.Request) :
    Keeps (Client.Along (Driver.Under P H)) r.perform fun _ => True :=
  hI.toSteady.keeps_perform r fun hx => by
    cases hx with
    | index target doc d id => exact hI.index d id
    | delete id => exact hI.delete id
    | commit => exact hI.commit
    | close => exact hI.close

end Searchlight
