import Searchlight.Proofs.SetStore.Keeping

/-!
# Order on a key server

Each key of any store holds data of the kind that its role says (`Server.Orderly`). A store gives
only commands that write data of the kinds of its keys (`Command.Given.fits`), so the work of stores
keeps a server in order for all stores at once, whatever the work does and whether it fails or not.
-/

namespace Searchlight

open Searchlight.Action (Keeps)

namespace SetStore

/-- All keys of all stores hold data of their kinds. -/
def Server.Orderly (v : Server) : Prop :=
  ∀ k : KeySpace, KeySpace.IsValidStem k.stem → v.InOrder k

variable {k : KeySpace} {c : Command}

theorem Server.orderly_fresh (reachable : Bool) : (fresh reachable).Orderly :=
  fun _ _ => inOrder_of_none fun _ => rfl

theorem Server.ofKeys_orderly : OfKeys Orderly := fun _ _ hkeys hv k hk r x hx =>
  hv k hk r x (hkeys ▸ hx)

section
variable (hk : KeySpace.IsValidStem k.stem)
include hk

/-- What a store puts under keys is of their kinds in every store. -/
theorem Command.Given.fits (hc : c.Given k) {k' : KeySpace} (hk' : KeySpace.IsValidStem k'.stem) :
    c.Fits k' := by
  have hkind (r : Role) (r' : Role) (h : r.key k = r'.key k') : r'.kind = r.kind :=
    Role.kind_eq hk hk' h
  cases hc with
  | look h => cases c <;> trivial
  | number =>
    intro r h
    rw [KeySpace.nextId_eq_key] at h
    exact hkind _ r h
  | text id json =>
    intro r h
    rw [KeySpace.data_eq_key] at h
    exact hkind _ r h
  | forget => trivial
  | add hr => exact fun r h => (hkind _ r h).trans hr
  | remove => trivial
  | result name hdest => exact fun r h => hkind (.temp name) r (hdest.symm.trans h)
  | clear => trivial

theorem fits_hashPut (entries : List (String × String)) {k' : KeySpace}
    (hk' : KeySpace.IsValidStem k'.stem) : (Command.hashPut k.schema entries).Fits k' := by
  intro r h
  rw [KeySpace.schema_eq_key] at h
  exact Role.kind_eq hk hk' h

end

theorem kept_orderly : Kept Server.Orderly :=
  kept_of_given Server.ofKeys_orderly fun _ hk _ hc _ hv k' hk' => (hv k' hk').run (hc.fits hk hk')

end SetStore

def Host.Orderly (h : Host) : Prop := h.server.Orderly

open SetStore in
/-- **A key server stays in order** under all work of drivers. -/
theorem Driver.orderly_invariant : Invariant HasValidStem Host.Orderly := by
  refine kept_orderly.invariant (fun k hk name config => ?_) fun k hk => ?_
  · exact Store.keeps_registerField_server name config fun v entries hv k' hk' =>
      (hv k' hk').run (fits_hashPut hk entries hk')
  · -- The keys that are deleted are gone, whatever they held.
    refine Store.keeps_destroy_server fun v v' hkeys hv k' hk' r x hx => ?_
    rw [hkeys] at hx
    split at hx
    · cases hx
    · exact hv k' hk' r x hx

end Searchlight
