import Searchlight.Driver.Catalog
import Searchlight.Proofs.Driver.Use

/-!
# Drivers keep ids apart

In memory and on a key server there is one document under an id by construction. On disk this is an
invariant of the store and the volume together, which everything that is done with a driver keeps.
-/

namespace Searchlight

open Searchlight.Action (Keeps)

namespace Driver

def Sound : Driver → Prop
  | disk s => s.Sound
  | _ => True

abbrev OnSound : Driver × Host → Prop := On Sound Disk.Volume.Sound

variable {α : Type} {name : String} {config : FieldConfig}

/-- Work keeps ids apart when its work on disk does. -/
theorem sound_work {memory : Action Memory.Store α} {sets : SetStore.Work α} {disk : Disk.Work α}
    (hdisk : Keeps Disk.Store.OnSound disk fun _ => True) :
    Keeps OnSound (work memory sets disk) fun _ => True :=
  keeps_work .nothing (fun _ => .nothing) .nothing hdisk

theorem sound_keeper : Keeper Sound Disk.Volume.Sound where
  memory _ _ _ _ := trivial
  limited _ _ _ _ _ := trivial
  index d id := Disk.Store.keeps_index d id
  delete id := Disk.Store.keeps_delete id
  ids offset limit := Disk.Store.keeps_ids offset limit
  search q offset limit := Disk.Store.keeps_search q offset limit
  commit := Disk.Store.keeps_commit
  cancel := Disk.Store.keeps_cancel

theorem sound_schemaSnapshot : Keeps OnSound schemaSnapshot fun _ => True :=
  sound_work (Keeps.get.bind fun _ _ => .pure trivial)

theorem sound_registerField : Keeps OnSound (registerField name config) fun _ => True :=
  sound_work <| Keeps.get.bind fun (s, v) hs => by
    exact Keeps.bind (.ofExcept fun _ h => h) fun _ hok => .set ⟨hs.1.registerField hok, hs.2⟩

theorem sound_close : Keeps OnSound close fun _ => True := sound_work Disk.Store.keeps_close

theorem sound_destroy : Keeps OnSound destroy fun _ => True := sound_work Disk.Store.keeps_destroy

theorem sound_drop : Keeps OnSound drop fun _ => True := sound_work Disk.Store.keeps_abandon

end Driver

/-! ## Opening -/

def Host.Sound (h : Host) : Prop := h.volume.Sound

/-- **Ids stay apart** under all work of drivers. -/
theorem Driver.sound_invariant : Invariant Sound Host.Sound where
  index d id := sound_keeper.keeps (.index d id)
  delete id := sound_keeper.keeps (.delete id)
  commit := sound_keeper.keeps .commit
  calm := sound_keeper.keeps_calm
  registerField _ _ := sound_registerField
  schemaSnapshot := sound_schemaSnapshot
  close := sound_close
  destroy := sound_destroy
  drop := sound_drop
  openStore := Catalog.keeps_openStore trivial (fun _ => trivial) (fun _ => trivial) fun _ _ =>
    Disk.Store.keeps_openWith
  aside _ _ h' hv _ hx := ⟨hx.1, show h'.volume.Sound from hv ▸ hx.2⟩

end Searchlight
