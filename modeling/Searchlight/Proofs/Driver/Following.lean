import Searchlight.Proofs.Disk.Following
import Searchlight.Proofs.Driver.Use

/-!
# The fields of a driver in use

The translation of a query depends on nothing but the fields of the driver. No use changes them,
apart from a store on disk that is open for reading and finds an index (`PicksUp`).
-/

namespace Searchlight

open Searchlight.Action (Keeps)

namespace Driver

inductive SameFields : Driver → Driver → Prop where
  | memory {s t : Memory.Store} (h : t.schema = s.schema) : SameFields (memory s) (memory t)
  | limited {key : String} {s t : Memory.Store} (h : t.schema = s.schema) :
    SameFields (limited key s) (limited key t)
  | sets (s : SetStore.Store) : SameFields (sets s) (sets s)
  | disk {s t : Disk.Store} (h : s.SameFields t) : SameFields (disk s) (disk t)

inductive PicksUp : Driver → Driver → Prop where
  | disk {s t : Disk.Store} (h : s.PicksUp t) : PicksUp (disk s) (disk t)

/-- What a driver may be after it was used. -/
def Follows (d e : Driver) : Prop := SameFields d e ∨ PicksUp d e

variable {d e f : Driver}

theorem SameFields.refl (d : Driver) : SameFields d d := by
  cases d
  · exact .memory rfl
  · exact .limited rfl
  · exact .sets _
  · exact .disk (.refl _)

theorem Follows.refl (d : Driver) : Follows d d := .inl (.refl d)

theorem SameFields.translate (h : SameFields d e) (q : Query) : e.translate q = d.translate q := by
  cases h with
  | memory h => simp only [Driver.translate, h]
  | limited h => simp only [Driver.translate, Memory.Limited.translate, h]
  | sets => rfl
  | disk h => simp only [Driver.translate, h.fields, h.analyze]

theorem SameFields.schema (h : SameFields d e) : e.schema = d.schema := by
  cases h with
  | memory h => exact h
  | limited h => exact h
  | sets => rfl
  | disk h => exact congrArg Disk.FieldMap.schema h.fields

theorem SameFields.trans (h : SameFields d e) (h' : SameFields e f) : SameFields d f := by
  cases h with
  | memory h =>
    cases h' with
    | memory h' => exact .memory (h'.trans h)
  | limited h =>
    cases h' with
    | limited h' => exact .limited (h'.trans h)
  | sets => exact h'
  | disk h =>
    cases h' with
    | disk h' => exact .disk (h.trans h')

theorem SameFields.picksUp (h : SameFields d e) (h' : PicksUp e f) : PicksUp d f := by
  cases h' with
  | disk h' =>
    cases h with
    | disk h => exact .disk (h.picksUp h')

theorem PicksUp.follows (h : PicksUp d e) (h' : Follows e f) : PicksUp d f := by
  cases h with
  | disk h =>
    rcases h' with h' | h'
    · cases h' with
      | disk h' => exact .disk (h.follows (.inl h'))
    · cases h' with
      | disk h' => exact .disk (h.follows (.inr h'))

theorem Follows.trans (h : Follows d e) (h' : Follows e f) : Follows d f := by
  rcases h with h | h
  · exact h'.imp h.trans h.picksUp
  · exact .inr (h.follows h')

/-- A store on disk stays open in the same way. -/
theorem Follows.diskReadonly? (h : Follows d e) : e.diskReadonly? = d.diskReadonly? := by
  rcases h with h | h
  · cases h with
    | memory => rfl
    | limited => rfl
    | sets => rfl
    | disk h => exact congrArg some h.readonly
  · cases h with
    | disk h => exact congrArg some (h.readonly'.trans h.readonly.symm)

theorem PicksUp.diskReadonly? (h : PicksUp d e) : d.diskReadonly? = some true := by
  cases h with
  | disk h => exact congrArg some h.readonly

theorem follows_of_followed {α : Type} {x : Disk.Work α}
    (hx : ∀ s : Disk.Store, Keeps s.Followed x fun _ => True) (d : Driver) :
    Keeps (OnDisk (Follows d) fun _ => True) x fun _ => True := by
  intro (s, v) h
  have := hx s (s, v) (Disk.Store.Follows.refl s)
  cases hr : x (s, v) <;> rw [hr] at this
  · exact ⟨⟨h.1.trans (this.1.imp .disk .disk), trivial⟩, trivial⟩
  · exact ⟨h.1.trans (this.imp .disk .disk), trivial⟩

theorem follows_keeper (d : Driver) : Keeper (Follows d) fun _ => True where
  memory _ _ hst h := h.trans (.inl (.memory hst))
  limited _ _ _ hst h := h.trans (.inl (.limited hst))
  index p id := follows_of_followed (fun _ => Disk.Store.follows_index p id) d
  delete id := follows_of_followed (fun _ => Disk.Store.follows_delete id) d
  ids offset limit := follows_of_followed (fun _ => Disk.Store.follows_ids offset limit) d
  search q offset limit := follows_of_followed (fun _ => Disk.Store.follows_search q offset limit) d
  commit := follows_of_followed (fun _ => Disk.Store.follows_commit) d
  cancel := follows_of_followed (fun _ => Disk.Store.follows_cancel) d

theorem Use.follows {α : Type} {x : DriverWork α} (hx : Use x) (d : Driver) (h : Host) :
    Follows d (x.after (d, h)).1 :=
  (((follows_keeper d).keeps hx).after (s := (d, h)) ⟨.refl d, trivial⟩).1

end Driver

end Searchlight
