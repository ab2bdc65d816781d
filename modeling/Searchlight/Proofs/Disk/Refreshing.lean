import Searchlight.Proofs.Disk.Following
import Searchlight.Proofs.Disk.Sound
import Searchlight.Proofs.Disk.Writing

/-!
# Looking at the index again

A store that is open for reading shows what the index held when the store looked at it last. It
looks again before it searches or lists, and not before it counts documents or loads one, so that in
between it may be behind the index (`Store.Differs`). To look again shows what the index holds
(`shown_of_refresh`), and from then on nothing is new as long as nobody commits.
-/

namespace Searchlight.Disk

open FileTree (join)
open Volume (Alike)

/-- The records have the same ids, and the same document under each, as far as it can be read. -/
structure SameStored (rs ss : List Record) : Prop where
  ids : ∀ id, (∃ r ∈ rs, r.id = id) ↔ ∃ r ∈ ss, r.id = id
  documents : ∀ r ∈ rs, ∀ s ∈ ss, r.id = s.id →
    ∀ d e, r.document = .ok d → s.document = .ok e → d = e

theorem Live.start_readonly_eq_ok {directory : String} {ss : Segments} {memory : Nat} {live : Live}
    {v v' : Volume} (h : start directory ss true memory v = .ok live v') :
    live = ⟨directory, ss, none⟩ ∧ Alike v v' := by
  refine ⟨?_, ((keeps_start_alike directory ss).of_ok (.refl v) h).1⟩
  rw [start, Action.bind_eq_ok] at h
  obtain ⟨_, t, -, h⟩ := h
  cases h
  rfl

namespace Store

variable {s t : Store} {v v' : Volume}

def directory (s : Store) : String := (s.live.map (·.directory)).getD s.path

def listed (s : Store) (v : Volume) : List Record :=
  if s.readonly then v.recordsAt s.directory else s.visible.records

/-- What a store counts and loads is not what a listing of it gives: the index has changed since the
store looked at it, or there are ids that are no terms, whose documents are counted and not given. -/
def Differs (s : Store) (v : Volume) : Prop :=
  ¬SameStored s.visible.records ((s.listed v).filter fun r => isTerm r.id)

theorem length_recordsAt_le_listable (s : Store) (v : Volume) :
    (v.recordsAt s.directory).length ≤ s.listable v := by
  rw [Volume.recordsAt, listable, directory]
  cases v.image? _ with
  | none => exact Nat.zero_le _
  | some image => exact Nat.le_max_right _ _

theorem refresh_of_live {live : Live} (hs : s.live = some live) (hreadonly : s.readonly = true) :
    refresh (s, v) =
      match v.image? live.directory with
      | some image =>
        .ok () ({ s with live := some { live with visible := image.segments } }, v)
      | none =>
        .error (.query "failed to reload reader" (some "the file holds no index")) (s, v) := by
  rw [refresh, Action.get_bind]
  simp only [hs, hreadonly, if_true]
  cases v.image? live.directory <;> rfl

/-- To look at what is shown changes nothing. -/
theorem refresh_of_image {live : Live} {image : Image} (ht : t.live = some live)
    (himage : v.image? live.directory = some image) (hvisible : live.visible = image.segments) :
    refresh (t, v) = .ok () (t, v) := by
  cases hreadonly : t.readonly with
  | false => exact refresh_of_writable hreadonly
  | true =>
    have hsame : ({ live with visible := image.segments } : Live) = live := by rw [← hvisible]
    rw [refresh_of_live ht hreadonly, himage]
    simp only [hsame, ← ht]

/-- An index that is loaded for reading shows what is there. -/
theorem shown_of_load {path : String} {memory : Nat} {found : FieldMap × Option Live}
    (hindex : v.hasIndex path = true) (h : load path true memory v = .ok found v') :
    ∃ live image, found.2 = some live ∧ v'.image? live.directory = some image ∧
      live.visible = image.segments ∧ image.segments.records = v.recordsAt path := by
  obtain ⟨-, ⟨-, -, hnone⟩ | ⟨here, ss, live, hlead, hhas, hstart, hfound⟩⟩ := load_eq_start h
  · cases hnone.symm.trans hindex
  · obtain ⟨rfl, halike⟩ := Live.start_readonly_eq_ok hstart
    obtain ⟨image, himage, rfl⟩ := Option.map_eq_some_iff.1 (hhas.alike halike).image
    exact ⟨_, image, hfound, himage, rfl,
      ((Volume.recordsAt_of_leads hlead).trans hhas.recordsAt).symm⟩

/-- **A store that has looked** at the directory shows the index there, and to look again changes
nothing. -/
theorem shown_of_refresh (h : refresh (s, v) = .ok () (t, v')) :
    t.visible.records = s.listed v ∧ refresh (t, v') = .ok () (t, v') := by
  rw [listed]
  cases hreadonly : s.readonly with
  | false =>
    rw [refresh_of_writable hreadonly] at h
    cases h
    exact ⟨rfl, refresh_of_writable hreadonly⟩
  | true =>
    rw [if_pos rfl, directory]
    cases hlive : s.live with
    | some live =>
      rw [refresh_of_live hlive hreadonly] at h
      cases himage : v.image? live.directory with
      | none => simp [himage] at h
      | some image =>
        simp only [himage] at h
        cases h
        refine ⟨?_, refresh_of_image rfl himage rfl⟩
        rw [Option.map_some, Option.getD_some, Volume.recordsAt, himage]
        rfl
    | none =>
      have hrun := refresh_of_live_none (v := v) hlive
      rw [h] at hrun
      cases hindex : v.hasIndex s.path with
      | false =>
        rw [hindex, if_neg (by simp)] at hrun
        cases hrun
        refine ⟨?_, h⟩
        rw [Option.map_none, Option.getD_none, Volume.recordsAt_of_hasIndex hindex, visible, hlive]
        rfl
      | true =>
        rw [if_pos ⟨hreadonly, hindex⟩] at hrun
        cases hload : load s.path true defaultWriterMemory v with
        | error e v₁ => simp [hload] at hrun
        | ok found v₁ =>
          simp only [hload] at hrun
          cases hrun
          obtain ⟨live, image, hfound, himage, hvisible, hrecords⟩ := shown_of_load hindex hload
          refine ⟨?_, refresh_of_image hfound himage hvisible⟩
          rw [visible, hfound, Option.map_none, Option.getD_none, ← hrecords, ← hvisible]

end Store

end Searchlight.Disk
