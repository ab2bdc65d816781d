import Searchlight.Disk.Store
import Searchlight.Proofs.Action

/-!
# The fields of a store in use

Nothing that is done with documents changes the fields of a store on disk, with one exception: a
store that is open for reading and has no index takes the fields of the one that it finds
(`PicksUp`). What a store may have become is told by `Follows`.
-/

namespace Searchlight.Disk

open Searchlight.Action (Keeps)

/-- An index that is there is put to use when it is loaded. -/
theorem load_eq_ok {path : String} {readonly : Bool} {memory : Nat} {v v' : Volume}
    {found : FieldMap × Option Live} (hv : v.hasIndex path = true)
    (h : load path readonly memory v = .ok found v') : found.2.isSome = true := by
  rw [load, Action.get_bind, Action.bind_eq_ok] at h
  obtain ⟨schema, t, hschema, h⟩ := h
  rw [if_pos hv, Action.bind_eq_ok] at h
  obtain ⟨opened, t', -, h⟩ := h
  rw [Action.bind_eq_ok] at h
  obtain ⟨fields, t'', -, h⟩ := h
  cases h
  rfl

namespace Store

theorem refresh_of_live_none {s : Store} {v : Volume} (hs : s.live = none) :
    refresh (s, v) =
      if s.readonly = true ∧ v.hasIndex s.path = true then
        match load s.path true defaultWriterMemory v with
        | .ok found v => .ok () ({ s with fields := found.1, live := found.2 }, v)
        | .error e v => .error e (s, v)
      else .ok () (s, v) := by
  rw [refresh, Action.get_bind]
  cases hreadonly : s.readonly with
  | false => simp [hreadonly]
  | true =>
    cases hindex : v.hasIndex s.path with
    | false => simp [hreadonly, hindex, hs]
    | true =>
      simp only [hreadonly, hindex, hs, if_true, and_self, Action.bind_run, Action.second,
        Action.focus]
      cases load s.path true defaultWriterMemory v <;> simp [hreadonly]

/-! ## What a store may become -/

/-- The fields and what analyzes texts are the same, and a store that is open for reading has no
other index than before. -/
structure SameFields (s t : Store) : Prop where
  fields : t.fields = s.fields
  analyze : t.analyze = s.analyze
  readonly : t.readonly = s.readonly
  live : s.readonly = true → t.live.isSome = s.live.isSome

/-- A store that was open for reading without an index has put one to use. -/
structure PicksUp (s t : Store) : Prop where
  readonly : s.readonly = true
  without : s.live = none
  readonly' : t.readonly = true
  live : t.live.isSome = true
  analyze : t.analyze = s.analyze

/-- What a store may be after it was used. -/
def Follows (s t : Store) : Prop := SameFields s t ∨ PicksUp s t

variable {s t u : Store}

theorem SameFields.refl (s : Store) : SameFields s s := ⟨rfl, rfl, rfl, fun _ => rfl⟩

theorem Follows.refl (s : Store) : Follows s s := .inl (.refl s)

/-- A store picks up an index at most once. -/
theorem PicksUp.follows (h : PicksUp s t) (h' : Follows t u) : PicksUp s u := by
  rcases h' with h' | h'
  · exact ⟨h.readonly, h.without, h'.readonly.trans h.readonly', (h'.live h.readonly').trans h.live,
      h'.analyze.trans h.analyze⟩
  · simpa [h'.without] using h.live

theorem SameFields.trans (h : SameFields s t) (h' : SameFields t u) : SameFields s u := by
  refine ⟨h'.fields.trans h.fields, h'.analyze.trans h.analyze, h'.readonly.trans h.readonly,
    fun hs => ?_⟩
  rw [h'.live (h.readonly.trans hs), h.live hs]

theorem SameFields.picksUp (h : SameFields s t) (h' : PicksUp t u) : PicksUp s u := by
  have hs := h.readonly.symm.trans h'.readonly
  have hlive := h.live hs
  rw [h'.without] at hlive
  exact ⟨hs, by simpa using hlive.symm, h'.readonly', h'.live, h'.analyze.trans h.analyze⟩

theorem Follows.trans (h : Follows s t) (h' : Follows t u) : Follows s u := by
  rcases h with h | h
  · exact h'.imp h.trans h.picksUp
  · exact .inr (h.follows h')

/-! ## Steps -/

def Followed (s : Store) (x : Store × Volume) : Prop := Follows s x.1

/-- A store follows, and an index may be put to use without any looking: there is one already, or
the store may write. -/
def MayPut (s : Store) (x : Store × Volume) : Prop :=
  Follows s x.1 ∧ (x.1.readonly = true → x.1.live.isSome = true)

theorem mayPut_onVolume {α : Type} {x : Action Volume α} :
    Keeps (MayPut s) (Action.second x) fun _ => True := by
  intro y hy
  rw [Action.second, Action.focus]
  cases x y.2
  · exact ⟨hy, trivial⟩
  · exact hy

theorem follows_modify {f : Store × Volume → Store × Volume}
    (hf : ∀ x, (f x).1.fields = x.1.fields ∧ (f x).1.analyze = x.1.analyze ∧
      (f x).1.readonly = x.1.readonly ∧ (f x).1.live.isSome = x.1.live.isSome) :
    Keeps (Followed s) (modify f) fun _ => True :=
  .modify fun x h => by
    obtain ⟨hfields, hanalyze, hreadonly, hlive⟩ := hf x
    exact Follows.trans h (.inl ⟨hfields, hanalyze, hreadonly, fun _ => hlive⟩)

theorem mayPut_modify {f : Store × Volume → Store × Volume}
    (hf : ∀ x, (f x).1.fields = x.1.fields ∧ (f x).1.analyze = x.1.analyze ∧
      (f x).1.readonly = x.1.readonly ∧ (x.1.live.isSome = true → (f x).1.live.isSome = true)) :
    Keeps (MayPut s) (modify f) fun _ => True :=
  .modify fun x ⟨h, hput⟩ => by
    obtain ⟨hfields, hanalyze, hreadonly, hlive⟩ := hf x
    refine ⟨h.trans (.inl ⟨hfields, hanalyze, hreadonly, fun ht => ?_⟩), fun ht => hlive (hput ?_)⟩
    · rw [hlive (hput ht), hput ht]
    · rwa [← hreadonly]

theorem follows_writing {α : Type} {operation : String} {x : Work α} {Q : α → Prop}
    (hx : Keeps (MayPut s) x Q) :
    Keeps (Followed s) (do ensureWritable operation; x) Q := by
  intro (t, v) h
  cases ht : t.readonly with
  | true =>
    have hrun : ensureWritable operation (t, v) = .error (.readOnlyViolation operation) (t, v) := by
      simp [ensureWritable, ht]
    rw [Action.bind_run, hrun]
    exact h
  | false =>
    have hrun : ensureWritable operation (t, v) = .ok () (t, v) := by simp [ensureWritable, ht]
    rw [Action.bind_run, hrun]
    have := hx (t, v) ⟨h, by simp [ht]⟩
    dsimp only
    cases hr : x (t, v) <;> rw [hr] at this
    · exact ⟨this.1.1, this.2⟩
    · exact this.1

theorem mayPut_of_live {live : Live} {v : Volume} (h : Follows s t) (ht : t.live = some live) :
    MayPut s (t, v) := ⟨h, by simp [ht]⟩

/-! ## Operations -/

theorem mayPut_ensureOpen : Keeps (MayPut s) ensureOpen fun _ => True :=
  Keeps.get.bind fun _ _ => .ite (fun _ => .throw) fun _ => .pure trivial

theorem mayPut_withWriter {f : Writer → Except Error Writer} :
    Keeps (MayPut s) (withWriter f) fun _ => True := by
  have hlive : Keeps (MayPut s) ensureLive fun _ => True :=
    Keeps.get.bind fun (t, v) _ => by
      dsimp only
      split
      · exact .pure trivial
      · exact Keeps.seq mayPut_onVolume fun _ => Keeps.seq mayPut_onVolume fun _ =>
          Keeps.seq (mayPut_modify fun (_, _) => by simp)
            fun _ => .pure trivial
  refine hlive.seq fun _ => ?_
  split
  · exact .throw
  · exact Keeps.seq (.ofExcept fun _ _ => trivial) fun _ =>
      mayPut_modify fun (_, _) => by simp

theorem follows_index (d : PreparedDocument) (id : String) :
    Keeps (Followed s) (index d id) fun _ => True :=
  follows_writing <| mayPut_ensureOpen.seq fun _ => Keeps.get.bind fun _ _ =>
    mayPut_withWriter.seq fun _ => mayPut_withWriter.seq fun _ =>
      Keeps.seq (mayPut_modify fun (_, _) => by simp) fun _ => .pure trivial

theorem follows_delete (id : String) :
    Keeps (Followed s) (delete id) fun _ => True :=
  follows_writing <| mayPut_ensureOpen.seq fun _ => Keeps.get.bind fun _ _ =>
    .ite (fun _ => .throw) fun _ => mayPut_withWriter.seq fun _ =>
      mayPut_modify fun (_, _) => by simp

theorem follows_refresh : Keeps (Followed s) refresh fun _ => True := by
  intro (t, v) h
  -- Without an index a reader may pick one up; with one only what is visible changes.
  cases ht : t.live with
  | none =>
    rw [refresh_of_live_none ht]
    by_cases hload : t.readonly = true ∧ v.hasIndex t.path = true
    · rw [if_pos hload]
      cases hr : load t.path true defaultWriterMemory v with
      | error e v' => exact h
      | ok found v' =>
        have hstep : PicksUp t { t with fields := found.1, live := found.2 } :=
          ⟨hload.1, ht, hload.1, load_eq_ok hload.2 hr, rfl⟩
        exact ⟨Follows.trans h (.inr hstep), trivial⟩
    · rw [if_neg hload]
      exact ⟨h, trivial⟩
  | some live =>
    rw [refresh, Action.get_bind]
    have hstep (image : Image) :
        Follows t { t with live := some { live with visible := image.segments } } :=
      .inl ⟨rfl, rfl, rfl, fun _ => by simp [ht]⟩
    by_cases hreadonly : t.readonly = true
    · simp only [ht, Action.ite_run, if_pos hreadonly]
      cases v.image? live.directory with
      | none => exact h
      | some image => exact ⟨Follows.trans h (hstep image), trivial⟩
    · simp only [Action.ite_run, if_neg hreadonly]
      exact ⟨h, trivial⟩

theorem follows_ids (offset limit : Nat) :
    Keeps (Followed s) (ids offset limit) fun _ => True :=
  follows_refresh.seq fun _ => Keeps.get.bind fun _ _ => .pure trivial

theorem follows_search (q : TermQuery) (offset limit : Nat) :
    Keeps (Followed s) (search q offset limit) fun _ => True :=
  follows_refresh.seq fun _ => Keeps.get.bind fun _ _ => .ite (fun _ => .throw) fun _ =>
    Keeps.seq (.ofExcept fun _ _ => trivial) fun _ => .pure trivial

theorem follows_commit : Keeps (Followed s) commit fun _ => True :=
  Keeps.look fun (t, v) h => by
    dsimp only
    split
    · rename_i ht
      refine ⟨MayPut s, mayPut_of_live h ht, fun _ h => h.1, ?_⟩
      split
      · exact Keeps.seq mayPut_onVolume fun _ =>
          mayPut_modify fun (_, _) => by simp [clearPending]
      · exact Keeps.seq (mayPut_modify fun (_, _) => by simp)
          fun _ => .throw
    · exact ⟨_, h, fun _ h => h, .pure trivial⟩

theorem follows_setBack : Keeps (Followed s) setBack fun _ => True :=
  Keeps.look fun (t, v) h => by
    dsimp only
    split
    · rename_i ht
      refine ⟨MayPut s, mayPut_of_live h ht, fun _ h => h.1, ?_⟩
      split
      · exact mayPut_modify fun (_, _) => by simp
      · exact Keeps.seq mayPut_onVolume fun _ =>
          Keeps.seq (mayPut_modify fun (_, _) => by simp) fun _ => .throw
    · exact ⟨_, h, fun _ h => h, .pure trivial⟩

theorem follows_cancel : Keeps (Followed s) cancel fun _ => True :=
  follows_setBack.seq fun _ => follows_modify fun (_, _) => by simp [clearPending]

end Store

end Searchlight.Disk
