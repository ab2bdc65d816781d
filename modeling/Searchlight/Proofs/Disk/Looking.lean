import Searchlight.Disk.Store
import Searchlight.Proofs.Disk.Directories

/-!
# Stores that are open for reading

A store that is open for reading has neither a lock nor a writer (`Store.OnlyReads`). Whatever it is
asked for, all files stay as they are, and all that is made are empty files by which the index guards
its reader (`Volume.Guards`).
-/

namespace Searchlight.Disk

open Searchlight.Action (Keeps)
open FileTree (child join)

/-! ## Files -/

namespace Volume

/-- Nothing was changed, and nothing made but empty locks of readers. -/
structure Guards (u v : Volume) : Prop where
  nodes : ∀ k, v.files.nodes.get? k = u.files.nodes.get? k ∨
    (∃ directory, k = child directory readerLockFile) ∧ u.files.nodes.get? k = none ∧
      v.files.nodes.get? k = some (.file ⟨.text "", none⟩)
  marks : v.marks = u.marks

variable {u v w : Volume} {directory k : String} {e : Error}

theorem Guards.refl (v : Volume) : Guards v v := ⟨fun _ => .inl rfl, rfl⟩

theorem Guards.trans (h : Guards u v) (h' : Guards v w) : Guards u w where
  nodes k := by
    rcases h'.nodes k with hk' | ⟨hname, hnone, hmade⟩
    · rw [hk']
      exact h.nodes k
    · rcases h.nodes k with hk | ⟨-, -, hk⟩
      · exact .inr ⟨hname, hk ▸ hnone, hmade⟩
      · cases hnone.symm.trans hk
  marks := h'.marks.trans h.marks

theorem guards_insert (hnone : v.files.nodes.get? (child directory readerLockFile) = none) :
    Guards v ⟨⟨v.files.nodes.insert (child directory readerLockFile) (.file ⟨.text "", none⟩)⟩,
      v.marks⟩ := by
  refine ⟨fun k => ?_, rfl⟩
  rw [KeyMap.get?_insert]
  split
  · rename_i hk
    exact .inr ⟨⟨directory, hk.symm⟩, hk ▸ hnone, rfl⟩
  · exact .inl rfl

/-- A lock of a reader is made where there is none. -/
theorem keeps_touch_guards :
    Keeps (Guards u) (touch (child directory readerLockFile) "" e) fun _ => True := by
  intro v hv
  rw [touch, Action.get_bind]
  cases hread : v.files.read? (child directory readerLockFile) with
  | some file => exact ⟨hv, trivial⟩
  | none =>
    dsimp only
    rw [write, Action.get_bind, hread]
    cases hw : v.files.write? (child directory readerLockFile) ⟨.text "", none⟩ with
    | none => simpa [hw] using hv
    | some files =>
      obtain ⟨k, hk, hd, rfl⟩ := FileTree.write?_eq_some hw
      obtain ⟨here, -, rfl⟩ := (FileTree.canonical?_child isOther_readerLockFile.isEntry
        isOther_readerLockFile.isName).1 hk
      have hnone : v.files.nodes.get? (child (join here) readerLockFile) = none := by
        rw [FileTree.read?, hk] at hread
        rw [FileTree.isDirectory] at hd
        cases hnode : v.files.nodes.get? (child (join here) readerLockFile) with
        | none => rfl
        | some n => cases n <;> simp_all
      simpa [hw] using hv.trans (guards_insert hnone)

end Volume

open Volume (Guards)

variable {u v : Volume}

/-! ## Indexes in use -/

namespace Live

theorem keeps_start_guards (directory : String) (ss : Segments) (memory : Nat) :
    Keeps (Guards u) (start directory ss true memory) fun live => live.writer = none :=
  Volume.keeps_touch_guards.seq fun _ =>
    Keeps.bind (Keeps.pure (Q := (· = none)) rfl) fun _ hwriter => .pure hwriter

theorem keeps_openIn_guards (path : String) (memory : Nat) :
    Keeps (Guards u) (openIn path true memory) fun found => found.2.writer = none :=
  Keeps.get.bind fun _ _ => by
    split
    · exact (keeps_start_guards _ _ _).bind fun _ hlive => .pure hlive
    · exact .throw

theorem stop_of_writer_none {live : Live} (h : live.writer = none) : live.stop v = .ok live v := by
  rw [stop, h]
  cases live
  cases h
  rfl

end Live

theorem keeps_load_guards (path : String) (memory : Nat) :
    Keeps (Guards u) (load path true memory) fun found =>
      ∀ live, found.2 = some live → live.writer = none :=
  Keeps.get.bind fun v hv => Keeps.seq (.ofExcept fun _ _ => trivial) fun schema => by
    refine .ite (fun _ => (Live.keeps_openIn_guards path memory).bind fun found hlive => ?_)
      fun _ => .pure nofun
    refine Keeps.seq (Keeps.orUndo (.ofExcept fun _ _ => trivial) ?_) fun _ => .pure ?_
    · intro w hw
      have hstop : (discard found.2.stop : Action Volume Unit) w = .ok () w := by
        change (Function.const _ () <$> found.2.stop) w = _
        rw [Action.map_run, Live.stop_of_writer_none hlive]
      rw [hstop]
      exact ⟨hw, trivial⟩
    · rintro _ ⟨⟩
      exact hlive

/-! ## Stores -/

namespace Store

/-- The store is open for reading: it has locked nothing and writes nothing. -/
structure OnlyReads (s : Store) : Prop where
  readonly : s.readonly = true
  lock : s.lock = none
  writer : ∀ live, s.live = some live → live.writer = none

def Looks (u : Volume) (x : Store × Volume) : Prop := x.1.OnlyReads ∧ Guards u x.2

theorem keeps_openWith_guards {analyze : Analyzer} {o : BackendOptions}
    (hreadonly : o.readonly = true) : Keeps (Guards u) (openWith analyze o) OnlyReads := by
  refine Keeps.seq (.ofExcept fun _ _ => trivial) fun _ => ?_
  split
  · exact .throw
  · rw [if_pos hreadonly]
    refine Keeps.bind (Keeps.pure (Q := (· = none)) rfl) ?_
    rintro _ rfl
    rw [hreadonly]
    exact ((keeps_load_guards _ _).orUndo (.pure trivial)).bind fun _ hlive =>
      .pure ⟨rfl, rfl, hlive⟩

theorem keeps_refresh_looks : Keeps (Looks u) refresh fun _ => True := by
  intro (s, v) ⟨hs, hv⟩
  rw [refresh, Action.get_bind]
  dsimp only
  rw [if_pos hs.readonly]
  cases hlive : s.live with
  | none =>
    dsimp only
    by_cases hindex : v.hasIndex s.path = true
    · rw [if_pos hindex]
      have hload := keeps_load_guards (u := u) s.path defaultWriterMemory v hv
      simp only [Action.bind_run, Action.second, Action.focus, Action.modify_run]
      cases hr : load s.path true defaultWriterMemory v <;> rw [hr] at hload
      · exact ⟨⟨⟨hs.readonly, hs.lock, hload.2⟩, hload.1⟩, trivial⟩
      · exact ⟨hs, hload⟩
    · rw [if_neg hindex]
      exact ⟨⟨hs, hv⟩, trivial⟩
  | some live =>
    dsimp only
    cases v.image? live.directory with
    | none => exact ⟨hs, hv⟩
    | some image =>
      refine ⟨⟨⟨hs.readonly, hs.lock, ?_⟩, hv⟩, trivial⟩
      rintro _ ⟨⟩
      exact hs.writer live hlive

theorem keeps_ids_looks (offset limit : Nat) : Keeps (Looks u) (ids offset limit) fun _ => True :=
  keeps_refresh_looks.seq fun _ => Keeps.get.bind fun _ _ => .pure trivial

theorem keeps_search_looks (q : TermQuery) (offset limit : Nat) :
    Keeps (Looks u) (search q offset limit) fun _ => True :=
  keeps_refresh_looks.seq fun _ => Keeps.get.bind fun _ _ => .ite (fun _ => .throw) fun _ =>
    Keeps.seq (.ofExcept fun _ _ => trivial) fun _ => .pure trivial

theorem keeps_commit_looks : Keeps (Looks u) commit fun _ => True :=
  Keeps.look fun (s, v) h => ⟨Looks u, h, fun _ h => h, by
    dsimp only
    split
    · rename_i hlive
      cases h.1.writer _ hlive
    · exact .pure trivial⟩

theorem keeps_setBack_looks : Keeps (Looks u) setBack fun _ => True :=
  Keeps.look fun (s, v) h => ⟨Looks u, h, fun _ h => h, by
    dsimp only
    split
    · rename_i hlive
      cases h.1.writer _ hlive
    · exact .pure trivial⟩

theorem keeps_cancel_looks : Keeps (Looks u) cancel fun _ => True :=
  keeps_setBack_looks.seq fun _ => .modify fun _ h => ⟨⟨h.1.readonly, h.1.lock, h.1.writer⟩, h.2⟩

theorem keeps_abandon_looks : Keeps (Looks u) abandon fun _ => True := by
  have hstop : Keeps (Looks u) stopWriter fun _ => True := by
    intro (s, v) ⟨hs, hv⟩
    rw [stopWriter, Action.get_bind]
    dsimp only
    cases hlive : s.live with
    | none => exact ⟨⟨hs, hv⟩, trivial⟩
    | some live =>
      have hwriter := hs.writer live hlive
      simp only [Action.bind_run, Action.second, Action.focus, Live.stop_of_writer_none hwriter]
      refine ⟨⟨⟨hs.readonly, hs.lock, ?_⟩, hv⟩, trivial⟩
      rintro _ ⟨⟩
      exact hwriter
  have hrelease : Keeps (Looks u) releaseLock fun _ => True := by
    intro (s, v) ⟨hs, hv⟩
    rw [releaseLock, Action.get_bind]
    dsimp only
    rw [hs.lock]
    exact ⟨⟨⟨hs.readonly, rfl, hs.writer⟩, hv⟩, trivial⟩
  exact hstop.seq fun _ => hrelease

theorem keeps_close_looks : Keeps (Looks u) close fun _ => True := by
  refine Keeps.get.bind fun _ _ => .ite (fun _ => keeps_commit_looks.seq fun _ => ?_) fun _ => ?_
  all_goals
    refine Keeps.seq (.modify fun _ h => ⟨⟨h.1.readonly, h.1.lock, h.1.writer⟩, h.2⟩) fun _ => ?_
    exact keeps_abandon_looks

end Store

end Searchlight.Disk
