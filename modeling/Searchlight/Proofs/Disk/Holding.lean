import Searchlight.Proofs.Disk.Locks

/-!
# What stores have locked

Whatever a store is asked for, it leaves no lock that is neither its own nor was there before
(`Store.Accounts`). Once it has given its lock back it never takes it again; it has done so when it
was closed or destroyed without failing.
-/

namespace Searchlight.Disk

open Searchlight.Action (Keeps Yields)
open FileTree (child)
open Volume (LockedBy)

variable {v : Volume} {O : String → Nat → Prop}

theorem Writer.mark_of_add? {w w' : Writer} {r : Option Record} (h : w.add? r = some w') :
    w'.mark = w.mark := by
  rw [add?.eq_def] at h
  split at h <;> cases h <;> rfl

namespace Store

variable {L : String → Prop} {l : Option Nat} {s s' : Store}

/-- A store answers for locks: what is locked and not for a reason of `O` is locked by the store,
which has the lock that it was given, or none. -/
structure Accounts (l : Option Nat) (L : String → Prop) (O : String → Nat → Prop)
    (x : Store × Volume) : Prop where
  lock : x.1.lock = none ∨ x.1.lock = l
  locks : LockedBy (fun k m => O k m ∨ x.1.Owns L k m) x.2

theorem Accounts.congr (h : Accounts l L O (s, v)) (hlock : s'.lock = s.lock)
    (hlive : ∀ k m live, s.live = some live → live.Owns k m →
      ∃ live', s'.live = some live' ∧ live'.Owns k m) : Accounts l L O (s', v) := by
  refine ⟨?_, h.locks.mono fun k m hk => hk.imp id fun hk => hk.imp (fun hk => ?_) ?_⟩
  · simpa [hlock] using h.lock
  · rwa [hlock]
  · rintro ⟨live, hs, howns⟩
    exact hlive k m live hs howns

theorem Accounts.same (h : Accounts l L O (s, v)) (hlock : s'.lock = s.lock)
    (hlive : s'.live = s.live) : Accounts l L O (s', v) :=
  h.congr hlock fun _ _ live hs howns => ⟨live, hlive.trans hs, howns⟩

/-- What the store has of an index is put to other use, and the writer keeps its lock. -/
theorem Accounts.writer {directory directory' : String} {visible visible' : Segments}
    {w w' : Writer} (h : Accounts l L O (s, v)) (hs : s.live = some ⟨directory, visible, some w⟩)
    (hmark : w'.mark = w.mark) :
    Accounts l L O ({ s with live := some ⟨directory', visible', some w'⟩ }, v) := by
  refine h.congr rfl fun k m live hlive howns => ⟨_, rfl, ?_⟩
  obtain ⟨⟨_, hw, hm⟩, hk⟩ := howns
  cases hs.symm.trans hlive
  cases hw
  exact ⟨⟨w', rfl, hmark.trans hm⟩, hk⟩

theorem second_run {α : Type} (x : Action Volume α) :
    (Action.second x : Work α) (s, v) =
      match x v with
      | .ok a v' => .ok a (s, v')
      | .error e v' => .error e (s, v') := by
  rw [Action.second, Action.focus]
  cases x v <;> rfl

theorem releaseLock_run : releaseLock (s, v) =
    .ok () ({ s with lock := none }, (s.lock.forM Volume.release).after v) := by
  rw [releaseLock, Action.get_bind]
  dsimp only
  cases s.lock <;> rfl

theorem stopWriter_run : stopWriter (s, v) =
    match s.live with
    | none => .ok () (s, v)
    | some live =>
      .ok () ({ s with live := some { live with writer := none } }, live.stop.after v) := by
  rw [stopWriter, Action.get_bind]
  dsimp only
  cases hlive : s.live with
  | none => rfl
  | some live =>
    obtain ⟨directory, visible, writer⟩ := live
    cases writer <;> rfl

section
variable {E : Store × Volume → Prop}

theorem yields_releaseLock : Yields (Accounts l L O) releaseLock
    (fun _ x => Accounts l L O x ∧ x.1.lock = none) E := by
  intro (s, v) h
  rw [releaseLock_run]
  refine ⟨⟨.inl rfl, ?_⟩, rfl⟩
  cases hlock : s.lock with
  | none =>
    refine h.locks.mono fun k m hk => hk.imp id fun hk => hk.imp (fun hk => ?_) id
    rwa [← hlock]
  | some mark =>
    refine ((Volume.yields_release mark).after h.locks).mono fun k m hk => ?_
    obtain ⟨hk, hne⟩ := hk
    refine hk.imp id fun hk => .inr (hk.resolve_left fun howns => hne ?_)
    exact (Option.some.inj (hlock.symm.trans howns.1)).symm

theorem yields_stopWriter : Yields (Accounts l L O) stopWriter
    (fun _ x => Accounts l L O x ∧ ∀ live, x.1.live = some live → live.writer = none) E := by
  intro (s, v) h
  rw [stopWriter_run]
  cases hlive : s.live with
  | none =>
    refine ⟨h, fun live hs => ?_⟩
    cases hlive.symm.trans hs
  | some live =>
    refine ⟨⟨h.lock, ?_⟩, by rintro _ ⟨⟩; rfl⟩
    have hlocks : LockedBy (fun k m => (O k m ∨ s.lock = some m ∧ L k) ∨ live.Owns k m) v := by
      refine h.locks.mono fun k m hk => ?_
      rcases hk with hk | hk | ⟨live', hs, howns⟩
      · exact .inl (.inl hk)
      · exact .inl (.inr hk)
      · cases hlive.symm.trans hs
        exact .inr howns
    refine (((Live.yields_stop live).mono (fun _ _ h => h.2) fun _ h => h).after hlocks).mono ?_
    exact fun k m hk => hk.imp id .inl

theorem yields_abandon : Yields (Accounts l L O) abandon
    (fun _ x => Accounts l L O x ∧ x.1.lock = none ∧ LockedBy O x.2) E := by
  have hquiet : Keeps (fun x => ∀ live, x.1.live = some live → live.writer = none) releaseLock
      fun _ => True :=
    .of_after fun (s, v) hs => by
      rw [Action.after, releaseLock_run]
      exact hs
  refine yields_stopWriter.bind fun _ => (yields_releaseLock.and hquiet).mono ?_ fun _ h => h
  rintro - ⟨s, v⟩ ⟨⟨h, hlock⟩, hs⟩
  refine ⟨h, hlock, h.locks.mono fun k m hk => hk.resolve_right ?_⟩
  rintro (⟨howns, -⟩ | ⟨live, hlive, ⟨w, hw, -⟩, -⟩)
  · cases hlock.symm.trans howns
  · cases (hs live hlive).symm.trans hw

end

theorem keeps_clearPending_accounts : Keeps (Accounts l L O)
    (modify fun (s, v) => (s.clearPending, v) : Work PUnit) fun _ => True :=
  .modify fun _ h => h.same rfl rfl

theorem commit_of_writer_none (hs : ∀ live, s.live = some live → live.writer = none) :
    commit (s, v) = .ok () (s, v) ∧ setBack (s, v) = .ok () (s, v) := by
  rw [commit, setBack, Action.get_bind, Action.get_bind]
  dsimp only
  cases hlive : s.live with
  | none => exact ⟨rfl, rfl⟩
  | some live =>
    obtain ⟨directory, visible, writer⟩ := live
    cases hs _ hlive
    exact ⟨rfl, rfl⟩

/-- A writer commits or is set back, and keeps its lock. -/
theorem keeps_commit_accounts : Keeps (Accounts l L O) commit fun _ => True := by
  intro (s, v) h
  by_cases hs : ∀ live, s.live = some live → live.writer = none
  · rw [(commit_of_writer_none hs).1]
    exact ⟨h, trivial⟩
  · simp only [not_forall] at hs
    obtain ⟨⟨directory, visible, _ | w⟩, hlive, hw⟩ := hs
    · exact absurd rfl hw
    rw [commit, Action.get_bind]
    simp only [hlive]
    cases hresult : w.result? with
    | none => exact h.writer hlive (by rw [Writer.afterFailure]; split <;> rfl)
    | some segments =>
      simp only [Action.bind_run, second_run]
      generalize Error.index "commit failed" (some "the file cannot be written") = e
      have himage : Keeps _ (Volume.writeImage directory ⟨s.fields.layout, segments⟩ e) _ :=
        Volume.keeps_writeImage_locks (O := fun k m => O k m ∨ s.Owns L k m)
      replace himage := himage v h.locks
      cases hr : Volume.writeImage directory ⟨s.fields.layout, segments⟩ e v <;> rw [hr] at himage
      · exact ⟨Accounts.writer (s := s.clearPending) ⟨h.lock, himage.1⟩ hlive rfl, trivial⟩
      · exact ⟨h.lock, himage⟩

theorem keeps_setBack_accounts : Keeps (Accounts l L O) setBack fun _ => True := by
  intro (s, v) h
  by_cases hs : ∀ live, s.live = some live → live.writer = none
  · rw [(commit_of_writer_none hs).2]
    exact ⟨h, trivial⟩
  · simp only [not_forall] at hs
    obtain ⟨⟨directory, visible, _ | w⟩, hlive, hw⟩ := hs
    · exact absurd rfl hw
    rw [setBack, Action.get_bind]
    simp only [hlive]
    cases himage : v.image? directory with
    | some image => exact ⟨h.writer hlive rfl, trivial⟩
    | none =>
      have hreleased := (Volume.keeps_release_locks w.mark).after h.locks
      exact Accounts.writer (s := s) ⟨h.lock, hreleased⟩ hlive rfl

theorem keeps_cancel_accounts : Keeps (Accounts l L O) cancel fun _ => True :=
  keeps_setBack_accounts.seq fun _ => keeps_clearPending_accounts

theorem Accounts.start {live : Option Live} {fields : FieldMap} (hlock : s.lock = none ∨ s.lock = l)
    (hs : s.live = none)
    (hv : LockedBy (fun k m => (O k m ∨ s.Owns L k m) ∨ ∃ i, live = some i ∧ i.Owns k m) v) :
    Accounts l L O ({ s with fields, live }, v) := by
  refine ⟨hlock, hv.mono fun k m hk => ?_⟩
  rcases hk with (hk | hk | ⟨live, hlive, -⟩) | hk
  · exact .inl hk
  · exact .inr (.inl hk)
  · cases hs.symm.trans hlive
  · exact .inr (.inr hk)

theorem keeps_refresh_accounts : Keeps (Accounts l L O) refresh fun _ => True := by
  intro (s, v) h
  rw [refresh, Action.get_bind]
  dsimp only
  by_cases hreadonly : s.readonly = true
  · rw [if_pos hreadonly]
    cases hlive : s.live with
    | none =>
      dsimp only
      by_cases hindex : v.hasIndex s.path = true
      · rw [if_pos hindex]
        have hload : Yields _ (load s.path true defaultWriterMemory) _ _ :=
          yields_load (O := fun k m => O k m ∨ s.Owns L k m)
        replace hload := hload v h.locks
        simp only [Action.bind_run, second_run]
        cases hr : load s.path true defaultWriterMemory v <;> rw [hr] at hload
        · exact ⟨Accounts.start h.lock hlive hload, trivial⟩
        · exact ⟨h.lock, hload⟩
      · rw [if_neg hindex]
        exact ⟨h, trivial⟩
    | some live =>
      dsimp only
      cases v.image? live.directory with
      | none => exact h
      | some image =>
        refine ⟨h.congr rfl fun k m live' hs howns => ⟨_, rfl, ?_⟩, trivial⟩
        cases hlive.symm.trans hs
        exact howns
  · rw [if_neg hreadonly]
    exact ⟨h, trivial⟩

theorem keeps_ids_accounts (offset limit : Nat) :
    Keeps (Accounts l L O) (ids offset limit) fun _ => True :=
  keeps_refresh_accounts.seq fun _ => Keeps.get.bind fun _ _ => .pure trivial

theorem keeps_search_accounts (q : TermQuery) (offset limit : Nat) :
    Keeps (Accounts l L O) (search q offset limit) fun _ => True :=
  keeps_refresh_accounts.seq fun _ => Keeps.get.bind fun _ _ => .ite (fun _ => .throw) fun _ =>
    Keeps.seq (.ofExcept fun _ _ => trivial) fun _ => .pure trivial

theorem yields_ensureLive : Yields (Accounts l L O) ensureLive
    (fun live x => Accounts l L O x ∧ x.1.live = some live) (Accounts l L O) := by
  intro (s, v) h
  rw [ensureLive, Action.get_bind]
  dsimp only
  cases hlive : s.live with
  | some live => exact ⟨h, hlive⟩
  | none =>
    have hwrite {path : String} {content : Content} {e : Error} :
        Yields _ (Action.second (Volume.write path content e)) _ _ :=
      Yields.second (Volume.keeps_write_locks (O := fun k m => O k m ∨ s.Owns L k m)).yields s
    have hcreate : Yields _ (Action.second (Live.createIn s.path s.fields.layout s.writerMemory)) _ _ :=
      Yields.second (Live.yields_createIn (O := fun k m => O k m ∨ s.Owns L k m)) s
    refine ((hwrite.bind fun _ => Yields.pre (hcreate.bind fun live => ?_) fun _ h =>
      ⟨h.1, h.2.1⟩).mono (fun _ _ h => h) fun x hx => ?_) (s, v) ⟨rfl, h.locks⟩
    · rintro ⟨_, v⟩ ⟨rfl, hv⟩
      exact ⟨Accounts.start h.lock hlive (hv.mono fun k m hk => hk.imp id fun hk => ⟨_, rfl, hk⟩), rfl⟩
    · obtain ⟨_, v⟩ := x
      obtain ⟨rfl, hv⟩ := hx
      exact ⟨h.lock, hv⟩

theorem keeps_withWriter_accounts {f : Writer → Except Error Writer}
    (hf : ∀ w w', f w = .ok w' → w'.mark = w.mark) :
    Keeps (Accounts l L O) (withWriter f) fun _ => True := by
  have hwork : Yields (Accounts l L O) (withWriter f) (fun _ => Accounts l L O) (Accounts l L O) := by
    refine yields_ensureLive.bind fun ⟨directory, visible, writer⟩ => ?_
    cases writer with
    | none => exact .throw fun _ h => h.1
    | some w =>
      dsimp only
      cases hw : f w with
      | error e => exact .throw fun _ h => h.1
      | ok w' => exact fun (s, v) h => h.1.writer h.2 (hf w w' hw)
  exact .of_after fun _ h => hwork.after h

theorem keeps_ensureWritable_accounts {operation : String} :
    Keeps (Accounts l L O) (ensureWritable operation) fun _ => True :=
  Keeps.get.bind fun _ _ => .ite (fun _ => .throw) fun _ => .pure trivial

theorem keeps_ensureOpen_accounts : Keeps (Accounts l L O) ensureOpen fun _ => True :=
  Keeps.get.bind fun _ _ => .ite (fun _ => .throw) fun _ => .pure trivial

theorem keeps_index_accounts (d : PreparedDocument) (id : String) :
    Keeps (Accounts l L O) (index d id) fun _ => True := by
  refine keeps_ensureWritable_accounts.seq fun _ => keeps_ensureOpen_accounts.seq fun _ =>
    Keeps.get.bind fun (s, _) _ => ?_
  refine (keeps_withWriter_accounts ?_).seq fun _ => (keeps_withWriter_accounts ?_).seq fun _ => ?_
  · rintro w _ ⟨⟩
    rfl
  · intro w w' h
    cases hadd : w.add? (s.fields.record? s.analyze id d) with
    | none => simp [hadd] at h
    | some w₁ =>
      simp only [hadd] at h
      cases h
      exact Writer.mark_of_add? hadd
  · exact Keeps.seq (.modify fun _ h => h.same rfl rfl) fun _ => .pure trivial

theorem keeps_delete_accounts (id : String) : Keeps (Accounts l L O) (delete id) fun _ => True := by
  refine keeps_ensureWritable_accounts.seq fun _ => keeps_ensureOpen_accounts.seq fun _ =>
    Keeps.get.bind fun (s, _) _ => .ite (fun _ => .throw) fun _ => ?_
  refine (keeps_withWriter_accounts ?_).seq fun _ => .modify fun _ h => h.same rfl rfl
  rintro w _ ⟨⟩
  rfl

/-- **To close a store** without failing gives its lock back. -/
theorem yields_close : Yields (Accounts l L O) close
    (fun _ x => Accounts l L O x ∧ x.1.lock = none) (Accounts l L O) := by
  have hend : Yields (Accounts l L O) (do
      modify fun (s, v) => ({ s with closed := true }, v)
      abandon) (fun _ x => Accounts l L O x ∧ x.1.lock = none) (Accounts l L O) :=
    Keeps.then (S := fun _ => True) (.modify fun _ h => h.same rfl rfl) fun _ _ =>
      yields_abandon.mono (fun _ _ h => ⟨h.1, h.2.1⟩) fun _ h => h
  exact Keeps.get.then fun _ _ => .ite
    (fun _ => keeps_commit_accounts.then fun _ _ => hend) fun _ => hend

/-- **To destroy a store** without failing gives its lock back. -/
theorem yields_destroy : Yields (Accounts l L O) destroy
    (fun _ x => Accounts l L O x ∧ x.1.lock = none) (Accounts l L O) := by
  have hstop : Keeps (Accounts l L O) (do
      stopWriter
      modify fun (s, v) => ({ s with live := none }, v)) fun _ => True := by
    refine .of_after fun _ h => (yields_stopWriter.bind fun _ => ?_).after h
    rintro ⟨s, v⟩ ⟨h, hs⟩
    refine h.congr rfl fun k m live hlive howns => ?_
    obtain ⟨⟨w, hw, -⟩, -⟩ := howns
    cases (hs live hlive).symm.trans hw
  refine keeps_ensureWritable_accounts.then fun _ _ => ?_
  refine Keeps.then (S := fun _ => True) (.modify fun _ h => h.same rfl rfl) fun _ _ => ?_
  refine (keeps_setBack_accounts.thenAlways hstop).then fun _ _ => ?_
  refine Keeps.then (S := fun _ => True) (.modify fun _ h => h.same rfl rfl) fun _ _ => ?_
  refine yields_releaseLock.bind fun _ => Yields.look fun (s, v) h => ?_
  have hremove : Yields _ (Action.second (Volume.removeDirectory s.path)) _ _ :=
    Yields.second (Volume.keeps_removeDirectory_locks (O := fun k m => O k m ∨ s.Owns L k m)).yields s
  refine (hremove.mono (fun _ x hx => ?_) fun x hx => ?_).pre ?_
  · obtain ⟨_, v'⟩ := x
    obtain ⟨rfl, hv', -⟩ := hx
    exact ⟨⟨h.1.lock, hv'⟩, h.2⟩
  · obtain ⟨_, v'⟩ := x
    obtain ⟨rfl, hv'⟩ := hx
    exact ⟨h.1.lock, hv'⟩
  · rintro _ rfl
    exact ⟨rfl, h.1.locks⟩

end Store

end Searchlight.Disk
