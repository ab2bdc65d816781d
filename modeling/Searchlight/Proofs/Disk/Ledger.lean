import Searchlight.Proofs.Disk.Writing

/-!
# What waits for the next commit

A store that may write tells in two sets what its next commit will add and take away, and its writer
has the changes themselves. A ledger says what both stand for: the records that the last commit left
and those that the next one will leave. Whatever order documents are indexed, deleted, committed and
given up in, the sets, the writer, the index in the directory and what the store shows agree with
the ledger (`Tracked.booked`).
-/

namespace Searchlight.Disk

open Searchlight.Action (Keeps FailsAs)
open Volume (Alike)

/-- The records of a store, as the last commit left them and as the next one will. -/
structure Ledger where
  committed : List Record
  upcoming : List Record

theorem Writer.add?_of_ready {w : Writer} (h : w.intake = .ready) (r : Record) :
    w.add? (some r) = some { w with waiting := w.waiting ++ [.add r] } := by
  cases w
  cases h
  rfl

namespace Store

/-- What a store that may write was given since it was opened, in any order. The directory may have
an index with any records that the engine finds by their ids, and no others; the documents are such
that the fields of the index take their values. -/
inductive Tracked : Ledger → Store × Volume → Prop where
  | opened {analyze : Analyzer} {o : BackendOptions} {v v' : Volume} {s : Store} {m : List Record}
      (hwritable : o.readonly = false) (hopen : openWith analyze o v = .ok s v')
      (hfields : s.fields.Unreserved) (hm : Lists m (v'.recordsAt s.path)) :
      Tracked ⟨m, m⟩ (s, v')
  | registered {l : Ledger} {s t : Store} {v : Volume} (h : Tracked l (s, v)) {name : String}
      {config : FieldConfig} (hok : s.registerField name config = .ok t) : Tracked l (t, v)
  | indexed {l : Ledger} {x : Store × Volume} (h : Tracked l x) {d : PreparedDocument}
      {id given : String} {r : Record} (hr : x.1.fields.record? x.1.analyze id d = some r)
      (hok : (index d id).outcome x = .ok given) :
      Tracked ⟨l.committed, without (·.id) id l.upcoming ++ [r]⟩ ((index d id).after x)
  | refused {l : Ledger} {x : Store × Volume} (h : Tracked l x) {d : PreparedDocument}
      {id : String} {r : Record} (hr : x.1.fields.record? x.1.analyze id d = some r) {e : Error}
      (herr : (index d id).outcome x = .error e) : Tracked l ((index d id).after x)
  | deleted {l : Ledger} {x : Store × Volume} (h : Tracked l x) (id : String) :
      Tracked ⟨l.committed, without (·.id) id l.upcoming⟩ ((delete id).after x)
  | committed {l : Ledger} {x : Store × Volume} (h : Tracked l x) :
      Tracked ⟨l.upcoming, l.upcoming⟩ (commit.after x)
  | cancelled {l : Ledger} {x : Store × Volume} (h : Tracked l x) :
      Tracked ⟨l.committed, l.committed⟩ (cancel.after x)

/-- The index that the records of a ledger are in: none as long as there are none, or one whose
writer has the next commit ready. -/
inductive HasRecords (l : Ledger) (s : Store) (v : Volume) : Prop where
  | none (hlive : s.live = none) (hledger : l = ⟨[], []⟩) (hpending : s.hasPending = false)
      (hrecords : v.recordsAt s.path = [])
  | serving {w : Writer} (hserves : s.Serves v w) (hcommitted : Lists l.committed w.committed.records)
      (hupcoming : Lists l.upcoming w.upcoming)

/-- A store and its volume agree with a ledger. -/
structure Booked (l : Ledger) (s : Store) (v : Volume) : Prop where
  readonly : s.readonly = false
  closed : s.closed = false
  isNumbered : s.fields.IsNumbered
  unreserved : s.fields.Unreserved
  pending : ∀ id, isTerm id = true → has l.upcoming id =
    (!s.pendingDeletes.contains id && (s.pendingAdds.contains id || has l.committed id))
  disjoint : ∀ id, s.pendingAdds.contains id = true → s.pendingDeletes.contains id = false
  quiet : s.hasPending = false → l.upcoming = l.committed
  records : HasRecords l s v

variable {l : Ledger} {s t : Store} {v v' : Volume} {w : Writer} {id : String}

theorem Serves.congr (h : s.Serves v w) (hlive : t.live = s.live) (hpath : t.path = s.path) :
    t.Serves v w := by
  obtain ⟨here, hs, hlead, hindex⟩ := h.here
  exact ⟨⟨here, hlive.trans hs, hpath ▸ hlead, hindex⟩, h.ready⟩

theorem commit_failed {directory : String} {visible : Segments}
    (hlive : s.live = some ⟨directory, visible, some w⟩) (hw : w.intake = .failed) :
    ∃ e z, Store.commit (s, v) = .error e z := by
  rw [Store.commit, Action.get_bind]
  simp only [hlive, Writer.result?, hw]
  exact ⟨_, _, rfl⟩

theorem contains_of_idle (hlive : s.live = none) (hpending : s.hasPending = false) (id : String) :
    s.contains id = false := by
  have hadds : s.pendingAdds.isEmpty = true := by
    simp only [hasPending, Bool.or_eq_false_iff, Bool.not_eq_false'] at hpending
    exact hpending.1
  rw [contains, shows, visible, hlive, KeyMap.contains_of_isEmpty hadds]
  simp [Segments.records]

namespace Booked

theorem lists_visible (h : Booked l s v) : Lists l.committed s.visible.records := by
  rcases h.records with ⟨hlive, rfl, -, -⟩ | ⟨hserves, hcommitted, -⟩
  · rw [visible, hlive]
    exact .empty
  · rw [hserves.visible]
    exact hcommitted

/-- **A document counts as there** just when the next commit leaves it. -/
theorem contains_eq (h : Booked l s v) (hterm : isTerm id = true) :
    s.contains id = has l.upcoming id := by
  rw [contains, shows_eq h.lists_visible hterm, h.pending id hterm]

/-- What does not count as there is not found by its id. -/
theorem without_eq (h : Booked l s v) (hid : s.contains id = false) :
    without (·.id) id l.upcoming = l.upcoming := by
  refine List.filter_eq_self.2 fun r hr => ?_
  rw [Bool.not_eq_true', ← Bool.not_eq_true, finds_iff]
  rintro ⟨rfl, hterm⟩
  rw [h.contains_eq hterm, ← Bool.not_eq_true, has_iff] at hid
  exact hid ⟨r, hr, rfl⟩

theorem writing {α : Type} (h : Booked l s v) (operation : String) (x : Work α) :
    (do ensureWritable operation; ensureOpen; x) (s, v) = x (s, v) := by
  rw [writing_run, if_neg (by simp [h.readonly]), if_neg (by simp [h.closed])]

/-! ### Opening and registering -/

theorem of_fresh {m : List Record} (h : s.Fresh v) (hfields : s.fields.Unreserved)
    (hm : Lists m (v.recordsAt s.path)) : Booked ⟨m, m⟩ s v where
  readonly := h.readonly
  closed := h.closed
  isNumbered := h.isNumbered
  unreserved := hfields
  pending id _ := by simp [h.pendingAdds, h.pendingDeletes]
  disjoint id hid := by simp [h.pendingAdds] at hid
  quiet _ := rfl
  records := by
    rcases h.index with ⟨hlive, hrecords⟩ | ⟨mark, ss, hserves⟩
    · have hempty : m = [] := by
        have hperm := hm.perm
        rw [hrecords] at hperm
        exact hperm.symm.eq_nil
      subst hempty
      refine .none hlive rfl ?_ hrecords
      rw [hasPending, h.pendingAdds, h.pendingDeletes]
      rfl
    · rw [hserves.recordsAt] at hm
      exact .serving hserves hm hm

theorem registerField (h : Booked l s v) {name : String} {config : FieldConfig}
    (hok : s.registerField name config = .ok t) : Booked l t v := by
  rw [Store.registerField] at hok
  split at hok
  · cases hok
  rename_i hname
  split at hok
  · cases hok
    exact h
  split at hok
  · cases hok
  · cases hok
    refine { h with isNumbered := FieldMap.isNumbered_build _, unreserved := ?_, records := ?_ }
    · exact h.unreserved.insert (by simpa using hname) config
    · rcases h.records with ⟨hlive, hl, hpending, hrecords⟩ | ⟨hserves, hcommitted, hupcoming⟩
      · exact .none hlive hl hpending hrecords
      · exact .serving (hserves.congr rfl rfl) hcommitted hupcoming

/-! ### Changes -/

theorem of_makeIndex (h : Booked l s v) (hlive : s.live = none) {live : Live}
    (hmake : s.makeIndex v = .ok live v') : Booked l { s with live := some live } v' := by
  obtain ⟨mark, hserves⟩ := makeIndex_serves hmake
  refine { h with records := ?_ }
  rcases h.records with ⟨-, rfl, -, -⟩ | ⟨hserves', -, -⟩
  · exact .serving hserves .empty .empty
  · obtain ⟨here, hsome, -⟩ := hserves'.here
    rw [hlive] at hsome
    cases hsome

theorem of_makeIndex_failed (h : Booked l s v) (hlive : s.live = none) {e : Error}
    (hmake : s.makeIndex v = .error e v') : Booked l s v' := by
  refine { h with records := ?_ }
  rcases h.records with ⟨-, hl, hpending, hrecords⟩ | ⟨hserves, -, -⟩
  · exact .none hlive hl hpending (keeps_makeIndex_nil.of_error hrecords hmake)
  · obtain ⟨here, hsome, -⟩ := hserves.here
    rw [hlive] at hsome
    cases hsome

/-- With an index in use a document is indexed in place of the one under its id. -/
theorem index_serving (h : Booked l s v) (hserves : s.Serves v w)
    (hcommitted : Lists l.committed w.committed.records) (hupcoming : Lists l.upcoming w.upcoming)
    {d : PreparedDocument} {r : Record}
    (hr : s.fields.record? s.analyze id d = some r) :
    ∃ t, index d id (s, v) = .ok id (t, v) ∧
      Booked ⟨l.committed, without (·.id) id l.upcoming ++ [r]⟩ t v := by
  obtain ⟨rfl, -, hfound⟩ := FieldMap.record?_eq_some h.isNumbered h.unreserved hr
  obtain ⟨live₁, hremove, hserves₁⟩ :=
    hserves.withWriter (f := fun w => .ok (w.remove r.id)) rfl rfl hserves.ready
  have hadd := Writer.add?_of_ready (w := w.remove r.id) hserves.ready r
  have hadds : gather (some r) (.index "failed to add document" (some "the writer has failed"))
      (w.remove r.id) =
        .ok { w.remove r.id with waiting := (w.remove r.id).waiting ++ [.add r] } := by
    simp only [gather, hadd]
  obtain ⟨live₂, hadded, hserves₂⟩ := hserves₁.withWriter hadds rfl hserves.ready
  refine ⟨{ s with
      live := some live₂
      pendingDeletes := s.pendingDeletes.erase r.id
      pendingAdds := s.pendingAdds.add r.id }, ?_, h.readonly, h.closed, h.isNumbered, h.unreserved,
    fun id' hterm => ?_, fun id' hid' => ?_, fun hquiet => ?_,
    .serving (hserves₂.congr rfl rfl) hcommitted ?_⟩
  · rw [index, h.writing, Action.get_bind]
    dsimp only
    rw [Action.bind_of_ok hremove, hr]
    exact Action.bind_of_ok hadded
  · have := h.pending id' hterm
    simp only [has_append, has_singleton, has_without hterm, KeyMap.contains_insert,
      KeyMap.contains_erase, TextSet.add]
    by_cases hid : r.id = id' <;> simp [hid, this]
  · simp only [KeyMap.contains_insert, KeyMap.contains_erase, TextSet.add] at hid' ⊢
    by_cases hid : r.id = id'
    · simp [hid]
    · simp only [hid, decide_false, Bool.false_or] at hid'
      simp [h.disjoint id' hid']
  · have hadds : (s.pendingAdds.add r.id).isEmpty = false :=
      KeyMap.isEmpty_of_contains (k := r.id) (by simp [TextSet.add])
    simp [hasPending, hadds] at hquiet
  · rw [Writer.upcoming, List.foldl_append]
    change Lists _ (Write.applyTo (w.remove r.id).upcoming (.add r))
    rw [Writer.upcoming_remove]
    exact hupcoming.put hfound

theorem index_of_live_none (h : Booked l s v) (hlive : s.live = none) (d : PreparedDocument) :
    index d id (s, v) =
      match s.makeIndex v with
      | .ok live v' => index d id ({ s with live := some live }, v')
      | .error e v' => .error e (s, v') := by
  rw [index, h.writing, Action.get_bind]
  dsimp only
  rw [withWriter_bind_of_live_none hlive]
  cases hmake : s.makeIndex v with
  | error e v' => rfl
  | ok live v' =>
    dsimp only
    rw [(h.of_makeIndex hlive hmake).writing]
    rfl

/-- **A document** is indexed, or making the index failed. -/
theorem index_cases (h : Booked l s v) {d : PreparedDocument} {r : Record}
    (hr : s.fields.record? s.analyze id d = some r) :
    (∃ y, index d id (s, v) = .ok id y ∧
        Booked ⟨l.committed, without (·.id) id l.upcoming ++ [r]⟩ y.1 y.2) ∨
      ∃ e v', index d id (s, v) = .error e (s, v') ∧ Booked l s v' := by
  rcases h.records with ⟨hlive, -, -, -⟩ | ⟨hserves, hcommitted, hupcoming⟩
  · rw [h.index_of_live_none hlive]
    cases hmake : s.makeIndex v with
    | error e v' => exact .inr ⟨e, v', rfl, h.of_makeIndex_failed hlive hmake⟩
    | ok live v' =>
      have h' := h.of_makeIndex hlive hmake
      rcases h'.records with ⟨hnone, -, -, -⟩ | ⟨hserves, hcommitted, hupcoming⟩
      · cases hnone
      · obtain ⟨t, hindex, ht⟩ := h'.index_serving hserves hcommitted hupcoming hr
        exact .inl ⟨(t, v'), hindex, ht⟩
  · obtain ⟨t, hindex, ht⟩ := h.index_serving hserves hcommitted hupcoming hr
    exact .inl ⟨(t, v), hindex, ht⟩

/-- A document that does not fit an index in use is taken, but nothing is committed then. -/
theorem commit_unfit (h : Booked l s v) (hserves : s.Serves v w) {d : PreparedDocument}
    (hr : s.fields.record? s.analyze id d = none) :
    ∃ t e z, index d id (s, v) = .ok id (t, v) ∧ Store.commit (t, v) = .error e z := by
  obtain ⟨live₁, hremove, hserves₁⟩ :=
    hserves.withWriter (f := fun w => .ok (w.remove id)) rfl rfl hserves.ready
  obtain ⟨here, hlive₁, -⟩ := hserves₁.here
  have hadd : (w.remove id).add? none = some { w.remove id with intake := .failed } := by
    rw [Writer.add?]
    simp [Writer.remove, hserves.ready]
  have hadded := withWriter_of_live (v := v) (f := gather none (.index "failed to add document"
    (some "the writer has failed"))) hlive₁ rfl
  simp only [gather, hadd] at hadded
  obtain ⟨e, z, hcommit⟩ := commit_failed (v := v)
    (s := { s with
      live := some ⟨FileTree.join here, w.committed, some { w.remove id with intake := .failed }⟩
      pendingDeletes := s.pendingDeletes.erase id
      pendingAdds := s.pendingAdds.add id }) rfl rfl
  refine ⟨_, e, z, ?_, hcommit⟩
  rw [index, h.writing, Action.get_bind]
  dsimp only
  rw [Action.bind_of_ok hremove, hr]
  exact Action.bind_of_ok hadded

/-- **A document that is indexed** is one of those that the next commit leaves, unless the next
commit fails for it. -/
theorem index_ok (h : Booked l s v) {d : PreparedDocument} {given : String} {y : Store × Volume}
    (hrun : index d id (s, v) = .ok given y) :
    given = id ∧ ((∃ r, s.fields.record? s.analyze id d = some r) ∨
      ∃ e z, Store.commit y = .error e z) := by
  cases hr : s.fields.record? s.analyze id d with
  | some r =>
    rcases h.index_cases hr with ⟨y', hindex, -⟩ | ⟨e, v', hindex, -⟩ <;> rw [hrun] at hindex
    · cases hindex
      exact ⟨rfl, .inl ⟨r, rfl⟩⟩
    · cases hindex
  | none =>
    rcases h.records with ⟨hlive, -, -, -⟩ | ⟨hserves, -, -⟩
    · rw [h.index_of_live_none hlive] at hrun
      cases hmake : s.makeIndex v with
      | error e v' => simp [hmake] at hrun
      | ok live v' =>
        simp only [hmake] at hrun
        have h' := h.of_makeIndex hlive hmake
        obtain ⟨mark, hserves⟩ := makeIndex_serves hmake
        obtain ⟨t, e, z, hindex, hcommit⟩ := h'.commit_unfit hserves hr
        rw [hrun] at hindex
        cases hindex
        exact ⟨rfl, .inr ⟨e, z, hcommit⟩⟩
    · obtain ⟨t, e, z, hindex, hcommit⟩ := h.commit_unfit hserves hr
      rw [hrun] at hindex
      cases hindex
      exact ⟨rfl, .inr ⟨e, z, hcommit⟩⟩

theorem delete_missing (h : Booked l s v) (hcontains : s.contains id = false) :
    delete id (s, v) = .error (.notFound id) (s, v) := by
  rw [delete, h.writing, Action.get_bind]
  simp [hcontains]

/-- **A document that is there** is deleted. -/
theorem delete_present (h : Booked l s v) (hcontains : s.contains id = true) :
    ∃ y, delete id (s, v) = .ok () y ∧
      Booked ⟨l.committed, without (·.id) id l.upcoming⟩ y.1 y.2 := by
  rcases h.records with ⟨hlive, -, hpending, -⟩ | ⟨hserves, hcommitted, hupcoming⟩
  · rw [contains_of_idle hlive hpending] at hcontains
    cases hcontains
  obtain ⟨live, hremove, hserves'⟩ :=
    hserves.withWriter (f := fun w => .ok (w.remove id)) rfl rfl hserves.ready
  refine ⟨({ s with
      live := some live
      pendingAdds := s.pendingAdds.erase id
      pendingDeletes := s.pendingDeletes.add id }, v), ?_, h.readonly, h.closed, h.isNumbered,
    h.unreserved, fun id' hterm => ?_, fun id' hid' => ?_, fun hquiet => ?_,
    .serving (hserves'.congr rfl rfl) hcommitted ?_⟩
  · rw [delete, h.writing, Action.get_bind]
    dsimp only
    rw [if_neg (by simp [hcontains]), Action.bind_of_ok hremove]
    rfl
  · have := h.pending id' hterm
    simp only [has_without hterm, KeyMap.contains_insert, KeyMap.contains_erase, TextSet.add]
    by_cases hid : id = id' <;> simp [hid, this]
  · simp only [KeyMap.contains_insert, KeyMap.contains_erase, TextSet.add] at hid' ⊢
    by_cases hid : id = id'
    · simp [hid] at hid'
    · simp only [hid, decide_false, Bool.not_false, Bool.true_and] at hid'
      simp [hid, h.disjoint id' hid']
  · have hdeletes : (s.pendingDeletes.add id).isEmpty = false :=
      KeyMap.isEmpty_of_contains (k := id) (by simp [TextSet.add])
    simp [hasPending, hdeletes] at hquiet
  · rw [Writer.upcoming_remove]
    exact hupcoming.remove id

/-! ### Commits -/

/-- With nothing that waits, what was committed is what will be. -/
theorem cleared (h : Booked l s v) {m : List Record} (hreadonly : t.readonly = s.readonly)
    (hclosed : t.closed = s.closed) (hfields : t.fields = s.fields) (hadds : t.pendingAdds = ∅)
    (hdeletes : t.pendingDeletes = ∅) (hrecords : HasRecords ⟨m, m⟩ t v') : Booked ⟨m, m⟩ t v' where
  readonly := hreadonly.trans h.readonly
  closed := hclosed.trans h.closed
  isNumbered := hfields ▸ h.isNumbered
  unreserved := hfields ▸ h.unreserved
  pending id _ := by simp [hadds, hdeletes]
  disjoint id hid := by simp [hadds] at hid
  quiet _ := rfl
  records := hrecords

/-- **A commit** makes what was upcoming what is there. -/
theorem commit (h : Booked l s v) :
    ∃ y, Store.commit (s, v) = .ok () y ∧ y.1.path = s.path ∧
      Booked ⟨l.upcoming, l.upcoming⟩ y.1 y.2 := by
  rcases h.records with ⟨hlive, rfl, -, -⟩ | ⟨hserves, hcommitted, hupcoming⟩
  · refine ⟨(s, v), ?_, rfl, h⟩
    rw [Store.commit, Action.get_bind]
    simp [hlive]
  · obtain ⟨live, v', hcommit, hserves'⟩ := hserves.commit
    refine ⟨_, hcommit, rfl, h.cleared rfl rfl rfl rfl rfl ?_⟩
    have hlists := hupcoming.trans (Segments.records_commit _ _)
    exact .serving hserves' hlists hlists

/-- **Giving up** makes what was committed what will be. -/
theorem cancel (h : Booked l s v) :
    ∃ y, Store.cancel (s, v) = .ok () y ∧ Booked ⟨l.committed, l.committed⟩ y.1 y.2 := by
  rcases h.records with ⟨hlive, rfl, hpending, hrecords⟩ | ⟨hserves, hcommitted, hupcoming⟩
  · refine ⟨(s.clearPending, v), ?_, h.cleared rfl rfl rfl rfl rfl (.none hlive rfl rfl hrecords)⟩
    rw [Store.cancel, setBack, Action.bind_run, Action.get_bind]
    simp [hlive]
  · obtain ⟨live, hback, hserves'⟩ := hserves.setBack
    refine ⟨({ s with live := some live }.clearPending, v), ?_, h.cleared rfl rfl rfl rfl rfl ?_⟩
    · rw [Store.cancel, Action.bind_of_ok hback]
      rfl
    · exact .serving (hserves'.congr rfl rfl) hcommitted hcommitted

theorem lists_recordsAt (h : Booked l s v) : Lists l.committed (v.recordsAt s.path) := by
  rcases h.records with ⟨-, rfl, -, hrecords⟩ | ⟨hserves, hcommitted, -⟩
  · rw [hrecords]
    exact .empty
  · rw [hserves.recordsAt]
    exact hcommitted

end Booked

/-! ### Closing -/

def finish : Work Unit := do
  modify fun (s, v) => ({ s with closed := true }, v)
  stopWriter
  releaseLock

theorem finish_run (s : Store) (v : Volume) :
    ∃ y, finish (s, v) = .ok () y ∧ Alike v y.2 := by
  have hfails : FailsAs (fun _ => False) finish := by
    refine FailsAs.modify.bind fun _ => FailsAs.bind (FailsAs.get_bind fun (s, v) => ?_) fun _ =>
      FailsAs.get_bind fun (s, v) => ?_
    · dsimp only
      split
      · exact .pure
      · exact (FailsAs.second (Live.failsAs_stop _)).bind fun _ => .modify
    · refine FailsAs.bind (.forM_option fun mark => ?_) fun _ => .modify
      exact FailsAs.second (Volume.failsAs_release mark)
  have hsecond {α : Type} {x : Action Volume α} {Q : α → Prop} (hx : Keeps (Alike v) x Q) :
      Keeps (fun y : Store × Volume => Alike v y.2) (Action.second x) Q :=
    hx.focus (fun _ h => h) fun _ _ _ ht => ht
  have hkeeps : Keeps (fun y : Store × Volume => Alike v y.2) finish fun _ => True := by
    refine Keeps.seq (.modify fun _ h => h) fun _ => Keeps.seq (Keeps.get.bind fun (s, v) _ => ?_)
      fun _ => Keeps.get.bind fun (s, v) _ => ?_
    · dsimp only
      split
      · exact .pure trivial
      · exact (hsecond (Live.keeps_stop_alike _)).bind fun _ _ => .modify fun _ h => h
    · refine Keeps.seq (.forM_option fun mark _ => ?_) fun _ => .modify fun _ h => h
      exact hsecond (Volume.keeps_release_alike mark)
  cases hr : finish (s, v) with
  | error e y => exact (hfails _ _ _ hr).elim
  | ok _ y => exact ⟨y, rfl, (hkeeps.of_ok (Alike.refl v) hr).1⟩

/-- **Closing** commits what waits: the directory has what was upcoming. -/
theorem Booked.close (h : Booked l s v) :
    ∃ y, Store.close (s, v) = .ok () y ∧ Lists l.upcoming (y.2.recordsAt s.path) := by
  cases hpending : s.hasPending with
  | false =>
    have hrun : Store.close (s, v) = finish (s, v) := by
      rw [Store.close, Action.get_bind]
      simp only [hpending]
      rfl
    obtain ⟨y, hfinish, halike⟩ := finish_run s v
    refine ⟨y, hrun.trans hfinish, ?_⟩
    rw [Volume.recordsAt_alike halike, h.quiet hpending]
    exact h.lists_recordsAt
  | true =>
    obtain ⟨⟨t, v'⟩, hcommit, hpath, ht⟩ := h.commit
    have hrun : Store.close (s, v) = finish (t, v') := by
      rw [Store.close, Action.get_bind]
      simp only [hpending, if_true]
      exact Action.bind_of_ok hcommit
    obtain ⟨y, hfinish, halike⟩ := finish_run t v'
    refine ⟨y, hrun.trans hfinish, ?_⟩
    rw [Volume.recordsAt_alike halike, ← hpath]
    exact ht.lists_recordsAt

/-! ### Runs -/

/-- **The invariant of a store that may write**: it agrees with its ledger at all times. -/
theorem Tracked.booked {x : Store × Volume} (h : Tracked l x) : Booked l x.1 x.2 := by
  induction h with
  | opened hwritable hopen hfields hm =>
    exact .of_fresh (fresh_of_openWith hwritable hopen) hfields hm
  | registered h hok ih => exact ih.registerField hok
  | @indexed l x h d id given r hr hok ih =>
    obtain ⟨y, hindex⟩ := Action.outcome_eq_ok.1 hok
    rcases ih.index_cases hr with ⟨y', hrun, hy⟩ | ⟨e, v', hrun, -⟩
    · rw [Action.after, hrun]
      exact hy
    · cases hindex.symm.trans hrun
  | @refused l x h d id r hr e herr ih =>
    obtain ⟨y, hindex⟩ := Action.outcome_eq_error.1 herr
    rcases ih.index_cases hr with ⟨y', hrun, -⟩ | ⟨e, v', hrun, hv⟩
    · cases hindex.symm.trans hrun
    · rw [Action.after, hrun]
      exact hv
  | @deleted l x h id ih =>
    cases hid : x.1.contains id with
    | false =>
      rw [Action.after, ih.delete_missing hid, ih.without_eq hid]
      exact ih
    | true =>
      obtain ⟨y, hrun, hy⟩ := ih.delete_present hid
      rw [Action.after, hrun]
      exact hy
  | @committed l x h ih =>
    obtain ⟨y, hrun, -, hy⟩ := ih.commit
    rw [Action.after, hrun]
    exact hy
  | @cancelled l x h ih =>
    obtain ⟨y, hrun, hy⟩ := ih.cancel
    rw [Action.after, hrun]
    exact hy

end Store

end Searchlight.Disk
