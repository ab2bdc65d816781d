import Searchlight.Proofs.Client.Writing
import Searchlight.Proofs.Disk.Ledger
import Searchlight.Text.Stem

/-!
# Taken places

A client may ask that a document takes no other one's place. It refuses the document with
`documentExists` just when the driver says that there is one under the id: nothing else that happens
when a document is indexed is told by that error (`failsAs_place`). Over a store on disk the place
is taken when the next commit would leave a document there.
-/

namespace Searchlight

open Searchlight.Action (FailsAs)

def Error.IsElse (e : Error) : Prop := ∀ id, e ≠ .documentExists id

variable {α : Type}

/-! ## Indexing -/

namespace SetStore.Store

theorem isElse_readFailure (m : String) : (readFailure m).IsElse := by
  simp [Error.IsElse, readFailure]

theorem isElse_writeFailure (m : String) : (writeFailure m).IsElse := by
  simp [Error.IsElse, writeFailure]

theorem failsAs_exchange {e : String → Error} (he : ∀ m, (e m).IsElse) (ms : Nat)
    (x : Server → Server × α) : FailsAs Error.IsElse (exchange ms e x) := by
  have hawait : FailsAs Error.IsElse (await ms) :=
    .get_bind fun _ => .ite (fun _ => .throw (by simp [Error.IsElse])) fun _ => .pure
  refine hawait.bind fun _ => .get_bind fun s => ?_
  refine FailsAs.ite (fun _ => FailsAs.bind (.throw (he _)) fun _ => ?_) fun _ => ?_
  · exact FailsAs.set.bind fun _ => .pure
  · exact FailsAs.set.bind fun _ => .pure

theorem accept_eq_error {e : String → Error} (he : ∀ m, (e m).IsElse)
    {decode : Reply → Option α} {r : Reply} {f : Error} (h : accept e decode r = .error f) :
    f.IsElse := by
  unfold accept at h
  split at h
  · cases h
    exact he _
  · split at h <;> cases h
    exact he _

theorem failsAs_ask {e : String → Error} (he : ∀ m, (e m).IsElse) (c : Command)
    (decode : Reply → Option α) : FailsAs Error.IsElse (ask e c decode) :=
  .get_bind fun _ => (failsAs_exchange he _ _).second.bind fun _ =>
    .ofExcept fun _ h => accept_eq_error he h

theorem failsAs_index (d : PreparedDocument) (id : Option String) :
    FailsAs Error.IsElse (index d id) := by
  have htransact (cs : List Command) : FailsAs Error.IsElse (transact writeFailure cs) :=
    .get_bind fun _ => (failsAs_exchange isElse_writeFailure _ _).second.bind fun _ =>
      .ofExcept fun _ h => by
        obtain ⟨_, -, h⟩ := Except.mapM_eq_error h
        exact accept_eq_error isElse_writeFailure h
  refine FailsAs.bind (.get_bind fun _ => .ite (fun _ => .throw (by simp [Error.IsElse]))
    fun _ => .pure) fun _ => .get_bind fun _ => ?_
  cases id with
  | some id =>
    exact FailsAs.bind (.get_bind fun _ => failsAs_ask isElse_readFailure _ _) fun _ =>
      (htransact _).bind fun _ => .pure
  | none =>
    exact (failsAs_ask isElse_writeFailure _ _).bind fun _ => (htransact _).bind fun _ => .pure

end SetStore.Store

namespace Disk.Store

theorem failsAs_ensureLive : FailsAs Error.IsElse ensureLive := by
  have hindex (m : String) (why : Option String) : (Error.index m why).IsElse := by
    simp [Error.IsElse]
  have himage (d : String) (image : Image) :
      FailsAs Error.IsElse (Volume.writeImage d image
        (.index "failed to create index" (some "the file cannot be written"))) :=
    (Volume.failsAs_touch (hindex _ _)).bind fun _ => Volume.failsAs_write (hindex _ _)
  refine .get_bind fun (s, _) => ?_
  dsimp only
  split
  · exact .pure
  · have hwrite : FailsAs Error.IsElse (Volume.write (FileTree.child s.path Volume.schemaFile)
        (.text s.fields.schema.toJsonText)
        (Volume.failure (FileTree.child s.path Volume.schemaFile))) :=
      Volume.failsAs_write (by simp [Error.IsElse, Volume.failure, Error.ioAt])
    refine hwrite.second.bind fun _ => FailsAs.bind (FailsAs.second ?_) fun live =>
      FailsAs.modify.bind fun _ => .pure
    refine .get_bind fun v => ?_
    simp only [Action.throw_bind]
    split
    · exact .throw (hindex _ _)
    · refine .ite (fun _ => .throw (hindex _ _)) fun _ => .ite (fun _ => .throw (hindex _ _))
        fun _ => ?_
      exact (himage _ _).bind fun _ => Live.failsAs_start fun _ _ => hindex _ _

theorem failsAs_index (d : PreparedDocument) (id : String) :
    FailsAs Error.IsElse (index d id) := by
  have hwriter {f : Writer → Except Error Writer} (hf : ∀ w e, f w = .error e → e.IsElse) :
      FailsAs Error.IsElse (withWriter f) := by
    refine failsAs_ensureLive.bind fun live => ?_
    split
    · exact .throw (by simp [Error.IsElse])
    · exact (FailsAs.ofExcept fun e h => hf _ e h).bind fun _ => .modify
  refine FailsAs.bind (.get_bind fun _ => .ite (fun _ => .throw (by simp [Error.IsElse]))
    fun _ => .pure) fun _ => FailsAs.bind (.get_bind fun _ =>
      .ite (fun _ => .throw (by simp [Error.IsElse])) fun _ => .pure) fun _ => .get_bind fun _ => ?_
  have hremove : FailsAs Error.IsElse (withWriter fun w => .ok (w.remove id)) :=
    hwriter fun _ _ h => by cases h
  refine hremove.bind fun _ =>
    FailsAs.bind (hwriter fun w e h => ?_) fun _ => FailsAs.modify.bind fun _ => .pure
  split at h <;> cases h
  simp [Error.IsElse]

end Disk.Store

namespace Driver

theorem failsAs_work {P : Error → Prop} {memory : Action Memory.Store α} {sets : SetStore.Work α}
    {disk : Disk.Work α} (hmemory : FailsAs P memory) (hsets : FailsAs P sets)
    (hdisk : FailsAs P disk) : FailsAs P (work memory sets disk) :=
  .get_bind fun (d, _) => by
    cases d with
    | memory => exact hmemory.focus
    | limited => exact hmemory.focus
    | sets => exact hsets.focus
    | disk => exact hdisk.focus

theorem failsAs_index (d : PreparedDocument) (id : Option String) :
    FailsAs Error.IsElse (index d id) := by
  refine .get_bind fun (_, h) => FailsAs.bind (failsAs_work (FailsAs.modify.bind fun _ => .pure)
    (SetStore.Store.failsAs_index d id) (Disk.Store.failsAs_index d _)) fun _ => ?_
  exact .ite (fun _ => FailsAs.modify.bind fun _ => .pure) fun _ => .pure

theorem failsAs_registerField (name : String) (config : FieldConfig) :
    FailsAs Error.IsElse (registerField name config) := by
  refine failsAs_work .modify ?_ ?_
  · exact FailsAs.bind (.get_bind fun _ => .ite (fun _ => .throw (by simp [Error.IsElse]))
      fun _ => .pure) fun _ => .get_bind fun _ =>
        FailsAs.bind (SetStore.Store.failsAs_ask SetStore.Store.isElse_writeFailure _ _) fun _ => .modify
  · refine .get_bind fun (s, _) => FailsAs.bind (.ofExcept fun e h => ?_) fun _ => .set
    rw [Disk.Store.registerField] at h
    split at h
    · cases h
      simp [Error.IsElse]
    · split at h
      · cases h
      · split at h <;> cases h
        simp [Error.IsElse]

end Driver

/-! ## Clients -/

namespace Client

theorem failsAs_drive {P : Error → Prop} {x : DriverWork α} (hx : FailsAs P x) :
    FailsAs P (drive x) := hx.focus

theorem failsAs_registerNew (fields : List (String × FieldConfig)) :
    FailsAs Error.IsElse (registerNew fields) := by
  have hstage {r : Registry} {e : Error} (h : Registry.stage r.tier r.frozen r.schema fields = .error e) :
      e.IsElse := by
    obtain ⟨_, _, rfl, -⟩ := Registry.stage_eq_error h
    simp [Error.IsElse]
  refine .ite (fun _ => .pure) fun _ => .get_bind fun _ => ?_
  refine FailsAs.bind (.ofExcept fun e h => hstage (Except.map_eq_error.1 h)) fun _ => ?_
  refine FailsAs.bind (.forM_list fun f => failsAs_drive (Driver.failsAs_registerField f.1 f.2))
    fun _ => .get_bind fun _ => ?_
  exact FailsAs.bind (.ofExcept fun e h => hstage (Except.map_eq_error.1 h)) fun _ => .set

theorem failsAs_place (plan : DocumentPlan) (prepared : PreparedDocument) (id : Option String) :
    FailsAs Error.IsElse (place plan prepared id) :=
  (failsAs_drive (Driver.failsAs_index _ _)).bind fun _ => FailsAs.modify.bind fun _ => .pure

/-- **A place that is taken.** A document that must not replace another is refused with
`documentExists` just when the driver says that there is one. -/
theorem update_taken_iff {c : Client} {h : Host} {id : String} {b : Bool} (hopen : c.closed = false)
    (hwritable : c.readonly = false)
    (hb : Driver.contains id (c.driver, h) = .ok b (c.driver, h)) (doc : Document) :
    (update id doc .failIfExists).outcome (c, h) = .error (.documentExists id) ↔ b = true := by
  have hchecked : ensureWritable (WriteTarget.under id .failIfExists).operation (c, h) =
      .ok () (c, h) := by
    simp [ensureWritable, ensureOpen, hopen, hwritable]
  have hasked : drive (Driver.contains id) (c, h) = .ok b (c, h) := by rw [drive_run, hb]
  rw [Action.outcome_eq_error, update, write]
  cases b with
  | true =>
    refine iff_of_true ⟨(c, h), ?_⟩ rfl
    rw [prepareWrite, bind_assoc, Action.bind_of_ok hchecked, bind_assoc, ensureVacant, bind_assoc,
      Action.bind_of_ok hasked]
    rfl
  | false =>
    have hvacant : ensureVacant (.under id .failIfExists) (c, h) = .ok () (c, h) := by
      rw [ensureVacant, Action.bind_of_ok hasked]
      rfl
    refine iff_of_false ?_ (by simp)
    rintro ⟨x, hrun⟩
    rcases Action.bind_eq_error.1 hrun with hprepare | ⟨⟨plan, prepared⟩, t, -, hplace⟩
    · rw [prepareWrite, Action.bind_of_ok hchecked, Action.bind_of_ok hvacant, Action.get_bind]
        at hprepare
      refine FailsAs.bind (.ofExcept fun e h => ?_) (fun plan => FailsAs.bind FailsAs.modify.second
        fun _ => FailsAs.bind (.ofExcept fun e h => ?_) fun _ =>
          (failsAs_registerNew _).bind fun _ => .pure) _ _ _ hprepare id rfl
      · obtain ⟨_, rfl⟩ := Registry.plan_eq_error h
        simp [Error.IsElse]
      · obtain ⟨_, rfl⟩ := Document.prepare_eq_error h
        simp [Error.IsElse, Error.indexing]
    · exact failsAs_place plan prepared _ _ _ _ hplace id rfl

end Client

/-! ## The next commit -/

namespace Disk.Store

/-- **What waits for the next commit.** Whatever a store that may write was given since it was
opened, in any order, and whatever ids are asked for that are short enough to be indexed whole: a
document counts as there just when a commit would leave it, and that is what deleting it and refusing
another one in its place go by; everybody sees what the last commit left, one document for each id; a
commit makes the one the other, giving up the other way round, and closing commits. No id waits both
to be added and to be taken away. -/
theorem Tracked.pending_exact {l : Ledger} {s : Store} {v : Volume} (h : Tracked l (s, v)) :
    (∀ id, isTerm id = true → s.contains id = has l.upcoming id) ∧
      (∃ y, commit (s, v) = .ok () y ∧ Shows l.upcoming y ∧
        ∀ id, isTerm id = true → y.1.contains id = has l.upcoming id) ∧
      (∀ id, isTerm id = true → (delete id).outcome (s, v) =
        if has l.upcoming id then .ok () else .error (.notFound id)) ∧
      (∀ (c : Client) (host : Host) (id : String) (doc : Document), c.driver = .disk s →
        c.closed = false → c.readonly = false → isTerm id = true →
          ((Client.update id doc .failIfExists).outcome (c, host) = .error (.documentExists id) ↔
            has l.upcoming id = true)) ∧
      Shows l.committed (s, v) ∧
      (∃ y, cancel (s, v) = .ok () y ∧ Shows l.committed y ∧
        ∀ id, isTerm id = true → y.1.contains id = has l.committed id) ∧
      (∃ y, close (s, v) = .ok () y ∧ Lists l.upcoming (y.2.recordsAt s.path)) ∧
      ∀ id, s.pendingAdds.contains id = true → s.pendingDeletes.contains id = false := by
  have hbooked := h.booked
  refine ⟨fun id => hbooked.contains_eq, ?_, fun id hterm => ?_,
    fun c host id doc hdriver hopen hwritable hterm => ?_,
    shows_of_lists hbooked.readonly hbooked.lists_visible, ?_, hbooked.close, hbooked.disjoint⟩
  · obtain ⟨y, hcommit, -, hy⟩ := hbooked.commit
    exact ⟨y, hcommit, shows_of_lists hy.readonly hy.lists_visible, fun id => hy.contains_eq⟩
  · rw [← hbooked.contains_eq hterm]
    cases hid : s.contains id with
    | false =>
      rw [Action.outcome, hbooked.delete_missing hid]
      rfl
    | true =>
      obtain ⟨y, hdelete, -⟩ := hbooked.delete_present hid
      rw [Action.outcome, hdelete]
      rfl
  · rw [← hbooked.contains_eq hterm]
    refine Client.update_taken_iff hopen hwritable ?_ doc
    rw [hdriver, Driver.contains, Driver.work_disk]
    rfl
  · obtain ⟨y, hcancel, hy⟩ := hbooked.cancel
    exact ⟨y, hcancel, shows_of_lists hy.readonly hy.lists_visible, fun id => hy.contains_eq⟩

/-- One document is committed and deleted again, and another one is indexed. -/
theorem Tracked.pending_exact_two :
    ∃ l s v, Tracked l (s, v) ∧ l.committed.map (·.id) = ["1"] ∧
      l.upcoming.map (·.id) = ["2"] ∧ s.contains "1" = false ∧ s.contains "2" = true ∧
        s.count = 1 := by
  have hrecord (m : FieldMap) (analyze : Analyzer) (id : String) : m.record? analyze id ⟨[]⟩ =
      some ⟨id, (PreparedDocument.mk []).stored.toJsonText, textTerms idField [id] ++ []⟩ := rfl
  have hrun : (openWith Text.stems { BackendOptions.none with path := some "d" }).passes
      ⟨.ofDirectories ["d"], 0⟩ (fun s v => s.fields.schema = .empty ∧ s.live = none ∧
        (index ⟨[]⟩ "1").outcome (s, v) = .ok "1") = true := by
    decide +kernel
  obtain ⟨s, v, hopen, hpasses⟩ := Action.passes_iff.1 hrun
  obtain ⟨hschema, hlive, hindex⟩ := of_decide_eq_true hpasses
  have hrecords : v.recordsAt s.path = [] := by
    rcases (fresh_of_openWith rfl hopen).index with ⟨-, h⟩ | ⟨_, _, hserves⟩
    · exact h
    · obtain ⟨_, hsome, -⟩ := hserves.here
      rw [hlive] at hsome
      cases hsome
  have hopened : Tracked ⟨[], []⟩ (s, v) :=
    .opened rfl hopen (fun _ _ => by rw [hschema]; rfl) (hrecords ▸ .empty)
  have hfirst := (hopened.indexed (hrecord _ _ "1") hindex).committed
  obtain ⟨y, hindex₂⟩ : ∃ y, index ⟨[]⟩ "2" _ = .ok "2" y := by
    rcases hfirst.booked.records with ⟨-, hl, -, -⟩ | ⟨hserves, hcommitted, hupcoming⟩
    · exact absurd (congrArg (fun l => has l.upcoming "1") hl) (by decide)
    · obtain ⟨t, hrun, -⟩ :=
        hfirst.booked.index_serving hserves hcommitted hupcoming (hrecord _ _ "2")
      exact ⟨_, hrun⟩
  have hsecond :=
    (hfirst.indexed (hrecord _ _ "2") (Action.outcome_eq_ok.2 ⟨y, hindex₂⟩)).deleted "1"
  obtain ⟨hcontains, -, -, -, hshows, -⟩ := hsecond.pending_exact
  exact ⟨_, _, _, hsecond, rfl, rfl, hcontains "1" (by decide), hcontains "2" (by decide),
    hshows.count⟩

end Disk.Store

end Searchlight
