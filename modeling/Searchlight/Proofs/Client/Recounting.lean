import Searchlight.Proofs.Action.Parallel
import Searchlight.Proofs.Client.Requests

/-!
# Counts and warnings are aside

A client counts the fields that it leaves out of documents, and may warn of them. Nothing that it is
asked for depends on that: every question goes the same way whatever was counted and warned of
before (`Question.parallel`), so two states that differ in nothing else answer alike.
-/

namespace Searchlight

open Searchlight.Action (Parallel)

def Host.withWarnings (warnings : List String → List String) (h : Host) : Host :=
  { h with warnings := warnings h.warnings }

namespace Driver

variable {α : Type} {warnings : List String → List String}

def rewarned (warnings : List String → List String) (x : Driver × Host) : Driver × Host :=
  (x.1, x.2.withWarnings warnings)

theorem parallel_work {memory : Action Memory.Store α} {sets : SetStore.Work α}
    {disk : Disk.Work α} :
    Parallel (rewarned warnings) (work memory sets disk) (work memory sets disk) := by
  rintro ⟨d, h⟩
  cases d with
  | memory s =>
    rw [rewarned, work_memory, work_memory]
    cases memory s <;> rfl
  | limited key s =>
    rw [rewarned, work_limited, work_limited]
    cases memory s <;> rfl
  | sets s =>
    simp only [rewarned, work_sets, Host.withWarnings]
    cases sets (s, h.server) <;> rfl
  | disk s =>
    simp only [rewarned, work_disk, Host.withWarnings]
    cases disk (s, h.volume) <;> rfl

theorem parallel_index (d : PreparedDocument) (id : Option String) :
    Parallel (rewarned warnings) (index d id) (index d id) :=
  .look fun (_, _) => parallel_work.bind fun _ =>
    .ite (.bind (.modify fun _ => by rfl) fun _ => .pure) .pure

/-- Neither does any use of a driver. -/
theorem Use.parallel {x : DriverWork α} (hx : Use x) : Parallel (rewarned warnings) x x := by
  cases hx with
  | index d id => exact parallel_index d id
  | delete id => exact parallel_work
  | commit => exact parallel_work
  | calm hx => cases hx <;> exact parallel_work

end Driver

/-! ## Cursors -/

section
variable {σ τ κ : Type} {f : σ → τ} {closed : Bool}

abbrev beside (f : σ → τ) : κ × σ → κ × τ := Prod.map id f

namespace ResultCursor

variable {fetch : FetchHits σ} {fetch' : FetchHits τ}

theorem parallel_pop : Parallel (beside f) (pop : Action (ResultCursor × τ) _) pop :=
  .look fun (⟨_, _, _, _, buffer, _, _⟩, s) => by
    cases buffer with
    | nil => exact .pure
    | cons hit hits => exact .bind (.set (by rfl)) fun _ => .pure

variable (hfetch : ∀ q offset limit, Parallel f (fetch' q offset limit) (fetch q offset limit))
include hfetch

theorem parallel_next : Parallel (beside f) (next closed fetch') (next closed fetch) :=
  .look fun (_, _) => .ite
    (.ite .throw (.bind (hfetch _ _ _).second fun _ => .bind (.modify fun _ => by rfl) fun _ =>
      parallel_pop))
    parallel_pop

theorem parallel_drain (n : Nat) :
    Parallel (beside f) (drain closed fetch' n) (drain closed fetch n) := by
  induction n with
  | zero => exact .pure
  | succ n ih =>
    refine (parallel_next hfetch).bind fun hit => ?_
    cases hit with
    | none => exact .pure
    | some hit => exact ih.bind fun _ => .pure

theorem parallel_collectAll :
    Parallel (beside f) (collectAll closed fetch') (collectAll closed fetch) :=
  .look fun _ => parallel_drain hfetch _

end ResultCursor

namespace DocumentCursor

variable {source : DocumentSource σ} {source' : DocumentSource τ}
  (hlist : ∀ offset limit, Parallel f (source'.list offset limit) (source.list offset limit))
  (hload : ∀ id, Parallel f (source'.load id) (source.load id))
include hlist hload

theorem parallel_next (turns : Nat) :
    Parallel (beside f) (next closed source' turns) (next closed source turns) := by
  induction turns with
  | zero => exact .pure
  | succ turns ih =>
    refine .ite .throw <| .look fun (⟨_, _, buffer, _⟩, s) => ?_
    cases buffer with
    | nil =>
      exact .ite .pure <| .bind (hlist _ _).second fun _ => .bind (.modify fun _ => by rfl) fun _ =>
        ih
    | cons id ids =>
      refine .bind (.set (by rfl)) fun _ => .bind (hload id).second fun d => ?_
      cases d with
      | none => exact ih
      | some d => exact .pure

theorem parallel_drain (turns n : Nat) :
    Parallel (beside f) (drain closed source' turns n) (drain closed source turns n) := by
  induction n with
  | zero => exact .pure
  | succ n ih =>
    refine (parallel_next hlist hload turns).bind fun d => ?_
    cases d with
    | none => exact .pure
    | some d => exact ih.bind fun _ => .pure

end DocumentCursor

end

/-! ## Questions -/

namespace Client

variable {α κ : Type} {count : Nat → Nat} {warnings : List String → List String}

def recounted (count : Nat → Nat) (warnings : List String → List String) (x : Client × Host) :
    Client × Host :=
  ({ x.1 with ignored := count x.1.ignored }, x.2.withWarnings warnings)

theorem parallel_drive {x : DriverWork α} (hx : Driver.Use x) :
    Parallel (recounted count warnings) (drive x) (drive x) :=
  hx.parallel.focus (fun _ => rfl) fun _ _ => rfl

theorem parallel_ensureOpen : Parallel (recounted count warnings) ensureOpen ensureOpen :=
  .look fun (_, _) => .ite .throw .pure

theorem parallel_ensureWritable (operation : String) :
    Parallel (recounted count warnings) (ensureWritable operation) (ensureWritable operation) :=
  parallel_ensureOpen.bind fun _ => .look fun (_, _) => .ite .throw .pure

theorem parallel_translate (q : Query) :
    Parallel (recounted count warnings) (translate q) (translate q) := by
  refine parallel_ensureOpen.bind fun _ => .look fun (c, h) => ?_
  refine .bind (.set (by rfl)) fun _ => ?_
  dsimp only [recounted]
  cases (c.cache.forGeneration c.registry.generation).get? q with
  | some n => exact .pure
  | none => exact .bind .ofExcept fun _ => .bind (.set (by rfl)) fun _ => .pure

theorem parallel_search (q : Query) (offset limit : Nat) :
    Parallel (recounted count warnings) (search q offset limit) (search q offset limit) :=
  parallel_ensureOpen.bind fun _ => (parallel_translate q).bind fun _ => .look fun _ => .pure

theorem parallel_iterDocuments :
    Parallel (recounted count warnings) iterDocuments iterDocuments :=
  parallel_ensureOpen.bind fun _ => .look fun _ => .pure

theorem parallel_withCursor (k : κ) {x : CursorWork κ α}
    (hx : Parallel (beside (recounted count warnings)) x x) :
    Parallel (recounted count warnings) (withCursor k x) (withCursor k x) := by
  intro s
  have hk := hx (k, s)
  simp only [beside, Prod.map, id] at hk
  rw [withCursor, withCursor, hk]
  cases x (k, s) <;> rfl

theorem parallel_nextHit :
    Parallel (beside (recounted count warnings)) nextHit nextHit :=
  .look fun _ => ResultCursor.parallel_next fun q offset limit =>
    parallel_drive (.calm (.search q offset limit))

theorem parallel_remainingHits :
    Parallel (beside (recounted count warnings)) remainingHits remainingHits :=
  .look fun _ => ResultCursor.parallel_collectAll fun q offset limit =>
    parallel_drive (.calm (.search q offset limit))

theorem parallel_nextDocument :
    Parallel (beside (recounted count warnings)) nextDocument nextDocument :=
  .look fun _ => DocumentCursor.parallel_next
    (fun offset limit => parallel_drive (.calm (.ids offset limit)))
    (fun id => parallel_drive (.calm (.get? id))) _

theorem parallel_remainingDocuments :
    Parallel (beside (recounted count warnings)) remainingDocuments remainingDocuments :=
  .look fun _ => DocumentCursor.parallel_drain
    (fun offset limit => parallel_drive (.calm (.ids offset limit)))
    (fun id => parallel_drive (.calm (.get? id))) _ _

theorem parallel_getDocument (id : String) :
    Parallel (recounted count warnings) (getDocument id) (getDocument id) := by
  refine parallel_ensureOpen.bind fun _ => (parallel_drive (.calm (.get? id))).bind fun d => ?_
  cases d with
  | none => exact .throw
  | some d => exact .pure

theorem parallel_documentExists (id : String) :
    Parallel (recounted count warnings) (documentExists id) (documentExists id) :=
  parallel_ensureOpen.bind fun _ => parallel_drive (.calm (.contains id))

theorem parallel_documentCount :
    Parallel (recounted count warnings) documentCount documentCount :=
  parallel_ensureOpen.bind fun _ => parallel_drive (.calm .count)

theorem parallel_searchAll (q : Query) (offset limit : Nat) :
    Parallel (recounted count warnings) (searchAll q offset limit) (searchAll q offset limit) :=
  (parallel_search q offset limit).bind fun k => parallel_withCursor k parallel_remainingHits

theorem parallel_allDocuments :
    Parallel (recounted count warnings) allDocuments allDocuments :=
  parallel_iterDocuments.bind fun k => parallel_withCursor k parallel_remainingDocuments

theorem parallel_void {x : ClientWork α} (hx : Parallel (recounted count warnings) x x) :
    Parallel (recounted count warnings) (void x) (void x) :=
  hx.bind fun _ => .pure

/-- **No question looks at what was counted and warned of.** -/
theorem Question.parallel (q : Question) :
    Parallel (recounted count warnings) q.perform q.perform := by
  cases q with
  | delete id => exact (parallel_ensureWritable _).bind fun _ => parallel_drive (.delete id)
  | commit => exact parallel_ensureOpen.bind fun _ => parallel_drive .commit
  | cancel => exact (parallel_ensureWritable _).bind fun _ => parallel_drive (.calm .cancel)
  | getDocument id => exact parallel_void (parallel_getDocument id)
  | documentExists id => exact parallel_void (parallel_documentExists id)
  | documentCount => exact parallel_void parallel_documentCount
  | translate q => exact parallel_void (parallel_translate q)
  | search q offset limit => exact parallel_void (parallel_search q offset limit)
  | searchAll q offset limit => exact parallel_void (parallel_searchAll q offset limit)
  | iterDocuments => exact parallel_void parallel_iterDocuments
  | allDocuments => exact parallel_void parallel_allDocuments
  | nextHit k => exact parallel_void (parallel_withCursor k parallel_nextHit)
  | remainingHits k => exact parallel_void (parallel_withCursor k parallel_remainingHits)
  | nextDocument k => exact parallel_void (parallel_withCursor k parallel_nextDocument)
  | remainingDocuments k => exact parallel_void (parallel_withCursor k parallel_remainingDocuments)

/-- The client and its host after questions, asked one after the other. -/
def asked (questions : List Question) (x : Client × Host) : Client × Host :=
  questions.foldl (fun y q => q.perform.after y) x

theorem asked_recounted (questions : List Question) (x : Client × Host) :
    asked questions (recounted count warnings x) =
      recounted count warnings (asked questions x) := by
  induction questions generalizing x with
  | nil => rfl
  | cons q questions ih =>
    change asked questions (q.perform.after (recounted count warnings x)) = _
    rw [q.parallel.after, ih]
    rfl

/-- Two clients on their hosts tell the same: of their schemas, which are those of the registry and
of the store, and of the documents that are visible. -/
structure SameAnswers (x y : Client × Host) : Prop where
  state : x.1.state = y.1.state
  schema : x.1.schema = y.1.schema
  stored : Driver.schemaSnapshot.outcome (x.1.driver, x.2) =
    Driver.schemaSnapshot.outcome (y.1.driver, y.2)
  getDocument : ∀ id, (getDocument id).outcome x = (getDocument id).outcome y
  documentExists : ∀ id, (documentExists id).outcome x = (documentExists id).outcome y
  documentCount : documentCount.outcome x = documentCount.outcome y
  searchAll : ∀ q offset limit,
    (searchAll q offset limit).outcome x = (searchAll q offset limit).outcome y
  allDocuments : allDocuments.outcome x = allDocuments.outcome y

theorem sameAnswers_recounted (x : Client × Host) :
    SameAnswers (recounted count warnings x) x where
  state := rfl
  schema := rfl
  stored := (Driver.parallel_work : Parallel (Driver.rewarned warnings) _ _).outcome (x.1.driver, x.2)
  getDocument id := (parallel_getDocument id).outcome x
  documentExists id := (parallel_documentExists id).outcome x
  documentCount := parallel_documentCount.outcome x
  searchAll q offset limit := (parallel_searchAll q offset limit).outcome x
  allDocuments := parallel_allDocuments.outcome x

end Client

end Searchlight
