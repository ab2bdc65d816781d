import Searchlight.Proofs.Client.Destroying
import Searchlight.Proofs.Client.Persisting
import Searchlight.Proofs.Driver.Looking
import Searchlight.Text.Stem

/-!
# The life of a client

A client is open for writing or for reading until it is closed, and stays closed. A closed client and
its cursors leave the store alone, and a client that is open for reading changes nothing that is
stored (`lifecycle`).
-/

namespace Searchlight

open Searchlight.Action (Keeps)

namespace ResultCursor

variable {σ : Type} {fetch : FetchHits σ} {s : σ}

theorem next_of_closed (k : ResultCursor) :
    next true fetch (k, s) =
      match k.buffer with
      | hit :: hits => .ok (some hit) ({ k with buffer := hits }, s)
      | [] => if k.finished then .ok none (k, s) else .error .clientClosed (k, s) := by
  rw [next, Action.get_bind]
  cases hbuffer : k.buffer with
  | nil => cases hfinished : k.finished <;> simp [hbuffer, hfinished, pop]
  | cons hit hits => simp [hbuffer, pop]

theorem collectAll_of_closed (k : ResultCursor) :
    collectAll true fetch (k, s) =
      if k.finished ∨ k.remaining = 0 then .ok k.buffer ({ k with buffer := [] }, s)
      else .error .clientClosed ({ k with buffer := [] }, s) := by
  have hdrain (hits : List SearchHit) : ∀ k : ResultCursor, k.buffer = hits → ∀ n,
      drain true fetch (hits.length + n) (k, s) =
        if k.finished ∨ n = 0 then .ok hits ({ k with buffer := [] }, s)
        else .error .clientClosed ({ k with buffer := [] }, s) := by
    induction hits with
    | nil =>
      intro k hk n
      have hsame : { k with buffer := [] } = k := by
        cases k
        cases hk
        rfl
      rw [hsame]
      cases n with
      | zero => simp [drain]
      | succ n =>
        rw [List.length_nil, Nat.zero_add, drain, Action.bind_run, next_of_closed, hk]
        cases k.finished <;> simp
    | cons hit hits ih =>
      intro k hk n
      have hrest := ih { k with buffer := hits } rfl n
      rw [List.length_cons, Nat.succ_add, drain, Action.bind_run, next_of_closed, hk]
      simp only [Action.bind_run, hrest]
      split_ifs <;> rfl
  rw [collectAll, Action.get_bind]
  exact hdrain k.buffer k rfl k.remaining

end ResultCursor

namespace Client

variable {c c' : Client} {h h' : Host} {α β : Type}

/-! ## Closed clients -/

/-- Whatever a closed client is asked for, neither its driver nor the host takes part: the client
refuses, and a cursor gives at most the hits that it has. -/
structure Shut (c : Client) (h : Host) : Prop where
  write : ∀ target doc, write target doc (c, h) = .error .clientClosed (c, h)
  delete : ∀ id, delete id (c, h) = .error .clientClosed (c, h)
  commit : commit (c, h) = .error .clientClosed (c, h)
  cancel : cancel (c, h) = .error .clientClosed (c, h)
  getDocument : ∀ id, getDocument id (c, h) = .error .clientClosed (c, h)
  documentExists : ∀ id, documentExists id (c, h) = .error .clientClosed (c, h)
  documentCount : documentCount (c, h) = .error .clientClosed (c, h)
  iterDocuments : iterDocuments (c, h) = .error .clientClosed (c, h)
  allDocuments : allDocuments (c, h) = .error .clientClosed (c, h)
  search : ∀ q offset limit, search q offset limit (c, h) = .error .clientClosed (c, h)
  searchAll : ∀ q offset limit, searchAll q offset limit (c, h) = .error .clientClosed (c, h)
  translate : ∀ q, translate q (c, h) = .error .clientClosed (c, h)
  registerField : ∀ name config, registerField name config (c, h) = .error .clientClosed (c, h)
  destroy : destroy (c, h) = .error .clientClosed (c, h)
  close : close (c, h) = .ok () (c, h)
  nextDocument : ∀ k, nextDocument (k, c, h) = .error .clientClosed (k, c, h)
  remainingDocuments : ∀ k, remainingDocuments (k, c, h) = .error .clientClosed (k, c, h)
  nextHit : ∀ k : ResultCursor, nextHit (k, c, h) =
    match k.buffer with
    | hit :: hits => .ok (some hit) ({ k with buffer := hits }, c, h)
    | [] => if k.finished then .ok none (k, c, h) else .error .clientClosed (k, c, h)
  remainingHits : ∀ k : ResultCursor, remainingHits (k, c, h) =
    if k.finished ∨ k.remaining = 0 then .ok k.buffer ({ k with buffer := [] }, c, h)
    else .error .clientClosed ({ k with buffer := [] }, c, h)

section
variable (hclosed : c.closed = true)
include hclosed

theorem ensureOpen_bind_of_closed (f : Unit → ClientWork β) :
    (ensureOpen >>= f) (c, h) = .error .clientClosed (c, h) := by
  simp [ensureOpen, hclosed]

theorem ensureWritable_bind_of_closed (operation : String) (f : Unit → ClientWork β) :
    (ensureWritable operation >>= f) (c, h) = .error .clientClosed (c, h) := by
  simp [ensureWritable, ensureOpen, hclosed]

theorem shut_of_closed : Shut c h where
  write target doc := by
    rw [Client.write, prepareWrite, bind_assoc]
    exact ensureWritable_bind_of_closed hclosed _ _
  delete _ := ensureWritable_bind_of_closed hclosed _ _
  commit := ensureOpen_bind_of_closed hclosed _
  cancel := ensureWritable_bind_of_closed hclosed _ _
  getDocument _ := ensureOpen_bind_of_closed hclosed _
  documentExists _ := ensureOpen_bind_of_closed hclosed _
  documentCount := ensureOpen_bind_of_closed hclosed _
  iterDocuments := ensureOpen_bind_of_closed hclosed _
  allDocuments := by
    rw [Client.allDocuments, Client.iterDocuments, bind_assoc]
    exact ensureOpen_bind_of_closed hclosed _
  search _ _ _ := ensureOpen_bind_of_closed hclosed _
  searchAll _ _ _ := by
    rw [Client.searchAll, Client.search, bind_assoc]
    exact ensureOpen_bind_of_closed hclosed _
  translate _ := ensureOpen_bind_of_closed hclosed _
  registerField _ _ := ensureWritable_bind_of_closed hclosed _ _
  destroy := ensureWritable_bind_of_closed hclosed _ _
  close := close_of_closed hclosed
  nextDocument k := by
    rw [Client.nextDocument, Action.get_bind]
    simp [turns, DocumentCursor.next, hclosed]
  remainingDocuments k := by
    rw [Client.remainingDocuments, Action.get_bind]
    simp [turns, DocumentCursor.drain, DocumentCursor.next, hclosed]
  nextHit k := by
    rw [Client.nextHit, Action.get_bind]
    dsimp only
    rw [hclosed]
    exact ResultCursor.next_of_closed k
  remainingHits k := by
    rw [Client.remainingHits, Action.get_bind]
    dsimp only
    rw [hclosed]
    exact ResultCursor.collectAll_of_closed k

end

/-! ## States -/

/-- What was open for writing or reading is so or closed, and what was closed is closed. -/
def Ages (c : Client) (y : Client × Host) : Prop :=
  y.1.readonly = c.readonly ∧ (c.closed = true → y.1.closed = true)

theorem Ages.state_eq {y : Client × Host} (hy : Ages c y) : y.1.state = c.state ∨ y.1.state = .closed := by
  obtain ⟨hreadonly, hclosed⟩ := hy
  rw [Client.state, Client.state, hreadonly]
  cases hc : y.1.closed with
  | true => exact .inr rfl
  | false =>
    cases hc' : c.closed with
    | true => cases hc.symm.trans (hclosed hc')
    | false => exact .inl rfl

theorem ages_drive (x : DriverWork α) : Keeps (Ages c) (drive x) fun _ => True :=
  .of_after fun (c', h') hy => by
    rw [Action.after, drive_run]
    cases x (c'.driver, h') <;> exact hy

theorem ages_releaseLease : Keeps (Ages c) releaseLease fun _ => True :=
  .of_after fun (c', h') hy => by
    rw [Action.after, releaseLease_eq]
    exact hy

theorem ages_end {x : DriverWork Unit} :
    Keeps (Ages c) ((drive x).thenAlways releaseLease) fun _ => True :=
  (ages_drive x).thenAlways ages_releaseLease

/-- **A request** ages a client. -/
theorem ages_perform (r : Request) : Keeps (Ages c) r.perform fun _ => True := by
  have hserves : Serves (Ages c) :=
    ⟨fun _ _ _ hy => hy, fun _ hy => hy, fun _ => ages_drive _, fun _ _ => ages_drive _⟩
  refine hserves.keeps_perform r (fun _ => ages_drive _) ?_
  rintro (rfl | rfl)
  · exact Keeps.get.bind fun (c', h') hy => .ite (fun _ => .pure trivial) fun _ =>
      Keeps.seq (.set ⟨hy.1, fun _ => rfl⟩) fun _ => ages_end
  · exact keeps_ensureWritable.seq fun _ => Keeps.seq (.modify fun _ hy => ⟨hy.1, fun _ => rfl⟩)
      fun _ => ages_end

/-- What becomes of a client on its host: it is asked for something, by a cursor or else, it gives its
lease back, and meanwhile others do anything to the host. -/
inductive Becomes (x : Client × Host) : Client × Host → Prop where
  | refl : Becomes x x
  | ask {y : Client × Host} (hy : Becomes x y) (r : Request) : Becomes x (r.perform.after y)
  | release {y : Client × Host} (hy : Becomes x y) : Becomes x (releaseLease.after y)
  | meanwhile {y : Client × Host} (hy : Becomes x y) (h : Host) : Becomes x (y.1, h)

theorem Becomes.ages {x y : Client × Host} (hy : Becomes x y) : Ages x.1 y := by
  induction hy with
  | refl => exact ⟨rfl, id⟩
  | ask _ r ih => exact (ages_perform r).after ih
  | release _ ih => exact ages_releaseLease.after ih
  | meanwhile _ _ ih => exact ih

/-! ## Clients that are open for reading -/

/-- A client that is open for reading refuses to write. -/
structure RefusesWrites (c : Client) (h : Host) : Prop where
  write : ∀ target doc,
    write target doc (c, h) = .error (.readOnlyViolation target.operation) (c, h)
  delete : ∀ id, delete id (c, h) = .error (.readOnlyViolation "delete") (c, h)
  cancel : cancel (c, h) = .error (.readOnlyViolation "cancel") (c, h)
  registerField : ∀ name config,
    registerField name config (c, h) = .error (.readOnlyViolation "register_field") (c, h)
  destroy : destroy (c, h) = .error (.readOnlyViolation "destroy") (c, h)

section
variable (hreadonly : c.readonly = true)
include hreadonly

theorem ensureWritable_bind_of_readonly (hopen : c.closed = false) (operation : String)
    (f : Unit → ClientWork β) :
    (ensureWritable operation >>= f) (c, h) = .error (.readOnlyViolation operation) (c, h) := by
  simp [ensureWritable, ensureOpen, hopen, hreadonly]

theorem refusesWrites_of_readonly (hopen : c.closed = false) : RefusesWrites c h where
  write target doc := by
    rw [Client.write, prepareWrite, bind_assoc]
    exact ensureWritable_bind_of_readonly hreadonly hopen _ _
  delete _ := ensureWritable_bind_of_readonly hreadonly hopen _ _
  cancel := ensureWritable_bind_of_readonly hreadonly hopen _ _
  registerField _ _ := ensureWritable_bind_of_readonly hreadonly hopen _ _
  destroy := ensureWritable_bind_of_readonly hreadonly hopen _ _

/-- Open or closed, it does nothing that takes writing. -/
theorem after_ensureWritable_bind (operation : String) (f : Unit → ClientWork β) :
    (ensureWritable operation >>= f).after (c, h) = (c, h) := by
  cases hclosed : c.closed with
  | true => rw [Action.after, ensureWritable_bind_of_closed hclosed]
  | false => rw [Action.after, ensureWritable_bind_of_readonly hreadonly hclosed]

theorem looks_perform (hdriver : c.driver.OnlyReads) (r : Request) :
    Along (Driver.Looks c.driver h (c.driver.HasRoom h)) (r.perform.after (c, h)) := by
  have hstart : Along (Driver.Looks c.driver h (c.driver.HasRoom h)) (c, h) := .refl hdriver h
  have hrefused {x : ClientWork Unit} (hx : x.after (c, h) = (c, h)) :
      Along (Driver.Looks c.driver h (c.driver.HasRoom h)) (x.after (c, h)) := by rwa [hx]
  cases r with
  | question q =>
    by_cases hq : ∃ id, q = .delete id
    · obtain ⟨id, rfl⟩ := hq
      exact hrefused (after_ensureWritable_bind hreadonly _ _)
    · refine (keeps_asking (fun hx => keeps_drive (Driver.keeps_calm_looks id hx))
        keeps_translate q fun hx => ?_).after hstart
      cases hx with
      | delete id => exact absurd ⟨id, rfl⟩ hq
      | commit => exact keeps_drive Driver.keeps_commit_looks
  | write target doc =>
    rw [Request.perform, after_void]
    have hwrite : (write target doc).after (c, h) = (c, h) := by
      rw [write, prepareWrite, bind_assoc]
      exact after_ensureWritable_bind hreadonly _ _
    rwa [hwrite]
  | registerField name config => exact hrefused (after_ensureWritable_bind hreadonly _ _)
  | close =>
    exact (Driver.aside_looks.keeps_close Driver.keeps_close_looks).after hstart
  | destroy => exact hrefused (after_ensureWritable_bind hreadonly _ _)

end

theorem Becomes.onlyReads {x y : Client × Host} (hy : Becomes x y) (hreadonly : x.1.readonly = true)
    (hdriver : x.1.driver.OnlyReads) : y.1.readonly = true ∧ y.1.driver.OnlyReads := by
  refine ⟨hy.ages.1.trans hreadonly, ?_⟩
  induction hy with
  | refl => exact hdriver
  | ask hy r ih => exact (looks_perform (hy.ages.1.trans hreadonly) ih r).driver.onlyReads
  | @release y hy ih =>
    rw [Action.after, releaseLease_eq]
    exact ih
  | meanwhile _ _ ih => exact ih

/-- **A run of requests** to a client that is open for reading. -/
theorem looks_run (hreadonly : c.readonly = true) (hdriver : c.driver.OnlyReads)
    (rs : List Request) :
    Along (Driver.Looks c.driver h (c.driver.HasRoom h))
      (rs.foldl (fun y r => r.perform.after y) (c, h)) := by
  induction rs generalizing c h with
  | nil => exact .refl hdriver h
  | cons r rs ih =>
    obtain ⟨hreadonly', hdriver'⟩ := ((Becomes.refl (x := (c, h))).ask r).onlyReads hreadonly hdriver
    exact (looks_perform hreadonly hdriver r).trans (ih hreadonly' hdriver')

/-! ## Opening -/

section
variable {catalog : Catalog} {backend : String} {o : BackendOptions} {settings : ClientSettings}

theorem keeps_start_looks {d : Driver} {room : Prop} {readonly : Bool} :
    Keeps (Driver.Looks d h room) (start readonly settings) fun c => c.driver.OnlyReads := by
  refine Keeps.get.bind fun (_, _) _ => ?_
  refine Keeps.seq (.forM_option fun store _ =>
    Driver.aside_looks.keeps_second (Driver.leavesStores_acquireLease store)) fun _ => ?_
  refine Keeps.seq (Driver.keeps_schemaSnapshot_looks.orUndo ?_) fun _ => ?_
  · exact .forM_option fun store _ =>
      Driver.aside_looks.keeps_second (Driver.leavesStores_releaseLease store)
  · exact Keeps.get.bind fun (_, _) hs => .pure hs.driver.onlyReads

theorem keeps_connect_looks (hreadonly : o.readonly = true) :
    Keeps h.SameStores (connect catalog backend o settings) fun c => c.driver.OnlyReads := by
  refine (catalog.keeps_openStore_looks backend hreadonly).bind fun d hd =>
    Keeps.get.bind fun h₁ hh => ?_
  have hstart : Keeps (Driver.Looks d h₁ True) ((start o.readonly settings).orUndo Driver.drop) _ :=
    keeps_start_looks.orUndo Driver.keeps_drop_looks
  replace hstart := hstart (d, h₁) (.refl hd h₁)
  split
  · rename_i hr
    rw [hr] at hstart
    exact Keeps.seq (.set (hh.trans (hstart.1.sameStores trivial))) fun _ => .pure hstart.2
  · rename_i hr
    rw [hr] at hstart
    exact Keeps.seq (.set (hh.trans (hstart.sameStores trivial))) fun _ => .throw

theorem state_of_connect (hrun : connect catalog backend o settings h = .ok c h') :
    c.state = if o.readonly then .readonly else .writable := by
  obtain ⟨-, -, -, -, -, -, -, hreadonly, hclosed⟩ := connect_eq_ok hrun
  simp [state, hreadonly, hclosed]

end

/-- **The life of a client.** Whatever it is asked for and whatever happens on its host meanwhile, a
client keeps the state that it was opened in until it is closed, and is closed from then on: it refuses
everything but to be closed again, and neither it nor a cursor of it has its driver take part. While it
is open for reading it refuses to write. To open it for reading, to ask it for anything and to drop it
in the end leaves all documents, schemas, keys and files as they are; on a key server, where the names
of the keys that a search makes are free. -/
theorem lifecycle (catalog : Catalog) (backend : String) (o : BackendOptions)
    (settings : ClientSettings) (h : Host) :
    (o.readonly = true → h.SameStores ((connect catalog backend o settings).after h)) ∧
    ∀ c h', connect catalog backend o settings h = .ok c h' →
      c.state = (if o.readonly then .readonly else .writable) ∧
      ∀ x, Becomes (c, h') x →
        (∀ y, Becomes x y → y.1.state = x.1.state ∨ y.1.state = .closed) ∧
        (x.1.state = .closed → ∀ h, Shut x.1 h) ∧
        (x.1.state = .readonly → ∀ h, RefusesWrites x.1 h) ∧
        (o.readonly = true → ∀ rs : List Request,
          let y := rs.foldl (fun y r => r.perform.after y) x
          let z := Driver.drop.after (y.1.driver, y.2)
          x.1.driver.Looked y.1.driver ∧
            (x.1.driver.HasRoom x.2 → x.2.SameStores y.2 ∧ x.2.SameStores z.2)) := by
  refine ⟨fun hreadonly => (keeps_connect_looks hreadonly).after (.refl h),
    fun c h' hrun => ⟨state_of_connect hrun, fun x hx => ⟨fun y hy => hy.ages.state_eq, ?_, ?_, ?_⟩⟩⟩
  · intro hstate h
    refine shut_of_closed ?_
    rw [state] at hstate
    split_ifs at hstate with hclosed
    exact hclosed
  · intro hstate h
    rw [state] at hstate
    split_ifs at hstate with hclosed hreadonly
    exact refusesWrites_of_readonly hreadonly (by simpa using hclosed)
  · intro hreadonly rs
    have hc : c.readonly = true := by
      obtain ⟨-, -, -, -, -, -, -, hc, -⟩ := connect_eq_ok hrun
      exact hc.trans hreadonly
    have hd := ((keeps_connect_looks hreadonly).of_ok (.refl h) hrun).2
    obtain ⟨hx', hd'⟩ := hx.onlyReads hc hd
    have hlooks := looks_run (h := x.2) hx' hd' rs
    refine ⟨hlooks.driver, fun hroom => ⟨hlooks.sameStores hroom, ?_⟩⟩
    have hdrop := Driver.keeps_drop_looks.after hlooks
    exact hdrop.sameStores hroom

/-- To close a client leaves it closed, whether that fails or not. -/
theorem closed_after_close : (close.after (c, h)).1.closed = true := by
  cases hclosed : c.closed with
  | true => rw [Action.after, close_of_closed hclosed, hclosed]
  | false =>
    rw [Action.after, close_run hclosed]
    cases Driver.close (c.driver, h) <;> rfl

/-- On a server with two other stores and a key of nobody, a client is opened for reading, asked to
search and closed. -/
theorem lifecycle_beside :
    ∃ c, connect .builtin SetStore.backendName
        { BackendOptions.none with keyPrefix := some "b", readonly := true } .default
        (.initial Text.stems [] beside "") = .ok c (.initial Text.stems [] beside "") ∧
      c.state = .readonly ∧ RefusesWrites c (.initial Text.stems [] beside "") ∧
      let rs := [.question (.searchAll (.freeText ["boats"]) 0 10), .close]
      let y := rs.foldl (fun y r => (Request.perform r).after y) (c, .initial Text.stems [] beside "")
      y.1.state = .closed ∧ Shut y.1 y.2 ∧ y.2.server.keys = beside.keys := by
  have ho : SetStore.Store.ofOptions
      { BackendOptions.none with keyPrefix := some "b", readonly := true } =
      .ok ⟨⟨"b"⟩, SetStore.addressText SetStore.defaultHost SetStore.defaultPort,
        SetStore.defaultTimeoutMs, true, .empty⟩ := by
    with_unfolding_all rfl
  have hvacant : beside.Vacant ⟨"b"⟩ := by
    intro key hkey
    by_contra hsome
    obtain ⟨v, hv⟩ := Option.ne_none_iff_exists'.1 hsome
    have hmem := KeyMap.mem_of_get?_ofList hv
    simp only [List.mem_cons, Prod.mk.injEq, List.not_mem_nil, or_false] at hmem
    rcases hmem with ⟨rfl, -⟩ | ⟨rfl, -⟩ | ⟨rfl, -⟩ | ⟨rfl, -⟩ <;> revert hkey <;> decide
  have hbackend : Catalog.builtin.backends.get? SetStore.backendName = some .sets := by decide
  obtain ⟨c, hrun, hdriver, -⟩ := connect_of_vacant (h := .initial Text.stems [] beside "") .default
    hbackend ho (SetStore.Store.serves_iff.2 (by decide)) hvacant
  obtain ⟨hstate, hlife⟩ := (lifecycle .builtin SetStore.backendName _ .default _).2 c _ hrun
  obtain ⟨-, -, hrefuses, hreads⟩ := hlife _ .refl
  refine ⟨c, hrun, hstate, hrefuses hstate _, ?_⟩
  intro rs y
  have hclosed : y.1.state = .closed := by
    rw [state, if_pos]
    exact closed_after_close
  have hroom : c.driver.HasRoom (.initial Text.stems [] beside "") := by
    rw [hdriver]
    rintro _ ⟨⟩
    exact (SetStore.holds_empty hvacant.role).not_contains_temp
  refine ⟨hclosed, ?_, ((hreads rfl rs).2 hroom).1.keys⟩
  exact (hlife y (.ask (.ask .refl _) _)).2.1 hclosed _

end Client

end Searchlight
