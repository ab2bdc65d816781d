import Searchlight.Client.Basic
import Searchlight.Proofs.Client.Cursors
import Searchlight.Proofs.Driver.Use

/-!
# Requests

Everything that a client may be asked for once it is open (`Request`). Most requests work with the
driver as it is used for documents, and may translate a query; what that keeps, such a request keeps
(`keeps_asking`). The others register fields or end the client.
-/

namespace Searchlight

open Searchlight.Action (Keeps)

namespace Client

def void {α : Type} (x : ClientWork α) : ClientWork Unit := do
  let _ ← x

theorem after_void {α : Type} (x : ClientWork α) (s : Client × Host) :
    (void x).after s = x.after s := by
  simp only [Action.after, void, Action.bind_run]
  cases x s <;> rfl

/-- A request that works with the driver as it is used for documents. -/
inductive Question where
  | delete (id : String)
  | commit
  | cancel
  | getDocument (id : String)
  | documentExists (id : String)
  | documentCount
  | translate (q : Query)
  | search (q : Query) (offset limit : Nat)
  | searchAll (q : Query) (offset limit : Nat)
  | iterDocuments
  | allDocuments
  /-- A cursor asks for its next hit. -/
  | nextHit (k : ResultCursor)
  | remainingHits (k : ResultCursor)
  /-- A cursor asks for its next document. -/
  | nextDocument (k : DocumentCursor)
  | remainingDocuments (k : DocumentCursor)

def Question.perform : Question → ClientWork Unit
  | delete id => Client.delete id
  | commit => Client.commit
  | cancel => Client.cancel
  | getDocument id => void (Client.getDocument id)
  | documentExists id => void (Client.documentExists id)
  | documentCount => void Client.documentCount
  | translate q => void (Client.translate q)
  | search q offset limit => void (Client.search q offset limit)
  | searchAll q offset limit => void (Client.searchAll q offset limit)
  | iterDocuments => void Client.iterDocuments
  | allDocuments => void Client.allDocuments
  | nextHit k => void (withCursor k Client.nextHit)
  | remainingHits k => void (withCursor k Client.remainingHits)
  | nextDocument k => void (withCursor k Client.nextDocument)
  | remainingDocuments k => void (withCursor k Client.remainingDocuments)

/-- Everything that an open client may be asked for. -/
inductive Request where
  | question (q : Question)
  | write (target : WriteTarget) (doc : Document)
  | registerField (name : String) (config : FieldConfig)
  | close
  | destroy

/-- What a client does when it is asked. -/
def Request.perform : Request → ClientWork Unit
  | question q => q.perform
  | write target doc => void (Client.write target doc)
  | registerField name config => Client.registerField name config
  | close => Client.close
  | destroy => Client.destroy

/-- The work by which a request has the driver place, remove or commit documents. -/
inductive Request.Stirs : Request → {α : Type} → DriverWork α → Prop where
  | index (target : WriteTarget) (doc : Document) (d : PreparedDocument) (id : Option String) :
    Stirs (write target doc) (Driver.index d id)
  | delete (id : String) : Stirs (question (.delete id)) (Driver.delete id)
  | commit : Stirs (question .commit) Driver.commit
  | close : Stirs close Driver.close

section
variable {I : Client × Host → Prop}

theorem keeps_void {α : Type} {x : ClientWork α} (hx : Keeps I x fun _ => True) :
    Keeps I (void x) fun _ => True := hx.seq fun _ => .pure trivial

theorem keeps_ensureOpen : Keeps I ensureOpen fun _ => True :=
  Keeps.get.bind fun _ _ => .ite (fun _ => .throw) fun _ => .pure trivial

theorem keeps_ensureWritable {operation : String} :
    Keeps I (ensureWritable operation) fun _ => True :=
  keeps_ensureOpen.seq fun _ => Keeps.get.bind fun _ _ => .ite (fun _ => .throw) fun _ =>
    .pure trivial

theorem keeps_withCursor {κ α : Type} {k : κ} {x : CursorWork κ α} {Q : α → Prop}
    {J : κ × Client × Host → Prop} (hx : Keeps J x Q) (hk : ∀ s, I s → J (k, s))
    (hJ : ∀ y, J y → I y.2) : Keeps I (withCursor k x) Q := by
  intro s hs
  have := hx (k, s) (hk s hs)
  rw [withCursor]
  cases hr : x (k, s) <;> rw [hr] at this
  · exact ⟨hJ _ this.1, this.2⟩
  · exact hJ _ this

section
variable {P : SearchHit → Prop}
  (hfetch : ∀ q offset limit, Keeps I (fetchHits q offset limit) fun page => ∀ x ∈ page.hits, P x)
include hfetch

theorem keeps_nextHit : Keeps (ResultCursor.Holds P I) nextHit fun hit => ∀ x ∈ hit, P x :=
  Keeps.get.bind fun _ _ => ResultCursor.keeps_next hfetch

theorem keeps_remainingHits :
    Keeps (ResultCursor.Holds P I) remainingHits fun hits => ∀ x ∈ hits, P x :=
  Keeps.get.bind fun _ _ => ResultCursor.keeps_collectAll hfetch

end

section
variable {P : StoredDocument → Prop}
  (hlist : ∀ offset limit, Keeps I (source.list offset limit) fun _ => True)
  (hload : ∀ id, Keeps I (source.load id) fun d => ∀ x ∈ d, P x)
include hlist hload

theorem keeps_nextDocument : Keeps (fun y => I y.2) nextDocument fun d => ∀ x ∈ d, P x :=
  Keeps.get.bind fun _ _ => DocumentCursor.keeps_next hlist hload _

theorem keeps_remainingDocuments :
    Keeps (fun y => I y.2) remainingDocuments fun ds => ∀ x ∈ ds, P x :=
  Keeps.get.bind fun _ _ => DocumentCursor.keeps_drain hlist hload _ _

end

variable
  (hdrive : ∀ {α : Type} {x : DriverWork α}, Driver.Calm x → Keeps I (drive x) fun _ => True)
include hdrive

/-- **What questions keep.** An invariant that neither the use of the driver nor a translation
breaks. -/
theorem keeps_asking (htranslate : ∀ q, Keeps I (translate q) fun _ => True) (q : Question)
    (hstirs : ∀ {α : Type} {x : DriverWork α}, (Request.question q).Stirs x →
      Keeps I (drive x) fun _ => True) :
    Keeps I q.perform fun _ => True := by
  have hsearch (q : Query) (offset limit : Nat) :
      Keeps I (search q offset limit) fun _ => True :=
    keeps_ensureOpen.seq fun _ => (htranslate q).seq fun _ => Keeps.get.bind fun _ _ =>
      .pure trivial
  have hiter : Keeps I iterDocuments fun _ => True :=
    keeps_ensureOpen.seq fun _ => Keeps.get.bind fun _ _ => .pure trivial
  -- Nothing is asked of the hits and documents that a cursor gives.
  have hfetch (q : NativeQuery) (offset limit : Nat) :
      Keeps I (fetchHits q offset limit) fun page => ∀ x ∈ page.hits, True :=
    (hdrive (.search q offset limit)).mono fun _ _ _ _ => trivial
  have hlist (offset limit : Nat) : Keeps I (source.list offset limit) fun _ => True :=
    hdrive (.ids offset limit)
  have hload (id : String) : Keeps I (source.load id) fun d => ∀ x ∈ d, True :=
    (hdrive (.get? id)).mono fun _ _ _ _ => trivial
  have hhits {α : Type} {Q : α → Prop} (k : ResultCursor) {x : CursorWork ResultCursor α}
      (hx : Keeps (ResultCursor.Holds (fun _ => True) I) x Q) :
      Keeps I (withCursor k x) fun _ => True :=
    keeps_withCursor (hx.mono fun _ _ => trivial) (fun _ hs => ⟨fun _ _ => trivial, hs⟩)
      fun _ hy => hy.2
  have hdocuments {α : Type} {Q : α → Prop} (k : DocumentCursor) {x : CursorWork DocumentCursor α}
      (hx : Keeps (fun y => I y.2) x Q) : Keeps I (withCursor k x) fun _ => True :=
    keeps_withCursor (hx.mono fun _ _ => trivial) (fun _ hs => hs) fun _ hy => hy
  cases q with
  | delete id => exact keeps_ensureWritable.seq fun _ => hstirs (.delete id)
  | commit => exact keeps_ensureOpen.seq fun _ => hstirs .commit
  | cancel => exact keeps_ensureWritable.seq fun _ => hdrive .cancel
  | getDocument id =>
    refine keeps_void <| keeps_ensureOpen.seq fun _ => (hdrive (.get? id)).seq fun d => ?_
    cases d with
    | none => exact .throw
    | some d => exact .pure trivial
  | documentExists id => exact keeps_void <| keeps_ensureOpen.seq fun _ => hdrive (.contains id)
  | documentCount => exact keeps_void <| keeps_ensureOpen.seq fun _ => hdrive .count
  | translate q => exact keeps_void (htranslate q)
  | search q offset limit => exact keeps_void (hsearch q offset limit)
  | searchAll q offset limit =>
    exact keeps_void <| (hsearch q offset limit).seq fun k =>
      hhits k (keeps_remainingHits hfetch)
  | iterDocuments => exact keeps_void hiter
  | allDocuments =>
    exact keeps_void <| hiter.seq fun k => hdocuments k (keeps_remainingDocuments hlist hload)
  | nextHit k => exact keeps_void (hhits k (keeps_nextHit hfetch))
  | remainingHits k => exact keeps_void (hhits k (keeps_remainingHits hfetch))
  | nextDocument k => exact keeps_void (hdocuments k (keeps_nextDocument hlist hload))
  | remainingDocuments k => exact keeps_void (hdocuments k (keeps_remainingDocuments hlist hload))

end

end Client

end Searchlight
