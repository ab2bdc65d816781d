import Searchlight.Client.Session
import Searchlight.Proofs.Client.Invariant
import Searchlight.Text.Stem

/-!
# Runs of sessions

A session goes from event to event: clients are opened and forgotten, asked by their names, and
cursors ask for them; meanwhile others may do anything to the key server. What is shown of every
client in every run is shown once for each way in which an event can touch a client (`Carries`).
-/

namespace Searchlight.Session

open Client (Request Question)

/-- What may happen in a session. -/
inductive Event where
  | openClient (name : String) (catalog : Catalog) (backend : String) (options : BackendOptions)
    (settings : ClientSettings)
  | forget (name : String)
  | ask (name : String) (r : Request)
  | openResults (name cursor : String) (q : Query) (offset limit : Nat)
  | openDocuments (name cursor : String)
  | nextHit (cursor : String)
  | nextDocument (cursor : String)
  /-- Others use the key server. -/
  | server (change : SetStore.Server → SetStore.Server)

/-- The session after something happened; what cannot be done changes nothing. -/
def apply (s : Session) : Event → Session
  | .openClient name catalog backend options settings =>
    (s.openClient name (Client.connect catalog backend options settings)).2
  | .forget name => s.forget name
  | .ask name r => ((s.run name r.perform).map (·.2)).getD s
  | .openResults name cursor q offset limit =>
    ((s.openResults name cursor q offset limit).map (·.2)).getD s
  | .openDocuments name cursor => ((s.openDocuments name cursor).map (·.2)).getD s
  | .nextHit cursor => ((s.nextHit cursor).map (·.2)).getD s
  | .nextDocument cursor => ((s.nextDocument cursor).map (·.2)).getD s
  | .server change => { s with host := { s.host with server := change s.host.server } }

/-- The session after a run. -/
def after (s : Session) (es : List Event) : Session := es.foldl apply s

theorem after_append (s : Session) (es es' : List Event) :
    s.after (es ++ es') = (s.after es).after es' := List.foldl_append

/-- A session without clients on a host with one directory. -/
def oneDirectory : Session := new (.initial Text.stems ["d"] (.fresh true) "")

/-- An event asks the client of a number for something. -/
inductive Asks (s : Session) : Event → Nat → Request → Prop where
  | ask {name : String} {n : Nat} {r : Request} (h : s.names.get? name = some n) :
    Asks s (.ask name r) n r
  | openResults {name cursor : String} {q : Query} {offset limit n : Nat}
    (h : s.names.get? name = some n) :
    Asks s (.openResults name cursor q offset limit) n (.question (.search q offset limit))
  | openDocuments {name cursor : String} {n : Nat} (h : s.names.get? name = some n) :
    Asks s (.openDocuments name cursor) n (.question .iterDocuments)
  | nextHit {cursor : String} {n : Nat} {k : ResultCursor}
    (h : s.results.get? cursor = some (n, k)) : Asks s (.nextHit cursor) n (.question (.nextHit k))
  | nextDocument {cursor : String} {n : Nat} {k : DocumentCursor}
    (h : s.documents.get? cursor = some (n, k)) :
    Asks s (.nextDocument cursor) n (.question (.nextDocument k))

/-! ## What holds of all clients -/

def Holds (P : Nat → Client → Prop) (H : Host → Prop) (s : Session) : Prop :=
  (∀ e ∈ s.held, P e.1 e.2) ∧ H s.host

/-- What an event does to a client, in each way in which it can touch one. -/
structure Carries (P Q : Nat → Client → Prop) (H : Host → Prop) (s : Session) (e : Event) :
    Prop where
  stay : ∀ n c, P n c → Q n c
  ask : ∀ n r c, Asks s e n r → s.held.lookup n = some c → P n c → H s.host →
    Q n (r.perform.after (c, s.host)).1 ∧ H (r.perform.after (c, s.host)).2
  release : ∀ n c h, P n c → H h →
    Q n (Client.releaseLease.after (c, h)).1 ∧ H (Client.releaseLease.after (c, h)).2
  connect : ∀ n catalog backend options settings,
    Action.Keeps H (Client.connect catalog backend options settings) (Q n)
  drop : ∀ n c h, Q n c → H h → H (dropDriver h c)
  server : ∀ h change, e = .server change → H h → H { h with server := change h.server }

variable {s : Session} {e : Event} {P Q : Nat → Client → Prop} {H : Host → Prop} {α κ : Type}

theorem Holds.mono (h : Holds P H s) (hPQ : ∀ n c, P n c → Q n c) : Holds Q H s :=
  ⟨fun e he => hPQ e.1 e.2 (h.1 e he), h.2⟩

theorem Holds.put (hs : Holds P H s) (hPQ : ∀ n c, P n c → Q n c) {n : Nat} {c : Client} {h : Host}
    (hc : Q n c) (hh : H h) : Holds Q H (s.put n c h) := by
  refine ⟨fun e he => ?_, hh⟩
  obtain ⟨e', he', rfl⟩ := List.mem_map.1 he
  split
  · exact hc
  · exact hPQ _ _ (hs.1 e' he')

theorem Holds.sweep (hs : Holds P H s) (hdrop : ∀ n c h, P n c → H h → H (dropDriver h c)) :
    Holds P H s.sweep := by
  have hgone (gone : List (Nat × Client)) (hgone : ∀ e ∈ gone, P e.1 e.2) (h : Host) (hh : H h) :
      H (gone.foldl (fun h e => dropDriver h e.2) h) := by
    induction gone generalizing h with
    | nil => exact hh
    | cons e gone ih =>
      exact ih (fun e' he' => hgone e' (List.mem_cons_of_mem _ he')) _
        (hdrop e.1 e.2 h (hgone e List.mem_cons_self) hh)
  simp only [Session.sweep, List.partition_eq_filter_filter]
  exact ⟨fun e he => hs.1 e (List.mem_filter.1 he).1,
    hgone _ (fun e he => hs.1 e (List.mem_filter.1 he).1) _ hs.2⟩

theorem mem_held_of_lookup {n : Nat} {c : Client} (h : s.held.lookup n = some c) :
    (n, c) ∈ s.held := by
  obtain ⟨l₁, l₂, hl, -⟩ := List.lookup_eq_some_iff.1 h
  rw [hl]
  simp

/-- Work of a client leaves the session with what the client became. -/
theorem runAt_eq {n : Nat} {x : ClientWork α} {o : Except Error α} {t : Session}
    (h : s.runAt n x = some (o, t)) :
    ∃ c, s.held.lookup n = some c ∧
      t = s.put n (x.after (c, s.host)).1 (x.after (c, s.host)).2 := by
  rw [runAt, Option.map_eq_some_iff] at h
  obtain ⟨c, hc, h⟩ := h
  refine ⟨c, hc, ?_⟩
  rw [Action.after]
  cases hr : x (c, s.host) <;> rw [hr] at h <;> cases h <;> rfl

theorem runCursor_eq {n : Nat} {k k' : κ} {x : Client.CursorWork κ α} {o : Except Error α}
    {t : Session} (h : s.runCursor n k x = some (o, k', t)) :
    ∃ c, s.held.lookup n = some c ∧ t = s.put n ((Client.withCursor k x).after (c, s.host)).1
      ((Client.withCursor k x).after (c, s.host)).2 := by
  rw [runCursor, Option.map_eq_some_iff] at h
  obtain ⟨c, hc, h⟩ := h
  refine ⟨c, hc, ?_⟩
  rw [Action.after, Client.withCursor]
  cases hr : x (k, c, s.host) <;> rw [hr] at h <;> cases h <;> rfl

theorem Holds.forget {t : Session} (ht : Holds P H t) (hc : Carries P Q H s e) (name : String) :
    Holds Q H (t.forget name) := by
  have hreleased : Holds Q H (((t.run name Client.releaseLease).map (·.2)).getD t) := by
    cases hr : t.run name Client.releaseLease with
    | none => exact ht.mono hc.stay
    | some x =>
      obtain ⟨n, -, hr⟩ := Option.bind_eq_some_iff.1 hr
      obtain ⟨c, hlookup, hx⟩ := runAt_eq hr
      obtain ⟨hQ, hH⟩ := hc.release n c t.host (ht.1 _ (mem_held_of_lookup hlookup)) ht.2
      change Holds Q H x.2
      rw [hx]
      exact ht.put hc.stay hQ hH
  exact Holds.sweep ⟨hreleased.1, hreleased.2⟩ hc.drop

theorem Holds.asked (hs : Holds P H s) (hc : Carries P Q H s e) {n : Nat} {r : Request}
    (hr : Asks s e n r) {c : Client} (hlookup : s.held.lookup n = some c) :
    Holds Q H (s.put n (r.perform.after (c, s.host)).1 (r.perform.after (c, s.host)).2) := by
  obtain ⟨hQ, hH⟩ := hc.ask n r c hr hlookup (hs.1 _ (mem_held_of_lookup hlookup)) hs.2
  exact hs.put hc.stay hQ hH

theorem Holds.ran (hs : Holds P H s) (hc : Carries P Q H s e) {n : Nat} {r : Request}
    (hr : Asks s e n r) {x : ClientWork α} (hx : ∀ y, r.perform.after y = x.after y)
    {o : Except Error α} {t : Session} (hrun : s.runAt n x = some (o, t)) : Holds Q H t := by
  obtain ⟨c, hlookup, rfl⟩ := runAt_eq hrun
  rw [← hx]
  exact hs.asked hc hr hlookup

theorem Holds.ranCursor (hs : Holds P H s) (hc : Carries P Q H s e) {n : Nat} {r : Request}
    (hr : Asks s e n r) {k k' : κ} {x : Client.CursorWork κ α}
    (hx : ∀ y, r.perform.after y = (Client.withCursor k x).after y) {o : Except Error α}
    {t : Session} (hrun : s.runCursor n k x = some (o, k', t)) : Holds Q H t := by
  obtain ⟨c, hlookup, rfl⟩ := runCursor_eq hrun
  rw [← hx]
  exact hs.asked hc hr hlookup

theorem Holds.openClient (hs : Holds P H s) (hc : Carries P Q H s e) (name : String)
    (catalog : Catalog) (backend : String) (options : BackendOptions) (settings : ClientSettings) :
    Holds Q H (s.openClient name (Client.connect catalog backend options settings)).2 := by
  have hconnect (n : Nat) := hc.connect n catalog backend options settings s.host hs.2
  rw [Session.openClient]
  cases hr : Client.connect catalog backend options settings s.host with
  | error f h =>
    simp only [hr] at hconnect
    exact ⟨(hs.mono hc.stay).1, hconnect 0⟩
  | ok c h =>
    simp only [hr] at hconnect
    have hforget : Holds Q H ({ s with host := h }.forget name) :=
      Holds.forget (t := { s with host := h }) ⟨hs.1, (hconnect 0).1⟩ hc name
    refine ⟨fun e he => ?_, hforget.2⟩
    rcases List.mem_cons.1 he with rfl | he
    · exact (hconnect _).2
    · exact hforget.1 e he

/-- **One event** carries what holds of all clients over. -/
theorem Holds.apply (hs : Holds P H s) (hc : Carries P Q H s e) : Holds Q H (s.apply e) := by
  have hsame : Holds Q H s := hs.mono hc.stay
  cases e with
  | openClient name catalog backend options settings =>
    exact hs.openClient hc name catalog backend options settings
  | forget name => exact hs.forget hc name
  | ask name r =>
    simp only [Session.apply]
    cases hr : s.run name r.perform with
    | none => exact hsame
    | some x =>
      obtain ⟨n, hn, hrun⟩ := Option.bind_eq_some_iff.1 hr
      exact hs.ran hc (.ask hn) (fun _ => rfl) hrun
  | openResults name cursor q offset limit =>
    simp only [Session.apply]
    cases hr : s.openResults name cursor q offset limit with
    | none => exact hsame
    | some x =>
      obtain ⟨n, hn, hr⟩ := Option.bind_eq_some_iff.1 hr
      obtain ⟨⟨o, t⟩, hrun, rfl⟩ := Option.map_eq_some_iff.1 hr
      have ht : Holds Q H t := hs.ran hc (.openResults hn) (Client.after_void _) hrun
      cases o with
      | error f => exact ht
      | ok k => exact Holds.sweep ⟨ht.1, ht.2⟩ hc.drop
  | openDocuments name cursor =>
    simp only [Session.apply]
    cases hr : s.openDocuments name cursor with
    | none => exact hsame
    | some x =>
      obtain ⟨n, hn, hr⟩ := Option.bind_eq_some_iff.1 hr
      obtain ⟨⟨o, t⟩, hrun, rfl⟩ := Option.map_eq_some_iff.1 hr
      have ht : Holds Q H t := hs.ran hc (.openDocuments hn) (Client.after_void _) hrun
      cases o with
      | error f => exact ht
      | ok k => exact Holds.sweep ⟨ht.1, ht.2⟩ hc.drop
  | nextHit cursor =>
    simp only [Session.apply]
    cases hr : s.nextHit cursor with
    | none => exact hsame
    | some x =>
      obtain ⟨⟨n, k⟩, hk, hr⟩ := Option.bind_eq_some_iff.1 hr
      obtain ⟨⟨o, k', t⟩, hrun, hx⟩ := Option.bind_eq_some_iff.1 hr
      cases hx
      have ht : Holds Q H t := hs.ranCursor hc (.nextHit hk) (Client.after_void _) hrun
      exact ⟨ht.1, ht.2⟩
  | nextDocument cursor =>
    simp only [Session.apply]
    cases hr : s.nextDocument cursor with
    | none => exact hsame
    | some x =>
      obtain ⟨⟨n, k⟩, hk, hr⟩ := Option.bind_eq_some_iff.1 hr
      obtain ⟨⟨o, k', t⟩, hrun, hx⟩ := Option.bind_eq_some_iff.1 hr
      cases hx
      have ht : Holds Q H t := hs.ranCursor hc (.nextDocument hk) (Client.after_void _) hrun
      exact ⟨ht.1, ht.2⟩
  | server change => exact ⟨hsame.1, hc.server s.host change rfl hs.2⟩

/-- What every event of a run carries over holds after the run. -/
theorem Holds.after (hs : Holds P H s) {es : List Event} (hc : ∀ s, ∀ e ∈ es, Carries P P H s e) :
    Holds P H (s.after es) := by
  induction es generalizing s with
  | nil => exact hs
  | cons e es ih =>
    exact ih (hs.apply (hc s e List.mem_cons_self)) fun s e' he' =>
      hc s e' (List.mem_cons_of_mem _ he')

theorem holds_new {h : Host} (hh : H h) : Holds P H (new h) := ⟨by simp [new], hh⟩

theorem holds_dropDriver {D : Driver → Prop} (hO : Driver.Opening D H) {c : Client} {h : Host}
    (hc : D c.driver) (hh : H h) : H (dropDriver h c) := by
  have := hO.drop (c.driver, h) ⟨hc, hh⟩
  rw [dropDriver]
  cases hr : Driver.drop (c.driver, h) <;> rw [hr] at this
  · exact this.1.2
  · exact this.2

/-- What all work of drivers keeps, every event carries over that lets the key server keep it. -/
theorem carries_of_invariant {D : Driver → Prop} (hI : Driver.Invariant D H) (s : Session)
    (hserver : ∀ h change, e = .server change → H h → H { h with server := change h.server }) :
    Carries (fun _ c => D c.driver) (fun _ c => D c.driver) H s e where
  stay _ _ h := h
  ask _ r c _ _ hc hh := (hI.keeps_perform r).after (s := (c, s.host)) ⟨hc, hh⟩
  release _ c h hc hh := hI.toSteady.aside.keeps_releaseLease.after (s := (c, h)) ⟨hc, hh⟩
  connect _ catalog backend options settings :=
    hI.toOpening.keeps_connect catalog backend options settings
  drop _ _ _ hc hh := holds_dropDriver hI.toOpening hc hh
  server := hserver

/-- **In every run**, what all work of drivers keeps holds, if what others do to the key server keeps
it. -/
theorem holds_after {D : Driver → Prop} (hI : Driver.Invariant D H) {h : Host} (hh : H h)
    {es : List Event} (hes : ∀ change, .server change ∈ es →
      ∀ h, H h → H { h with server := change h.server }) :
    Holds (fun _ c => D c.driver) H ((new h).after es) :=
  Holds.after (holds_new hh) fun s _ he =>
    carries_of_invariant hI s fun h change hchange hh => hes change (hchange ▸ he) h hh

end Searchlight.Session
