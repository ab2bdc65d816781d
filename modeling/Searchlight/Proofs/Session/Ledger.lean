import Mathlib.Data.Set.Insert
import Searchlight.Proofs.Client.Leases
import Searchlight.Proofs.Session.Run

/-!
# The ledger of a session

In every run, the leases that are taken are those of clients that are open to write under a name, each
taken once, and whatever is locked is locked by a client of the session (`Orderly`).
-/

namespace Searchlight.Session

open Client (Conserves Enters Request)
open Disk.Volume (LockedBy)

theorem dropDriver_eq {h : Host} {c : Client} :
    dropDriver h c = (Driver.drop.after (c.driver, h)).2 := by
  rw [dropDriver, Action.after]
  cases Driver.drop (c.driver, h) <;> rfl

/-! ## Ledgers -/

def Locking (E : Set (Nat × Client)) (k : String) (mark : Nat) : Prop := ∃ e ∈ E, e.2.Owns k mark

/-- The leases and locks of a host are those of some clients; no two have the same lease. -/
structure Ledger (E : Set (Nat × Client)) (h : Host) : Prop where
  leases : ∀ key, h.leases.contains key = true ↔ ∃ e ∈ E, e.2.lease = some key
  once : ∀ e ∈ E, ∀ e' ∈ E, ∀ key, e.2.lease = some key → e'.2.lease = some key → e = e'
  locks : LockedBy (Locking E) h.volume

namespace Ledger

variable {E : Set (Nat × Client)} {h h' : Host} {n : Nat} {c : Client}

theorem locking_insert {k : String} {mark : Nat} :
    Locking (insert (n, c) E) k mark ↔ Locking E k mark ∨ c.Owns k mark := by
  simp only [Locking, Set.mem_insert_iff, exists_eq_or_imp]
  exact or_comm

theorem locks_insert (hE : Ledger (insert (n, c) E) h) :
    LockedBy (fun k mark => Locking E k mark ∨ c.Owns k mark) h.volume :=
  hE.locks.mono fun _ _ => locking_insert.1

theorem congr (hE : Ledger E h) (hleases : h'.leases = h.leases)
    (hlocks : LockedBy (Locking E) h'.volume) : Ledger E h' :=
  ⟨fun key => by rw [hleases, hE.leases], hE.once, hlocks⟩

/-- Beside the ledger of some clients, one more is only written down if no other has its lease. -/
theorem once_insert (honce : ∀ e ∈ E, ∀ e' ∈ E, ∀ key, e.2.lease = some key →
      e'.2.lease = some key → e = e')
    (hc : ∀ e ∈ E, ∀ key, c.lease = some key → e.2.lease ≠ some key) :
    ∀ e ∈ insert (n, c) E, ∀ e' ∈ insert (n, c) E, ∀ key, e.2.lease = some key →
      e'.2.lease = some key → e = e' := by
  rintro e (rfl | he) e' (rfl | he') key hkey hkey'
  · rfl
  · exact absurd hkey' (hc e' he' key hkey)
  · exact absurd hkey (hc e he key hkey')
  · exact honce e he e' he' key hkey hkey'

/-- A client answers for what becomes of it. -/
theorem turn (hE : Ledger (insert (n, c) E) h) (hn : (n, c) ∉ E) {y : Client × Host}
    (hy : Conserves (Locking E) (c, h) y) : Ledger (insert (n, y.1) E) y.2 := by
  have hother (e) (he : e ∈ E) (key) (hkey : c.lease = some key) : e.2.lease ≠ some key := fun hkey' =>
    hn (hE.once _ (Set.mem_insert _ _) e (Set.mem_insert_of_mem _ he) key hkey hkey' ▸ he)
  refine ⟨fun key => ?_, once_insert ?_ fun e he key hkey => hother e he key ?_,
    hy.locks.mono fun _ _ => locking_insert.2⟩
  · have hleases := hE.leases key
    rw [Set.exists_mem_insert] at hleases ⊢
    obtain ⟨hlease, hsame⟩ | ⟨hlease, hsame⟩ := hy.lease
    · rw [hsame, hleases, hlease]
    · rw [hsame, Host.contains_released, hleases, hlease]
      refine ⟨fun ⟨hne, hkey⟩ => .inr (hkey.resolve_left hne), fun hkey => ?_⟩
      obtain ⟨e, he, hkey⟩ := hkey.resolve_left nofun
      exact ⟨fun hc => hother e he key hc hkey, .inr ⟨e, he, hkey⟩⟩
  · exact fun e he e' he' => hE.once e (Set.mem_insert_of_mem _ he) e' (Set.mem_insert_of_mem _ he')
  · obtain ⟨hlease, -⟩ | ⟨hlease, -⟩ := hy.lease
    · exact hlease ▸ hkey
    · cases hlease.symm.trans hkey

theorem leave (hE : Ledger (insert (n, c) E) h) (hc : c.lease = none) :
    Ledger E (dropDriver h c) := by
  obtain ⟨hleases, hlocks⟩ := (Driver.Accounts.enters hE.locks_insert).drop
  rw [← dropDriver_eq] at hleases hlocks
  refine ⟨fun key => ?_, fun e he e' he' => ?_, hlocks⟩
  · rw [hleases, hE.leases, Set.exists_mem_insert, hc]
    simp
  · exact hE.once e (Set.mem_insert_of_mem _ he) e' (Set.mem_insert_of_mem _ he')

/-- A client is opened. -/
theorem enter (hE : Ledger E h) {o : BackendOptions} (hc : Enters (Locking E) o h (c, h')) :
    Ledger (insert (n, c) E) h' := by
  refine ⟨fun key => ?_, once_insert hE.once fun e he key hkey hkey' => ?_,
    hc.locks.mono fun _ _ => locking_insert.2⟩
  · rw [hc.leases, Host.contains_leased, hE.leases, Set.exists_mem_insert]
  · have hheld := (hE.leases key).2 ⟨e, he, hkey'⟩
    rw [hc.vacant key hkey] at hheld
    cases hheld

theorem leaveAll (gone : List (Nat × Client)) (hE : Ledger (E ∪ {e | e ∈ gone}) h)
    (hgone : ∀ e ∈ gone, e.2.lease = none) :
    Ledger E (gone.foldl (fun h e => dropDriver h e.2) h) := by
  induction gone generalizing h with
  | nil => simpa using hE
  | cons e gone ih =>
    refine ih ?_ fun e' he' => hgone e' (List.mem_cons_of_mem _ he')
    refine leave (n := e.1) (Eq.subst (motive := fun E => Ledger E h) ?_ hE)
      (hgone e List.mem_cons_self)
    ext e'
    simp only [Set.mem_union, Set.mem_ofPred_eq, List.mem_cons, Set.mem_insert_iff]
    exact or_left_comm

end Ledger

/-! ## Orderly sessions -/

/-- A client has a name. -/
def Names (s : Session) (n : Nat) : Prop := ∃ name, s.names.get? name = some n

/-- The clients of a session and those that stand beside it answer for all leases and locks. A client
has a lease exactly while it is open to write under its name. Clients that only read, and those that
`ended`, have no lock. -/
structure Orderly (ended : Set Nat) (beside : Set (Nat × Client)) (s : Session) : Prop where
  ledger : Ledger (beside ∪ {e | e ∈ s.held}) s.host
  outside : ∀ e ∈ beside, s.opened ≤ e.1
  numbers : (s.held.map (·.1)).Nodup
  bounded : ∀ e ∈ s.held, e.1 < s.opened
  held : ∀ n, s.Names n → ∃ c, (n, c) ∈ s.held
  apart : ∀ name name' n, s.names.get? name = some n → s.names.get? name' = some n → name = name'
  leased : ∀ e ∈ s.held, e.2.lease ≠ none ↔
    s.Names e.1 ∧ e.2.state = .writable ∧ e.2.driver.capabilities.singleWriter = true
  free : ∀ e ∈ s.held, e.1 ∈ ended ∨ e.2.readonly = true → e.2.driver.lock? = none
  past : ∀ n ∈ ended, n < s.opened

def Swept (s : Session) : Prop := ∀ e ∈ s.held, s.refersTo e.1 = true

theorem refersTo_iff {s : Session} {n : Nat} : s.refersTo n = true ↔
    s.Names n ∨ (∃ cursor k, s.results.get? cursor = some (n, k)) ∨
      ∃ cursor k, s.documents.get? cursor = some (n, k) := by
  simp only [refersTo, Names, KeyMap.get?_eq_some_iff, Bool.or_eq_true, List.any_eq_true,
    beq_iff_eq, or_assoc]
  refine or_congr ⟨?_, ?_⟩ (or_congr ⟨?_, ?_⟩ ⟨?_, ?_⟩)
  · rintro ⟨⟨name, _⟩, he, rfl⟩
    exact ⟨name, he⟩
  · rintro ⟨name, he⟩
    exact ⟨_, he, rfl⟩
  · rintro ⟨⟨cursor, _, k⟩, he, rfl⟩
    exact ⟨cursor, k, he⟩
  · rintro ⟨cursor, k, he⟩
    exact ⟨_, he, rfl⟩
  · rintro ⟨⟨cursor, _, k⟩, he, rfl⟩
    exact ⟨cursor, k, he⟩
  · rintro ⟨cursor, k, he⟩
    exact ⟨_, he, rfl⟩

section
variable {s : Session} (hs : s.Swept)
include hs

theorem Swept.put {n : Nat} {c : Client} {h : Host} : (s.put n c h).Swept := by
  intro e he
  obtain ⟨e', he', rfl⟩ := List.mem_map.1 he
  by_cases hn : e'.1 = n
  · rw [if_pos (by simpa using hn)]
    exact hn ▸ hs e' he'
  · rw [if_neg (by simpa using hn)]
    exact hs e' he'

theorem Swept.moveResult {cursor : String} {n : Nat} {k k' : ResultCursor}
    (hk : s.results.get? cursor = some (n, k)) :
    Swept { s with results := s.results.insert cursor (n, k') } := by
  intro e he
  refine refersTo_iff.2 ((refersTo_iff.1 (hs e he)).imp id (.imp ?_ id))
  rintro ⟨cursor', k₁, hk₁⟩
  by_cases hcursor : cursor = cursor'
  · subst hcursor
    obtain ⟨rfl, -⟩ := Prod.mk.inj (Option.some.inj (hk.symm.trans hk₁))
    exact ⟨cursor, k', by simp⟩
  · exact ⟨cursor', k₁, by simp [hcursor, hk₁]⟩

theorem Swept.moveDocument {cursor : String} {n : Nat} {k k' : DocumentCursor}
    (hk : s.documents.get? cursor = some (n, k)) :
    Swept { s with documents := s.documents.insert cursor (n, k') } := by
  intro e he
  refine refersTo_iff.2 ((refersTo_iff.1 (hs e he)).imp id (.imp id ?_))
  rintro ⟨cursor', k₁, hk₁⟩
  by_cases hcursor : cursor = cursor'
  · subst hcursor
    obtain ⟨rfl, -⟩ := Prod.mk.inj (Option.some.inj (hk.symm.trans hk₁))
    exact ⟨cursor, k', by simp⟩
  · exact ⟨cursor', k₁, by simp [hcursor, hk₁]⟩

/-- A client is given a name that no other has. -/
theorem Swept.joins {c : Client} {name : String} (hname : s.names.get? name = none) :
    Swept { s with
      held := (s.opened, c) :: s.held
      names := s.names.insert name s.opened
      opened := s.opened + 1 } := by
  intro e he
  refine refersTo_iff.2 ?_
  obtain rfl | he := List.mem_cons.1 he
  · exact .inl ⟨name, by simp⟩
  · refine (refersTo_iff.1 (hs e he)).imp (fun ⟨name', h⟩ => ⟨name', ?_⟩) id
    rw [KeyMap.get?_insert, if_neg]
    · exact h
    · rintro rfl
      exact Option.some_ne_none _ (h.symm.trans hname)

end

theorem opened_forget {s : Session} {name : String} : (s.forget name).opened = s.opened := by
  rw [forget]
  cases hr : s.run name Client.releaseLease with
  | none => rfl
  | some x =>
    obtain ⟨n, -, hr⟩ := Option.bind_eq_some_iff.1 hr
    obtain ⟨c, -, hx⟩ := runAt_eq hr
    rw [Option.map_some, Option.getD_some, hx]
    rfl

theorem get?_names_forget {s : Session} {name : String} :
    (s.forget name).names.get? name = none := by
  simp [forget, Session.sweep]

namespace Orderly

variable {ended : Set Nat} {beside : Set (Nat × Client)} {s : Session} {n : Nat} {c : Client}

theorem eq_of_number (hs : Orderly ended beside s) {e e' : Nat × Client} (he : e ∈ s.held)
    (he' : e' ∈ s.held) (h : e.1 = e'.1) : e = e' :=
  List.inj_on_of_nodup_map hs.numbers he he' h

theorem lookup_eq_some_iff (hs : Orderly ended beside s) :
    s.held.lookup n = some c ↔ (n, c) ∈ s.held := by
  refine ⟨mem_held_of_lookup, fun hc => ?_⟩
  cases hlookup : s.held.lookup n with
  | none => simpa using List.lookup_eq_none_iff.1 hlookup _ hc
  | some c' => rw [(Prod.mk.inj (hs.eq_of_number (mem_held_of_lookup hlookup) hc rfl)).2]

def others (beside : Set (Nat × Client)) (s : Session) (n : Nat) : Set (Nat × Client) :=
  beside ∪ {e | e ∈ s.held ∧ e.1 ≠ n}

theorem insert_others (hs : Orderly ended beside s) (hc : (n, c) ∈ s.held) :
    insert (n, c) (others beside s n) = beside ∪ {e | e ∈ s.held} := by
  ext e
  simp only [others, Set.mem_insert_iff, Set.mem_union, Set.mem_ofPred_eq]
  constructor
  · rintro (rfl | he | ⟨he, -⟩)
    · exact .inr hc
    · exact .inl he
    · exact .inr he
  · rintro (he | he)
    · exact .inr (.inl he)
    · by_cases hn : e.1 = n
      · exact .inl (hs.eq_of_number he hc hn)
      · exact .inr (.inr ⟨he, hn⟩)

theorem not_mem_others (hs : Orderly ended beside s) (hc : (n, c) ∈ s.held) :
    (n, c) ∉ others beside s n := by
  rintro (he | ⟨-, hn⟩)
  · exact absurd (hs.bounded _ hc) (Nat.not_lt.2 (hs.outside _ he))
  · exact hn rfl

theorem mem_put (hc : (n, c) ∈ s.held) {c' : Client} {h : Host} {e : Nat × Client} :
    e ∈ (s.put n c' h).held ↔ e = (n, c') ∨ e ∈ s.held ∧ e.1 ≠ n := by
  rw [put, List.mem_map]
  constructor
  · rintro ⟨e', he', rfl⟩
    by_cases hn : e'.1 = n
    · exact .inl (by simp [hn])
    · exact .inr (by simp [hn, he'])
  · rintro (rfl | ⟨he, hn⟩)
    · exact ⟨_, hc, by simp⟩
    · exact ⟨e, he, by simp [hn]⟩

theorem ledger_others (hs : Orderly ended beside s) (hc : (n, c) ∈ s.held) :
    Ledger (insert (n, c) (others beside s n)) s.host := by
  rw [hs.insert_others hc]
  exact hs.ledger

/-- **A client does something** that it answers for, and may lose its name. -/
theorem turn (hs : Orderly ended beside s) (hc : (n, c) ∈ s.held) {y : Client × Host}
    (hy : Conserves (Locking (others beside s n)) (c, s.host) y) {names : KeyMap Nat}
    (hnames : ∀ name m, names.get? name = some m → s.names.get? name = some m)
    (hothers : ∀ m, m ≠ n → s.Names m → ∃ name, names.get? name = some m)
    (hleased : y.1.lease ≠ none ↔ (∃ name, names.get? name = some n) ∧ y.1.state = .writable ∧
      y.1.driver.capabilities.singleWriter = true) :
    Orderly ended beside { s.put n y.1 y.2 with names } := by
  have hmem {e : Nat × Client} : e ∈ (s.put n y.1 y.2).held ↔ e = (n, y.1) ∨ e ∈ s.held ∧ e.1 ≠ n :=
    mem_put hc
  have hnumbers : (s.put n y.1 y.2).held.map (·.1) = s.held.map (·.1) := by
    rw [put, List.map_map]
    refine List.map_congr_left fun e _ => ?_
    by_cases hn : e.1 = n <;> simp [hn]
  refine ⟨?_, hs.outside, hnumbers ▸ hs.numbers, fun e he => ?_, ?_,
    fun name name' m h h' => hs.apart name name' m (hnames _ _ h) (hnames _ _ h'), fun e he => ?_,
    fun e he hfree => ?_, hs.past⟩
  · refine Eq.subst (motive := fun E => Ledger E y.2) ?_
      ((hs.ledger_others hc).turn (hs.not_mem_others hc) hy)
    ext e
    simp only [others, Set.mem_insert_iff, Set.mem_union, Set.mem_ofPred_eq, hmem]
    exact or_left_comm
  · obtain rfl | ⟨he, -⟩ := hmem.1 he
    · exact hs.bounded (n, c) hc
    · exact hs.bounded e he
  · rintro m ⟨name, hname⟩
    obtain ⟨c', hc'⟩ := hs.held m ⟨name, hnames name m hname⟩
    by_cases hm : m = n
    · exact ⟨y.1, hmem.2 (.inl (by rw [hm]))⟩
    · exact ⟨c', hmem.2 (.inr ⟨hc', hm⟩)⟩
  · obtain rfl | ⟨he, hn⟩ := hmem.1 he
    · exact hleased
    · rw [hs.leased e he]
      refine and_congr_left' ⟨hothers e.1 hn, ?_⟩
      rintro ⟨name, hname⟩
      exact ⟨name, hnames _ _ hname⟩
  · obtain rfl | ⟨he, -⟩ := hmem.1 he
    · have hlock := hs.free (n, c) hc (hfree.imp id fun h => hy.readonly.symm.trans h)
      exact hy.lock.elim id fun h => h.trans hlock
    · exact hs.free e he hfree

theorem asked (hs : Orderly ended beside s) (hc : (n, c) ∈ s.held) (r : Request) :
    Orderly ended beside (s.put n (r.perform.after (c, s.host)).1 (r.perform.after (c, s.host)).2) := by
  obtain ⟨hy, hends⟩ := Client.conserves_perform (hs.ledger_others hc).locks_insert r
  refine hs.turn hc hy (fun _ _ h => h) (fun _ _ h => h) ?_
  have hleased := hs.leased _ hc
  obtain ⟨hclosed, hlease⟩ | ⟨hclosed, hlease⟩ := hends
  · rw [hlease, hy.kind, Client.state, hclosed, hy.readonly]
    exact hleased
  · simp [hlease, Client.state, hclosed]

theorem forgotten (hs : Orderly ended beside s) (hc : (n, c) ∈ s.held) {name : String}
    (hname : s.names.get? name = some n) :
    Orderly ended beside { s.put n (Client.releaseLease.after (c, s.host)).1
      (Client.releaseLease.after (c, s.host)).2 with names := s.names.erase name } := by
  refine hs.turn hc (Client.conserves_releaseLease (hs.ledger_others hc).locks_insert)
    (fun name' m h => ?_) (fun m hm ⟨name', h⟩ => ⟨name', ?_⟩) ?_
  · rw [KeyMap.get?_erase] at h
    split at h
    · cases h
    · exact h
  · rw [KeyMap.get?_erase, if_neg]
    · exact h
    · rintro rfl
      exact hm (Option.some.inj (h.symm.trans hname))
  · rw [Action.after, Client.releaseLease_eq]
    refine iff_of_false (fun h => h rfl) ?_
    rintro ⟨⟨name', h⟩, -⟩
    rw [KeyMap.get?_erase] at h
    split at h
    · cases h
    · rename_i hne
      exact hne (hs.apart _ _ _ hname h)

/-- What nothing refers to goes. -/
theorem sweep (hs : Orderly ended beside s) : Orderly ended beside s.sweep ∧ s.sweep.Swept := by
  have hnamed {n : Nat} (hn : s.Names n) : s.refersTo n = true := refersTo_iff.2 (.inl hn)
  simp only [Session.sweep, List.partition_eq_filter_filter]
  refine ⟨⟨?_, hs.outside, ?_, ?_, ?_, hs.apart, ?_, ?_, hs.past⟩, ?_⟩
  · refine Ledger.leaveAll _ (Eq.subst (motive := fun E => Ledger E s.host) ?_ hs.ledger) ?_
    · ext e
      simp only [Set.mem_union, Set.mem_ofPred_eq, List.mem_filter, Function.comp_apply]
      cases s.refersTo e.1 <;> simp
    · intro e he
      obtain ⟨he, hgone⟩ := List.mem_filter.1 he
      by_contra hlease
      simp [hnamed ((hs.leased e he).1 hlease).1] at hgone
  · exact hs.numbers.sublist (List.filter_sublist.map _)
  · exact fun e he => hs.bounded e (List.mem_filter.1 he).1
  · intro n hn
    obtain ⟨c, hc⟩ := hs.held n hn
    exact ⟨c, List.mem_filter.2 ⟨hc, hnamed hn⟩⟩
  · exact fun e he => hs.leased e (List.mem_filter.1 he).1
  · exact fun e he => hs.free e (List.mem_filter.1 he).1
  · exact fun e he => (List.mem_filter.1 he).2

theorem forget (hs : Orderly ended beside s) (name : String) :
    Orderly ended beside (s.forget name) ∧ (s.forget name).Swept := by
  rw [Session.forget]
  cases hr : s.run name Client.releaseLease with
  | none =>
    have hnone : s.names.get? name = none := by
      refine Option.eq_none_iff_forall_ne_some.2 fun n hn => ?_
      obtain ⟨c, hc⟩ := hs.held n ⟨name, hn⟩
      simp [run, hn, runAt, hs.lookup_eq_some_iff.2 hc] at hr
    rw [Option.map_none, Option.getD_none, KeyMap.erase_of_not_contains (by simp [KeyMap.contains, hnone])]
    exact hs.sweep
  | some x =>
    obtain ⟨n, hn, hr⟩ := Option.bind_eq_some_iff.1 hr
    obtain ⟨c, hlookup, hx⟩ := runAt_eq hr
    refine Orderly.sweep ?_
    rw [Option.map_some, Option.getD_some, hx]
    exact hs.forgotten (mem_held_of_lookup hlookup) hn

theorem stands (hs : Orderly ended ∅ s) {o : BackendOptions} {h : Host}
    (hc : Enters (Locking (∅ ∪ {e | e ∈ s.held})) o s.host (c, h)) :
    Orderly ended {(s.opened, c)} { s with host := h } := by
  refine ⟨?_, ?_, hs.numbers, hs.bounded, hs.held, hs.apart, hs.leased, hs.free, hs.past⟩
  · have hentered := hs.ledger.enter (n := s.opened) hc
    rwa [Set.empty_union] at hentered
  · rintro _ rfl
    exact le_rfl

theorem joins (hs : Orderly ended {(s.opened, c)} s) {o : BackendOptions} {E : Set (Nat × Client)}
    {h h' : Host} (hc : Enters (Locking E) o h (c, h')) {name : String}
    (hname : s.names.get? name = none) :
    Orderly ended ∅ { s with
      held := (s.opened, c) :: s.held
      names := s.names.insert name s.opened
      opened := s.opened + 1 } := by
  have hfresh (n : Nat) (hn : s.Names n) : n ≠ s.opened := by
    obtain ⟨c', hc'⟩ := hs.held n hn
    exact (hs.bounded _ hc').ne
  have hnames (n : Nat) : (∃ name', (s.names.insert name s.opened).get? name' = some n) ↔
      n = s.opened ∨ s.Names n := by
    constructor
    · rintro ⟨name', h⟩
      rw [KeyMap.get?_insert] at h
      split at h
      · exact .inl (Option.some.inj h).symm
      · exact .inr ⟨name', h⟩
    · rintro (rfl | ⟨name', h⟩)
      · exact ⟨name, by simp⟩
      · refine ⟨name', ?_⟩
        rw [KeyMap.get?_insert, if_neg]
        · exact h
        · rintro rfl
          exact Option.some_ne_none _ (h.symm.trans hname)
  refine ⟨?_, fun e he => absurd he (Set.notMem_empty e), ?_, ?_, ?_, ?_, ?_, ?_,
    fun n hn => Nat.lt_succ_of_lt (hs.past n hn)⟩
  · refine Eq.subst (motive := fun E => Ledger E s.host) ?_ hs.ledger
    ext e
    simp
  · refine List.nodup_cons.2 ⟨fun hmem => ?_, hs.numbers⟩
    obtain ⟨e, he, hn⟩ := List.mem_map.1 hmem
    exact (hs.bounded e he).ne hn
  · intro e he
    obtain rfl | he := List.mem_cons.1 he
    · exact Nat.lt_succ_self _
    · exact Nat.lt_succ_of_lt (hs.bounded e he)
  · intro n hn
    obtain rfl | hn := (hnames n).1 hn
    · exact ⟨c, List.mem_cons_self⟩
    · obtain ⟨c', hc'⟩ := hs.held n hn
      exact ⟨c', List.mem_cons_of_mem _ hc'⟩
  · intro name₁ name₂ n h₁ h₂
    simp only [KeyMap.get?_insert] at h₁ h₂
    split at h₁ <;> split at h₂
    · exact Eq.trans (Eq.symm ‹_›) ‹_›
    · exact absurd (Option.some.inj h₁).symm (hfresh n ⟨_, h₂⟩)
    · exact absurd (Option.some.inj h₂).symm (hfresh n ⟨_, h₁⟩)
    · exact hs.apart _ _ _ h₁ h₂
  · intro e he
    obtain rfl | he := List.mem_cons.1 he
    · have hstate : c.state = .writable ↔ o.readonly = false := by
        rw [Client.state, show c.closed = false from hc.closed, show c.readonly = _ from hc.readonly]
        cases o.readonly <;> simp
      refine hc.leased.trans ⟨?_, ?_⟩
      · rintro ⟨hwriter, hwritable⟩
        exact ⟨(hnames _).2 (.inl rfl), hstate.2 hwritable, hwriter⟩
      · rintro ⟨-, hwritable, hwriter⟩
        exact ⟨hwriter, hstate.1 hwritable⟩
    · rw [hs.leased e he]
      refine and_congr_left' ⟨fun hn => (hnames _).2 (.inr hn), fun hn => ?_⟩
      exact ((hnames _).1 hn).resolve_left (hs.bounded e he).ne
  · intro e he hfree
    obtain rfl | he := List.mem_cons.1 he
    · refine hc.reads (hfree.elim (fun hended => ?_) fun h => hc.readonly.symm.trans h)
      exact absurd (hs.past _ hended) (lt_irrefl _)
    · exact hs.free e he hfree

/-! ## Events -/

variable {α κ : Type} {r : Request} {o : Except Error α} {t : Session}

theorem ran (hs : Orderly ended beside s) {x : ClientWork α}
    (hx : ∀ y, r.perform.after y = x.after y) (hrun : s.runAt n x = some (o, t)) :
    Orderly ended beside t ∧ (s.Swept → t.Swept) := by
  obtain ⟨c, hlookup, rfl⟩ := runAt_eq hrun
  rw [← hx]
  exact ⟨hs.asked (mem_held_of_lookup hlookup) r, fun h => h.put⟩

theorem ranCursor (hs : Orderly ended beside s) {k k' : κ} {x : Client.CursorWork κ α}
    (hx : ∀ y, r.perform.after y = (Client.withCursor k x).after y)
    (hrun : s.runCursor n k x = some (o, k', t)) :
    Orderly ended beside t ∧ (s.Swept → t.Swept) ∧ t.results = s.results ∧
      t.documents = s.documents := by
  obtain ⟨c, hlookup, rfl⟩ := runCursor_eq hrun
  rw [← hx]
  exact ⟨hs.asked (mem_held_of_lookup hlookup) r, fun h => h.put, rfl, rfl⟩

theorem withCursors (hs : Orderly ended beside s) (results : KeyMap (Nat × ResultCursor))
    (documents : KeyMap (Nat × DocumentCursor)) :
    Orderly ended beside { s with results, documents } :=
  ⟨hs.ledger, hs.outside, hs.numbers, hs.bounded, hs.held, hs.apart, hs.leased, hs.free, hs.past⟩

theorem openClient (hs : Orderly ended ∅ s) (hswept : s.Swept) (name : String) (catalog : Catalog)
    (backend : String) (options : BackendOptions) (settings : ClientSettings) :
    Orderly ended ∅ (s.openClient name (Client.connect catalog backend options settings)).2 ∧
      (s.openClient name (Client.connect catalog backend options settings)).2.Swept := by
  have hconnect := Client.connect_enters catalog backend options settings hs.ledger.locks
  rw [Session.openClient]
  cases hr : Client.connect catalog backend options settings s.host with
  | error f h =>
    rw [hr] at hconnect
    exact ⟨⟨hs.ledger.congr hconnect.1 hconnect.2, hs.outside, hs.numbers, hs.bounded, hs.held,
      hs.apart, hs.leased, hs.free, hs.past⟩, hswept⟩
  | ok c h =>
    rw [hr] at hconnect
    obtain ⟨hforgotten, hswept'⟩ := (hs.stands hconnect).forget name
    have hstands : Orderly ended {(({ s with host := h }.forget name).opened, c)}
        ({ s with host := h }.forget name) := by
      rw [opened_forget]
      exact hforgotten
    exact ⟨hstands.joins hconnect get?_names_forget, hswept'.joins get?_names_forget⟩

/-- **One event** keeps a session orderly. -/
theorem apply (hs : Orderly ended ∅ s) (hswept : s.Swept) (e : Event) :
    Orderly ended ∅ (s.apply e) ∧ (s.apply e).Swept := by
  cases e with
  | openClient name catalog backend options settings =>
    exact hs.openClient hswept name catalog backend options settings
  | forget name => exact hs.forget name
  | ask name r =>
    simp only [Session.apply]
    cases hr : s.run name r.perform with
    | none => exact ⟨hs, hswept⟩
    | some x =>
      obtain ⟨n, hn, hrun⟩ := Option.bind_eq_some_iff.1 hr
      obtain ⟨ht, hswept'⟩ := hs.ran (fun _ => rfl) hrun
      exact ⟨ht, hswept' hswept⟩
  | openResults name cursor q offset limit =>
    simp only [Session.apply]
    cases hr : s.openResults name cursor q offset limit with
    | none => exact ⟨hs, hswept⟩
    | some x =>
      obtain ⟨n, hn, hr⟩ := Option.bind_eq_some_iff.1 hr
      obtain ⟨⟨o, t⟩, hrun, rfl⟩ := Option.map_eq_some_iff.1 hr
      obtain ⟨ht, hswept'⟩ :=
        hs.ran (r := .question (.search q offset limit)) (Client.after_void _) hrun
      cases o with
      | error f => exact ⟨ht, hswept' hswept⟩
      | ok k => exact (ht.withCursors _ t.documents).sweep
  | openDocuments name cursor =>
    simp only [Session.apply]
    cases hr : s.openDocuments name cursor with
    | none => exact ⟨hs, hswept⟩
    | some x =>
      obtain ⟨n, hn, hr⟩ := Option.bind_eq_some_iff.1 hr
      obtain ⟨⟨o, t⟩, hrun, rfl⟩ := Option.map_eq_some_iff.1 hr
      obtain ⟨ht, hswept'⟩ := hs.ran (r := .question .iterDocuments) (Client.after_void _) hrun
      cases o with
      | error f => exact ⟨ht, hswept' hswept⟩
      | ok k => exact (ht.withCursors t.results _).sweep
  | nextHit cursor =>
    simp only [Session.apply]
    cases hr : s.nextHit cursor with
    | none => exact ⟨hs, hswept⟩
    | some x =>
      obtain ⟨⟨n, k⟩, hk, hr⟩ := Option.bind_eq_some_iff.1 hr
      obtain ⟨⟨o, k', t⟩, hrun, hx⟩ := Option.bind_eq_some_iff.1 hr
      cases hx
      obtain ⟨ht, hswept', hresults, -⟩ :=
        hs.ranCursor (r := .question (.nextHit k)) (Client.after_void _) hrun
      exact ⟨ht.withCursors _ t.documents, (hswept' hswept).moveResult (hresults ▸ hk)⟩
  | nextDocument cursor =>
    simp only [Session.apply]
    cases hr : s.nextDocument cursor with
    | none => exact ⟨hs, hswept⟩
    | some x =>
      obtain ⟨⟨n, k⟩, hk, hr⟩ := Option.bind_eq_some_iff.1 hr
      obtain ⟨⟨o, k', t⟩, hrun, hx⟩ := Option.bind_eq_some_iff.1 hr
      cases hx
      obtain ⟨ht, hswept', -, hdocuments⟩ :=
        hs.ranCursor (r := .question (.nextDocument k)) (Client.after_void _) hrun
      exact ⟨ht.withCursors t.results _, (hswept' hswept).moveDocument (hdocuments ▸ hk)⟩
  | server change =>
    exact ⟨⟨hs.ledger.congr rfl hs.ledger.locks, hs.outside, hs.numbers, hs.bounded, hs.held, hs.apart,
      hs.leased, hs.free, hs.past⟩, hswept⟩

/-- **Every run** keeps a session orderly. -/
theorem after (hs : Orderly ended ∅ s) (hswept : s.Swept) (es : List Event) :
    Orderly ended ∅ (s.after es) ∧ (s.after es).Swept := by
  induction es generalizing s with
  | nil => exact ⟨hs, hswept⟩
  | cons e es ih =>
    obtain ⟨hs', hswept'⟩ := hs.apply hswept e
    exact ih hs' hswept'

theorem ends (hs : Orderly ended ∅ s) (hc : (n, c) ∈ s.held) (hlock : c.driver.lock? = none) :
    Orderly (insert n ended) ∅ s := by
  refine ⟨hs.ledger, hs.outside, hs.numbers, hs.bounded, hs.held, hs.apart, hs.leased,
    fun e he hfree => ?_, ?_⟩
  · obtain (hn | hended) | hreadonly := hfree
    · rwa [hs.eq_of_number he hc hn]
    · exact hs.free e he (.inl hended)
    · exact hs.free e he (.inr hreadonly)
  · rintro m (rfl | hm)
    · exact hs.bounded _ hc
    · exact hs.past m hm

end Orderly

/-- On a host where nothing is leased or locked, a session begins orderly. -/
theorem orderly_new {h : Host} (hleases : h.leases = ∅) (hlocks : ∀ k mark, ¬ h.volume.Locked k mark) :
    Orderly ∅ ∅ (new h) ∧ (new h).Swept := by
  refine ⟨⟨⟨fun key => ?_, ?_, fun k mark hk => absurd hk (hlocks k mark)⟩, ?_, .nil, ?_, ?_, ?_, ?_,
    ?_, ?_⟩, ?_⟩
  · change h.leases.contains key = true ↔ _
    simp [hleases, new]
  all_goals simp [new, Names, Swept]

end Searchlight.Session
