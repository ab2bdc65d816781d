import Searchlight.Proofs.Client.Adding
import Searchlight.Proofs.Driver.Algebra
import Searchlight.Proofs.SetStore.Order
import Searchlight.Proofs.Session.Translation

/-!
# Adding in every session

On a key server, ids come from a counter and from callers, and the counter knows nothing of what
callers choose. So a document that is added takes the place of another one exactly when the next
number of the counter is an id that is stored (`add_takes_next`). Other documents stay as they are
either way, and queries find them as before.
-/

namespace Searchlight.Session

open SetStore (Server)

variable {s : Session} {es : List Event} {c c' : Client} {h' : Host} {n : Nat}
  {store : SetStore.Store} {doc : Document} {id : String}

/-- What others do to the key server leaves it in order. -/
def KeepOrder (es : List Event) : Prop :=
  ∀ change, .server change ∈ es → ∀ v : Server, v.Orderly → (change v).Orderly

/-- In every run, the key server is in order. -/
theorem orderly_after (analyze : Disk.Analyzer) (directories : List String) (reachable : Bool)
    (idStem : String) (hes : KeepOrder es) :
    Holds (fun _ c => c.driver.HasValidStem) Host.Orderly
      ((new (.initial analyze directories (.fresh reachable) idStem)).after es) := by
  have hfresh : (Host.initial analyze directories (.fresh reachable) idStem).Orderly :=
    Server.orderly_fresh reachable
  exact holds_after Driver.orderly_invariant hfresh fun change he h hh => hes change he h.server hh

/-- **To add to a store on a key server** gives the next number of the counter as the id. The count
grows by one unless the number is the id of a stored document, whose place the new document then
takes. All other ids keep their fields, and every query that has a translation keeps it and finds
the other ids as before. -/
theorem add_takes_next (analyze : Disk.Analyzer) (directories : List String)
    (reachable : Bool) (idStem : String) (es : List Event) (hes : KeepOrder es)
    (hs : s = (new (.initial analyze directories (.fresh reachable) idStem)).after es)
    (hc : (n, c) ∈ s.held) (hstore : c.driver = .sets store)
    (hadd : Client.add doc (c, s.host) = .ok id (c', h')) :
    (∃ m, s.host.server.nextNumber? store.keys = some m ∧ id = toString m) ∧
      ∃ (stored : Bool) (count : Nat),
        (Client.documentExists id).outcome (c, s.host) = .ok stored ∧
        Client.documentCount.outcome (c, s.host) = .ok (count % UInt64.size) ∧
        Client.documentCount.outcome (c', h') =
          .ok ((count + if stored then 0 else 1) % UInt64.size) ∧
        (∀ i, i ≠ id →
          (Client.getDocument i).outcome (c', h') = (Client.getDocument i).outcome (c, s.host)) ∧
        ∀ q m, c.driver.translate q = .ok m →
          c'.driver.translate q = .ok m ∧
            ∀ i, i ≠ id → (i ∈ c'.driver.matched h' m ↔ i ∈ c.driver.matched s.host m) := by
  have horderly : Holds (fun _ c => c.driver.HasValidStem) Host.Orderly s :=
    hs ▸ orderly_after analyze directories reachable idStem hes
  have hkept : c.Kept :=
    ((explained_after (.initial analyze directories (.fresh reachable) idStem) es).1 (n, c)
      (hs ▸ hc)).kept
  have hk : SetStore.KeySpace.IsValidStem store.keys.stem := by
    have hstem : c.driver.HasValidStem := horderly.1 _ hc
    rwa [hstore] at hstem
  have hv : s.host.server.InOrder store.keys := horderly.2 store.keys hk
  obtain ⟨hopen, hopen', hserves, hnumber, hstores, fields, hdriver, hnew⟩ :=
    Client.add_eq_ok hstore hk hv hadd
  have hserves' : { store with schema := store.schema.insertAll fields }.Serves h'.server :=
    hserves.congr hstores.answering
  refine ⟨hnumber, (s.host.server.sets store.keys.docs).contains id,
    (s.host.server.sets store.keys.docs).size, ?_, ?_, ?_, fun i hi => ?_, fun q m hq => ?_⟩
  · exact Client.outcome_documentExists hopen hstore hserves hv id
  · exact Client.outcome_documentCount hopen hstore hserves hv
  · rw [Client.outcome_documentCount hopen' hdriver hserves' hstores.inOrder, hstores.docs,
      TextSet.add, KeyMap.size_insert]
  · exact Client.outcome_getDocument_congr hopen hstore hserves hopen' hdriver rfl hserves'
      (congrArg SetStore.Trace.data (hstores.trace i hi))
  · have hschema : c.registry.schema = store.schema := by
      have := hkept.known hopen (by rw [hstore]; rfl)
      rwa [hstore] at this
    rw [hschema] at hnew
    rw [hstore, Driver.translate, Except.map_eq_ok] at hq
    obtain ⟨p, hp, rfl⟩ := hq
    obtain ⟨hsupported, hfold⟩ := Query.translate_eq_ok_iff.1 hp
    have hfold' := (SetStore.translator_preserves store.keys
      (Schema.within_insertAll hnew)).fold hfold
    refine ⟨?_, fun i hi => ?_⟩
    · rw [hdriver, Driver.translate, Except.map_eq_ok]
      exact ⟨p, Query.translate_eq_ok_iff.2 ⟨hsupported, hfold'⟩, rfl⟩
    · rw [hdriver, hstore]
      exact hstores.matched (Query.fold_hereditary
        (SetStore.translator_over store.keys store.schema) hfold) hi

/-- A client that puts a document under an id of its choice, which is the first number of the
counter. -/
def chosenNumber : List Event :=
  [.openClient "boats" .builtin "redis" .none .default,
    .ask "boats" (.write (.under "1" .upsert) ⟨[("title", .text "red boat")]⟩)]

/-- The document that is added next takes its place: there are no more documents than before. -/
theorem add_takes_next_chosenNumber :
    ∃ c c' h', (0, c) ∈ (oneDirectory.after chosenNumber).held ∧
      Client.add ⟨[("title", .text "blue boat")]⟩ (c, (oneDirectory.after chosenNumber).host) =
        .ok "1" (c', h') ∧
      (Client.documentExists "1").outcome (c, (oneDirectory.after chosenNumber).host) = .ok true ∧
      Client.documentCount.outcome (c', h') =
        Client.documentCount.outcome (c, (oneDirectory.after chosenNumber).host) := by
  have hheld : (oneDirectory.after chosenNumber).held.map (fun e => (e.1, e.2.driver.name,
      decide ((Client.add ⟨[("title", .text "blue boat")]⟩).outcome
        (e.2, (oneDirectory.after chosenNumber).host) = .ok "1"),
      decide ((Client.documentExists "1").outcome
        (e.2, (oneDirectory.after chosenNumber).host) = .ok true))) =
      [(0, "redis", true, true)] := by
    decide +kernel
  obtain ⟨⟨n, c⟩, hc, he⟩ := List.mem_map.1 (hheld ▸ List.mem_singleton_self _)
  simp only [Prod.mk.injEq, decide_eq_true_eq] at he
  obtain ⟨rfl, hname, hok, hexists⟩ := he
  obtain ⟨⟨c', h'⟩, hadd⟩ := Action.outcome_eq_ok.1 hok
  obtain ⟨store, hstore⟩ : ∃ store, c.driver = .sets store := by
    cases hd : c.driver with
    | sets store => exact ⟨store, rfl⟩
    | memory s => simp [hd, Driver.name, Memory.backendName] at hname
    | limited key s => simp [hd, Driver.name, Memory.Limited.backendName] at hname
    | disk s => simp [hd, Driver.name, Disk.backendName] at hname
  obtain ⟨-, stored, count, hstored, hbefore, hafter, -⟩ :=
    add_takes_next Text.stems ["d"] true "" chosenNumber (by simp [KeepOrder, chosenNumber]) rfl hc
      hstore hadd
  cases hstored.symm.trans hexists
  exact ⟨c, c', h', hc, hadd, hexists, hafter.trans hbefore.symm⟩

end Searchlight.Session
