import Searchlight.Proofs.Client.Complete
import Searchlight.Proofs.Session.Views

/-!
# Listings in every session

In every run of a session, a client of a store either cannot list its documents at all or is given
all of them, each once and in the order of the store (`listing_complete`).
-/

namespace Searchlight.Session

open Client (remainingDocuments)

variable {s : Session} {es : List Event} {c : Client} {n : Nat}

/-- In every run, documents in memory are in the order of their arrival. -/
theorem arrived_after (h : Host) (es : List Event) :
    Holds (fun _ c => c.driver.HasArrived) (fun _ => True) ((new h).after es) :=
  holds_after Driver.arrived_invariant trivial fun _ _ _ _ => trivial

/-- **Listings are complete in every session.** Unless its first page fails, and the cursor with it,
a cursor on the documents of an open client gives what the client is given under the ids of one list,
or fails with a page that may not be asked for, whatever its page size is. The list has the ids of all
documents that are there, in the order of their arrival in memory and in ascending order elsewhere;
each that is a key is in it once, and the cursor gives these. All windows are windows of that list. To
list changes nothing, except that a store on disk that is open for reading looks at the index first. -/
theorem listing_complete (analyze : Disk.Analyzer) (directories : List String) (reachable : Bool)
    (idStem : String) (es : List Event) (hes : KeepOnFile es)
    (hs : s = (new (.initial analyze directories (.fresh reachable) idStem)).after es)
    (hc : (n, c) ∈ s.held) (hopen : c.closed = false) :
    Client.allDocuments.outcome (c, s.host) =
        remainingDocuments.outcome (.new c.pageSize, c, s.host) ∧
      ((∀ pageSize, ∃ e, (Driver.ids 0 (max pageSize 1)).outcome (c.driver, s.host) = .error e ∧
          remainingDocuments.outcome (.new pageSize, c, s.host) = .error e) ∨
        ∃ listed y, Client.Lists listed (c, s.host) y ∧ c.driver.ListsInOrder listed ∧
          ((∀ t, c.driver = .disk t → t.readonly = false) → y = (c, s.host))) := by
  have hsound : Holds (fun _ c => c.driver.Sound) Host.Sound s :=
    hs ▸ sound_after analyze directories (.fresh reachable) idStem es
  have hfile : Holds (fun _ c => c.driver.HasValidStem) Host.OnFile s :=
    hs ▸ onFile_after analyze directories reachable idStem hes
  have harrived : Holds (fun _ c => c.driver.HasArrived) (fun _ => True) s :=
    hs ▸ arrived_after _ es
  exact ⟨Client.outcome_allDocuments_eq hopen, Client.lists_or_fails (hsound.1 _ hc)
    (hfile.1 _ hc) (harrived.1 _ hc) hsound.2 hfile.2 hopen⟩

def moored : List Event :=
  [.openClient "boats" .builtin "redis" .none .default,
    .ask "boats" (.write (.under "b" .upsert) ⟨[("title", .text "red boat")]⟩),
    .ask "boats" (.write (.under "a" .upsert) ⟨[("title", .text "blue boat")]⟩)]

/-- Pages of every size that the server takes give them in ascending order. -/
theorem listing_complete_moored :
    ∃ c, (0, c) ∈ (oneDirectory.after moored).held ∧
      ∀ pageSize < SetStore.Server.numberBound, (remainingDocuments.outcome
        (.new pageSize, c, (oneDirectory.after moored).host)).map (List.map (·.id)) =
          .ok ["a", "b"] := by
  have hheld : (oneDirectory.after moored).held.map (fun e => (e.1, e.2.closed, e.2.driver.name,
      decide ((remainingDocuments.outcome
        (.new 0, e.2, (oneDirectory.after moored).host)).map (List.map (·.id)) =
          .ok ["a", "b"]))) = [(0, false, "redis", true)] := by
    decide +kernel
  obtain ⟨⟨n, c⟩, hc, he⟩ := List.mem_map.1 (hheld ▸ List.mem_singleton_self _)
  simp only [Prod.mk.injEq, decide_eq_true_eq] at he
  obtain ⟨rfl, hopen, hname, hids⟩ := he
  obtain ⟨t, hdriver⟩ : ∃ t, c.driver = .sets t := by
    cases hdriver : c.driver with
    | sets t => exact ⟨t, rfl⟩
    | _ => simp [hdriver, Driver.name, Memory.backendName, Memory.Limited.backendName,
        Disk.backendName] at hname
  obtain ⟨ds, hds, hmap⟩ := Except.map_eq_ok.1 hids
  obtain ⟨-, hfails | ⟨listed, y, hlists, -⟩⟩ :=
    listing_complete (s := oneDirectory.after moored) Text.stems ["d"] true "" moored
      (by simp [KeepOnFile, moored]) rfl hc hopen
  · obtain ⟨e, -, he⟩ := hfails 0
    cases he.symm.trans hds
  have hlisted : listed = ["a", "b"] := by
    rw [← hmap, hlists.once 0 ds hds, hdriver]
    exact (List.filter_eq_self.2 fun _ _ => rfl).symm
  refine ⟨c, hc, fun pageSize hsize => ?_⟩
  obtain hall | ⟨offset, hoffset, hrefused, -⟩ := hlists.documents pageSize
  · obtain hall₀ | ⟨-, -, -, e, hfails⟩ := hlists.documents 0
    · rw [hall, ← hall₀]
      exact hids
    · cases hfails.symm.trans hds
  · -- The server takes all pages of this size that start within the list.
    rw [hdriver, Driver.takes, SetStore.takes, Bool.or_eq_false_iff, decide_eq_false_iff_not]
      at hrefused
    rw [hlisted] at hoffset
    have hbound : 2 < SetStore.Server.numberBound := by decide
    dsimp only [List.length_cons, List.length_nil] at hoffset
    omega

end Searchlight.Session
