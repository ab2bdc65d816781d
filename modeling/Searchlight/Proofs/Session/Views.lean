import Searchlight.Proofs.Client.Views
import Searchlight.Proofs.Session.Algebra

/-!
# Views of the documents in every session

In every run of a session, what clients are told of the documents of a store agrees: the count, what
is answered for single ids, and the listing. There are two exceptions on disk. A client that has the
store open for reading counts and loads documents as of the last time when it listed or searched, so
that the views differ if other documents were committed since. And documents under ids that are too
long are counted, but not given (`views_agree_iff`).
-/

namespace Searchlight.Session

open SetStore (Server)

variable {s : Session} {es : List Event} {c : Client} {n count : Nat} {ds : List StoredDocument}

/-- What others do to the key server, stores of their prefixes could have done. -/
def KeepOnFile (es : List Event) : Prop :=
  ∀ change, .server change ∈ es → ∀ v : Server, v.OnFile → (change v).OnFile

/-- In every run, what stores have on the key server is on file. -/
theorem onFile_after (analyze : Disk.Analyzer) (directories : List String) (reachable : Bool)
    (idStem : String) (hes : KeepOnFile es) :
    Holds (fun _ c => c.driver.HasValidStem) Host.OnFile
      ((new (.initial analyze directories (.fresh reachable) idStem)).after es) := by
  have hfresh : (Host.initial analyze directories (.fresh reachable) idStem).OnFile :=
    Server.onFile_fresh reachable
  exact holds_after Driver.onFile_invariant hfresh fun change he h hh => hes change he h.server hh

/-- **Views of the documents agree in every session**, unless a store on disk shows other documents
than it gives: it was open for reading while others were committed, or an id is too long. To count
and to ask for documents changes nothing. -/
theorem views_agree_iff (analyze : Disk.Analyzer) (directories : List String) (reachable : Bool)
    (idStem : String) (es : List Event) (hes : KeepOnFile es)
    (hs : s = (new (.initial analyze directories (.fresh reachable) idStem)).after es)
    (hc : (n, c) ∈ s.held) (hopen : c.closed = false)
    (hcount : Client.documentCount.outcome (c, s.host) = .ok count)
    (hall : Client.allDocuments.outcome (c, s.host) = .ok ds) :
    Client.AsksOnly (c, s.host) ∧
      (Client.ViewsAgree (c, s.host) count ds ↔ ¬c.driver.Differs s.host) := by
  have hsound : Holds (fun _ c => c.driver.Sound) Host.Sound s :=
    hs ▸ sound_after analyze directories (.fresh reachable) idStem es
  have hfile : Holds (fun _ c => c.driver.HasValidStem) Host.OnFile s :=
    hs ▸ onFile_after analyze directories reachable idStem hes
  exact Client.viewsAgree_iff (hsound.1 _ hc) (hfile.1 _ hc) hsound.2 hfile.2 hopen hcount hall

def lateDeletion : List Event :=
  [.openClient "writer" .builtin "tantivy" { BackendOptions.none with path := some "d" } .default,
    .ask "writer" (.write (.under "1" .upsert) ⟨[("title", .text "red boat")]⟩),
    .ask "writer" (.question .commit),
    .openClient "reader" .builtin "tantivy"
      { BackendOptions.none with path := some "d", readonly := true } .default,
    .ask "writer" (.question (.delete "1")),
    .ask "writer" (.question .commit)]

/-- The reader counts one document and then lists none: its views do not agree. -/
theorem views_agree_iff_lateDeletion :
    ∃ c, (1, c) ∈ (oneDirectory.after lateDeletion).held ∧
      Client.documentCount.outcome (c, (oneDirectory.after lateDeletion).host) = .ok 1 ∧
      Client.allDocuments.outcome (c, (oneDirectory.after lateDeletion).host) = .ok [] ∧
      ¬Client.ViewsAgree (c, (oneDirectory.after lateDeletion).host) 1 [] ∧
      c.driver.Differs (oneDirectory.after lateDeletion).host := by
  have hheld : (oneDirectory.after lateDeletion).held.map (fun e => (e.1, e.2.closed,
      decide (Client.documentCount.outcome (e.2, (oneDirectory.after lateDeletion).host) = .ok 1),
      ((Client.allDocuments.outcome
        (e.2, (oneDirectory.after lateDeletion).host)).map List.length).toOption)) =
      [(1, false, true, some 0), (0, false, false, some 0)] := by
    decide +kernel
  obtain ⟨⟨n, c⟩, hc, he⟩ := List.mem_map.1 (hheld ▸ List.mem_cons_self)
  simp only [Prod.mk.injEq, decide_eq_true_eq] at he
  obtain ⟨rfl, hopen, hcount, hlength⟩ := he
  have hall : Client.allDocuments.outcome (c, (oneDirectory.after lateDeletion).host) = .ok [] := by
    cases hds : Client.allDocuments.outcome (c, (oneDirectory.after lateDeletion).host) with
    | error e =>
      rw [hds] at hlength
      cases hlength
    | ok ds =>
      rw [hds] at hlength
      rw [List.length_eq_zero_iff.1 (Option.some.inj hlength)]
  have hdiffer : ¬Client.ViewsAgree (c, (oneDirectory.after lateDeletion).host) 1 [] := by
    intro hviews
    have hcounted := hviews.count
    cases hdriver : c.driver <;> simp [hdriver, Driver.counted] at hcounted
  obtain ⟨-, hviews⟩ := views_agree_iff Text.stems ["d"] true "" lateDeletion
    (by simp [KeepOnFile, lateDeletion]) rfl hc hopen hcount hall
  exact ⟨c, hc, hcount, hall, hdiffer, not_not.1 (mt hviews.2 hdiffer)⟩

end Searchlight.Session
