import Mathlib.Data.List.Induction
import Searchlight.Proofs.Client.Reopening
import Searchlight.Proofs.Session.Run

/-!
# Reopening directories in every session

In every run of a session, the schema in a directory is out of date exactly if a request made it so
and nobody has touched the schema and the index since (`outOfDate_iff`). There is one such request
that an engine does that keeps the schema of each index: a writer that could not be had leaves an
index behind, and the document that comes next brings another field along.
-/

namespace Searchlight.Session

open Client (Request)
open Disk (Volume)

variable {s : Session} {es : List Event} {e : Event} {directory : String}

/-- A client is asked for something by which a schema may get out of date. -/
def Spoils (s : Session) (directory : String) (e : Event) : Prop :=
  ∃ name r c, e = .ask name r ∧ s.client? name = some c ∧ c.Spoils s.host directory r

/-- Everything else that may happen makes no schema out of date. -/
theorem stays_apply (hs : Holds (fun _ c => c.driver.Prepared) (fun _ => True) s)
    (he : ¬ s.Spoils directory e) :
    Volume.Stays directory s.host.volume (s.apply e).host.volume := by
  have hopening : Driver.Opening Driver.Prepared fun h =>
      Volume.Stays directory s.host.volume h.volume :=
    Driver.prepared_opening Disk.Store.stays_of_alike fun o =>
      Disk.Store.keeps_openWith_on Disk.Store.stays_of_alike
        (fun _ => Volume.keeps_createDirectory_stays) o
  have hcarries : Carries (fun _ c => c.driver.Prepared) (fun _ c => c.driver.Prepared)
      (fun h => Volume.Stays directory s.host.volume h.volume) s e := {
    stay := fun _ _ h => h
    ask := fun n r c hasks hlookup hc _ => by
      refine ⟨((Driver.prepared_invariant.keeps_perform r).after (s := (c, s.host))
        ⟨hc, trivial⟩).1, Client.stays_perform hc fun hspoils => ?_⟩
      cases hasks with
      | ask hn =>
        exact he ⟨_, r, c, rfl, by rw [client?, hn, Option.bind_some, hlookup], hspoils⟩
      | openResults _ => cases hspoils; simp_all
      | openDocuments _ => cases hspoils; simp_all
      | nextHit _ => cases hspoils; simp_all
      | nextDocument _ => cases hspoils; simp_all
    release := fun _ c h hc hh =>
      hopening.aside.keeps_releaseLease.after (s := (c, h)) ⟨hc, hh⟩
    connect := fun _ catalog backend options settings =>
      hopening.keeps_connect catalog backend options settings
    drop := fun _ _ _ hc hh => holds_dropDriver hopening hc hh
    server := fun _ _ _ hh => hh }
  exact (Holds.apply ⟨hs.1, .refl directory s.host.volume⟩ hcarries).2

/-- In every run, a store that is open can make its index. -/
theorem prepared_after (host : Host) (es : List Event) :
    Holds (fun _ c => c.driver.Prepared) (fun _ => True) ((new host).after es) :=
  holds_after Driver.prepared_invariant trivial fun _ _ _ _ => trivial

/-- **Reopening.** After every run, a schema is out of date exactly if a request of the run made it
so and the schema and the index are as it left them; and no store, for writing or for reading, fails
to open for a field that the index lacks unless the schema in its directory is out of date. -/
theorem outOfDate_iff (host : Host) (hhost : ∀ directory, ¬ host.volume.OutOfDate directory)
    (es : List Event) (hs : s = (new host).after es) :
    (∀ directory, s.host.volume.OutOfDate directory ↔
      ∃ es₁ e es₂, es = es₁ ++ e :: es₂ ∧ ((new host).after es₁).Spoils directory e ∧
        ((new host).after (es₁ ++ [e])).host.volume.OutOfDate directory ∧
        Volume.SameStore directory ((new host).after (es₁ ++ [e])).host.volume s.host.volume) ∧
      ∀ catalog backend options settings name h',
        catalog.backends.get? backend = some .disk →
        Client.connect catalog backend options settings s.host =
            .error (Disk.missingField name) h' →
          ∃ path here, options.path = some path ∧ h'.volume.files.Leads path here ∧
            s.host.volume.OutOfDate (FileTree.join here) := by
  subst hs
  refine ⟨fun directory => ⟨?_, ?_⟩, fun _ _ _ _ _ _ => Client.connect_eq_error⟩
  · induction es using List.reverseRecOn with
    | nil => exact fun h => absurd h (hhost directory)
    | append_singleton es e ih =>
      have hstep : (new host).after (es ++ [e]) = ((new host).after es).apply e :=
        after_append (new host) es [e]
      intro hout
      by_cases hspoils : ((new host).after es).Spoils directory e
      · exact ⟨es, e, [], rfl, hspoils, hout, .refl _ _⟩
      · rcases stays_apply (prepared_after host es) hspoils with hsame | hnot
        · rw [← hstep] at hsame
          obtain ⟨es₁, e₁, es₂, hes, hspoils₁, hout₁, hsame₁⟩ := ih (hsame.outOfDate_congr.1 hout)
          exact ⟨es₁, e₁, es₂ ++ [e], by simp [hes], hspoils₁, hout₁, hsame₁.trans hsame⟩
        · exact absurd (hstep ▸ hout) hnot
  · rintro ⟨es₁, e, es₂, -, -, hout, hsame⟩
    exact hsame.outOfDate_congr.2 hout

/-- A client whose writer cannot be had adds two documents that bring a field each, and is
closed. -/
def secondField : List Event :=
  [.openClient "boats" .builtin "tantivy"
      { BackendOptions.none with path := some "d", writerMemoryBytes := some 1000000 } .default,
    .ask "boats" (.write .fresh ⟨[("title", .text "red boat")]⟩),
    .ask "boats" (.write .fresh ⟨[("color", .text "red")]⟩),
    .ask "boats" .close]

/-- The second document makes the schema out of date: the directory cannot be opened again. -/
theorem outOfDate_iff_secondField :
    (∃ es₁ e es₂, secondField = es₁ ++ e :: es₂ ∧ (oneDirectory.after es₁).Spoils "d" e) ∧
      ∃ h', Client.connect .builtin "tantivy" { BackendOptions.none with path := some "d" } .default
        (oneDirectory.after secondField).host = .error (Disk.missingField "color") h' := by
  have hleft : (oneDirectory.after secondField).host.volume.layoutAt? "d" =
        some [("title", .tokens)] ∧
      (oneDirectory.after secondField).host.volume.schemaTextAt? "d" =
        some (Schema.ofList [("color", .freeText), ("title", .freeText)]).toJsonText ∧
      ((Client.connect .builtin "tantivy" { BackendOptions.none with path := some "d" }
        .default).outcome (oneDirectory.after secondField).host).map (fun _ => ()) =
          .error (Disk.missingField "color") := by
    decide +kernel
  obtain ⟨hlayout, htext, hfails⟩ := hleft
  have hlacks : ¬ Disk.Layout.Covers [("title", .tokens)]
      (Schema.ofList [("color", .freeText), ("title", .freeText)]) := by
    rw [Disk.Layout.Covers]
    decide
  obtain ⟨h', hconnect⟩ := Action.outcome_eq_error.1 (Except.map_eq_error.1 hfails)
  have hout : (oneDirectory.after secondField).host.volume.OutOfDate "d" :=
    ⟨_, _, _, hlayout, htext, Schema.ofJsonText_toJsonText _, hlacks⟩
  obtain ⟨es₁, e, es₂, hes, hspoils, -⟩ :=
    ((outOfDate_iff _ (Volume.not_outOfDate_ofDirectories ["d"] 0) secondField rfl).1 "d").1 hout
  exact ⟨⟨es₁, e, es₂, hes, hspoils⟩, h', hconnect⟩

end Searchlight.Session
