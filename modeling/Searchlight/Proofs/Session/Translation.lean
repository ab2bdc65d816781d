import Mathlib.Data.List.Induction
import Searchlight.Proofs.Client.Slips
import Searchlight.Proofs.Session.Run

/-!
# Remembered translations in every session

In every run of a session, a client remembers no more translations than it may, and one of them is
wrong only if the client slipped while the registry was in the generation that it is still in
(`Slipped`).
-/

namespace Searchlight.Session

open Client (Request Question)

variable {s : Session} {es : List Event} {e : Event} {n generation : Nat} {c c' : Client}

/-- The client of a number slipped in a run while its registry was in the generation. -/
def Slipped (s : Session) (es : List Event) (n generation : Nat) : Prop :=
  ∃ es₁ e es₂ r c, es = es₁ ++ e :: es₂ ∧ (n, c) ∈ (s.after es₁).held ∧
    c.registry.generation = generation ∧ Asks (s.after es₁) e n r ∧ c.Slips (s.after es₁).host r

theorem Slipped.later (h : Slipped s es n generation) : Slipped s (es ++ [e]) n generation := by
  obtain ⟨es₁, e₁, es₂, r, c, rfl, h⟩ := h
  exact ⟨es₁, e₁, es₂ ++ [e], r, c, by simp, h⟩

/-- What a run tells of a client: if something that it remembers is wrong, it slipped. -/
structure Explained (s : Session) (es : List Event) (n : Nat) (c : Client) : Prop where
  kept : c.Kept
  cache : c.closed = false → c.Fresh ∨
    c.driver.diskReadonly? ≠ none ∧ Slipped s es n c.registry.generation

theorem Explained.later (h : Explained s es n c) : Explained s (es ++ [e]) n c :=
  ⟨h.kept, fun hopen => (h.cache hopen).imp id fun h => ⟨h.1, h.2.later⟩⟩

/-- A client that goes on is explained by the run so far, and by a slip that the last event made. -/
theorem Explained.proceeds {P : Prop} (h : Explained s es n c) (hc : c.Proceeds P c')
    (hP : P → c.driver.diskReadonly? ≠ none ∧ Slipped s (es ++ [e]) n c.registry.generation) :
    Explained s (es ++ [e]) n c' where
  kept := hc.kept
  cache hopen := by
    rw [hc.disk hopen]
    rcases hc.cache hopen with ⟨-, hfresh⟩ | ⟨hgeneration, hcache⟩
    · exact .inl hfresh
    rw [hgeneration]
    rcases hcache with hfresh | hslip
    · exact (h.cache (hc.wasOpen hopen)).imp hfresh fun h => ⟨h.1, h.2.later⟩
    · exact .inr (hP hslip)

theorem explained_carries (s : Session) (es : List Event) (e : Event) :
    Carries (Explained s es) (Explained s (es ++ [e])) (fun _ => True) (s.after es) e where
  stay _ _ h := h.later
  ask n r c hr hlookup h _ := by
    refine ⟨h.proceeds (Client.proceeds_perform h.kept r) fun hslip => ?_, trivial⟩
    exact ⟨hslip.diskReadonly?, es, e, [], r, c, rfl, mem_held_of_lookup hlookup, rfl, hr, hslip⟩
  release _ _ _ h _ := ⟨h.proceeds (Client.proceeds_releaseLease h.kept) False.elim, trivial⟩
  connect _ catalog backend options settings :=
    (Client.connected catalog backend options settings).mono fun _ h => ⟨h.1, fun _ => .inl h.2⟩
  drop _ _ _ _ _ := trivial
  server _ _ _ _ := trivial

/-- In every run, what is wrong is explained by the run. -/
theorem explained_after (host : Host) (es : List Event) :
    Holds (Explained (new host) es) (fun _ => True) ((new host).after es) := by
  -- From the end, since a slip is about the run before it.
  induction es using List.reverseRecOn with
  | nil => exact holds_new trivial
  | append_singleton es e ih =>
    rw [after_append]
    exact ih.apply (explained_carries (new host) es e)

/-- **Remembered translations.** In every run, an open client gives the translation that its driver
would give, unless it remembers another one from before a slip in the generation of its registry;
and it remembers no more translations than it may. -/
theorem translate_ne_iff (host : Host) (es : List Event)
    (hc : (n, c) ∈ ((new host).after es).held) :
    c.cache.entries.length ≤ QueryCache.maxEntries ∧
      (c.closed = false → ∀ q h,
        (Client.translate q).outcome (c, h) ≠ c.driver.translate q ↔
          c.driver.diskReadonly? ≠ none ∧ Slipped (new host) es n c.registry.generation ∧
            ∃ m, c.Remembers q m ∧ c.driver.translate q ≠ .ok m) := by
  have hex := (explained_after host es).1 _ hc
  refine ⟨hex.kept.fits.size, fun hopen q h => ?_⟩
  rw [Client.outcome_translate_ne_iff hopen]
  constructor
  · rintro ⟨m, hr, hne⟩
    rcases hex.cache hopen with hfresh | ⟨hdisk, hslipped⟩
    · exact absurd (hfresh q m hr) hne
    · exact ⟨hdisk, hslipped, m, hr, hne⟩
  · rintro ⟨-, -, h⟩
    exact h

/-- A client that is open for reading asks for a text before another client commits the first
document, and lists all documents afterwards. -/
def lateReading : List Event :=
  [.openClient "writer" .builtin "tantivy" { BackendOptions.none with path := some "d" } .default,
    .openClient "reader" .builtin "tantivy"
      { BackendOptions.none with path := some "d", readonly := true } .default,
    .ask "reader" (.question (.translate (.term "boat"))),
    .ask "writer" (.write .fresh ⟨[("title", .text "boat")]⟩),
    .ask "writer" (.question .commit),
    .ask "reader" (.question .allDocuments)]

/-- The client slips as it lists the documents: it still gives the translation from before there was
a field to ask. -/
theorem translate_ne_iff_lateReading :
    ∃ c, (1, c) ∈ (oneDirectory.after lateReading).held ∧ c.closed = false ∧
      (Client.translate (.term "boat")).outcome (c, (oneDirectory.after lateReading).host) ≠
        c.driver.translate (.term "boat") ∧
      Slipped oneDirectory lateReading 1 c.registry.generation := by
  have hheld : (oneDirectory.after lateReading).held.map (fun e => (e.1, e.2.closed,
      decide (((Client.translate (.term "boat")).outcome
          (e.2, (oneDirectory.after lateReading).host)).toOption.map NativeQuery.rendering =
        (e.2.driver.translate (.term "boat")).toOption.map NativeQuery.rendering))) =
      [(1, false, false), (0, false, true)] := by
    decide +kernel
  obtain ⟨⟨n, c⟩, hc, he⟩ := List.mem_map.1 (hheld ▸ List.mem_cons_self)
  simp only [Prod.mk.injEq, decide_eq_false_iff_not] at he
  obtain ⟨rfl, hopen, hother⟩ := he
  have hne : (Client.translate (.term "boat")).outcome (c, (oneDirectory.after lateReading).host) ≠
      c.driver.translate (.term "boat") := fun h => hother (by rw [h])
  obtain ⟨-, hslipped, -⟩ := ((translate_ne_iff _ lateReading hc).2 hopen _ _).1 hne
  exact ⟨c, hc, hopen, hne, hslipped⟩

end Searchlight.Session
