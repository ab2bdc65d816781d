import Searchlight.Proofs.Client.Requests
import Searchlight.Proofs.Client.Writing
import Searchlight.Proofs.Driver.Following

/-!
# Remembered translations

A client remembers native queries until its registry changes, but what a query means depends on the
fields of its driver. So what is remembered is right (`Fresh`) as long as the fields of the driver
do not change behind the back of the registry. There are two ways in which they may (`Slips`): a
write is refused late, or a store that is open for reading picks up an index.

`Used` tells what any question leaves of a client, `perform_step` what any request leaves.
-/

namespace Searchlight

open Searchlight.Action (Keeps)

namespace QueryCache

variable {c : QueryCache} {q q' : Query} {m n : NativeQuery} {generation : Nat}

/-- The cache holds no more than it may, and is not for a generation to come. -/
structure Fits (c : QueryCache) (generation : Nat) : Prop where
  size : c.entries.length ≤ maxEntries
  past : c.generation ≤ generation

theorem Fits.forGeneration (h : c.Fits generation) :
    (c.forGeneration generation).Fits generation ∧
      (c.forGeneration generation).generation = generation := by
  rw [QueryCache.forGeneration]
  split
  · rename_i hc
    exact ⟨h, hc⟩
  · exact ⟨⟨Nat.zero_le _, Nat.le_refl _⟩, rfl⟩

theorem Fits.insert (h : c.Fits generation) (q : Query) (n : NativeQuery) :
    (c.insert q n).Fits generation := by
  refine ⟨?_, h.past⟩
  simp only [QueryCache.insert, List.length_cons]
  split
  · simp [maxEntries]
  · omega

theorem get?_insert (h : (c.insert q n).get? q' = some m) : q' = q ∧ m = n ∨ c.get? q' = some m := by
  simp only [get?, insert, List.lookup_cons] at h
  split at h
  · rename_i hq
    exact .inl ⟨eq_of_beq hq, (Option.some.inj h).symm⟩
  · split at h
    · cases h
    · exact .inr h

theorem get?_forGeneration :
    (c.forGeneration generation).get? q = some m ↔
      c.generation = generation ∧ c.get? q = some m := by
  rw [QueryCache.forGeneration]
  split
  · rename_i hc
    simp [hc]
  · rename_i hc
    simp [get?, hc]

end QueryCache

namespace Client

variable {c c' c'' : Client} {h : Host} {q : Query}

/-- The native query that is given for a query without asking the driver. -/
def Remembers (c : Client) (q : Query) (m : NativeQuery) : Prop :=
  c.cache.generation = c.registry.generation ∧ c.cache.get? q = some m

/-- All that is remembered is what the driver would give. -/
def Fresh (c : Client) : Prop := ∀ q m, c.Remembers q m → c.driver.translate q = .ok m

/-- What is remembered is given; for anything else the driver is asked. -/
theorem translate_run (hopen : c.closed = false) :
    translate q (c, h) =
      match (c.cache.forGeneration c.registry.generation).get? q with
      | some m => .ok m ({ c with cache := c.cache.forGeneration c.registry.generation }, h)
      | none =>
        match c.driver.translate q with
        | .ok m =>
          .ok m
            ({ c with cache := (c.cache.forGeneration c.registry.generation).insert q m }, h)
        | .error e =>
          .error e ({ c with cache := c.cache.forGeneration c.registry.generation }, h) := by
  simp only [translate, ensureOpen, Action.bind_run, Action.get_run, Action.ite_run, hopen,
    Bool.false_eq_true, if_false, Action.pure_run, Action.set_run]
  cases (c.cache.forGeneration c.registry.generation).get? q with
  | some m => rfl
  | none => cases c.driver.translate q <;> rfl

/-- **A wrong translation** is one that is remembered and not what the driver would give. -/
theorem outcome_translate_ne_iff (hopen : c.closed = false) :
    (translate q).outcome (c, h) ≠ c.driver.translate q ↔
      ∃ m, c.Remembers q m ∧ c.driver.translate q ≠ .ok m := by
  rw [Action.outcome, translate_run hopen]
  cases hm : (c.cache.forGeneration c.registry.generation).get? q with
  | some m =>
    have hr : c.Remembers q m := QueryCache.get?_forGeneration.1 hm
    constructor
    · exact fun hne => ⟨m, hr, hne.symm⟩
    · rintro ⟨m', hr', hne⟩
      obtain rfl : m = m' := Option.some.inj (hr.2.symm.trans hr'.2)
      exact hne.symm
  | none =>
    have hr : ∀ m, ¬c.Remembers q m := fun m hr => by
      rw [QueryCache.get?_forGeneration.2 hr] at hm
      cases hm
    have hnone : ¬∃ m, c.Remembers q m ∧ c.driver.translate q ≠ .ok m := by
      rintro ⟨m, h, -⟩
      exact hr m h
    refine iff_of_false (not_not_intro ?_) hnone
    cases c.driver.translate q <;> rfl

/-! ## Questions -/

/-- What is left of a client that was used. If the driver still has its fields, what is remembered
is as right as it was. -/
structure Used (c c' : Client) : Prop where
  schema : c'.registry.schema = c.registry.schema
  generation : c'.registry.generation = c.registry.generation
  readonly : c'.readonly = c.readonly
  closed : c'.closed = c.closed
  fits : c.cache.Fits c.registry.generation → c'.cache.Fits c'.registry.generation
  driver : c.driver.SameFields c'.driver ∧ (c.Fresh → c'.Fresh) ∨ c.driver.PicksUp c'.driver

namespace Used

theorem follows (h : Used c c') : c.driver.Follows c'.driver := h.driver.imp (·.1) id

theorem refl (c : Client) : Used c c :=
  ⟨rfl, rfl, rfl, rfl, id, .inl ⟨.refl _, id⟩⟩

theorem trans (h : Used c c') (h' : Used c' c'') : Used c c'' where
  schema := h'.schema.trans h.schema
  generation := h'.generation.trans h.generation
  readonly := h'.readonly.trans h.readonly
  closed := h'.closed.trans h.closed
  fits := h'.fits ∘ h.fits
  driver := by
    rcases h.driver with ⟨hsame, hfresh⟩ | hpick
    · rcases h'.driver with ⟨hsame', hfresh'⟩ | hpick'
      · exact .inl ⟨hsame.trans hsame', hfresh' ∘ hfresh⟩
      · exact .inr (hsame.picksUp hpick')
    · exact .inr (hpick.follows h'.follows)

/-- Whatever the driver became in use, only a store that picks up an index makes what is remembered
wrong. -/
theorem withDriver {d : Driver} (hd : c.driver.Follows d) : Used c { c with driver := d } :=
  ⟨rfl, rfl, rfl, rfl, id,
    hd.imp (fun h => ⟨h, fun hfresh q m hr => (h.translate q).trans (hfresh q m hr)⟩) id⟩

/-- A cache that fits may take the place of another one if all that it holds is right. -/
theorem withCache {cache : QueryCache}
    (hfits : c.cache.Fits c.registry.generation → cache.Fits c.registry.generation)
    (hmem : ∀ q m, cache.get? q = some m → c.Remembers q m ∨ c.driver.translate q = .ok m) :
    Used c { c with cache } :=
  ⟨rfl, rfl, rfl, rfl, hfits,
    .inl ⟨.refl _, fun hfresh q m hr => (hmem q m hr.2).elim (hfresh q m) id⟩⟩

theorem drive {α : Type} {x : DriverWork α} (hx : Driver.Use x) (c : Client) (h : Host) :
    Used c ((drive x).after (c, h)).1 := by
  have hdriver := withDriver (hx.follows c.driver h)
  rw [Action.after, drive_run]
  rw [Action.after] at hdriver
  cases hr : x (c.driver, h) <;> rw [hr] at hdriver <;> exact hdriver

theorem translate (q : Query) (c : Client) (h : Host) :
    Used c ((Client.translate q).after (c, h)).1 := by
  cases hclosed : c.closed with
  | true =>
    have hrun : Client.translate q (c, h) = .error .clientClosed (c, h) := by
      simp [Client.translate, ensureOpen, hclosed]
    rw [Action.after, hrun]
    exact .refl c
  | false =>
    have hfits (hc : c.cache.Fits c.registry.generation) := hc.forGeneration.1
    have hmem {q' : Query} {m : NativeQuery}
        (hm : (c.cache.forGeneration c.registry.generation).get? q' = some m) :
        c.Remembers q' m ∨ c.driver.translate q' = .ok m :=
      .inl (QueryCache.get?_forGeneration.1 hm)
    rw [Action.after, translate_run hclosed]
    cases (c.cache.forGeneration c.registry.generation).get? q with
    | some m => exact withCache hfits fun _ _ => hmem
    | none =>
      cases hm : c.driver.translate q with
      | error e => exact withCache hfits fun _ _ => hmem
      | ok m =>
        refine withCache (fun hc => (hfits hc).insert q m) fun q' m' hm' => ?_
        rcases QueryCache.get?_insert hm' with ⟨rfl, rfl⟩ | hm'
        · exact .inr hm
        · exact hmem hm'

/-- **What questions leave.** -/
theorem question (q : Question) (c : Client) (h : Host) :
    Used c (q.perform.after (c, h)).1 := by
  have hkeeps : Action.Keeps (fun y : Client × Host => Used c y.1) q.perform fun _ => True :=
    keeps_asking (fun hx => .of_after fun y hy => hy.trans (.drive (.calm hx) y.1 y.2))
      (fun q => .of_after fun y hy => hy.trans (.translate q y.1 y.2)) q
      fun hx => .of_after fun y hy => by
        cases hx with
        | delete id => exact hy.trans (.drive (.delete id) y.1 y.2)
        | commit => exact hy.trans (.drive .commit y.1 y.2)
  exact hkeeps.after (s := (c, h)) (.refl c)

end Used

end Client

end Searchlight
