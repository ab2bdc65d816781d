import Searchlight.Client.Cursor
import Searchlight.Proofs.Action

/-!
# What cursors keep and give

A cursor has nothing of its own to give: what is kept by the work it asks for, it keeps, and what
holds of every hit or document it is handed holds of all that it gives.
-/

namespace Searchlight

open Searchlight.Action (Keeps)

variable {σ κ : Type} {I : σ → Prop} {closed : Bool}

/-- What a cursor asks for keeps what is asked for by itself. -/
theorem keeps_beside {α : Type} {x : Action σ α} {Q : α → Prop} (hx : Keeps I x Q) :
    Keeps (fun y : κ × σ => I y.2) (Action.second x) Q :=
  hx.focus (fun _ h => h) fun _ _ _ h => h

namespace ResultCursor

variable {P : SearchHit → Prop}

def Holds (P : SearchHit → Prop) (I : σ → Prop) (y : ResultCursor × σ) : Prop :=
  (∀ hit ∈ y.1.buffer, P hit) ∧ I y.2

variable {fetch : FetchHits σ}
  (hfetch : ∀ q offset limit, Keeps I (fetch q offset limit) fun page => ∀ hit ∈ page.hits, P hit)

theorem keeps_pop :
    Keeps (Holds P I) (pop : Action (ResultCursor × σ) _) fun hit => ∀ x ∈ hit, P x :=
  Keeps.get.bind fun (c, s) ⟨hbuffer, hs⟩ => by
    dsimp only at hbuffer ⊢
    split
    · exact .pure (by simp)
    · rename_i hit hits hc
      rw [hc, List.forall_mem_cons] at hbuffer
      exact Keeps.seq (.set ⟨hbuffer.2, hs⟩) fun _ => .pure (by simpa using hbuffer.1)

include hfetch

theorem keeps_next : Keeps (Holds P I) (next closed fetch) fun hit => ∀ x ∈ hit, P x := by
  refine Keeps.get.bind fun (c, _) _ => .ite (fun _ => .ite (fun _ => .throw) fun _ => ?_)
    fun _ => keeps_pop
  have hpage : Keeps (Holds P I) (Action.second (fetch c.query c.offset c.want))
      fun page => ∀ hit ∈ page.hits, P hit :=
    (hfetch _ _ _).focus (fun _ h => h.2) fun _ _ h ht => ⟨h.1, ht⟩
  refine hpage.bind fun page hhits => Keeps.seq (.modify fun (c, s) ⟨hbuffer, hs⟩ => ⟨?_, hs⟩)
    fun _ => keeps_pop
  intro hit hmem
  rcases List.mem_append.1 hmem with h | h
  · exact hbuffer hit h
  · exact hhits hit (List.mem_of_mem_take h)

theorem keeps_drain (n : Nat) :
    Keeps (Holds P I) (drain closed fetch n) fun hits => ∀ hit ∈ hits, P hit := by
  induction n with
  | zero => exact .pure (by simp)
  | succ n ih =>
    refine (keeps_next hfetch).bind fun hit hP => ?_
    cases hit with
    | none => exact .pure (by simp)
    | some hit =>
      exact ih.bind fun hits hhits => .pure (List.forall_mem_cons.2 ⟨hP hit rfl, hhits⟩)

theorem keeps_collectAll :
    Keeps (Holds P I) (collectAll closed fetch) fun hits => ∀ hit ∈ hits, P hit :=
  Keeps.get.bind fun _ _ => keeps_drain hfetch _

end ResultCursor

namespace DocumentCursor

variable {P : StoredDocument → Prop} {source : DocumentSource σ}
  (hlist : ∀ offset limit, Keeps I (source.list offset limit) fun _ => True)
  (hload : ∀ id, Keeps I (source.load id) fun d => ∀ x ∈ d, P x)
include hlist hload

theorem keeps_next (turns : Nat) :
    Keeps (fun y => I y.2) (next closed source turns) fun d => ∀ x ∈ d, P x := by
  induction turns with
  | zero => exact .pure (by simp)
  | succ turns ih =>
    refine Keeps.ite (fun _ => .throw) fun _ => Keeps.get.bind fun x hs => ?_
    dsimp only
    split
    · refine Keeps.seq (.set hs) fun _ => (keeps_beside (hload _)).bind fun d hd => ?_
      cases d with
      | none => exact ih
      | some d => exact .pure hd
    · exact .ite (fun _ => .pure (by simp)) fun _ => (keeps_beside (hlist _ _)).seq fun _ =>
        Keeps.seq (.modify fun _ h => h) fun _ => ih

theorem keeps_drain (turns n : Nat) :
    Keeps (fun y => I y.2) (drain closed source turns n) fun ds => ∀ d ∈ ds, P d := by
  induction n with
  | zero => exact .pure (by simp)
  | succ n ih =>
    refine (keeps_next hlist hload turns).bind fun d hd => ?_
    cases d with
    | none => exact .pure (by simp)
    | some d => exact ih.bind fun ds hds => .pure (List.forall_mem_cons.2 ⟨hd d rfl, hds⟩)

end DocumentCursor

end Searchlight
