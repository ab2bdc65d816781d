import Searchlight.Proofs.SetStore.Filing
import Searchlight.Proofs.SetStore.Keeping

/-!
# Documents on file in every run

Stores of different prefixes work on different keys. So when every store on a key server has come
about by the work of stores of its own prefix, with whatever others did in between, this goes on to
hold whatever any store is asked for (`Driver.onFile_invariant`).
-/

namespace Searchlight

open Searchlight.Action (Keeps)

namespace SetStore

variable {k : KeySpace} {docs : KeyMap PreparedDocument} {v v' : Server}

/-- What the server has under each prefix has come about by the work of stores of that prefix. -/
def Server.OnFile (v : Server) : Prop :=
  ∀ k : KeySpace, KeySpace.IsValidStem k.stem → ∃ docs, Filed k docs v

theorem Server.onFile_fresh (reachable : Bool) : (fresh reachable).OnFile :=
  fun _ _ => ⟨∅, .empty fun _ => rfl⟩

theorem Server.ofKeys_onFile : OfKeys Server.OnFile := fun _ _ hkeys hv k hk =>
  (hv k hk).imp fun _ h => h.others fun _ => by rw [hkeys]

section
variable (hk : KeySpace.IsValidStem k.stem)
include hk

/-- Work on the keys of one store leaves what other stores have on file. -/
theorem Server.OnFile.of_filed (hv : v.OnFile) (hfiled : Filed k docs v')
    (hother : ∀ key, (∀ r : Role, key ≠ r.key k) → v'.keys.get? key = v.keys.get? key) :
    v'.OnFile := by
  intro k' hk'
  by_cases hne : k' = k
  · exact ⟨docs, hne ▸ hfiled⟩
  · refine (hv k' hk').imp fun _ h => h.others fun rest => hother _ fun r hkey => hne ?_
    exact KeySpace.eq_of_owns hk hk' (r := r) ⟨rest, hkey.symm⟩

namespace Store

theorem onFile_index (d : PreparedDocument) (given : Option String) :
    Keeps (OnServer k Server.OnFile) (index d given) fun _ => True := by
  rintro ⟨s, v⟩ ⟨rfl, hv⟩
  dsimp only at hk
  obtain ⟨docs, hfiled⟩ := hv s.keys hk
  have hholds := hfiled.holds hk
  rcases index_cases hk hholds.inOrder hholds.idSets_noted d given with
    ⟨id, v₀, previous, hrun, hcase⟩ | ⟨e, hrun⟩
  · have hindexed := hfiled.indexed rfl (Action.outcome_eq_ok.2 ⟨_, hrun⟩)
    rw [Action.after, hrun] at hindexed
    rw [hrun]
    refine ⟨⟨rfl, hv.of_filed hk hindexed fun key hkey => ?_⟩, trivial⟩
    rcases hcase with ⟨-, rfl, rfl⟩ | ⟨-, rfl, rfl⟩
    · exact (touches_runAll hk (concerns_link id (hholds.idSets_noted id) d)).other key hkey
    · exact ((touches_runAll hk (concerns_link id (idSets_nil s.keys) d)).other key hkey).trans
        (((beside_increment hk).sameTraces hk).other key hkey)
  · rw [hrun]
    exact ⟨rfl, hv⟩

theorem onFile_delete (id : String) :
    Keeps (OnServer k Server.OnFile) (delete id) fun _ => True := by
  rintro ⟨s, v⟩ ⟨rfl, hv⟩
  dsimp only at hk
  obtain ⟨docs, hfiled⟩ := hv s.keys hk
  have hholds := hfiled.holds hk
  rcases delete_cases hk hholds.inOrder hholds.idSets_noted id with hrun | ⟨e, hrun⟩
  · have hdeleted := hfiled.deleted rfl (Action.outcome_eq_ok.2 ⟨_, hrun⟩)
    rw [Action.after, hrun] at hdeleted
    rw [hrun]
    exact ⟨⟨rfl, hv.of_filed hk hdeleted
      (touches_runAll hk (concerns_delete id (hholds.idSets_noted id))).other⟩, trivial⟩
  · rw [hrun]
    exact ⟨rfl, hv⟩

theorem onFile_search (plan : Plan) (offset limit : Nat) :
    Keeps (OnServer k Server.OnFile) (search plan offset limit) fun _ => True := by
  have haside := keeps_search (P := fun s => s.keys = k) plan offset limit
  refine .of_after fun (s, v) ⟨hs, hv⟩ => ⟨haside.after (s := (s, v)) hs, ?_⟩
  subst hs
  obtain ⟨docs, hfiled⟩ := hv s.keys hk
  exact Server.ofKeys_onFile (keys_search (hfiled.holds hk).not_contains_temp offset limit) hv

theorem onFile_registerField (name : String) (config : FieldConfig) :
    Keeps (OnServer k Server.OnFile) (registerField name config) fun _ => True := by
  have hkeys := keeps_registerField_server (k := k) (J := fun _ => True) name config
    fun _ _ _ => trivial
  refine .of_after fun (s, v) ⟨hs, hv⟩ => ⟨(hkeys.after (s := (s, v)) ⟨hs, trivial⟩).1, ?_⟩
  subst hs
  obtain ⟨docs, hfiled⟩ := hv s.keys hk
  exact hv.of_filed hk (hfiled.registered rfl name config)
    (sameTraces_registerField hk name config).other

theorem onFile_destroy : Keeps (OnServer k Server.OnFile) destroy fun _ => True := by
  refine keeps_destroy_server fun v v' hkeys hv => ?_
  have hempty : Filed k ∅ v' := .empty fun rest => by rw [hkeys, if_pos ⟨rest, rfl⟩]
  intro k' hk'
  by_cases hne : k' = k
  · exact ⟨∅, hne ▸ hempty⟩
  · refine (hv k' hk').imp fun _ h => h.others fun rest => ?_
    rw [hkeys, if_neg fun howns => hne (KeySpace.Owns.unique hk hk' howns ⟨rest, rfl⟩)]

end Store

end

theorem kept_onFile : Kept Server.OnFile where
  ofKeys := Server.ofKeys_onFile
  index := Store.onFile_index
  delete := Store.onFile_delete
  search := Store.onFile_search

end SetStore

def Host.OnFile (h : Host) : Prop := h.server.OnFile

/-- **What stores have on a key server is on file**, whatever drivers do. -/
theorem Driver.onFile_invariant : Invariant HasValidStem Host.OnFile :=
  SetStore.kept_onFile.invariant (fun _ hk => SetStore.Store.onFile_registerField hk)
    fun _ hk => SetStore.Store.onFile_destroy hk

end Searchlight
