import Searchlight.Proofs.Document.Encoding
import Searchlight.Proofs.Document.Grouping

/-!
# Stored documents

A document of texts, numbers and instants is read back from the text that it is stored as exactly if
its numbers are finite: any other number is stored as null, and null is no number.
-/

namespace Searchlight

/-- All numbers among the values are finite. -/
def Document.IsFinite (d : Document) : Prop := ∀ p ∈ d.pairs, ∀ x, p.2 = .number x → x.isFinite = true

def Document.IsFlat (d : Document) : Prop := ∀ p ∈ d.pairs, p.2.kind ≠ .document

namespace Value

variable {ps : List (String × Value)}

theorem pairsDepth_le_of_flat (h : ∀ p ∈ ps, p.2.kind ≠ .document) : pairsDepth ps ≤ 2 := by
  induction ps with
  | nil => simp [pairsDepth]
  | cons p ps ih =>
    obtain ⟨hp, hps⟩ := List.forall_mem_cons.1 h
    have hvalue : p.2.depth = 1 := by
      cases hv : p.2 with
      | text | number | dateTime => rw [depth]
      | document => simp [hv, kind] at hp
    rw [pairsDepth, hvalue]
    exact Nat.max_le.2 ⟨Nat.le_refl _, ih hps⟩

theorem forall_pairsNumbers_of_flat (h : ∀ p ∈ ps, p.2.kind ≠ .document) {P : Double → Prop} :
    (∀ x ∈ pairsNumbers ps, P x) ↔ ∀ p ∈ ps, ∀ x, p.2 = .number x → P x := by
  induction ps with
  | nil => simp [pairsNumbers]
  | cons p ps ih =>
    obtain ⟨hp, hps⟩ := List.forall_mem_cons.1 h
    rw [pairsNumbers, List.forall_mem_append, List.forall_mem_cons, ih hps]
    refine and_congr_left' ?_
    cases hv : p.2 with
    | text | dateTime | number => simp [numbers]
    | document => simp [hv, kind] at hp

end Value

namespace Document

/-- **A stored document is read back** exactly if its numbers are finite. -/
theorem isSome_ofJsonText?_toJsonText {d : Document} (h : d.IsFlat) :
    (ofJsonText? d.toJsonText).isSome = true ↔ d.IsFinite := by
  have hdepth : d.depth ≤ Json.maxDepth :=
    Nat.le_trans (Nat.add_le_add_right (Value.pairsDepth_le_of_flat h) 1) (by decide)
  rw [isSome_ofJsonText?_iff, and_iff_right hdepth]
  exact Value.forall_pairsNumbers_of_flat h

/-! ## Settled documents -/

variable {d : Document} {plan : DocumentPlan} {kinds : List ValueKind} {backend : String}
  {p : PreparedDocument}

/-- A backend that accepts no documents as values stores none. -/
theorem isFlat_stored (h : d.prepare plan kinds backend = .ok p) (hkinds : .document ∉ kinds) :
    p.stored.IsFlat := by
  obtain ⟨fields, hfields, h⟩ := Except.bind_eq_ok.1 h
  cases h
  intro q hq
  obtain ⟨f, hf, hq⟩ := List.mem_flatMap.1 hq
  obtain ⟨v, hv, rfl⟩ := List.mem_map.1 hq
  obtain ⟨⟨name, config⟩, -, hprepared⟩ :=
    Except.exists_of_mem_mapM hfields (List.mem_filter.1 hf).1
  obtain ⟨-, -, hraw⟩ := prepareField_eq_ok hprepared
  obtain ⟨coerced, hcoerced, -⟩ := Except.bind_eq_ok.1 hprepared
  have hmem : v ∈ d.values name := by
    rw [hraw] at hv
    split at hv
    · exact hv
    · cases hv
  have hchecked : (prepareValue kinds backend name config v).toBool = true := by
    have hall : ((d.values name).mapM (prepareValue kinds backend name config)).toBool = _ :=
      Except.toBool_mapM
    rw [hcoerced] at hall
    exact List.all_eq_true.1 hall.symm v hmem
  intro hkind
  rw [prepareValue, if_neg (by simpa [hkind] using hkinds)] at hchecked
  cases hchecked

theorem IsFinite.stored (hd : d.IsFinite) (h : d.prepare plan kinds backend = .ok p) :
    p.stored.IsFinite := by
  intro q hq
  rw [stored_of_prepare h] at hq
  exact hd q ((grouped_perm d).subset (List.mem_filter.1 hq).1)

end Document

end Searchlight
