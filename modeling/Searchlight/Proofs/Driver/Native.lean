import Searchlight.Driver.NativeQuery
import Searchlight.Proofs.Binary.Reading
import Searchlight.Proofs.Text.Telling

/-!
# Native queries are told by their text

The text of a plan tells the plan, and that of a query by tokens tells the query, if its weights are
numbers: names, tokens and keys are quoted, lists are bracketed and weights are written so that they
are read back (`SetStore.Plan.told_description`, `Memory.TokenQuery.told_description`). So comparing
texts compares trees (`NativeQuery.same_iff`).
-/

namespace Searchlight

open Text (Told Opens bracketed)

/-! ## Plans -/

namespace SetStore.Plan

theorem descriptions_eq_map (ps : List Plan) : descriptions ps = ps.map description := by
  induction ps with
  | nil => rfl
  | cons p ps ih => rw [descriptions, ih, List.map_cons]

theorem toList_description (p : Plan) (r : List Char) :
    p.description.toList ++ r =
      match p with
      | key k => "Key(".toList ++ ((Text.quote k).toList ++ (")".toList ++ r))
      | nothing => "Nothing".toList ++ r
      | inter parts =>
        "Inter(".toList ++ ((bracketed (parts.map description)).toList ++ (")".toList ++ r))
      | union parts =>
        "Union(".toList ++ ((bracketed (parts.map description)).toList ++ (")".toList ++ r))
      | diff p n =>
        "Diff(".toList ++ (p.description.toList ++ (", ".toList ++ (n.description.toList ++
          (")".toList ++ r)))) := by
  cases p <;> simp [description, descriptions_eq_map]

theorem opens_description (p : Plan) : Opens ']' p.description.toList := by
  rw [← List.append_nil p.description.toList, toList_description]
  cases p <;> exact ⟨_, _, rfl, by decide⟩

mutual

/-- **The description of a plan** tells it from all others, whatever follows. -/
theorem told_description (p : Plan) : Told (fun p => p.description.toList) p := by
  intro q r s h
  simp only [toList_description p, toList_description q] at h
  cases p with
  | key k =>
    cases q with
    | key l =>
      obtain ⟨rfl, rfl⟩ := (Text.told_quote k).before _ (List.append_cancel_left h)
      exact ⟨rfl, rfl⟩
    | _ => simp at h
  | nothing =>
    cases q with
    | nothing => exact ⟨rfl, List.append_cancel_left h⟩
    | _ => simp at h
  | inter parts =>
    cases q with
    | inter others =>
      obtain ⟨rfl, rfl⟩ := (Text.told_bracketed opens_description
        (told_descriptions parts)).before _ (List.append_cancel_left h)
      exact ⟨rfl, rfl⟩
    | _ => simp at h
  | union parts =>
    cases q with
    | union others =>
      obtain ⟨rfl, rfl⟩ := (Text.told_bracketed opens_description
        (told_descriptions parts)).before _ (List.append_cancel_left h)
      exact ⟨rfl, rfl⟩
    | _ => simp at h
  | diff a b =>
    cases q with
    | diff c d =>
      obtain ⟨rfl, hb⟩ := (told_description a).before _ (List.append_cancel_left h)
      obtain ⟨rfl, rfl⟩ := (told_description b).before _ hb
      exact ⟨rfl, rfl⟩
    | _ => simp at h

theorem told_descriptions (ps : List Plan) : ∀ p ∈ ps, Told (fun p => p.description.toList) p := by
  cases ps with
  | nil => simp
  | cons p ps => exact List.forall_mem_cons.2 ⟨told_description p, told_descriptions ps⟩

end

end SetStore.Plan

/-! ## Queries by tokens -/

namespace Memory.TokenQuery

mutual

/-- The factors of all weights in the tree. -/
def weights : TokenQuery → List Single
  | freeText _ | field _ _ | nothing => []
  | and parts | or parts | xor parts => weightsAll parts
  | not p n => p.weights ++ n.weights
  | weight q x => x :: q.weights

def weightsAll : List TokenQuery → List Single
  | [] => []
  | q :: qs => q.weights ++ weightsAll qs

end

theorem descriptions_eq_map (qs : List TokenQuery) : descriptions qs = qs.map description := by
  induction qs with
  | nil => rfl
  | cons q qs ih => rw [List.map_cons, ← ih]; rfl

theorem toList_description (q : TokenQuery) (r : List Char) :
    q.description.toList ++ r =
      match q with
      | freeText tokens => "FreeText(".toList ++ ((quotedList tokens).toList ++ (")".toList ++ r))
      | field name tokens =>
        "Field \x7b field: ".toList ++ ((Text.quote name).toList ++ (", tokens: ".toList ++
          ((quotedList tokens).toList ++ (" \x7d".toList ++ r))))
      | nothing => "Nothing".toList ++ r
      | and parts =>
        "And(".toList ++ ((bracketed (parts.map description)).toList ++ (")".toList ++ r))
      | or parts =>
        "Or(".toList ++ ((bracketed (parts.map description)).toList ++ (")".toList ++ r))
      | not p n =>
        "Not(".toList ++ (p.description.toList ++ (", ".toList ++ (n.description.toList ++
          (")".toList ++ r))))
      | xor parts =>
        "Xor(".toList ++ ((bracketed (parts.map description)).toList ++ (")".toList ++ r))
      | weight q x =>
        "Weight(".toList ++ (q.description.toList ++ (", ".toList ++ (x.pointedText.toList ++
          (")".toList ++ r)))) := by
  have parted (s t u : String) :
      (s ++ t ++ u).toList ++ r = s.toList ++ (t.toList ++ (u.toList ++ r)) := by
    simp only [String.toList_append, List.append_assoc]
  have parted' (s t u v w : String) :
      (s ++ t ++ u ++ v ++ w).toList ++ r =
        s.toList ++ (t.toList ++ (u.toList ++ (v.toList ++ (w.toList ++ r)))) := by
    simp only [String.toList_append, List.append_assoc]
  cases q with
  | freeText => exact parted _ _ _
  | field | not | weight => exact parted' _ _ _ _ _
  | nothing => rfl
  | and parts | or parts | xor parts =>
    simp only [← descriptions_eq_map]
    exact parted _ _ _

theorem opens_description (q : TokenQuery) : Opens ']' q.description.toList := by
  rw [← List.append_nil q.description.toList, toList_description]
  cases q <;> exact ⟨_, _, rfl, by decide⟩

theorem told_quotedList (tokens : List String) : Told (fun ts => (quotedList ts).toList) tokens :=
  Text.told_bracketed (fun s => Text.opens_quote (by decide : '"' ≠ ']') s) fun s _ =>
    Text.told_quote s

theorem told_factor {x : Single} (hx : x.isNaN = false) :
    Told (fun x : Single => x.pointedText.toList ++ ")".toList) x := by
  intro y r s h
  simp only [List.append_assoc] at h
  obtain ⟨htext, hrest⟩ := Text.append_cons_inj (Binary.parenthesis_notMem_pointedText x)
    (Binary.parenthesis_notMem_pointedText y) h
  exact ⟨Binary.eq_of_pointedText_eq (by decide) hx (String.toList_inj.1 htext), hrest⟩

mutual

/-- **The description of a query** whose weights are numbers tells it from all others, whatever
follows. -/
theorem told_description (q : TokenQuery) (hq : ∀ x ∈ q.weights, x.isNaN = false) :
    Told (fun q => q.description.toList) q := by
  intro p r s h
  simp only [toList_description q, toList_description p] at h
  cases q with
  | freeText tokens =>
    cases p with
    | freeText others =>
      obtain ⟨rfl, rfl⟩ := (told_quotedList tokens).before _ (List.append_cancel_left h)
      exact ⟨rfl, rfl⟩
    | _ => simp at h
  | field name tokens =>
    cases p with
    | field other others =>
      obtain ⟨rfl, htokens⟩ := (Text.told_quote name).before _ (List.append_cancel_left h)
      obtain ⟨rfl, rfl⟩ := (told_quotedList tokens).before _ htokens
      exact ⟨rfl, rfl⟩
    | _ => simp at h
  | nothing =>
    cases p with
    | nothing => exact ⟨rfl, List.append_cancel_left h⟩
    | _ => simp at h
  | and parts =>
    cases p with
    | and others =>
      obtain ⟨rfl, rfl⟩ := (Text.told_bracketed opens_description
        (told_descriptions parts hq)).before _ (List.append_cancel_left h)
      exact ⟨rfl, rfl⟩
    | _ => simp at h
  | or parts =>
    cases p with
    | or others =>
      obtain ⟨rfl, rfl⟩ := (Text.told_bracketed opens_description
        (told_descriptions parts hq)).before _ (List.append_cancel_left h)
      exact ⟨rfl, rfl⟩
    | _ => simp at h
  | not a b =>
    cases p with
    | not c d =>
      rw [weights, List.forall_mem_append] at hq
      obtain ⟨rfl, hb⟩ := (told_description a hq.1).before _ (List.append_cancel_left h)
      obtain ⟨rfl, rfl⟩ := (told_description b hq.2).before _ hb
      exact ⟨rfl, rfl⟩
    | _ => simp at h
  | xor parts =>
    cases p with
    | xor others =>
      obtain ⟨rfl, rfl⟩ := (Text.told_bracketed opens_description
        (told_descriptions parts hq)).before _ (List.append_cancel_left h)
      exact ⟨rfl, rfl⟩
    | _ => simp at h
  | weight a x =>
    cases p with
    | weight b y =>
      rw [weights, List.forall_mem_cons] at hq
      obtain ⟨rfl, hfactor⟩ := (told_description a hq.2).before _ (List.append_cancel_left h)
      obtain ⟨rfl, rfl⟩ := told_factor hq.1 y r s (by simpa only [List.append_assoc] using hfactor)
      exact ⟨rfl, rfl⟩
    | _ => simp at h

theorem told_descriptions (qs : List TokenQuery) (hqs : ∀ x ∈ weightsAll qs, x.isNaN = false) :
    ∀ q ∈ qs, Told (fun q => q.description.toList) q := by
  cases qs with
  | nil => simp
  | cons q qs =>
    rw [weightsAll, List.forall_mem_append] at hqs
    exact List.forall_mem_cons.2 ⟨told_description q hqs.1, told_descriptions qs hqs.2⟩

end

end Memory.TokenQuery

/-! ## Native queries -/

namespace NativeQuery

open Memory.TokenQuery (freeText weight)

/-- **Native queries** of a backend are the same exactly when their trees are, and those of
different backends never are. -/
theorem same_iff :
    (∀ (backend : String) (p q : SetStore.Plan),
      same ⟨backend, .plan p⟩ ⟨backend, .plan q⟩ = true ↔ p = q) ∧
    (∀ (backend : String) (p q : Memory.TokenQuery), (∀ x ∈ p.weights, x.isNaN = false) →
      (same ⟨backend, .tokens p⟩ ⟨backend, .tokens q⟩ = true ↔ p = q)) ∧
    ∀ a b : NativeQuery, a.backend ≠ b.backend → same a b = false := by
  refine ⟨fun backend p q => ?_, fun backend p q hp => ?_, fun a b hne => ?_⟩
  · rw [same, Bool.and_eq_true, beq_iff_eq, beq_iff_eq]
    refine ⟨fun h => ?_, by rintro rfl; exact ⟨rfl, rfl⟩⟩
    exact (SetStore.Plan.told_description p).eq (congrArg String.toList h.2)
  · rw [same, Bool.and_eq_true, beq_iff_eq, beq_iff_eq]
    refine ⟨fun h => ?_, by rintro rfl; exact ⟨rfl, rfl⟩⟩
    exact (Memory.TokenQuery.told_description p hp).eq (congrArg String.toList h.2)
  · rw [same, beq_false_of_ne hne, Bool.false_and]

/-- A token with a quote and a comma in it is not taken for two. -/
theorem same_eq_false_of_split_token :
    (∀ x ∈ (weight (freeText ["a\", \"b"]) .zero).weights, x.isNaN = false) ∧
      same ⟨"memory", .tokens (weight (freeText ["a\", \"b"]) .zero)⟩
        ⟨"memory", .tokens (weight (freeText ["a", "b"]) .zero)⟩ = false := by
  have hweights : ∀ x ∈ (weight (freeText ["a\", \"b"]) .zero).weights, x.isNaN = false :=
    List.forall_mem_singleton.2 rfl
  refine ⟨hweights, Bool.eq_false_iff.2 fun h => ?_⟩
  have heq := (same_iff.2.1 "memory" _ (weight (freeText ["a", "b"]) .zero) hweights).1 h
  simp at heq

/-- A NaN is written without its sign, so the two cannot be told. -/
example : same ⟨"memory", .tokens (.weight .nothing (.nan false))⟩
    ⟨"memory", .tokens (.weight .nothing (.nan true))⟩ = true := by decide

end NativeQuery

end Searchlight
