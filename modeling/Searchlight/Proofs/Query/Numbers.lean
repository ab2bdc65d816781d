import Searchlight.Proofs.Binary.Reading
import Searchlight.Proofs.Driver.Finding
import Searchlight.Proofs.Field.Coercion

/-!
# Numbers that are found

A numeric field is asked for by the text of the number that a term is read as, so a term finds what
has that number, in whatever way it is spelled, and nothing else (`Driver.number_found_iff`). This is
equality of numbers but for the two zeros: their texts differ, so neither is found by the other.
-/

namespace Searchlight

theorem Binary.numEq_eq_true_iff {f : Format} {x y : Binary f} :
    x.numEq y = true ↔ x.isNaN = false ∧ (x = y ∨ (y = zero ∨ y = -zero) ∧ x = -y) := by
  change _ ↔ _ ∧ (_ ∨ (_ ∨ y = zero.neg) ∧ x = y.neg)
  cases x <;> cases y
  case finite.finite a u hu b v hv =>
    simp only [numEq, zero, isNaN, neg, Bool.and_eq_true, Bool.or_eq_true, beq_iff_eq,
      finite.injEq, true_and]
    cases a <;> cases b <;> simp <;> omega
  all_goals simp [numEq, zero, isNaN, neg]

/-- Tokens tell numbers apart. -/
theorem numberToken_eq_iff {x y : Double} :
    numberToken x = numberToken y ↔ x = y ∨ x.isNaN = true ∧ y.isNaN = true :=
  Binary.text_eq_text_iff

theorem read?_of_parseNumber {name term : String} {y : Double} (h : parseNumber name term = .ok y) :
    Binary.read? .double term = some y := by
  rw [parseNumber] at h
  split at h <;> cases h
  assumption

/-- What a numeric field is given are numbers. -/
theorem Document.exists_gives_iff {doc : Document} {name : String} {c : FieldConfig}
    (hkind : c.kind = .numeric) {p : IndexValue → Prop} :
    (∃ x, doc.Gives name c x ∧ p x) ↔ ∃ x, doc.Gives name c (.number x) ∧ p (.number x) := by
  refine ⟨?_, fun ⟨x, hx⟩ => ⟨_, hx⟩⟩
  rintro ⟨x, ⟨v, hv, hx⟩, hp⟩
  have htakes := FieldConfig.takes_of_coerce hx
  rw [hkind] at htakes
  obtain ⟨n, rfl⟩ := htakes
  exact ⟨n, ⟨v, hv, hx⟩, hp⟩

namespace Driver

section
variable {dr : Driver} {h : Host} {id name term : String} {doc : Document} {c : FieldConfig}
  {y : Double} (hdoc : dr.Indexes h id doc name c) (hkind : c.kind = .numeric)
  (hterm : parseNumber name term = .ok y)
include hdoc hkind hterm

theorem Indexes.findsIff_number :
    dr.FindsIff h (.field name [term]) id
      (∃ x, doc.Gives name c (.number x) ∧ (x = y ∨ x.isNaN = true ∧ y.isNaN = true)) := by
  have htokens : c.kind.queryTokens name [term] = .ok [numberToken y] := by
    rw [hkind, FieldKind.queryTokens, List.mapM_cons, List.mapM_nil, hterm]
    rfl
  refine (hdoc.findsIff_field (hkind ▸ nofun) (List.cons_ne_nil _ _) htokens).congr ?_
  simp only [Document.exists_gives_iff hkind, FieldKind.valueTokens, List.mem_singleton,
    ← numberToken_eq_iff]
  simp [eq_comm]

/-- **Which numbers are found.** A term that is read as a number finds the documents with that
number, however it is spelled, and a NaN those with a NaN. Where no NaN is stored these are the
documents with an equal number, unless the term is a zero and only the other zero is stored. -/
theorem number_found_iff :
    Query.fieldTerm name term = .field name [term] ∧
      dr.FindsIff h (.field name [term]) id
        (∃ x, doc.Gives name c (.number x) ∧ (x = y ∨ x.isNaN = true ∧ y.isNaN = true)) ∧
      ((∀ x, doc.Gives name c (.number x) → x.isNaN = false) →
        (dr.FindsIff h (.field name [term]) id
            (∃ x, doc.Gives name c (.number x) ∧ x.numEq y = true) ↔
          ¬((y = Binary.zero ∨ y = -Binary.zero) ∧ doc.Gives name c (.number (-y)) ∧
            ¬doc.Gives name c (.number y)))) := by
  have hfinds := hdoc.findsIff_number hkind hterm
  refine ⟨?_, hfinds, fun hnan => ?_⟩
  · rw [Query.fieldTerm, Binary.words_of_read? (read?_of_parseNumber hterm)]
  · have hsame : (∃ x, doc.Gives name c (.number x) ∧ (x = y ∨ x.isNaN = true ∧ y.isNaN = true)) ↔
        doc.Gives name c (.number y) := by
      constructor
      · rintro ⟨x, hx, rfl | ⟨hxnan, -⟩⟩
        · exact hx
        · rw [hnan x hx] at hxnan
          cases hxnan
      · exact fun hy => ⟨y, hy, .inl rfl⟩
    have hequal : (∃ x, doc.Gives name c (.number x) ∧ x.numEq y = true) ↔
        doc.Gives name c (.number y) ∨
          (y = Binary.zero ∨ y = -Binary.zero) ∧ doc.Gives name c (.number (-y)) := by
      simp only [Binary.numEq_eq_true_iff]
      constructor
      · rintro ⟨x, hx, -, rfl | ⟨hzero, rfl⟩⟩
        · exact .inl hx
        · exact .inr ⟨hzero, hx⟩
      · rintro (hy | ⟨hzero, hy⟩)
        · exact ⟨y, hy, hnan y hy, .inl rfl⟩
        · exact ⟨-y, hy, hnan _ hy, .inr ⟨hzero, rfl⟩⟩
    constructor
    · rintro hclaim ⟨hzero, hneg, hnone⟩
      exact hnone (hsame.1 ((hfinds.unique hclaim).2 (hequal.2 (.inr ⟨hzero, hneg⟩))))
    · intro hzero
      refine hfinds.congr (hsame.trans (Iff.trans ?_ hequal.symm))
      refine ⟨.inl, ?_⟩
      rintro (hy | ⟨hz, hneg⟩)
      · exact hy
      · exact by_contra fun hnone => hzero ⟨hz, hneg, hnone⟩

end

def ebb : Document := ⟨[("level", .number (-Binary.zero))]⟩

def preparedEbb : PreparedDocument :=
  ⟨[⟨"level", .numeric, [.number (-Binary.zero)], [.number (-Binary.zero)]⟩]⟩

/-- A level of negative zero is not found by zero, in memory and on a key server. -/
theorem number_found_iff_ebb :
    parseNumber "level" "0" = .ok Binary.zero ∧
      (-Binary.zero : Double).numEq Binary.zero = true ∧
      (∀ h, (memoryOf "level" .numeric preparedEbb).FindsIff h (.fieldTerm "level" "0") "1" False) ∧
      (Driver.sets (setsOf "level" .numeric)).FindsIff (serverOf "level" .numeric preparedEbb)
        (.fieldTerm "level" "0") "1" False := by
  have hd : ebb.prepare ⟨KeyMap.empty.insert "level" (.field .numeric), [], []⟩ ValueKind.all
      "memory" = .ok preparedEbb := by rfl
  have hok : (SetStore.Store.index preparedEbb (some "1")).outcome
      (setsOf "level" .numeric, .fresh true) = .ok "1" := by
    rfl
  have hterm : parseNumber "level" "0" = .ok Binary.zero := rfl
  have hnone : ¬∃ x, ebb.Gives "level" .numeric (.number x) ∧
      (x = Binary.zero ∨ x.isNaN = true ∧ (Binary.zero : Double).isNaN = true) := by
    rintro ⟨x, ⟨v, hv, hx⟩, hzero⟩
    have hvalues : ebb.values "level" = [.number (-Binary.zero)] := rfl
    rw [hvalues, List.mem_singleton] at hv
    subst hv
    cases hx
    exact absurd hzero (by decide)
  obtain ⟨hwords, hsets, -⟩ := number_found_iff (indexes_setsOf hd rfl hok) rfl hterm
  rw [hwords]
  refine ⟨hterm, rfl, fun h => ?_, hsets.congr (iff_false_intro hnone)⟩
  exact (number_found_iff (indexes_memoryOf hd rfl h) rfl hterm).2.1.congr (iff_false_intro hnone)

end Driver

end Searchlight
