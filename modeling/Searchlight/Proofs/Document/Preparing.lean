import Searchlight.Proofs.Document.Grouping
import Searchlight.Proofs.Query.Agreement

/-!
# What a document is found by

A document is settled field by field, and what a field is found by are the tokens of what its own
values were coerced to (`mem_tokensIn_of_prepare`). The tokens of an indexed free-text field are also
among those of the whole document (`mem_freeTokens_of_prepare`).
-/

namespace Searchlight.Document

/-- A value of the field comes to this in a field of the configuration. -/
def Gives (doc : Document) (name : String) (c : FieldConfig) (x : IndexValue) : Prop :=
  ∃ v ∈ doc.values name, c.coerce name v = .ok (some x)

variable {doc : Document} {plan : DocumentPlan} {kinds : List ValueKind} {backend name : String}
  {c : FieldConfig} {d : PreparedDocument} {f : PreparedField} {x : IndexValue}

/-- What fields of text are given are the texts of their values. -/
theorem gives_text_iff (hkind : c.kind = .freeText ∨ c.kind = .exactMatch) :
    doc.Gives name c x ↔ ∃ v ∈ doc.values name, .text v.toText = x := by
  simp only [Gives, FieldConfig.coerce]
  rcases hkind with hkind | hkind <;> rw [hkind] <;> simp

theorem mem_names_of_mem_values {v : Value} (hv : v ∈ doc.values name) : name ∈ doc.names := by
  rw [values_eq_map] at hv
  obtain ⟨p, hp, -⟩ := List.mem_map.1 hv
  obtain ⟨hp, hname⟩ := List.mem_filter.1 hp
  rw [names, mem_distinct]
  exact List.mem_map.2 ⟨p, hp, by simpa using hname⟩

theorem keptConfig_of_indexed (hplan : plan.fields.get? name = some (.field c))
    (hkind : c.kind ≠ .ignored) (hindexed : c.indexed = true) : keptConfig plan name = some c := by
  simp [keptConfig, hplan, FieldConfig.isDiscarded, hkind, hindexed]

/-- The values of a field that was settled are what the given ones come to. -/
theorem mem_values_of_prepareField {values : List Value}
    (h : prepareField kinds backend name c values = .ok f) :
    x ∈ f.values ↔ ∃ v ∈ values, c.coerce name v = .ok (some x) := by
  obtain ⟨coerced, hcoerced, h⟩ := Except.bind_eq_ok.1 h
  cases h
  constructor
  · intro hx
    obtain ⟨o, ho, rfl⟩ := List.mem_filterMap.1 hx
    obtain ⟨v, hv, hprepared⟩ := Except.exists_of_mem_mapM hcoerced ho
    exact ⟨v, hv, coerce_of_prepareValue hprepared⟩
  · rintro ⟨v, hv, hx⟩
    obtain ⟨o, ho, hprepared⟩ := Except.exists_mem_of_mapM hcoerced hv
    obtain rfl : o = some x := Except.ok.inj ((coerce_of_prepareValue hprepared).symm.trans hx)
    exact List.mem_filterMap.2 ⟨some x, ho, rfl⟩

section
variable (hd : doc.prepare plan kinds backend = .ok d)
include hd

theorem exists_mem_fields_of_prepare (hkept : keptConfig plan name = some c)
    (hname : name ∈ doc.names) :
    ∃ f ∈ d.fields, prepareField kinds backend name c (doc.values name) = .ok f := by
  obtain ⟨fields, hfields, hd⟩ := Except.bind_eq_ok.1 hd
  cases hd
  have hmem : (name, c) ∈ doc.names.filterMap fun n => (keptConfig plan n).map (n, ·) :=
    List.mem_filterMap.2 ⟨name, hname, by rw [hkept]; rfl⟩
  obtain ⟨f, hf, hprepared⟩ := Except.exists_mem_of_mapM hfields hmem
  exact ⟨f, hf, hprepared⟩

variable (hkept : keptConfig plan name = some c)
include hkept

/-- What is given for a field that is kept is what the field of that name has. -/
theorem gives_iff_of_prepare :
    doc.Gives name c x ↔ ∃ f ∈ d.fields, f.name = name ∧ f.config = c ∧ x ∈ f.values := by
  constructor
  · rintro ⟨v, hv, hx⟩
    obtain ⟨f, hf, hprepared⟩ :=
      exists_mem_fields_of_prepare hd hkept (mem_names_of_mem_values hv)
    obtain ⟨hname, hconfig, -⟩ := prepareField_eq_ok hprepared
    exact ⟨f, hf, hname, hconfig, (mem_values_of_prepareField hprepared).2 ⟨v, hv, hx⟩⟩
  · rintro ⟨f, hf, rfl, rfl, hx⟩
    exact (mem_values_of_prepareField (exists_of_mem_fields hd hf).2).1 hx

variable (hindexed : c.indexed = true) {t : String}
include hindexed

/-- **What an indexed field is found by** are the tokens of what its values come to. -/
theorem mem_tokensIn_of_prepare :
    t ∈ d.tokensIn name ↔ ∃ x, doc.Gives name c x ∧ t ∈ c.kind.valueTokens x := by
  simp only [PreparedDocument.mem_tokensIn, gives_iff_of_prepare hd hkept, Memory.fieldTokens,
    List.mem_flatMap]
  constructor
  · rintro ⟨f, hf, -, rfl, x, hx, ht⟩
    obtain rfl : c = f.config :=
      Option.some.inj (hkept.symm.trans (exists_of_mem_fields hd hf).1)
    exact ⟨x, ⟨f, hf, rfl, rfl, hx⟩, ht⟩
  · rintro ⟨x, ⟨f, hf, rfl, rfl, hx⟩, ht⟩
    exact ⟨f, hf, hindexed, rfl, x, hx, ht⟩

/-- **Words of an indexed free-text field** find the document in any of them. -/
theorem mem_freeTokens_of_prepare (hkind : c.kind = .freeText) (hx : doc.Gives name c x)
    (ht : t ∈ c.kind.valueTokens x) : t ∈ d.freeTokens := by
  obtain ⟨f, hf, -, rfl, hvalue⟩ := (gives_iff_of_prepare hd hkept).1 hx
  exact PreparedDocument.mem_freeTokens.2
    ⟨f, hf, hindexed, hkind, List.mem_flatMap.2 ⟨x, hvalue, ht⟩⟩

end

end Searchlight.Document
