import Searchlight.Proofs.Disk.Sound
import Searchlight.Proofs.Query.Translating
import Searchlight.SetStore.Plan

/-!
# Which leaves are refused

A backend refuses a leaf on a field that its schema does not have, and on an indexed field of numbers
or dates the first term that is none (`Schema.refuses?`). The in-memory store and the posting sets
look the field up in the schema; an index on disk looks for the number of the field, which ignored
fields and those without an index do not have. As all other fields have one, the three refuse the
same leaves (`Memory.refuses`, `SetStore.refuses`, `Disk.refuses`).
-/

namespace Searchlight

/-- What is wrong with the terms that are asked of an indexed field: on numbers and dates, the first
one that is none. -/
def FieldKind.refuses? (name : String) (kind : FieldKind) (terms : List String) : Option Error :=
  match kind with
  | numeric => terms.findSome? fun t =>
    if (Binary.read? .double t).isSome then none
    else some (.querying s!"field '{name}' is numeric, got '{t}'")
  | date => terms.findSome? fun t =>
    if (Rfc3339.read? t).isSome then none
    else some (.querying s!"field '{name}' holds dates, got '{t}'")
  | freeText | exactMatch | ignored => none

/-- What is wrong with a leaf on a field: the schema does not have the field, or has it indexed and
the terms are no such values. -/
def Schema.refuses? (s : Schema) (name : String) (terms : List String) : Option Error :=
  match s.get? name with
  | none => some (.unknownField name)
  | some c => if c.indexed then c.kind.refuses? name terms else none

/-! ## Terms -/

section
variable {name : String}

theorem map_parseNumber {β : Type} (g : Double → β) (t : String) :
    ((parseNumber name t).map g).map (fun _ => ()) =
      checked (if (Binary.read? .double t).isSome then none
        else some (.querying s!"field '{name}' is numeric, got '{t}'")) := by
  rw [parseNumber]
  cases Binary.read? .double t <;> rfl

theorem map_parseDate {β : Type} (g : Instant → β) (t : String) :
    ((parseDate name t).map g).map (fun _ => ()) =
      checked (if (Rfc3339.read? t).isSome then none
        else some (.querying s!"field '{name}' holds dates, got '{t}'")) := by
  rw [parseDate]
  cases Rfc3339.read? t <;> rfl

theorem map_queryTokens (kind : FieldKind) (terms : List String) :
    (kind.queryTokens name terms).map (fun _ => ()) = checked (kind.refuses? name terms) := by
  cases kind with
  | freeText | exactMatch | ignored => rfl
  | numeric => exact map_mapM (map_parseNumber _) terms
  | date => exact map_mapM (map_parseDate _) terms

theorem Disk.map_fieldValues (analyze : Disk.Analyzer) (kind : FieldKind) (terms : List String) :
    (Disk.fieldValues analyze name kind terms).map (fun _ => ()) =
      checked (kind.refuses? name terms) := by
  cases kind with
  | freeText | exactMatch | ignored => rfl
  | numeric => exact map_mapM (map_parseNumber _) terms
  | date => exact map_mapM (map_parseDate _) terms

end

/-! ## Backends -/

/-- A leaf that is told by the schema and the tokens of its terms. -/
theorem map_leaf {β : Type} (schema : Schema) (name : String) (terms : List String)
    (leaf : List String → β) (nothing : β) :
    (match schema.get? name with
      | none => .error (.unknownField name)
      | some c =>
        if c.indexed then do
          let tokens ← c.kind.queryTokens name terms
          .ok (leaf tokens)
        else .ok nothing : Except Error β).map (fun _ => ()) =
      checked (schema.refuses? name terms) := by
  rw [Schema.refuses?]
  cases schema.get? name with
  | none => rfl
  | some c =>
    dsimp only
    split
    · rw [← map_queryTokens, Query.map_bind_total fun _ => ⟨_, rfl⟩]
    · rfl

theorem Memory.refuses (schema : Schema) :
    (Memory.translator schema).Refuses schema.refuses? where
  freeText _ := ⟨_, rfl⟩
  field name terms := map_leaf schema name terms _ _
  and _ := ⟨_, rfl⟩
  or _ := ⟨_, rfl⟩
  not _ _ := ⟨_, rfl⟩
  xor _ := ⟨_, rfl⟩

theorem SetStore.refuses (keys : KeySpace) (schema : Schema) :
    (SetStore.translator keys schema).Refuses schema.refuses? where
  freeText _ := ⟨_, rfl⟩
  field name terms := map_leaf schema name terms _ _
  and _ := ⟨_, rfl⟩
  or _ := ⟨_, rfl⟩
  not _ _ := ⟨_, rfl⟩
  xor _ := ⟨_, rfl⟩

theorem Schema.refuses?_of_not_isSearchable {s : Schema} {name : String} {c : FieldConfig}
    (hschema : s.get? name = some c) (h : ¬ c.isSearchable = true) (terms : List String) :
    s.refuses? name terms = none := by
  rw [Schema.refuses?, hschema]
  dsimp only
  split
  · rename_i hindexed
    have hkind : c.kind = .ignored := by simpa [FieldConfig.isSearchable, hindexed] using h
    rw [hkind]
    rfl
  · rfl

namespace Disk

variable {m : FieldMap} {analyze : Analyzer} {name : String} {terms : List String}

theorem fieldLeaf_of_unknown (hm : m.IsNumbered) (hschema : m.schema.get? name = none) :
    fieldLeaf m analyze name terms = .error (.unknownField name) := by
  have hname : m.numbered.get? name = none := by
    refine Option.eq_none_iff_forall_ne_some.2 fun e he => ?_
    obtain ⟨layout, hlayout⟩ := hm
    cases hschema.symm.trans (FieldMap.of_get?_numbered hlayout he).1
  have hunknown : ¬ m.schema.contains name = true := by
    intro hcontains
    obtain ⟨c, hc⟩ := KeyMap.contains_eq_true_iff.1 hcontains
    cases hschema.symm.trans hc
  rw [fieldLeaf, hname]
  exact if_neg hunknown

theorem fieldLeaf_of_not_isSearchable (hm : m.IsNumbered) {c : FieldConfig}
    (hschema : m.schema.get? name = some c) (h : ¬ c.isSearchable = true) :
    fieldLeaf m analyze name terms = .ok .nothing := by
  have hname : m.numbered.get? name = none := by
    refine Option.eq_none_iff_forall_ne_some.2 fun e he => h ?_
    obtain ⟨layout, hlayout⟩ := hm
    cases hschema.symm.trans (FieldMap.of_get?_numbered hlayout he).1
    exact FieldMap.isSearchable_of_get?_numbered ⟨layout, hlayout⟩ he
  have hknown : m.schema.contains name = true := KeyMap.contains_eq_true_iff.2 ⟨c, hschema⟩
  rw [fieldLeaf, hname]
  exact if_pos hknown

theorem refuses (hm : m.Sound) (analyze : Analyzer) :
    (translator m analyze).Refuses m.schema.refuses? where
  freeText _ := ⟨_, rfl⟩
  field name terms := by
    change (fieldLeaf m analyze name terms).map _ = _
    cases hschema : m.schema.get? name with
    | none =>
      rw [fieldLeaf_of_unknown hm.isNumbered hschema, Schema.refuses?, hschema]
      rfl
    | some c =>
      by_cases hsearchable : c.isSearchable = true
      · obtain ⟨n, hname⟩ := hm.complete name c hschema hsearchable
        rw [fieldLeaf, hname, Schema.refuses?, hschema]
        dsimp only
        rw [if_pos (Bool.and_eq_true_iff.1 hsearchable).1, ← map_fieldValues analyze]
        cases fieldValues analyze name c.kind terms <;> rfl
      · rw [fieldLeaf_of_not_isSearchable hm.isNumbered hschema hsearchable,
          Schema.refuses?_of_not_isSearchable hschema hsearchable]
        rfl
  and _ := ⟨_, rfl⟩
  or _ := ⟨_, rfl⟩
  not _ _ := ⟨_, rfl⟩
  xor _ := ⟨_, rfl⟩

end Disk

end Searchlight
