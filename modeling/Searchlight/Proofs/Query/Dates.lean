import Searchlight.Proofs.Field.Coercion
import Searchlight.Proofs.Query.Agreement
import Searchlight.Proofs.Time.Rfc3339

/-!
# Dates by their own text

A date is asked for by a timestamp, which the strict reader reads. So the text of an instant asks for
the token that the instant is filed under if its year is written with four digits, and is refused if
the year is written with a sign (`queryTokens_text`). Fields of dates accept years of both sorts: as
instants, and as texts whose offset takes them out of the year that they were read with. What is
filed under a year with a sign is not found by its own text (`date_found_iff`).
-/

namespace Searchlight

/-- What is accepted for a field of dates is an instant. -/
theorem FieldConfig.exists_of_coerce_date {c : FieldConfig} (hkind : c.kind = .date) {name : String}
    {v : Value} {x : Option IndexValue} (h : c.coerce name v = .ok x) : ∃ t, x = some (.date t) := by
  rw [coerce, hkind] at h
  obtain ⟨y, hy, rfl⟩ := Except.map_eq_ok.1 h
  obtain ⟨t, rfl⟩ := exists_of_coerceDate hy
  exact ⟨t, rfl⟩

theorem parseDate_text (name : String) (t : Instant) :
    parseDate name (Rfc3339.text t) =
      if t.HasShortYear then .ok t
      else .error (.querying s!"field '{name}' holds dates, got '{Rfc3339.text t}'") := by
  rw [parseDate, Rfc3339.read?_text]
  by_cases h : t.HasShortYear
  · rw [if_pos h, if_pos h]
  · rw [if_neg h, if_neg h]

/-- **The text of an instant** asks for the token that the instant is filed under, or is refused. -/
theorem queryTokens_text (name : String) (t : Instant) :
    FieldKind.date.queryTokens name [(Value.dateTime t).toText] =
      if t.HasShortYear then .ok (FieldKind.date.valueTokens (.date t))
      else .error (.querying s!"field '{name}' holds dates, got '{(Value.dateTime t).toText}'") := by
  rw [FieldKind.queryTokens, Value.toText, List.mapM_cons, List.mapM_nil, parseDate_text]
  split <;> rfl

namespace PreparedDocument

/-- The document has the instant in an indexed field of the name. -/
def HasDate (d : PreparedDocument) (name : String) (t : Instant) : Prop :=
  ∃ f ∈ d.fields, f.name = name ∧ f.config.indexed = true ∧ .date t ∈ f.values

theorem HasDate.mem_tokensIn {d : PreparedDocument} {name : String} {t : Instant}
    (h : d.HasDate name t) : dateToken t ∈ d.tokensIn name := by
  obtain ⟨f, hf, hname, hindexed, ht⟩ := h
  have htoken : dateToken t ∈ Memory.fieldTokens f :=
    List.mem_flatMap.2 ⟨_, ht, List.mem_singleton_self _⟩
  exact PreparedDocument.mem_tokensIn.2 ⟨f, hf, hindexed, hname, htoken⟩

end PreparedDocument

/-! ## Backends -/

section
variable {schema : Schema} {name : String} {c : FieldConfig} (hschema : schema.get? name = some c)
  (hkind : c.kind = .date) (hindexed : c.indexed = true)
include hschema hkind hindexed

theorem Memory.fieldLeaf_text (t : Instant) :
    fieldLeaf schema name [(Value.dateTime t).toText] =
      if t.HasShortYear then .ok (.field name [dateToken t])
      else .error (.querying s!"field '{name}' holds dates, got '{(Value.dateTime t).toText}'") := by
  rw [fieldLeaf, hschema]
  dsimp only
  rw [if_pos hindexed, hkind, queryTokens_text]
  split <;> rfl

theorem SetStore.fieldLeaf_text (keys : KeySpace) (t : Instant) :
    fieldLeaf keys schema name [(Value.dateTime t).toText] =
      if t.HasShortYear then .ok (.key (keys.posting name (dateToken t)))
      else .error (.querying s!"field '{name}' holds dates, got '{(Value.dateTime t).toText}'") := by
  rw [fieldLeaf, hschema]
  dsimp only
  rw [if_pos hindexed, hkind, queryTokens_text]
  split <;> rfl

/-- **Which accepted dates are found.** What is accepted for an indexed field of dates is an instant.
Its own text asks for the token that it is filed under, and finds it in memory and in posting sets,
just when its year is written with four digits; else the text is refused. -/
theorem date_found_iff {v : Value} {x : Option IndexValue} (hv : c.coerce name v = .ok x) :
    ∃ t, x = some (.date t) ∧
      c.kind.queryTokens name [(Value.dateTime t).toText] =
        (if t.HasShortYear then .ok (c.kind.valueTokens (.date t))
        else .error (.querying s!"field '{name}' holds dates, got '{(Value.dateTime t).toText}'")) ∧
      ∀ (keys : SetStore.KeySpace) {docs : List (String × PreparedDocument)},
        (docs.map (·.1)).Nodup → ∀ {id : String} {d : PreparedDocument}, (id, d) ∈ docs →
          d.HasDate name t →
          ((∃ q, (Query.field name [(Value.dateTime t).toText]).translate Memory.capabilities
                Memory.backendName (Memory.translator schema) = .ok q ∧
              id ∈ (Memory.Store.holding schema docs).matched q) ↔ t.HasShortYear) ∧
            ((∃ p, (Query.field name [(Value.dateTime t).toText]).translate SetStore.capabilities
                  SetStore.backendName (SetStore.translator keys schema) = .ok p ∧
                p.holds (SetStore.postingSets keys docs) id = true) ↔ t.HasShortYear) := by
  obtain ⟨t, rfl⟩ := FieldConfig.exists_of_coerce_date hkind hv
  refine ⟨t, rfl, hkind ▸ queryTokens_text name t, fun keys docs hdocs id d hd ht => ⟨?_, ?_⟩⟩
  · change (∃ q, Memory.fieldLeaf schema name [(Value.dateTime t).toText] = .ok q ∧ _) ↔ _
    rw [Memory.fieldLeaf_text hschema hkind hindexed]
    by_cases hyear : t.HasShortYear
    · refine iff_of_true ⟨_, if_pos hyear, ?_⟩ hyear
      obtain ⟨n, hn⟩ := Memory.Store.get?_holding schema hdocs hd
      have hmatch : (Memory.Entry.build n d).matchesQuery (.field name [dateToken t]) = true :=
        (@Memory.Entry.matches_field n d name [dateToken t]).2
          ⟨by simp, by simpa using ht.mem_tokensIn⟩
      exact Memory.Store.mem_matched.2 ⟨_, hn, hmatch⟩
    · rw [if_neg hyear]
      exact iff_of_false (fun ⟨_, hq, _⟩ => by cases hq) hyear
  · change (∃ p, SetStore.fieldLeaf keys schema name [(Value.dateTime t).toText] = .ok p ∧ _) ↔ _
    rw [SetStore.fieldLeaf_text hschema hkind hindexed]
    by_cases hyear : t.HasShortYear
    · refine iff_of_true ⟨_, if_pos hyear, ?_⟩ hyear
      rw [SetStore.Plan.holds, SetStore.contains_postingSets hdocs hd,
        SetStore.posting_mem_postings]
      exact ht.mem_tokensIn
    · rw [if_neg hyear]
      exact iff_of_false (fun ⟨_, hp, _⟩ => by cases hp) hyear

end

def turnOfTheYear : Instant := ⟨253402304399, 0, by decide⟩

def dated : List (String × PreparedDocument) :=
  [("1", ⟨[⟨"when", .date, [.date turnOfTheYear], [.text "9999-12-31T23:59:59-01:00"]⟩]⟩)]

/-- The text of the year 9999 is accepted, and its instant is refused as the term of a query. -/
theorem date_found_iff_turnOfTheYear :
    FieldConfig.date.coerce "when" (.text "9999-12-31T23:59:59-01:00") =
        .ok (some (.date turnOfTheYear)) ∧
      FieldKind.date.queryTokens "when" [(Value.dateTime turnOfTheYear).toText] =
        .error (.querying "field 'when' holds dates, got '+10000-01-01T00:59:59Z'") ∧
      (¬∃ q, (Query.field "when" [(Value.dateTime turnOfTheYear).toText]).translate
          Memory.capabilities Memory.backendName
          (Memory.translator (.ofList [("when", .date)])) = .ok q ∧
        "1" ∈ (Memory.Store.holding (.ofList [("when", .date)]) dated).matched q) ∧
      ¬∃ p, (Query.field "when" [(Value.dateTime turnOfTheYear).toText]).translate
          SetStore.capabilities SetStore.backendName
          (SetStore.translator ⟨"s"⟩ (.ofList [("when", .date)])) = .ok p ∧
        p.holds (SetStore.postingSets ⟨"s"⟩ dated) "1" = true := by
  have hread : FieldConfig.date.coerce "when" (.text "9999-12-31T23:59:59-01:00") =
      .ok (some (.date turnOfTheYear)) := by
    decide +kernel
  have hlong : ¬ turnOfTheYear.HasShortYear := by decide +kernel
  have htext : (Value.dateTime turnOfTheYear).toText = "+10000-01-01T00:59:59Z" := by
    decide +kernel
  have hdocs : (dated.map (·.1)).Nodup := by decide
  have hdate : (dated.head (by decide)).2.HasDate "when" turnOfTheYear :=
    ⟨_, List.mem_singleton_self _, rfl, rfl, List.mem_singleton_self _⟩
  have hschema : (Schema.ofList [("when", .date)]).get? "when" = some .date := rfl
  obtain ⟨t, ht, htokens, hfound⟩ := date_found_iff hschema rfl rfl hread
  cases ht
  obtain ⟨hmemory, hsets⟩ := hfound ⟨"s"⟩ hdocs (List.mem_singleton_self _) hdate
  rw [if_neg hlong, htext] at htokens
  exact ⟨hread, htext ▸ htokens, fun h => hlong (hmemory.1 h), fun h => hlong (hsets.1 h)⟩

end Searchlight
