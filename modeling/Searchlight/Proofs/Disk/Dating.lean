import Searchlight.Proofs.Disk.Stocking
import Searchlight.Proofs.Query.Dates
import Searchlight.Text.Stem

/-!
# Dates on disk and in memory

A date is indexed by the microseconds of its instant and searched by the seconds, and the index cuts
both toward zero. Before 1970 this takes a fraction of a second up to the next second, and a leap
second runs into the next one everywhere (`indexedSeconds_eq`). In memory both sides are cut down to
the same second (`PreparedDocument.dateToken_mem_tokensIn`). So a document is found by its date on
disk and in memory alike, unless the date was carried into another second or a leap second is asked
for (`Store.dates_alike_iff`).
-/

namespace Searchlight

namespace Instant

/-- The seconds that an index on disk carries the instant forward by: one for a leap second, and one
where a fraction before 1970 is cut toward zero. -/
def carry (t : Instant) : Int :=
  if t.IsLeap then if t.seconds < -1 ∧ 1000001000 ≤ t.nanos then 2 else 1
  else if t.seconds < 0 ∧ 1000 ≤ t.nanos then 1
  else 0

/-- Nothing is carried from 1970 on, or from a whole second, but for leap seconds. -/
theorem carry_eq_zero_iff {t : Instant} :
    t.carry = 0 ↔ ¬ t.IsLeap ∧ (0 ≤ t.seconds ∨ t.nanos < 1000) := by
  unfold carry
  split_ifs <;> simp_all
  omega

/-- 64 bits hold the nanoseconds that the instant is indexed by. -/
def Indexable (t : Instant) : Prop :=
  -(2 ^ 63) ≤ (t.seconds * 1000000 + t.nanos / 1000) * 1000 ∧
    (t.seconds * 1000000 + t.nanos / 1000) * 1000 < 2 ^ 63

/-- 64 bits hold the nanoseconds that the instant is searched by. -/
def Searchable (u : Instant) : Prop :=
  -(2 ^ 63) ≤ u.seconds * 1000000000 ∧ u.seconds * 1000000000 < 2 ^ 63

/-- A date that is indexed as one instant and searched as the other is found on disk or in memory,
and not in both. -/
def Strays (t u : Instant) : Prop :=
  if t.carry = 0 then t.seconds = u.seconds ∧ u.IsLeap
  else t.seconds + t.carry = u.seconds ∨ t.SameSecond u

theorem strays_iff {t u : Instant} :
    t.Strays u ↔ ¬ (t.seconds + t.carry = u.seconds ↔ t.SameSecond u) := by
  unfold Strays
  split_ifs with hcarry
  · have hleap := (carry_eq_zero_iff.1 hcarry).1
    rw [hcarry, SameSecond]
    simp only [hleap, false_iff, add_zero]
    tauto
  · have hne : t.SameSecond u → t.seconds + t.carry ≠ u.seconds := fun h => by
      rw [← h.1]
      omega
    tauto

end Instant

namespace Disk

theorem wholeSeconds_of_held {n : Int} (h : -(2 ^ 63) ≤ n ∧ n < 2 ^ 63) :
    wholeSeconds n = n.tdiv 1000000000 := by
  rw [wholeSeconds, Int.bmod_eq_of_le] <;> simp <;> omega

theorem searchedSeconds_eq {u : Instant} (h : u.Searchable) : searchedSeconds u = u.seconds := by
  rw [searchedSeconds, wholeSeconds_of_held h, Int.mul_tdiv_cancel _ (by decide)]

/-- **Where a date is indexed**: at its second, or ahead of it by what is carried. -/
theorem indexedSeconds_eq {t : Instant} (h : t.Indexable) :
    indexedSeconds t = t.seconds + t.carry := by
  obtain ⟨-, -, hnanos, hleap⟩ := t.inRange
  have hsign : Int.sign 1000000000 = 1 := rfl
  rw [indexedSeconds, wholeSeconds_of_held h, Int.tdiv_eq_ediv, hsign]
  unfold Instant.carry Instant.IsLeap
  split_ifs <;> omega

end Disk

/-! ## Documents -/

section
variable {schema : Schema} {d : PreparedDocument} {name : String} {c : FieldConfig}
  (hd : d.Resolved schema)
include hd

/-- **In memory** a document is found by the second of one of its dates. -/
theorem PreparedDocument.dateToken_mem_tokensIn (hschema : schema.get? name = some c)
    (hdate : c.kind = .date) {u : Instant} :
    dateToken u ∈ d.tokensIn name ↔ ∃ t, d.HasDate name t ∧ t.SameSecond u := by
  rw [mem_tokensIn]
  constructor
  · rintro ⟨f, hf, hindexed, hname, hu⟩
    obtain ⟨x, hx, hu⟩ := List.mem_flatMap.1 hu
    have htakes := hd.takes hschema hf hname hx
    rw [hdate] at htakes
    obtain ⟨t, rfl⟩ := htakes
    have htoken : dateToken u = dateToken t := List.mem_singleton.1 hu
    exact ⟨t, ⟨f, hf, hname, hindexed, hx⟩, Rfc3339.secondsText_eq_iff.1 htoken.symm⟩
  · rintro ⟨t, ⟨f, hf, hname, hindexed, ht⟩, hsame⟩
    have htoken : dateToken t = dateToken u := Rfc3339.secondsText_eq_iff.2 hsame
    exact ⟨f, hf, hindexed, hname,
      List.mem_flatMap.2 ⟨.date t, ht, List.mem_singleton.2 htoken.symm⟩⟩

/-- **On disk** a document is found by the second that one of its dates is indexed by. -/
theorem Disk.matches_date (hunreserved : (FieldMap.build schema).Unreserved)
    {analyze : Analyzer} {id : String} {r : Record}
    (hr : (FieldMap.build schema).record? analyze id d = some r) {n : Nat}
    (hname : (FieldMap.build schema).numbered.get? name = some (n, c)) (hdate : c.kind = .date)
    {k : Int} :
    (TermQuery.allOf [.term ⟨n, .date k⟩]).matchesRecord r = true ↔
      ∃ t, d.HasDate name t ∧ indexedSeconds t = k := by
  have hschema := (FieldMap.of_get?_numbered rfl hname).1
  change (TermQuery.term ⟨n, .date k⟩).matchesRecord r = true ↔ _
  rw [TermQuery.matches_term, FieldMap.date_mem_terms_iff hunreserved hname hr hd hdate]
  constructor
  · rintro ⟨f, hf, hfname, t, ht, hk⟩
    have hindexed := FieldMap.indexed_of_number hname
    rw [← hd.config_eq hschema hf hfname] at hindexed
    exact ⟨t, ⟨f, hf, hfname, hindexed, ht⟩, hk⟩
  · rintro ⟨t, ⟨f, hf, hfname, -, ht⟩, hk⟩
    exact ⟨f, hf, hfname, t, ht, hk⟩

end

/-! ## Stores -/

namespace Disk.Store

section
variable {committed upcoming : List (String × PreparedDocument)} {s : Store} {v : Volume}
  (h : Stocked committed upcoming (s, v)) (id : String) {name : String} {c : FieldConfig}
  (hschema : s.fields.schema.get? name = some c) (hdate : c.kind = .date)
  (hindexed : c.indexed = true) {term : String} {u : Instant} (hu : parseDate name term = .ok u)
include h hschema hdate hindexed hu

/-- On disk a date finds the documents that have one which is indexed by the seconds that are asked
for. -/
theorem finds_date :
    ∃ q, (Query.field name [term]).translate capabilities backendName
        (translator s.fields s.analyze) = .ok q ∧
      (id ∈ s.matched q ↔ ∃ d, (id, d) ∈ committed ∧
        ∃ t, d.HasDate name t ∧ indexedSeconds t = searchedSeconds u) := by
  have hdisplays := h.displays
  have hsearchable : c.isSearchable = true := by simp [FieldConfig.isSearchable, hindexed, hdate]
  obtain ⟨n, hname⟩ := FieldMap.complete_build _ name c hschema hsearchable
  refine ⟨.allOf [.term ⟨n, .date (searchedSeconds u)⟩], ?_, ?_⟩
  · rw [Query.translate_field (supported _) (List.cons_ne_nil _ _)]
    change fieldLeaf s.fields s.analyze name [term] = _
    rw [hdisplays.fields, fieldLeaf, hname]
    dsimp only
    rw [hdate, fieldValues, List.mapM_cons, List.mapM_nil, hu]
    rfl
  · exact hdisplays.mem_matched_iff fun hr hresolved =>
      matches_date hresolved hdisplays.unreserved hr hname hdate

/-- In memory it finds those that have one of the second that is asked for. -/
theorem found_date :
    ∃ p, (Query.field name [term]).translate Memory.capabilities Memory.backendName
        (Memory.translator s.fields.schema) = .ok p ∧
      (id ∈ Memory.found Text.tokenize committed p ↔ ∃ d, (id, d) ∈ committed ∧
        ∃ t, d.HasDate name t ∧ t.SameSecond u) := by
  refine ⟨.field name [dateToken u], ?_, ?_⟩
  · rw [Query.translate_field (Memory.supported _) (List.cons_ne_nil _ _)]
    change Memory.fieldLeaf s.fields.schema name [term] = _
    rw [Memory.fieldLeaf, hschema]
    dsimp only
    rw [if_pos hindexed, hdate, FieldKind.queryTokens, List.mapM_cons, List.mapM_nil, hu]
    rfl
  · refine exists_congr fun d => and_congr_right fun hd => ?_
    have hmatch := @Memory.Entry.matches_field 0 d name [dateToken u]
    rw [Memory.Entry.buildBy_tokenize]
    refine hmatch.trans ?_
    rw [← PreparedDocument.dateToken_mem_tokensIn (h.displays.resolved _ hd) hschema hdate]
    simp

/-- **When dates are found alike.** On disk a date is found by the second that it was carried to, in
memory by its own. So a document with one date is found alike by both, or missed by both, unless the
date strays: it was carried to the second that is asked for or away from it, or the leap second at
its end is asked for. Other documents are found alike if none of their dates strays. -/
theorem dates_alike_iff :
    ∃ q p,
      (Query.field name [term]).translate capabilities backendName
          (translator s.fields s.analyze) = .ok q ∧
      (Query.field name [term]).translate Memory.capabilities Memory.backendName
        (Memory.translator s.fields.schema) = .ok p ∧
      (id ∈ s.matched q ↔ ∃ d, (id, d) ∈ committed ∧
        ∃ t, d.HasDate name t ∧ indexedSeconds t = searchedSeconds u) ∧
      (id ∈ Memory.found Text.tokenize committed p ↔ ∃ d, (id, d) ∈ committed ∧
        ∃ t, d.HasDate name t ∧ t.SameSecond u) ∧
      -- With ids apart, this is what a store of the documents finds.
      ((committed.map (·.1)).Nodup → Memory.found Text.tokenize committed p =
        (Memory.Store.holding s.fields.schema committed).matched p) ∧
      (u.Searchable →
        (∀ d, (id, d) ∈ committed → ∀ t, d.HasDate name t → t.Indexable ∧ ¬ t.Strays u) →
          (id ∈ s.matched q ↔ id ∈ Memory.found Text.tokenize committed p)) ∧
      (u.Searchable → ∀ d, (∀ d', (id, d') ∈ committed ↔ d' = d) →
        ∀ t, (∀ t', d.HasDate name t' ↔ t' = t) → t.Indexable →
          ((id ∈ s.matched q ↔ id ∈ Memory.found Text.tokenize committed p) ↔ ¬ t.Strays u)) := by
  obtain ⟨q, hq, hdisk⟩ := finds_date h id hschema hdate hindexed hu
  obtain ⟨p, hp, hmemory⟩ := found_date h id hschema hdate hindexed hu
  refine ⟨q, p, hq, hp, hdisk, hmemory, fun hnodup => ?_, fun hsearchable hdates => ?_,
    fun hsearchable d hd t ht hheld => ?_⟩
  · rw [← Memory.Store.holdingBy_tokenize]
    exact Memory.found_eq_matched _ _ hnodup
  · rw [hdisk, hmemory]
    refine exists_congr fun d => and_congr_right fun hd =>
      exists_congr fun t => and_congr_right fun ht => ?_
    obtain ⟨hheld, hstays⟩ := hdates d hd t ht
    rw [indexedSeconds_eq hheld, searchedSeconds_eq hsearchable]
    exact not_not.1 (mt Instant.strays_iff.2 hstays)
  · rw [hdisk, hmemory, Instant.strays_iff, not_not]
    simp only [hd, ht, exists_eq_left]
    rw [indexedSeconds_eq hheld, searchedSeconds_eq hsearchable]

end

def datedDocument (t : Instant) : PreparedDocument := ⟨[⟨"when", .date, [.date t], []⟩]⟩

theorem hasDate_datedDocument {t t' : Instant} :
    (datedDocument t).HasDate "when" t' ↔ t' = t := by
  simp [datedDocument, PreparedDocument.HasDate, FieldConfig.date, FieldConfig.ofKind]

theorem resolved_datedDocument (t : Instant) :
    (datedDocument t).Resolved (.ofList [("when", .date)]) where
  config := by
    rw [datedDocument, List.forall_mem_singleton]
    rfl
  values := by
    rw [datedDocument, List.forall_mem_singleton, List.forall_mem_singleton]
    exact ⟨.dateTime t, rfl⟩

def eve : Instant := ⟨-1, 500000000, by decide⟩

def leapSecond : Instant := ⟨1483228799, 1000000000, by decide⟩

def nights : List (String × PreparedDocument) :=
  [("eve", datedDocument eve), ("leap", datedDocument leapSecond)]

theorem stocked_nights :
    ∃ s v, Stocked nights nights (s, v) ∧ s.fields.schema = .ofList [("when", .date)] := by
  have hnights : ∀ e ∈ nights, e.2.Resolved (.ofList [("when", .date)]) := by
    rw [nights, List.forall_mem_cons, List.forall_mem_singleton]
    exact ⟨resolved_datedDocument _, resolved_datedDocument _⟩
  obtain ⟨s, v, hstocked, hschema, -⟩ :=
    exists_stocked Text.stems (o := { BackendOptions.none with path := some "d" })
      (v := ⟨.ofDirectories ["d"], 0⟩) rfl hnights rfl (by decide +kernel)
  exact ⟨s, v, hstocked, hschema⟩

/-- On disk half a second before 1970 is not found by its own text, and the end of 2016 is found by
the beginning of 2017. In memory it is the other way around. -/
theorem dates_alike_iff_nights : ∃ s v q p q' p',
    Stocked nights nights (s, v) ∧
    (Query.field "when" ["1969-12-31T23:59:59.500Z"]).translate capabilities backendName
      (translator s.fields s.analyze) = .ok q ∧
    (Query.field "when" ["1969-12-31T23:59:59.500Z"]).translate Memory.capabilities
      Memory.backendName (Memory.translator s.fields.schema) = .ok p ∧
    "eve" ∉ s.matched q ∧ "eve" ∈ (Memory.Store.holding s.fields.schema nights).matched p ∧
    (Query.field "when" ["2017-01-01T00:00:00Z"]).translate capabilities backendName
      (translator s.fields s.analyze) = .ok q' ∧
    (Query.field "when" ["2017-01-01T00:00:00Z"]).translate Memory.capabilities
      Memory.backendName (Memory.translator s.fields.schema) = .ok p' ∧
    "leap" ∈ s.matched q' ∧ "leap" ∉ (Memory.Store.holding s.fields.schema nights).matched p' := by
  obtain ⟨s, v, hstocked, hfields⟩ := stocked_nights
  have hschema : s.fields.schema.get? "when" = some .date := by
    rw [hfields]
    rfl
  have heve : parseDate "when" "1969-12-31T23:59:59.500Z" = .ok eve := by decide +kernel
  have hnew : parseDate "when" "2017-01-01T00:00:00Z" = .ok ⟨1483228800, 0, by decide⟩ := by
    decide +kernel
  have hfirst (d : PreparedDocument) : ("eve", d) ∈ nights ↔ d = datedDocument eve := by
    simp [nights]
  have hsecond (d : PreparedDocument) : ("leap", d) ∈ nights ↔ d = datedDocument leapSecond := by
    simp [nights]
  obtain ⟨q, p, hq, hp, hdisk, hmemory, hstore, -, -⟩ :=
    dates_alike_iff hstocked "eve" hschema rfl rfl heve
  obtain ⟨q', p', hq', hp', hdisk', hmemory', hstore', -, -⟩ :=
    dates_alike_iff hstocked "leap" hschema rfl rfl hnew
  simp only [hfirst, hsecond, exists_eq_left, hasDate_datedDocument] at hdisk hmemory hdisk' hmemory'
  rw [hstore (by decide)] at hmemory
  rw [hstore' (by decide)] at hmemory'
  refine ⟨s, v, q, p, q', p', hstocked, hq, hp, fun heve => ?_, hmemory.2 ⟨rfl, Iff.rfl⟩, hq', hp',
    hdisk'.2 (by decide), fun hleap => ?_⟩
  · exact absurd (hdisk.1 heve) (by decide)
  · exact absurd (hmemory'.1 hleap).1 (by decide)

end Disk.Store

end Searchlight
