import Searchlight.Proofs.Disk.Following
import Searchlight.Proofs.Disk.Indexing
import Searchlight.Proofs.Disk.Ledger

/-!
# The documents of a store on disk

A ledger tells the records of a store. Here they are told to be the records of documents
(`FieldMap.Files`), whatever order the documents were indexed, deleted, committed and given up in
(`Store.Stocked`). What such a store shows are the documents that were committed last, each by its
record (`Store.Stocked.displays`).
-/

namespace Searchlight.Disk

open Searchlight.Action (Keeps)

theorem FieldMap.record?_id {m : FieldMap} {analyze : Analyzer} {id : String}
    {d : PreparedDocument} {r : Record} (h : m.record? analyze id d = some r) : r.id = id := by
  obtain ⟨_, -, rfl⟩ := Option.map_eq_some_iff.1 h
  rfl

/-- The records are those of the documents, whose values were coerced for the fields. -/
structure FieldMap.Files (m : FieldMap) (analyze : Analyzer)
    (docs : List (String × PreparedDocument)) (rs : List Record) : Prop where
  resolved : ∀ e ∈ docs, e.2.Resolved m.schema
  records : rs = docs.filterMap fun e => m.record? analyze e.1 e.2

namespace FieldMap.Files

variable {m : FieldMap} {analyze : Analyzer} {docs : List (String × PreparedDocument)}
  {rs : List Record}

theorem nil (m : FieldMap) (analyze : Analyzer) : m.Files analyze [] [] where
  resolved e he := by cases he
  records := rfl

theorem append (h : m.Files analyze docs rs) {id : String} {d : PreparedDocument}
    (hd : d.Resolved m.schema) {r : Record} (hr : m.record? analyze id d = some r) :
    m.Files analyze (docs ++ [(id, d)]) (rs ++ [r]) where
  resolved e he := by
    rcases List.mem_append.1 he with he | he
    · exact h.resolved e he
    · cases List.mem_singleton.1 he
      exact hd
  records := by
    rw [List.filterMap_append, ← h.records]
    simp [hr]

/-- Records have the ids of their documents, so that an id finds both or neither. -/
theorem without (h : m.Files analyze docs rs) (id : String) :
    m.Files analyze (without (·.1) id docs) (Disk.without (·.id) id rs) where
  resolved e he := h.resolved e (List.mem_filter.1 he).1
  records := by
    rw [h.records, Disk.without, Disk.without, List.filter_filterMap, List.filterMap_filter]
    refine List.filterMap_congr fun e _ => ?_
    cases hr : m.record? analyze e.1 e.2 with
    | none => simp
    | some r => simp [Option.filter, record?_id hr]

theorem eq_nil {s : Schema} (hu : (build s).Unreserved) (h : (build s).Files analyze docs []) :
    docs = [] := by
  refine List.eq_nil_iff_forall_not_mem.2 fun e he => ?_
  obtain ⟨r, hr⟩ : ∃ r, (build s).record? analyze e.1 e.2 = some r :=
    exists_record_of_resolved hu (h.resolved e he) e.1
  have hmem : r ∈ docs.filterMap fun e => (build s).record? analyze e.1 e.2 :=
    List.mem_filterMap.2 ⟨e, he, hr⟩
  rw [← h.records] at hmem
  cases hmem

end FieldMap.Files

/-! ## Opening -/

/-- The fields are numbered as the index has them. -/
def FieldMap.Laid (m : FieldMap) : Prop := m.numbered = numbering m.layout m.schema

theorem FieldMap.Laid.eq_build {m : FieldMap} (h : m.Laid)
    (hlayout : m.layout = indexedFields m.schema) : m = build m.schema := by
  rw [Laid] at h
  rw [build, ← hlayout, ← h]

theorem FieldMap.laid_of_ofLayout {layout : Layout} {schema : Schema} {m : FieldMap}
    (h : ofLayout layout schema = .ok m) : m.Laid := by
  rw [ofLayout] at h
  split at h <;> cases h
  rfl

theorem keeps_load_laid {path : String} {readonly : Bool} {memory : Nat} :
    Keeps (fun _ => True) (load path readonly memory) fun found =>
      found.1.Laid ∧ (found.2 = none → found.1 = .build found.1.schema) :=
  Keeps.get.bind fun _ _ => Keeps.seq .nothing fun _ =>
    .ite (fun _ => Keeps.seq .nothing fun _ =>
      ((Keeps.ofExcept fun _ h => h).orUndo .nothing).bind fun _ h =>
        .pure ⟨FieldMap.laid_of_ofLayout h, fun hnone => by cases hnone⟩)
      fun _ => .pure ⟨rfl, fun _ => rfl⟩

namespace Store

theorem laid_of_openWith {analyze : Analyzer} {o : BackendOptions} {v v' : Volume} {s : Store}
    (h : openWith analyze o v = .ok s v') :
    s.analyze = analyze ∧ s.fields.Laid ∧
      (s.live = none → s.fields = .build s.fields.schema) := by
  have hkeeps : Keeps (fun _ => True) (openWith analyze o) fun s =>
      s.analyze = analyze ∧ s.fields.Laid ∧
        (s.live = none → s.fields = .build s.fields.schema) := by
    refine Keeps.seq .nothing fun _ => ?_
    split
    · exact .throw
    · have hload {path : String} {memory : Nat} {lock : Option Nat} :
          Keeps (fun _ => True)
            ((load path o.readonly memory).orUndo (lock.forM Volume.release)) fun found =>
              found.1.Laid ∧ (found.2 = none → found.1 = .build found.1.schema) :=
        keeps_load_laid.orUndo .nothing
      exact .ite (fun _ => Keeps.seq .nothing fun _ => hload.bind fun _ h => .pure ⟨rfl, h⟩)
        fun _ => Keeps.seq .nothing fun _ => Keeps.seq .nothing fun _ =>
          hload.bind fun _ h => .pure ⟨rfl, h⟩
  exact (hkeeps.of_ok trivial h).2

/-! ## What is shown -/

/-- A store whose index was made for the schema shows the records of the documents, and no others. -/
structure Displays (schema : Schema) (docs : List (String × PreparedDocument)) (s : Store) :
    Prop where
  fields : s.fields = .build schema
  unreserved : (FieldMap.build schema).Unreserved
  resolved : ∀ e ∈ docs, e.2.Resolved schema
  records : ∀ r, r ∈ s.visible.records ↔
    ∃ e ∈ docs, (FieldMap.build schema).record? s.analyze e.1 e.2 = some r

namespace Displays

variable {schema : Schema} {docs : List (String × PreparedDocument)} {s : Store} {id : String}

theorem exists_record (h : s.Displays schema docs) {e : String × PreparedDocument} (he : e ∈ docs) :
    ∃ r, (FieldMap.build schema).record? s.analyze e.1 e.2 = some r :=
  FieldMap.exists_record_of_resolved h.unreserved (h.resolved e he) e.1

/-- A query finds the documents whose records match it. -/
theorem mem_matched (h : s.Displays schema docs) {q : TermQuery} :
    id ∈ s.matched q ↔ ∃ d r, (id, d) ∈ docs ∧
      (FieldMap.build schema).record? s.analyze id d = some r ∧ q.matchesRecord r = true := by
  rw [Store.mem_matched]
  constructor
  · rintro ⟨r, hr, rfl, hq⟩
    obtain ⟨⟨id, d⟩, hd, hrecord⟩ := (h.records r).1 hr
    obtain rfl : r.id = id := FieldMap.record?_id hrecord
    exact ⟨d, r, hd, hrecord, hq⟩
  · rintro ⟨d, r, hd, hrecord, hq⟩
    exact ⟨r, (h.records r).2 ⟨_, hd, hrecord⟩, FieldMap.record?_id hrecord, hq⟩

/-- A query that matches a record as something tells of its document finds the documents that it
tells of. -/
theorem mem_matched_iff (h : s.Displays schema docs) {q : TermQuery} {P : PreparedDocument → Prop}
    (hq : ∀ {id d r}, (FieldMap.build schema).record? s.analyze id d = some r →
      d.Resolved schema → (q.matchesRecord r = true ↔ P d)) :
    id ∈ s.matched q ↔ ∃ d, (id, d) ∈ docs ∧ P d := by
  rw [h.mem_matched]
  refine exists_congr fun d => ?_
  constructor
  · rintro ⟨r, hd, hr, hmatch⟩
    exact ⟨hd, (hq hr (h.resolved _ hd)).1 hmatch⟩
  · rintro ⟨hd, hP⟩
    obtain ⟨r, hr⟩ := h.exists_record hd
    exact ⟨r, hd, hr, (hq hr (h.resolved _ hd)).2 hP⟩

end Displays

/-! ## What a store was given -/

/-- What a store that may write was given since it was opened, in any order, and the documents that
the last commit left and those that the next one will leave. The directory may have an index with
the records of some documents already, and has then the fields of the schema that is beside it. -/
inductive Stocked :
    List (String × PreparedDocument) → List (String × PreparedDocument) → Store × Volume → Prop where
  | opened {analyze : Analyzer} {o : BackendOptions} {v v' : Volume} {s : Store} {m : List Record}
      {docs : List (String × PreparedDocument)} (hwritable : o.readonly = false)
      (hopen : openWith analyze o v = .ok s v')
      (hlayout : s.fields.layout = FieldMap.indexedFields s.fields.schema)
      (hfields : s.fields.Unreserved) (hm : Lists m (v'.recordsAt s.path))
      (hfiles : s.fields.Files s.analyze docs m) : Stocked docs docs (s, v')
  | registered {committed upcoming : List (String × PreparedDocument)} {s t : Store} {v : Volume}
      (h : Stocked committed upcoming (s, v)) {name : String} {config : FieldConfig}
      (hok : s.registerField name config = .ok t) : Stocked committed upcoming (t, v)
  | indexed {committed upcoming : List (String × PreparedDocument)} {x : Store × Volume}
      (h : Stocked committed upcoming x) {d : PreparedDocument} {id given : String}
      (hd : d.Resolved x.1.fields.schema) (hok : (index d id).outcome x = .ok given) :
      Stocked committed (without (·.1) id upcoming ++ [(id, d)]) ((index d id).after x)
  | refused {committed upcoming : List (String × PreparedDocument)} {x : Store × Volume}
      (h : Stocked committed upcoming x) {d : PreparedDocument} {id : String}
      (hd : d.Resolved x.1.fields.schema) {e : Error} (herr : (index d id).outcome x = .error e) :
      Stocked committed upcoming ((index d id).after x)
  | deleted {committed upcoming : List (String × PreparedDocument)} {x : Store × Volume}
      (h : Stocked committed upcoming x) (id : String) :
      Stocked committed (without (·.1) id upcoming) ((delete id).after x)
  | committed {committed upcoming : List (String × PreparedDocument)} {x : Store × Volume}
      (h : Stocked committed upcoming x) : Stocked upcoming upcoming (commit.after x)
  | cancelled {committed upcoming : List (String × PreparedDocument)} {x : Store × Volume}
      (h : Stocked committed upcoming x) : Stocked committed committed (cancel.after x)

structure Books (committed upcoming : List (String × PreparedDocument)) (l : Ledger)
    (x : Store × Volume) : Prop where
  tracked : Tracked l x
  made : x.1.fields = .build x.1.fields.schema
  committed : x.1.fields.Files x.1.analyze committed l.committed
  upcoming : x.1.fields.Files x.1.analyze upcoming l.upcoming

namespace Books

variable {committed upcoming : List (String × PreparedDocument)} {l : Ledger}
  {x y : Store × Volume}

theorem unreserved (h : Books committed upcoming l x) :
    (FieldMap.build x.1.fields.schema).Unreserved := h.made ▸ h.tracked.booked.unreserved

theorem of_fields {committed' upcoming' : List (String × PreparedDocument)} {l' : Ledger}
    (h : Books committed upcoming l x) (htracked : Tracked l' y)
    (hsame : y.1.fields = x.1.fields ∧ y.1.analyze = x.1.analyze)
    (hcommitted : x.1.fields.Files x.1.analyze committed' l'.committed)
    (hupcoming : x.1.fields.Files x.1.analyze upcoming' l'.upcoming) :
    Books committed' upcoming' l' y := by
  obtain ⟨hfields, hanalyze⟩ := hsame
  exact ⟨htracked, by rw [hfields, ← h.made], by rwa [hfields, hanalyze],
    by rwa [hfields, hanalyze]⟩

theorem fields_after {α : Type} {w : Work α} (h : Books committed upcoming l x)
    (hw : Keeps (Followed x.1) w fun _ => True) :
    (w.after x).1.fields = x.1.fields ∧ (w.after x).1.analyze = x.1.analyze := by
  have hfollows : Follows x.1 (w.after x).1 := hw.after (Follows.refl x.1)
  rcases hfollows with hsame | hpicks
  · exact ⟨hsame.fields, hsame.analyze⟩
  · cases h.tracked.booked.readonly.symm.trans hpicks.readonly

theorem exists_record (h : Books committed upcoming l x) {d : PreparedDocument}
    (hd : d.Resolved x.1.fields.schema) (id : String) :
    ∃ r, x.1.fields.record? x.1.analyze id d = some r := by
  have hu := h.unreserved
  rw [h.made]
  exact FieldMap.exists_record_of_resolved hu hd id

theorem registerField {s t : Store} {v : Volume} (h : Books committed upcoming l (s, v))
    {name : String} {config : FieldConfig} (hok : s.registerField name config = .ok t) :
    Books committed upcoming l (t, v) := by
  have htracked := h.tracked.registered hok
  rw [Store.registerField] at hok
  split at hok
  · cases hok
  split at hok
  · cases hok
    exact h
  split at hok
  · cases hok
  · rename_i hlive
    cases hok
    have hempty : l = ⟨[], []⟩ := by
      rcases h.tracked.booked.records with ⟨-, hl, -, -⟩ | ⟨hserves, -, -⟩
      · exact hl
      · obtain ⟨here, hsome, -⟩ := hserves.here
        rw [hsome] at hlive
        exact absurd rfl hlive
    subst hempty
    have hu := h.unreserved
    have hcommitted := h.committed
    have hupcoming := h.upcoming
    rw [h.made] at hcommitted hupcoming
    rw [hcommitted.eq_nil hu, hupcoming.eq_nil hu]
    exact ⟨htracked, rfl, .nil _ _, .nil _ _⟩

end Books

/-- **The documents of a store**: whatever it was given, its ledger has their records. -/
theorem Stocked.books {committed upcoming : List (String × PreparedDocument)} {x : Store × Volume}
    (h : Stocked committed upcoming x) : ∃ l, Books committed upcoming l x := by
  induction h with
  | opened hwritable hopen hlayout hfields hm hfiles =>
    exact ⟨_, .opened hwritable hopen hfields hm, (laid_of_openWith hopen).2.1.eq_build hlayout,
      hfiles, hfiles⟩
  | registered _ hok ih =>
    obtain ⟨l, h⟩ := ih
    exact ⟨l, h.registerField hok⟩
  | @indexed _ _ x _ d id _ hd hok ih =>
    obtain ⟨l, h⟩ := ih
    obtain ⟨r, hr⟩ := h.exists_record hd id
    exact ⟨_, h.of_fields (h.tracked.indexed hr hok) (h.fields_after (follows_index d id))
      h.committed ((h.upcoming.without id).append hd hr)⟩
  | @refused _ _ x _ d id hd e herr ih =>
    obtain ⟨l, h⟩ := ih
    obtain ⟨r, hr⟩ := h.exists_record hd id
    exact ⟨_, h.of_fields (h.tracked.refused hr herr) (h.fields_after (follows_index d id))
      h.committed h.upcoming⟩
  | deleted _ id ih =>
    obtain ⟨l, h⟩ := ih
    exact ⟨_, h.of_fields (h.tracked.deleted id) (h.fields_after (follows_delete id))
      h.committed (h.upcoming.without id)⟩
  | committed _ ih =>
    obtain ⟨l, h⟩ := ih
    exact ⟨_, h.of_fields h.tracked.committed (h.fields_after follows_commit) h.upcoming h.upcoming⟩
  | cancelled _ ih =>
    obtain ⟨l, h⟩ := ih
    exact ⟨_, h.of_fields h.tracked.cancelled (h.fields_after follows_cancel) h.committed
      h.committed⟩

/-- Registers fields one after the other. -/
def registerAll (fields : List (String × FieldConfig)) (s : Store) : Except Error Store :=
  fields.foldlM (fun s f => s.registerField f.1 f.2) s

theorem Stocked.registeredAll {committed upcoming : List (String × PreparedDocument)}
    {fields : List (String × FieldConfig)} {s t : Store} {v : Volume}
    (h : Stocked committed upcoming (s, v)) (hok : s.registerAll fields = .ok t) :
    Stocked committed upcoming (t, v) := by
  induction fields generalizing s with
  | nil =>
    cases hok
    exact h
  | cons f fields ih =>
    rw [registerAll, List.foldlM_cons] at hok
    obtain ⟨s', hs', hok⟩ := Except.bind_eq_ok.1 hok
    exact ih (h.registered hs') hok

/-- **What is shown**: the documents that were committed last, each by its record. -/
theorem Stocked.displays {committed upcoming : List (String × PreparedDocument)} {s : Store}
    {v : Volume} (h : Stocked committed upcoming (s, v)) : s.Displays s.fields.schema committed := by
  obtain ⟨l, hbooks⟩ := h.books
  refine ⟨hbooks.made, hbooks.unreserved, hbooks.committed.resolved, fun r => ?_⟩
  rw [hbooks.tracked.booked.lists_visible.mem_iff, hbooks.committed.records, List.mem_filterMap,
    ← hbooks.made]

/-- **A store in a new directory** has no documents. -/
theorem stocked_of_openWith {analyze : Analyzer} {o : BackendOptions} {v v' : Volume} {s : Store}
    (hwritable : o.readonly = false) (hopen : openWith analyze o v = .ok s v')
    (hlive : s.live = none) (hfields : s.fields.Unreserved) : Stocked [] [] (s, v') := by
  have hrecords : v'.recordsAt s.path = [] := by
    rcases (fresh_of_openWith hwritable hopen).index with ⟨-, h⟩ | ⟨_, _, hserves⟩
    · exact h
    · obtain ⟨_, hsome, -⟩ := hserves.here
      cases hlive.symm.trans hsome
  have hbuilt := (laid_of_openWith hopen).2.2 hlive
  have hlayout : s.fields.layout = FieldMap.indexedFields s.fields.schema := by
    rw [hbuilt]
    rfl
  exact .opened hwritable hopen hlayout hfields (hrecords ▸ .empty) (.nil _ _)

/-! ## New stores -/

def takesAll : List (String × PreparedDocument) → Store × Volume → Bool
  | [], _ => true
  | e :: docs, x =>
    decide ((index e.2 e.1).outcome x = .ok e.1) && takesAll docs ((index e.2 e.1).after x)

theorem Stocked.indexedAll {committed upcoming : List (String × PreparedDocument)}
    {docs : List (String × PreparedDocument)} {x : Store × Volume}
    (h : Stocked committed upcoming x) (hdocs : ∀ e ∈ docs, e.2.Resolved x.1.fields.schema)
    (htakes : takesAll docs x = true) :
    ∃ y, Stocked committed (docs.foldl (fun ds e => without (·.1) e.1 ds ++ [e]) upcoming) y ∧
      y.1.fields = x.1.fields ∧ y.1.analyze = x.1.analyze := by
  induction docs generalizing upcoming x with
  | nil => exact ⟨x, h, rfl, rfl⟩
  | cons e docs ih =>
    obtain ⟨he, hdocs⟩ := List.forall_mem_cons.1 hdocs
    obtain ⟨htaken, htakes⟩ := Bool.and_eq_true_iff.1 htakes
    obtain ⟨l, hbooks⟩ := h.books
    obtain ⟨hfields, hanalyze⟩ := hbooks.fields_after (follows_index e.2 e.1)
    obtain ⟨y, hy, hsame, hsame'⟩ :=
      ih (h.indexed he (of_decide_eq_true htaken)) (hfields ▸ hdocs) htakes
    exact ⟨y, hy, hsame.trans hfields, hsame'.trans hanalyze⟩

theorem analyze_registerField {s t : Store} {name : String} {config : FieldConfig}
    (h : s.registerField name config = .ok t) : t.analyze = s.analyze := by
  rw [Store.registerField] at h
  split at h
  · cases h
  split at h
  · cases h
    rfl
  split at h <;> cases h
  rfl

theorem analyze_registerAll {fields : List (String × FieldConfig)} {s t : Store}
    (h : s.registerAll fields = .ok t) : t.analyze = s.analyze := by
  induction fields generalizing s with
  | nil =>
    cases h
    rfl
  | cons f fields ih =>
    rw [registerAll, List.foldlM_cons] at h
    obtain ⟨s', hs', h⟩ := Except.bind_eq_ok.1 h
    exact (ih h).trans (analyze_registerField hs')

/-- A store in a new directory that takes fields and documents has them when they are committed. -/
theorem exists_stocked (analyze : Analyzer) {o : BackendOptions} {v : Volume}
    {fields : List (String × FieldConfig)} {docs : List (String × PreparedDocument)}
    (hwritable : o.readonly = false) (hdocs : ∀ e ∈ docs, e.2.Resolved (.ofList fields))
    (hapart : docs.foldl (fun ds e => without (·.1) e.1 ds ++ [e]) [] = docs)
    (hrun : (openWith analyze o).passes v (fun s v =>
      decide (s.fields.schema = .empty ∧ s.live = none) &&
        (s.registerAll fields).toOption.any fun t =>
          decide (t.fields.schema = .ofList fields) && takesAll docs (t, v)) = true) :
    ∃ s v, Stocked docs docs (s, v) ∧ s.fields.schema = .ofList fields ∧ s.analyze = analyze := by
  obtain ⟨s, v', hopen, hpasses⟩ := Action.passes_iff.1 hrun
  obtain ⟨hnew, hpasses⟩ := Bool.and_eq_true_iff.1 hpasses
  obtain ⟨hempty, hlive⟩ := of_decide_eq_true hnew
  obtain ⟨t, hregister, hpasses⟩ := (Option.any_eq_true _ _).1 hpasses
  obtain ⟨hschema, htakes⟩ := Bool.and_eq_true_iff.1 hpasses
  have hschema := of_decide_eq_true hschema
  have hregister := FileTree.toOption_eq_some_iff.1 hregister
  have hopened : Stocked [] [] (s, v') :=
    stocked_of_openWith hwritable hopen hlive fun _ _ => by rw [hempty]; rfl
  obtain ⟨y, hy, hfields, hanalyze⟩ :=
    (hopened.registeredAll hregister).indexedAll (hschema ▸ hdocs) htakes
  rw [hapart] at hy
  obtain ⟨l, hbooks⟩ := hy.books
  obtain ⟨hcommitted, hcommitted'⟩ := hbooks.fields_after follows_commit
  refine ⟨(commit.after y).1, (commit.after y).2, hy.committed, ?_, ?_⟩
  · rw [hcommitted, hfields, hschema]
  · rw [hcommitted', hanalyze, analyze_registerAll hregister, (laid_of_openWith hopen).1]

end Store

end Searchlight.Disk
