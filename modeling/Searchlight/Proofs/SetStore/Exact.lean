import Searchlight.Proofs.Query.Agreement
import Searchlight.Proofs.SetStore.Documents

/-!
# The index stays exact

Stores of one key space, one after the other, register fields, index, delete and search (`Reached`).
Each request leaves the server with the traces of the documents that are indexed, and no others
(`Exact`): an id is in no posting set but those that are noted for it, so to unlink what is noted
leaves nothing of it behind. What a query finds is told by the documents as they are
(`Reached.index_exact`), however often they and the fields have changed.
-/

namespace Searchlight.SetStore

open Store (link unlink)

/-- The server holds the documents `docs` after stores of a key space that began empty were asked
to register fields, to index, to delete and to search, in any order. A store may have read the
schema at any time, and may be refused. -/
inductive Reached (k : KeySpace) : KeyMap PreparedDocument → Server → Prop where
  | empty {v : Server} (h : ∀ rest, v.keys.get? (k.stem ++ (":" ++ rest)) = none) : Reached k ∅ v
  /-- Others work on other keys, and the server may answer or not. -/
  | others {docs : KeyMap PreparedDocument} {v v' : Server} (h : Reached k docs v)
      (hsame : ∀ rest, v'.keys.get? (k.stem ++ (":" ++ rest)) = v.keys.get? (k.stem ++ (":" ++ rest))) :
      Reached k docs v'
  | registerField {docs : KeyMap PreparedDocument} {v : Server} (h : Reached k docs v) {s : Store}
      (hs : s.keys = k) (name : String) (config : FieldConfig) :
      Reached k docs ((Store.registerField name config).after (s, v)).2
  /-- A number of the counter must not be in use as an id that was given. -/
  | index {docs : KeyMap PreparedDocument} {v : Server} (h : Reached k docs v) {s : Store}
      (hs : s.keys = k) (d : PreparedDocument) (given : Option String) {id : String}
      (hok : (Store.index d given).outcome (s, v) = .ok id)
      (hfresh : given = none → docs.contains id = false) :
      Reached k (docs.insert id d) ((Store.index d given).after (s, v)).2
  | indexRefused {docs : KeyMap PreparedDocument} {v : Server} (h : Reached k docs v) {s : Store}
      (hs : s.keys = k) (d : PreparedDocument) (given : Option String) {e : Error}
      (herr : (Store.index d given).outcome (s, v) = .error e) :
      Reached k docs ((Store.index d given).after (s, v)).2
  | delete {docs : KeyMap PreparedDocument} {v : Server} (h : Reached k docs v) {s : Store}
      (hs : s.keys = k) (id : String) (hok : (Store.delete id).outcome (s, v) = .ok ()) :
      Reached k (docs.erase id) ((Store.delete id).after (s, v)).2
  | deleteRefused {docs : KeyMap PreparedDocument} {v : Server} (h : Reached k docs v) {s : Store}
      (hs : s.keys = k) (id : String) {e : Error}
      (herr : (Store.delete id).outcome (s, v) = .error e) :
      Reached k docs ((Store.delete id).after (s, v)).2
  | search {docs : KeyMap PreparedDocument} {v : Server} (h : Reached k docs v) {s : Store}
      (hs : s.keys = k) (plan : Plan) (offset limit : Nat) :
      Reached k docs ((Store.search plan offset limit).after (s, v)).2

/-- The server has the traces of the documents and no others. -/
structure Exact (k : KeySpace) (docs : KeyMap PreparedDocument) (v : Server) : Prop where
  inOrder : v.InOrder k
  trace : ∀ i, v.trace k i = .of k (docs.get? i)

variable {k : KeySpace} {docs : KeyMap PreparedDocument} {v v' : Server} {s : Store}

namespace Exact

/-- What is noted for an id are the posting keys of its document. -/
theorem mem_terms (hv : Exact k docs v) {id key : String} :
    key ∈ (v.sets (k.terms id)).keys ↔ ∃ d, docs.get? id = some d ∧ key ∈ k.postings d := by
  have hterms := congrFun (congrArg Trace.terms (hv.trace id)) key
  rw [KeyMap.mem_keys]
  change (v.trace k id).terms key = true ↔ _
  rw [hterms]
  simp [Trace.of, Option.any_eq_true]

theorem idSets_terms (hv : Exact k docs v) (id : String) :
    IdSets k (v.sets (k.terms id)).keys := by
  intro key h
  obtain ⟨d, -, hkey⟩ := hv.mem_terms.1 h
  exact idSets_postings k d key hkey

theorem posting_and_not_noted (hv : Exact k docs v) (id key : String) :
    (((docs.get? id).any fun d => (k.postings d).contains key) &&
      !(v.sets (k.terms id)).keys.contains key) = false := by
  rw [Bool.and_eq_false_iff, Bool.not_eq_false', List.contains_iff_mem, hv.mem_terms]
  cases docs.get? id with
  | none => exact .inl rfl
  | some d => by_cases h : key ∈ k.postings d <;> simp [h]

theorem contains_docs (hv : Exact k docs v) (id : String) :
    (v.sets k.docs).contains id = docs.contains id :=
  congrArg Trace.stored (hv.trace id)

/-- Work that touches one id leaves the others as exact as they were. -/
theorem of_touches (hv : Exact k docs v) {id : String} (htouches : Touches k id v v')
    {docs' : KeyMap PreparedDocument} (hdocs : ∀ i, i ≠ id → docs'.get? i = docs.get? i)
    (htrace : v'.trace k id = .of k (docs'.get? id)) : Exact k docs' v' := by
  refine ⟨htouches.inOrder hv.inOrder, fun i => ?_⟩
  by_cases hi : i = id
  · rw [hi, htrace]
  · rw [htouches.trace hv.inOrder i hi, hv.trace i, hdocs i hi]

theorem of_sameTraces (hv : Exact k docs v) (hsame : SameTraces k v v') : Exact k docs v' :=
  ⟨hsame.inOrder hv.inOrder, fun i => (hsame.trace i).trans (hv.trace i)⟩

section
variable (hk : KeySpace.IsValidStem k.stem)
include hk

theorem docs_notMem_terms (hv : Exact k docs v) (id : String) :
    k.docs ∉ (v.sets (k.terms id)).keys := by
  intro h
  obtain ⟨d, -, hkey⟩ := hv.mem_terms.1 h
  obtain ⟨r, hr, heq⟩ := k.exists_role_of_mem_postings hkey
  rw [KeySpace.docs_eq_key, Role.key_eq_key_iff hk] at heq
  subst heq
  simp [Role.IsPosting] at hr

/-- A document in the place of what was noted for its id. -/
theorem link_noted (hv : Exact k docs v) (id : String) (d : PreparedDocument) :
    Exact k (docs.insert id d) (v.runAll (link k id (v.sets (k.terms id)).keys d)).1 := by
  have hprevious := hv.idSets_terms id
  refine hv.of_touches (touches_runAll hk (concerns_link id hprevious d)) (fun i hi => ?_) ?_
  · rw [KeyMap.get?_insert, if_neg (Ne.symm hi)]
  rw [trace_link hk hv.inOrder hprevious (hv.docs_notMem_terms hk id) d, hv.trace id,
    KeyMap.get?_insert, if_pos rfl]
  refine Trace.ext rfl rfl rfl (funext fun f => funext fun t => ?_) (funext fun t => ?_)
  · have hgone := hv.posting_and_not_noted id (k.posting f t)
    simp only [Trace.of, hgone, Bool.or_false, Option.any_some]
  · have hgone := hv.posting_and_not_noted id (k.anyField t)
    simp only [Trace.of, hgone, Bool.or_false, Option.any_some]

theorem link_fresh (hv : Exact k docs v) {id : String} (hid : docs.contains id = false)
    (d : PreparedDocument) : Exact k (docs.insert id d) (v.runAll (link k id [] d)).1 := by
  have hnone : docs.get? id = none := by simpa [KeyMap.contains] using hid
  refine hv.of_touches (touches_runAll hk (concerns_link id (idSets_nil k) d)) (fun i hi => ?_) ?_
  · rw [KeyMap.get?_insert, if_neg (Ne.symm hi)]
  rw [trace_link hk hv.inOrder (idSets_nil k) (by simp) d, hv.trace id, hnone, KeyMap.get?_insert,
    if_pos rfl]
  refine Trace.ext rfl rfl rfl (funext fun f => funext fun t => ?_) (funext fun t => ?_)
  · simp [Trace.of]
  · simp [Trace.of]

theorem unlink_noted (hv : Exact k docs v) (id : String) :
    Exact k (docs.erase id)
      (v.runAll (unlink k id (v.sets (k.terms id)).keys ++ [.remove k.docs [id]])).1 := by
  have hprevious := hv.idSets_terms id
  refine hv.of_touches (touches_runAll hk (concerns_delete id hprevious)) (fun i hi => ?_) ?_
  · rw [KeyMap.get?_erase, if_neg (Ne.symm hi)]
  rw [trace_delete hk hv.inOrder hprevious (hv.docs_notMem_terms hk id), hv.trace id,
    KeyMap.get?_erase, if_pos rfl]
  refine Trace.ext rfl rfl rfl (funext fun f => funext fun t => ?_) (funext fun t => ?_)
  · have hgone := hv.posting_and_not_noted id (k.posting f t)
    simp only [Trace.of, hgone, Option.any_none]
  · have hgone := hv.posting_and_not_noted id (k.anyField t)
    simp only [Trace.of, hgone, Option.any_none]

end

end Exact

/-! ## Requests -/

section
variable {d : PreparedDocument} {given : Option String} {id : String} {e : Error}
  (hk : KeySpace.IsValidStem s.keys.stem) (hv : Exact s.keys docs v)
include hk hv

theorem Exact.index (hok : (Store.index d given).outcome (s, v) = .ok id)
    (hfresh : given = none → docs.contains id = false) :
    Exact s.keys (docs.insert id d) ((Store.index d given).after (s, v)).2 := by
  rcases Store.index_cases hk hv.inOrder hv.idSets_terms d given with
    ⟨id', v₀, previous, hrun, hcase⟩ | ⟨e, hrun⟩
  · rw [Action.outcome, hrun] at hok
    cases hok
    rw [Action.after, hrun]
    rcases hcase with ⟨-, rfl, rfl⟩ | ⟨hnone, rfl, rfl⟩
    · exact hv.link_noted hk id d
    · exact (hv.of_sameTraces ((Store.beside_increment hk).sameTraces hk)).link_fresh hk
        (hfresh hnone) d
  · rw [Action.outcome, hrun] at hok
    cases hok

theorem Exact.index_refused (herr : (Store.index d given).outcome (s, v) = .error e) :
    ((Store.index d given).after (s, v)).2 = v := by
  rcases Store.index_cases hk hv.inOrder hv.idSets_terms d given with
    ⟨_, _, _, hrun, -⟩ | ⟨e', hrun⟩
  · rw [Action.outcome, hrun] at herr
    cases herr
  · rw [Action.after, hrun]

theorem Exact.delete (hok : (Store.delete id).outcome (s, v) = .ok ()) :
    Exact s.keys (docs.erase id) ((Store.delete id).after (s, v)).2 := by
  rcases Store.delete_cases hk hv.inOrder hv.idSets_terms id with hrun | ⟨e, hrun⟩
  · rw [Action.after, hrun]
    exact hv.unlink_noted hk id
  · rw [Action.outcome, hrun] at hok
    cases hok

theorem Exact.delete_refused (herr : (Store.delete id).outcome (s, v) = .error e) :
    ((Store.delete id).after (s, v)).2 = v := by
  rcases Store.delete_cases hk hv.inOrder hv.idSets_terms id with hrun | ⟨e', hrun⟩
  · rw [Action.outcome, hrun] at herr
    cases herr
  · rw [Action.after, hrun]

end

theorem exact_empty (h : ∀ r : Role, v.keys.get? (r.key k) = none) : Exact k ∅ v := by
  have hsets (r : Role) : v.sets (r.key k) = ∅ := Server.sets_of_get?_eq_none (h r)
  refine ⟨Server.inOrder_of_none h, fun i => Trace.ext ?_ ?_ (funext fun key => ?_)
    (funext fun f => funext fun t => ?_) (funext fun t => ?_)⟩
  · simp [Server.trace, Trace.of, KeySpace.docs_eq_key, hsets]
  · simp [Server.trace, Trace.of, KeySpace.data_eq_key, h]
  · simp [Server.trace, Trace.of, KeySpace.terms_eq_key, hsets]
  · simp [Server.trace, Trace.of, KeySpace.posting_eq_key, hsets]
  · simp [Server.trace, Trace.of, KeySpace.anyField_eq_key, hsets]

theorem Exact.congr (hv : Exact k docs v)
    (h : ∀ r : Role, v'.keys.get? (r.key k) = v.keys.get? (r.key k)) : Exact k docs v' :=
  ⟨fun r x hx => hv.inOrder r x (h r ▸ hx), fun i => (Server.trace_congr_roles h i).trans (hv.trace i)⟩

/-- **The index is exact in every state that is reached.** -/
theorem Reached.exact (hk : KeySpace.IsValidStem k.stem) (h : Reached k docs v) :
    Exact k docs v := by
  induction h with
  | empty h => exact exact_empty fun r => h _
  | others h hsame ih => exact ih.congr fun r => hsame _
  | registerField h hs name config ih =>
    subst hs
    exact ih.of_sameTraces (Store.sameTraces_registerField hk name config)
  | index h hs d given hok hfresh ih =>
    subst hs
    exact ih.index hk hok hfresh
  | indexRefused h hs d given herr ih =>
    subst hs
    rw [ih.index_refused hk herr]
    exact ih
  | delete h hs id hok ih =>
    subst hs
    exact ih.delete hk hok
  | deleteRefused h hs id herr ih =>
    subst hs
    rw [ih.delete_refused hk herr]
    exact ih
  | search h hs plan offset limit ih =>
    subst hs
    exact ih.of_sameTraces (Store.sameTraces_search hk plan offset limit)

/-! ## What is found -/

/-- A posting set has the ids of the documents with its key among their posting keys. -/
theorem Exact.contains_posting (hv : Exact k docs v) {key : String}
    (hkey : (∃ f t, key = k.posting f t) ∨ ∃ t, key = k.anyField t) (id : String) :
    (v.sets key).contains id = true ↔ ∃ d, docs.get? id = some d ∧ key ∈ k.postings d := by
  have htrace := hv.trace id
  have hcontains : (v.sets key).contains id =
      (docs.get? id).any fun d => (k.postings d).contains key := by
    rcases hkey with ⟨f, t, rfl⟩ | ⟨t, rfl⟩
    · exact congrFun (congrFun (congrArg Trace.posting htrace) f) t
    · exact congrFun (congrArg Trace.anyField htrace) t
  rw [hcontains]
  simp [Option.any_eq_true]

/-- The server finds what the posting sets of the documents have. -/
theorem Exact.matched (hv : Exact k docs v) {p : Plan}
    (hp : p.Over fun key => (∃ f t, key = k.posting f t) ∨ ∃ t, key = k.anyField t) :
    v.matched p = {id | p.holds (postingSets k docs.entries) id = true} := by
  have hdocs : (docs.entries.map (·.1)).Nodup := KeyMap.nodup_keys
  ext id
  rw [Server.matched, Set.mem_ofPred_eq, Set.mem_ofPred_eq]
  rw [Plan.holds_congr (fun key hkey => ?_) hp]
  rw [Bool.eq_iff_iff, hv.contains_posting hkey id]
  cases hd : docs.get? id with
  | none =>
    have hid : id ∉ docs.entries.map (·.1) := by
      intro hid
      obtain ⟨d, hd'⟩ := KeyMap.contains_eq_true_iff.1 (KeyMap.mem_keys.1 hid)
      rw [hd] at hd'
      cases hd'
    simp [contains_postingSets_eq_false hid]
  | some d => simp [contains_postingSets hdocs (KeyMap.get?_eq_some_iff.1 hd)]

/-- **The index of a store on a key server is exact** in every state that stores of a key space
reach: which ids there are, their data, where they are found and what is noted for them are told by
the documents that were indexed last. So no query finds an id by what it had before. -/
theorem Reached.index_exact (hk : KeySpace.IsValidStem k.stem) (h : Reached k docs v) :
    v.InOrder k ∧
      (∀ id, (v.sets k.docs).contains id = docs.contains id) ∧
      (∀ id, v.keys.get? (k.data id) = (docs.get? id).map fun d => .text d.stored.toJsonText) ∧
      (∀ id key, ((∃ f t, key = k.posting f t) ∨ ∃ t, key = k.anyField t) →
        ((v.sets key).contains id = true ↔ ∃ d, docs.get? id = some d ∧ key ∈ k.postings d)) ∧
      (∀ id key, (v.sets (k.terms id)).contains key = true ↔
        ∃ d, docs.get? id = some d ∧ key ∈ k.postings d) ∧
      ∀ (schema : Schema) (q : Query) (p : Plan),
        q.translate capabilities backendName (translator k schema) = .ok p →
          v.matched p = {id | p.holds (postingSets k docs.entries) id = true} := by
  have hv := h.exact hk
  refine ⟨hv.inOrder, hv.contains_docs, fun id => congrArg Trace.data (hv.trace id),
    fun id key hkey => hv.contains_posting hkey id, fun id key => ?_, fun schema q p hp => ?_⟩
  · rw [← KeyMap.mem_keys]
    exact hv.mem_terms
  · exact hv.matched (Query.fold_hereditary (translator_over k schema)
      (Query.translate_eq_ok_iff.1 hp).2)

def boatStore : Store := ⟨⟨"s"⟩, "", 5000, false, .empty⟩

def redBoat : PreparedDocument := ⟨[⟨"title", .freeText, [.text "red boat"], [.text "red boat"]⟩]⟩

def blueBoat : PreparedDocument :=
  ⟨[⟨"title", .exactMatch, [.text "blue boat"], [.text "blue boat"]⟩]⟩

/-- A server on which a document was indexed, its field registered anew and another document
indexed in its place; a third one was given a number and is gone. -/
def boatServer : Server :=
  let v := ((Store.index redBoat (some "a")).after (boatStore, .fresh true)).2
  let v := ((Store.registerField "title" .exactMatch).after (boatStore, v)).2
  let v := ((Store.index blueBoat (some "a")).after (boatStore, v)).2
  let v := ((Store.index redBoat none).after (boatStore, v)).2
  ((Store.delete "1").after (boatStore, v)).2

def boatDocuments : KeyMap PreparedDocument :=
  (((KeyMap.empty.insert "a" redBoat).insert "a" blueBoat).insert "1" redBoat).erase "1"

theorem reached_boatServer : Reached boatStore.keys boatDocuments boatServer := by
  have h₀ : Reached boatStore.keys .empty (.fresh true) := .empty fun _ => rfl
  have h₁ : Reached boatStore.keys (KeyMap.empty.insert "a" redBoat) _ :=
    h₀.index rfl redBoat (some "a") (by decide +kernel) fun h => by cases h
  have h₂ := h₁.registerField rfl "title" .exactMatch
  have h₃ : Reached boatStore.keys ((KeyMap.empty.insert "a" redBoat).insert "a" blueBoat) _ :=
    h₂.index rfl blueBoat (some "a") (by decide +kernel) fun h => by cases h
  have h₄ : Reached boatStore.keys
      (((KeyMap.empty.insert "a" redBoat).insert "a" blueBoat).insert "1" redBoat) _ :=
    h₃.index rfl redBoat none (by decide +kernel) fun _ => by decide +kernel
  exact h₄.delete rfl "1" (by decide +kernel)

/-- The document is found by its title as it is now, and by no word that it had before. -/
theorem index_exact_boatServer :
    KeySpace.IsValidStem boatStore.keys.stem ∧ Reached boatStore.keys boatDocuments boatServer ∧
      (boatServer.sets "s:docs:5:title:blue boat").contains "a" = true ∧
      (boatServer.sets "s:any:boat").contains "a" = false := by
  have hk : KeySpace.IsValidStem boatStore.keys.stem := by
    refine ⟨by decide, fun c hc => ?_⟩
    obtain rfl : c = 's' := List.mem_singleton.1 hc
    decide
  obtain ⟨-, -, -, hposting, -, -⟩ := reached_boatServer.index_exact hk
  have hdocument : boatDocuments.get? "a" = some blueBoat := rfl
  have hpostings : boatStore.keys.postings blueBoat = ["s:docs:5:title:blue boat"] := by
    decide +kernel
  refine ⟨hk, reached_boatServer, ?_, ?_⟩
  · refine (hposting "a" _ (.inl ⟨"title", "blue boat", by decide⟩)).2 ⟨_, hdocument, ?_⟩
    rw [hpostings]
    exact List.mem_singleton_self _
  · rw [Bool.eq_false_iff, Ne, hposting "a" _ (.inr ⟨"boat", by decide⟩)]
    rintro ⟨d, hd, hmem⟩
    cases hdocument.symm.trans hd
    rw [hpostings, List.mem_singleton] at hmem
    exact absurd hmem (by decide)

end Searchlight.SetStore
