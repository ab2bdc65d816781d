import Searchlight.Proofs.SetStore.Commands
import Searchlight.SetStore.Store

/-!
# Changes of a document

A store has traces of an id under five families of keys (`Trace`). To index or delete a document is
one list of commands that all concern its id: they leave the traces of every other id and all other
keys as they are (`Touches`), whatever the server held before. The traces of the id itself become
those of the new document, or go (`trace_link`, `trace_unlink`).
-/

namespace Searchlight.SetStore

open Store (link unlink)

/-- What a store has of an id. -/
@[ext]
structure Trace where
  /-- The id is in the set of all ids. -/
  stored : Bool
  data : Option Datum
  /-- The posting keys that are noted for the id. -/
  terms : String → Bool
  /-- The id is among those with a token in a field. -/
  posting : String → String → Bool
  /-- The id is among those with a token in any field. -/
  anyField : String → Bool

def Trace.of (k : KeySpace) (d : Option PreparedDocument) : Trace where
  stored := d.isSome
  data := d.map fun d => .text d.stored.toJsonText
  terms key := d.any fun d => (k.postings d).contains key
  posting f t := d.any fun d => (k.postings d).contains (k.posting f t)
  anyField t := d.any fun d => (k.postings d).contains (k.anyField t)

def Server.trace (v : Server) (k : KeySpace) (i : String) : Trace where
  stored := (v.sets k.docs).contains i
  data := v.keys.get? (k.data i)
  terms key := (v.sets (k.terms i)).contains key
  posting f t := (v.sets (k.posting f t)).contains i
  anyField t := (v.sets (k.anyField t)).contains i

/-- From one server to the other nothing has changed for a store but the traces of one id. -/
structure Touches (k : KeySpace) (id : String) (v v' : Server) : Prop where
  inOrder : v.InOrder k → v'.InOrder k
  trace : v.InOrder k → ∀ i, i ≠ id → v'.trace k i = v.trace k i
  nextId : v'.keys.get? k.nextId = v.keys.get? k.nextId
  schema : v'.keys.get? k.schema = v.keys.get? k.schema
  temp : ∀ name, v'.keys.get? ((Role.temp name).key k) = v.keys.get? ((Role.temp name).key k)
  other : ∀ key, (∀ r : Role, key ≠ r.key k) → v'.keys.get? key = v.keys.get? key
  answering : v'.mode = v.mode ∧ v'.reachable = v.reachable

namespace Touches

variable {k : KeySpace} {id : String} {v v' v'' : Server}

theorem refl (k : KeySpace) (id : String) (v : Server) : Touches k id v v :=
  ⟨fun hv => hv, fun _ _ _ => rfl, rfl, rfl, fun _ => rfl, fun _ _ => rfl, rfl, rfl⟩

theorem trans (h : Touches k id v v') (h' : Touches k id v' v'') : Touches k id v v'' where
  inOrder hv := h'.inOrder (h.inOrder hv)
  trace hv i hi := (h'.trace (h.inOrder hv) i hi).trans (h.trace hv i hi)
  nextId := h'.nextId.trans h.nextId
  schema := h'.schema.trans h.schema
  temp name := (h'.temp name).trans (h.temp name)
  other key hkey := (h'.other key hkey).trans (h.other key hkey)
  answering := ⟨h'.answering.1.trans h.answering.1, h'.answering.2.trans h.answering.2⟩

end Touches

def Role.HoldsIds (r : Role) : Prop := r = .docs ∨ r.IsPosting

theorem Role.HoldsIds.kind {r : Role} (h : r.HoldsIds) : r.kind = .set := by
  rcases h with rfl | h
  · rfl
  · exact h.kind

/-- The commands that make up a change of the document under an id. -/
inductive Command.Concerns (k : KeySpace) (id : String) : Command → Prop where
  | place (present : Bool) {r : Role} (hr : r.HoldsIds) : Concerns k id (.place present id (r.key k))
  | forget : Concerns k id (.delete [k.terms id, k.data id])
  | putData (json : String) : Concerns k id (.put (k.data id) json)
  | noteTerms (keys : List String) : Concerns k id (.add (k.terms id) keys)

variable {k : KeySpace} {v : Server} {id i key : String} {c : Command} {cs : List Command}

namespace Server

theorem get?_run_delete (v : Server) (ks : List String) (key : String) :
    (v.run (.delete ks)).1.keys.get? key = if key ∈ ks then none else v.keys.get? key := by
  simp only [run, KeyMap.get?_filter]
  by_cases h : key ∈ ks <;> cases v.keys.get? key <;> simp [h]

theorem sets_of_get?_eq_none (h : v.keys.get? key = none) : v.sets key = ∅ := by
  rw [sets, set?, h]
  rfl

/-- The trace of an id depends on the keys that have to do with it. -/
theorem trace_congr {v' : Server} (hdocs : v'.keys.get? k.docs = v.keys.get? k.docs)
    (hdata : v'.keys.get? (k.data i) = v.keys.get? (k.data i))
    (hterms : v'.keys.get? (k.terms i) = v.keys.get? (k.terms i))
    (hposting : ∀ r : Role, r.IsPosting → v'.keys.get? (r.key k) = v.keys.get? (r.key k)) :
    v'.trace k i = v.trace k i := by
  refine Trace.ext ?_ ?_ (funext fun key => ?_) (funext fun f => funext fun t => ?_)
    (funext fun t => ?_)
  · simp only [trace, sets_congr hdocs]
  · simp only [trace, hdata]
  · simp only [trace, sets_congr hterms]
  · simp only [trace, KeySpace.posting_eq_key, sets_congr (hposting _ (.inl ⟨f, t, rfl⟩))]
  · simp only [trace, KeySpace.anyField_eq_key, sets_congr (hposting _ (.inr ⟨t, rfl⟩))]

theorem trace_congr_roles {v' : Server}
    (h : ∀ r : Role, v'.keys.get? (r.key k) = v.keys.get? (r.key k)) (i : String) :
    v'.trace k i = v.trace k i :=
  trace_congr (k.docs_eq_key ▸ h _) (k.data_eq_key i ▸ h _) (k.terms_eq_key i ▸ h _) fun r _ => h r

end Server

section
variable (hk : KeySpace.IsValidStem k.stem)
include hk

/-- A command that writes the terms and the data of an id only. -/
theorem touches_of_writes (hw : ∀ key ∈ c.writes, key = k.terms id ∨ key = k.data id)
    (hfits : c.Fits k) : Touches k id v (v.run c).1 := by
  have hframe {r : Role} (hterms : r ≠ .terms id) (hdata : r ≠ .data id) :
      (v.run c).1.keys.get? (r.key k) = v.keys.get? (r.key k) := by
    refine Server.get?_run_of_notMem fun h => ?_
    have := hw _ h
    rw [KeySpace.terms_eq_key, KeySpace.data_eq_key, Role.key_eq_key_iff hk,
      Role.key_eq_key_iff hk] at this
    exact this.elim hterms hdata
  refine ⟨fun hv => hv.run hfits, fun _ i hi => Server.trace_congr ?_ ?_ ?_ ?_, ?_, ?_,
    fun name => hframe (by simp) (by simp), ?_, v.answering_run c⟩
  · rw [KeySpace.docs_eq_key]
    exact hframe (by simp) (by simp)
  · rw [KeySpace.data_eq_key]
    exact hframe (by simp) (by simpa)
  · rw [KeySpace.terms_eq_key]
    exact hframe (by simpa) (by simp)
  · rintro r (⟨f, t, rfl⟩ | ⟨t, rfl⟩)
    · exact hframe (by simp) (by simp)
    · exact hframe (by simp) (by simp)
  · rw [KeySpace.nextId_eq_key]
    exact hframe (by simp) (by simp)
  · rw [KeySpace.schema_eq_key]
    exact hframe (by simp) (by simp)
  · intro key hkey
    refine Server.get?_run_of_notMem fun h => ?_
    have := hw key h
    rw [KeySpace.terms_eq_key, KeySpace.data_eq_key] at this
    exact this.elim (hkey _) (hkey _)

theorem touches_place {r : Role} (hr : r.HoldsIds) (present : Bool) :
    Touches k id v (v.run (.place present id (r.key k))).1 := by
  have hframe {r' : Role} (hr' : ¬r'.HoldsIds) :
      (v.run (.place present id (r.key k))).1.keys.get? (r'.key k) = v.keys.get? (r'.key k) := by
    refine Server.get?_run_of_notMem fun h => ?_
    rw [Command.writes_place, List.mem_singleton, Role.key_eq_key_iff hk] at h
    exact hr' (h ▸ hr)
  refine ⟨fun hv => hv.run (Command.fits_place hk hk hr.kind present id), fun hv i hi => ?_, ?_, ?_,
    fun name => hframe (by simp [Role.HoldsIds, Role.IsPosting]), ?_, v.answering_run _⟩
  · obtain ⟨m, hm⟩ := hv.set? hr.kind
    obtain ⟨-, hsets⟩ := Server.run_place hm present id
    refine Trace.ext ?_ ?_ (funext fun key => ?_) (funext fun f => funext fun t => ?_)
      (funext fun t => ?_)
    · simp only [Server.trace, hsets, hi, and_false, if_false]
    · simp only [Server.trace, KeySpace.data_eq_key]
      exact hframe (by simp [Role.HoldsIds, Role.IsPosting])
    · simp only [Server.trace, KeySpace.terms_eq_key]
      rw [Server.sets_congr (hframe (by simp [Role.HoldsIds, Role.IsPosting]))]
    · simp only [Server.trace, hsets, hi, and_false, if_false]
    · simp only [Server.trace, hsets, hi, and_false, if_false]
  · rw [KeySpace.nextId_eq_key]
    exact hframe (by simp [Role.HoldsIds, Role.IsPosting])
  · rw [KeySpace.schema_eq_key]
    exact hframe (by simp [Role.HoldsIds, Role.IsPosting])
  · intro key hkey
    refine Server.get?_run_of_notMem fun h => ?_
    rw [Command.writes_place, List.mem_singleton] at h
    exact hkey r h

theorem Command.Concerns.touches (hc : c.Concerns k id) : Touches k id v (v.run c).1 := by
  have hkind {r : Role} {kind : DatumKind} (hr : r.kind = kind) (r' : Role)
      (h : r.key k = r'.key k) : r'.kind = kind := (Role.kind_eq hk hk h).trans hr
  cases hc with
  | place present hr => exact touches_place hk hr present
  | forget => exact touches_of_writes hk (by simp [Command.writes]) trivial
  | putData json =>
    refine touches_of_writes hk (by simp [Command.writes]) fun r h => ?_
    rw [KeySpace.data_eq_key] at h
    exact hkind rfl r h
  | noteTerms keys =>
    refine touches_of_writes hk (by simp [Command.writes]) fun r h => ?_
    rw [KeySpace.terms_eq_key] at h
    exact hkind rfl r h

/-- **Commands that concern one id touch no other.** -/
theorem touches_runAll (hcs : ∀ c ∈ cs, c.Concerns k id) : Touches k id v (v.runAll cs).1 := by
  induction cs generalizing v with
  | nil => exact .refl k id v
  | cons c cs ih =>
    exact ((hcs c List.mem_cons_self).touches hk).trans
      (ih fun c' hc' => hcs c' (List.mem_cons_of_mem _ hc'))

end

/-! ## Work beside the documents -/

def Role.IsBeside (r : Role) : Prop := r = .nextId ∨ r = .schema ∨ ∃ name, r = .temp name

structure SameTraces (k : KeySpace) (v v' : Server) : Prop where
  inOrder : v.InOrder k → v'.InOrder k
  trace : ∀ i, v'.trace k i = v.trace k i
  other : ∀ key, (∀ r : Role, key ≠ r.key k) → v'.keys.get? key = v.keys.get? key
  answering : v'.mode = v.mode ∧ v'.reachable = v.reachable

theorem SameTraces.refl (k : KeySpace) (v : Server) : SameTraces k v v :=
  ⟨fun hv => hv, fun _ => rfl, fun _ _ => rfl, rfl, rfl⟩

theorem SameTraces.trans {v' v'' : Server} (h : SameTraces k v v') (h' : SameTraces k v' v'') :
    SameTraces k v v'' where
  inOrder hv := h'.inOrder (h.inOrder hv)
  trace i := (h'.trace i).trans (h.trace i)
  other key hkey := (h'.other key hkey).trans (h.other key hkey)
  answering := ⟨h'.answering.1.trans h.answering.1, h'.answering.2.trans h.answering.2⟩

def Command.Beside (k : KeySpace) (c : Command) : Prop :=
  c.Fits k ∧ ∀ key ∈ c.writes, ∃ r : Role, r.IsBeside ∧ key = r.key k

theorem Command.Beside.sameTraces (hk : KeySpace.IsValidStem k.stem) (hc : c.Beside k) :
    SameTraces k v (v.run c).1 := by
  have hframe {r : Role} (hr : ¬r.IsBeside) :
      (v.run c).1.keys.get? (r.key k) = v.keys.get? (r.key k) := by
    refine Server.get?_run_of_notMem fun h => ?_
    obtain ⟨r', hr', heq⟩ := hc.2 _ h
    exact hr ((Role.key_eq_key_iff hk).1 heq ▸ hr')
  refine ⟨fun hv => hv.run hc.1, fun i => Server.trace_congr ?_ ?_ ?_ ?_, ?_, v.answering_run c⟩
  · rw [KeySpace.docs_eq_key]
    exact hframe (by simp [Role.IsBeside])
  · rw [KeySpace.data_eq_key]
    exact hframe (by simp [Role.IsBeside])
  · rw [KeySpace.terms_eq_key]
    exact hframe (by simp [Role.IsBeside])
  · rintro r (⟨f, t, rfl⟩ | ⟨t, rfl⟩)
    · exact hframe (by simp [Role.IsBeside])
    · exact hframe (by simp [Role.IsBeside])
  · intro key hkey
    refine Server.get?_run_of_notMem fun h => ?_
    obtain ⟨r, -, heq⟩ := hc.2 key h
    exact hkey r heq

theorem sameTraces_runAll (hk : KeySpace.IsValidStem k.stem) (hcs : ∀ c ∈ cs, c.Beside k) :
    SameTraces k v (v.runAll cs).1 := by
  induction cs generalizing v with
  | nil => exact .refl k v
  | cons c cs ih =>
    exact ((hcs c List.mem_cons_self).sameTraces hk).trans
      (ih fun c' hc' => hcs c' (List.mem_cons_of_mem _ hc'))

/-! ## The commands of a change -/

def IdSets (k : KeySpace) (keys : List String) : Prop :=
  ∀ key ∈ keys, ∃ r : Role, r.HoldsIds ∧ key = r.key k

theorem idSets_nil (k : KeySpace) : IdSets k [] := fun _ h => by cases h

theorem idSets_postings (k : KeySpace) (d : PreparedDocument) : IdSets k (k.postings d) := by
  intro key h
  obtain ⟨r, hr, hkey⟩ := k.exists_role_of_mem_postings h
  exact ⟨r, .inr hr, hkey⟩

theorem IdSets.concerns {keys : List String} (h : IdSets k keys) (present : Bool) :
    ∀ c ∈ keys.map (Command.place present id), c.Concerns k id := by
  intro c hc
  obtain ⟨key, hkey, rfl⟩ := List.mem_map.1 hc
  obtain ⟨r, hr, rfl⟩ := h key hkey
  exact .place present hr

theorem unlink_eq (k : KeySpace) (id : String) (previous : List String) :
    unlink k id previous =
      previous.map (.place false id) ++ [.delete [k.terms id, k.data id]] := rfl

theorem link_eq (k : KeySpace) (id : String) (previous : List String) (d : PreparedDocument) :
    link k id previous d =
      unlink k id previous ++ [.put (k.data id) d.stored.toJsonText] ++
        (k.docs :: k.postings d).map (.place true id) ++
        if (k.postings d).isEmpty then [] else [.add (k.terms id) (k.postings d)] := by
  simp [link, Command.place]

theorem concerns_unlink (id : String) {previous : List String} (h : IdSets k previous) :
    ∀ c ∈ unlink k id previous, c.Concerns k id := by
  intro c hc
  rcases List.mem_append.1 hc with hc | hc
  · exact h.concerns false c hc
  · rw [List.mem_singleton.1 hc]
    exact .forget

theorem concerns_link (id : String) {previous : List String} (h : IdSets k previous)
    (d : PreparedDocument) :
    ∀ c ∈ link k id previous d, c.Concerns k id := by
  have hplaces : IdSets k (k.docs :: k.postings d) :=
    List.forall_mem_cons.2 ⟨⟨.docs, .inl rfl, k.docs_eq_key⟩, idSets_postings k d⟩
  intro c hc
  rw [link_eq] at hc
  rcases List.mem_append.1 hc with hc | hc
  · rcases List.mem_append.1 hc with hc | hc
    · rcases List.mem_append.1 hc with hc | hc
      · exact concerns_unlink id h c hc
      · rw [List.mem_singleton.1 hc]
        exact .putData _
    · exact hplaces.concerns true c hc
  · split at hc
    · cases hc
    · rw [List.mem_singleton.1 hc]
      exact .noteTerms _

theorem concerns_delete (id : String) {previous : List String} (h : IdSets k previous) :
    ∀ c ∈ unlink k id previous ++ [.remove k.docs [id]], c.Concerns k id := by
  intro c hc
  rcases List.mem_append.1 hc with hc | hc
  · exact concerns_unlink id h c hc
  · rw [List.mem_singleton.1 hc, KeySpace.docs_eq_key]
    exact .place false (.inl rfl)

theorem Command.Concerns.succeeds (hc : c.Concerns k id) (hv : v.InOrder k) :
    (v.run c).2.Succeeds := by
  cases hc with
  | place present hr =>
    obtain ⟨m, hm⟩ := hv.set? hr.kind
    exact (Server.run_place hm present id).1
  | forget => trivial
  | putData json => trivial
  | noteTerms keys =>
    obtain ⟨m, hm⟩ := hv.set? (r := .terms id) rfl
    rw [← KeySpace.terms_eq_key] at hm
    simp only [Server.run, hm]
    trivial

section
variable (hk : KeySpace.IsValidStem k.stem)
include hk

/-- The commands of a change do what they are told on a server in order. -/
theorem succeeds_runAll (hcs : ∀ c ∈ cs, c.Concerns k id) (hv : v.InOrder k) :
    ∀ reply ∈ (v.runAll cs).2, reply.Succeeds := by
  induction cs generalizing v with
  | nil => simp [Server.runAll]
  | cons c cs ih =>
    have hc := hcs c List.mem_cons_self
    exact List.forall_mem_cons.2 ⟨hc.succeeds hv,
      ih (fun c' hc' => hcs c' (List.mem_cons_of_mem _ hc')) ((hc.touches hk).inOrder hv)⟩

/-! ## What a change leaves of its own id -/

theorem trace_runAll_place (hv : v.InOrder k) {keys : List String} (hkeys : IdSets k keys)
    (present : Bool) :
    (v.runAll (keys.map (.place present id))).1.trace k id =
      { v.trace k id with
        stored := if k.docs ∈ keys then present else (v.trace k id).stored
        posting := fun f t =>
          if k.posting f t ∈ keys then present else (v.trace k id).posting f t
        anyField := fun t =>
          if k.anyField t ∈ keys then present else (v.trace k id).anyField t } := by
  have hcontains := Server.contains_runAll_place hk hv (fun key h => (hkeys key h).imp fun _ hr =>
    ⟨hr.1.kind, hr.2⟩) present id
  have hframe {r : Role} (hr : ¬r.HoldsIds) :
      (v.runAll (keys.map (.place present id))).1.keys.get? (r.key k) = v.keys.get? (r.key k) := by
    refine Server.get?_runAll_of_notMem fun c hc h => ?_
    obtain ⟨key, hkey, rfl⟩ := List.mem_map.1 hc
    obtain ⟨r', hr', rfl⟩ := hkeys key hkey
    rw [Command.writes_place, List.mem_singleton, Role.key_eq_key_iff hk] at h
    exact hr (h ▸ hr')
  refine Trace.ext ?_ ?_ (funext fun key => ?_) (funext fun f => funext fun t => ?_)
    (funext fun t => ?_)
  · simp only [Server.trace, hcontains, and_true]
  · simp only [Server.trace, KeySpace.data_eq_key]
    exact hframe (by simp [Role.HoldsIds, Role.IsPosting])
  · simp only [Server.trace, KeySpace.terms_eq_key]
    rw [Server.sets_congr (hframe (by simp [Role.HoldsIds, Role.IsPosting]))]
  · simp only [Server.trace, hcontains, and_true]
  · simp only [Server.trace, hcontains, and_true]

theorem trace_run_of_writes (hw : ∀ key ∈ c.writes, key = k.terms id ∨ key = k.data id) :
    (v.run c).1.trace k id =
      { v.trace k id with
        data := (v.run c).1.keys.get? (k.data id)
        terms := fun key => ((v.run c).1.sets (k.terms id)).contains key } := by
  have hframe {r : Role} (hr : r.HoldsIds) : (v.run c).1.sets (r.key k) = v.sets (r.key k) := by
    refine Server.sets_congr (Server.get?_run_of_notMem fun h => ?_)
    have := hw _ h
    rw [KeySpace.terms_eq_key, KeySpace.data_eq_key, Role.key_eq_key_iff hk,
      Role.key_eq_key_iff hk] at this
    rcases this with rfl | rfl <;> simp [Role.HoldsIds, Role.IsPosting] at hr
  refine Trace.ext ?_ rfl rfl (funext fun f => funext fun t => ?_) (funext fun t => ?_)
  · simp only [Server.trace, KeySpace.docs_eq_key, hframe (.inl rfl)]
  · simp only [Server.trace, KeySpace.posting_eq_key, hframe (.inr (.inl ⟨f, t, rfl⟩))]
  · simp only [Server.trace, KeySpace.anyField_eq_key, hframe (.inr (.inr ⟨t, rfl⟩))]

/-- **The trace after a document was taken out.** -/
theorem trace_unlink (hv : v.InOrder k) {previous : List String} (hprevious : IdSets k previous)
    (hdocs : k.docs ∉ previous) :
    (v.runAll (unlink k id previous)).1.trace k id =
      { stored := (v.trace k id).stored
        data := none
        terms := fun _ => false
        posting := fun f t => (v.trace k id).posting f t && !previous.contains (k.posting f t)
        anyField := fun t => (v.trace k id).anyField t && !previous.contains (k.anyField t) } := by
  have hforget (v : Server) (key : String) (hkey : key = k.terms id ∨ key = k.data id) :
      (v.run (.delete [k.terms id, k.data id])).1.keys.get? key = none := by
    simp [Server.get?_run_delete, hkey]
  rw [unlink_eq, Server.runAll_append, Server.runAll_singleton]
  dsimp only
  rw [trace_run_of_writes hk (by simp [Command.writes]), trace_runAll_place hk hv hprevious,
    hforget _ _ (.inr rfl), Server.sets_of_get?_eq_none (hforget _ _ (.inl rfl)), if_neg hdocs]
  refine Trace.ext rfl rfl rfl (funext fun f => funext fun t => ?_) (funext fun t => ?_)
  · by_cases h : k.posting f t ∈ previous <;> simp [h]
  · by_cases h : k.anyField t ∈ previous <;> simp [h]

/-- **The trace after a document was deleted.** The id stays in the posting sets that were not among
the `previous` ones. -/
theorem trace_delete (hv : v.InOrder k) {previous : List String} (hprevious : IdSets k previous)
    (hdocs : k.docs ∉ previous) :
    (v.runAll (unlink k id previous ++ [.remove k.docs [id]])).1.trace k id =
      { Trace.of k none with
        posting := fun f t => (v.trace k id).posting f t && !previous.contains (k.posting f t)
        anyField := fun t => (v.trace k id).anyField t && !previous.contains (k.anyField t) } := by
  have hremove : [Command.remove k.docs [id]] = [k.docs].map (.place false id) := rfl
  have hset : IdSets k [k.docs] := fun key hkey =>
    ⟨.docs, .inl rfl, (List.mem_singleton.1 hkey).trans k.docs_eq_key⟩
  rw [hremove, Server.runAll_append]
  dsimp only
  rw [trace_runAll_place hk ((touches_runAll hk (concerns_unlink id hprevious)).inOrder hv) hset,
    trace_unlink hk hv hprevious hdocs]
  refine Trace.ext ?_ rfl rfl (funext fun f => funext fun t => ?_) (funext fun t => ?_)
  · simp [Trace.of]
  · have hne : k.posting f t ≠ k.docs := by
      rw [KeySpace.posting_eq_key, KeySpace.docs_eq_key, Ne, Role.key_eq_key_iff hk]
      simp
    simp [hne]
  · have hne : k.anyField t ≠ k.docs := by
      rw [KeySpace.anyField_eq_key, KeySpace.docs_eq_key, Ne, Role.key_eq_key_iff hk]
      simp
    simp [hne]

/-- Terms are noted for an id that had none. -/
theorem trace_noteTerms (hv : v.InOrder k) (hterms : ∀ key, (v.trace k id).terms key = false)
    (keys : List String) :
    (v.run (.add (k.terms id) keys)).1.trace k id =
      { v.trace k id with terms := fun key => keys.contains key } := by
  obtain ⟨m, hm⟩ := hv.set? (r := .terms id) rfl
  rw [← KeySpace.terms_eq_key] at hm
  have hnone (key : String) : m.contains key = false := by
    rw [← Server.sets_eq_of_set? hm]
    exact hterms key
  have hdata : (v.run (.add (k.terms id) keys)).1.keys.get? (k.data id) = v.keys.get? (k.data id) := by
    refine Server.get?_run_of_notMem ?_
    rw [Command.writes, List.mem_singleton, KeySpace.terms_eq_key, KeySpace.data_eq_key,
      Role.key_eq_key_iff hk]
    simp
  rw [trace_run_of_writes hk (by simp [Command.writes])]
  refine Trace.ext rfl hdata (funext fun key => ?_) rfl rfl
  simp only [Server.run, hm, Server.sets_putSet, if_true, TextSet.contains_union, hnone,
    TextSet.contains_ofList, Bool.false_or]
  rw [Bool.eq_iff_iff, decide_eq_true_iff, List.contains_iff_mem]

theorem trace_putData (json : String) :
    (v.run (.put (k.data id) json)).1.trace k id =
      { v.trace k id with data := some (.text json) } := by
  have hterms : (v.run (.put (k.data id) json)).1.keys.get? (k.terms id) =
      v.keys.get? (k.terms id) := by
    refine Server.get?_run_of_notMem ?_
    rw [Command.writes, List.mem_singleton, KeySpace.terms_eq_key, KeySpace.data_eq_key,
      Role.key_eq_key_iff hk]
    simp
  rw [trace_run_of_writes hk (by simp [Command.writes])]
  refine Trace.ext rfl ?_ (funext fun key => ?_) rfl rfl
  · simp [Server.run]
  · simp only [Server.trace, Server.sets_congr hterms]

/-- **The trace after a document was put in the place of another.** Everything is as the document
says, but that the id stays in the posting sets that were not among the `previous` ones. -/
theorem trace_link (hv : v.InOrder k) {previous : List String} (hprevious : IdSets k previous)
    (hdocs : k.docs ∉ previous) (d : PreparedDocument) :
    (v.runAll (link k id previous d)).1.trace k id =
      { Trace.of k (some d) with
        posting := fun f t => (k.postings d).contains (k.posting f t) ||
          ((v.trace k id).posting f t && !previous.contains (k.posting f t))
        anyField := fun t => (k.postings d).contains (k.anyField t) ||
          ((v.trace k id).anyField t && !previous.contains (k.anyField t)) } := by
  have hplaces : IdSets k (k.docs :: k.postings d) :=
    List.forall_mem_cons.2 ⟨⟨.docs, .inl rfl, k.docs_eq_key⟩, idSets_postings k d⟩
  have hv₁ : (v.runAll (unlink k id previous)).1.InOrder k :=
    (touches_runAll hk (concerns_unlink id hprevious)).inOrder hv
  have hv₂ : ((v.runAll (unlink k id previous)).1.run (.put (k.data id) d.stored.toJsonText)).1.InOrder
      k := ((Command.Concerns.putData _).touches hk).inOrder hv₁
  have hne (key : String) (h : ∃ r : Role, r.IsPosting ∧ key = r.key k) : key ≠ k.docs := by
    obtain ⟨r, hr, rfl⟩ := h
    rw [KeySpace.docs_eq_key, Ne, Role.key_eq_key_iff hk]
    rintro rfl
    simp [Role.IsPosting] at hr
  -- The trace before the terms are noted.
  have htrace : (v.runAll (unlink k id previous ++ [.put (k.data id) d.stored.toJsonText] ++
      (k.docs :: k.postings d).map (.place true id))).1.trace k id =
        { Trace.of k (some d) with
          terms := fun _ => false
          posting := fun f t => (k.postings d).contains (k.posting f t) ||
            ((v.trace k id).posting f t && !previous.contains (k.posting f t))
          anyField := fun t => (k.postings d).contains (k.anyField t) ||
            ((v.trace k id).anyField t && !previous.contains (k.anyField t)) } := by
    rw [Server.runAll_append, Server.runAll_append, Server.runAll_singleton]
    dsimp only
    rw [trace_runAll_place hk hv₂ hplaces, trace_putData hk, trace_unlink hk hv hprevious hdocs]
    refine Trace.ext ?_ rfl rfl (funext fun f => funext fun t => ?_) (funext fun t => ?_)
    · simp [Trace.of]
    · have := hne (k.posting f t) ⟨_, .inl ⟨f, t, rfl⟩, k.posting_eq_key f t⟩
      by_cases h : k.posting f t ∈ k.postings d <;> simp [h, this]
    · have := hne (k.anyField t) ⟨_, .inr ⟨t, rfl⟩, k.anyField_eq_key t⟩
      by_cases h : k.anyField t ∈ k.postings d <;> simp [h, this]
  rw [link_eq]
  split
  · rename_i hempty
    rw [List.append_nil, htrace]
    refine Trace.ext rfl rfl (funext fun key => ?_) rfl rfl
    simp [Trace.of, List.isEmpty_iff.1 hempty]
  · rw [Server.runAll_append, Server.runAll_singleton]
    dsimp only
    rw [trace_noteTerms hk, htrace]
    · rfl
    · exact (touches_runAll hk fun c hc => concerns_link id hprevious d c (by
        rw [link_eq]
        exact List.mem_append_left _ hc)).inOrder hv
    · intro key
      rw [htrace]

end

end Searchlight.SetStore
