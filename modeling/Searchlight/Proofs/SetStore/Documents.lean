import Searchlight.Proofs.Driver.Registering
import Searchlight.Proofs.SetStore.Changes

/-!
# Work on documents

What the work of a store does to a server that is in order for it: the work is refused and the
server stays as it was, or the commands of one change are all done. A new number of the counter is
the only thing that may be used up in vain.
-/

namespace Searchlight.SetStore

open Searchlight.Action (Keeps)

namespace Reply

theorem nat?_integer (n : Nat) : nat? (.integer n) = some (n % UInt64.size) := by
  rw [nat?, Nat.one_shiftLeft, UInt64.size, Option.some.injEq]
  omega

theorem listOf?_text (xs : List String) : (list (xs.map text)).listOf? text? = some xs := by
  simp only [listOf?]
  induction xs with
  | nil => rfl
  | cons x xs ih => simp [List.mapM_cons, text?, ih]

end Reply

/-- The number that the counter of a store gives next, unless it is spent. -/
def Server.nextNumber? (v : Server) (k : KeySpace) : Option Nat :=
  (successor? (v.keys.get? k.nextId)).map fun n => (n % ((1 <<< 64 : Nat) : Int)).toNat

namespace Store

variable {s : Store} {v v' : Server} {id : String} {d : PreparedDocument}

theorem accept_of_succeeds {e : String → Error} {r : Reply} (h : r.Succeeds) :
    accept e some r = .ok r := by
  cases r <;> first | rfl | exact h.elim

/-- A transaction in which every command does what it is told. -/
theorem transact_of_succeeds (hs : s.Serves v) (e : String → Error) {cs : List Command}
    (hcs : ∀ reply ∈ (v.runAll cs).2, reply.Succeeds) :
    transact e cs (s, v) = .ok (v.runAll cs).2 (s, (v.runAll cs).1) := by
  have haccept (rs : List Reply) (h : ∀ r ∈ rs, r.Succeeds) : rs.mapM (accept e some) = .ok rs := by
    induction rs with
    | nil => rfl
    | cons r rs ih =>
      rw [List.mapM_cons, accept_of_succeeds (h r List.mem_cons_self),
        ih fun r' hr' => h r' (List.mem_cons_of_mem _ hr')]
      rfl
  simp only [transact, Action.get_run, Action.bind_run, Action.second, Action.focus, exchange_run,
    if_pos hs.1, if_neg hs.2, haccept _ hcs]
  rfl

/-- A transaction fails with any of its commands. -/
theorem transact_of_failure (hs : s.Serves v) (e : String → Error) {cs : List Command}
    {text : String} (hcs : .failure text ∈ (v.runAll cs).2) :
    ∃ f x, transact e cs (s, v) = .error f x := by
  simp only [transact, Action.get_run, Action.bind_run, Action.second, Action.focus, exchange_run,
    if_pos hs.1, if_neg hs.2, Action.ofExcept_run]
  cases hall : (v.runAll cs).2.mapM (accept e some) with
  | error f => exact ⟨f, _, rfl⟩
  | ok rs =>
    obtain ⟨_, -, haccept⟩ := Except.exists_mem_of_mapM hall hcs
    cases haccept

/-- The store may write, and the server answers. -/
def Writes (s : Store) (v : Server) : Prop := s.readonly = false ∧ s.Serves v

theorem Serves.congr (hs : s.Serves v) (h : v'.mode = v.mode ∧ v'.reachable = v.reachable) :
    s.Serves v' := by
  simpa [Serves, Server.answers, h.1, h.2] using hs

theorem beside_increment (hk : KeySpace.IsValidStem s.keys.stem) :
    (Command.increment s.keys.nextId).Beside s.keys := by
  refine ⟨fun r h => ?_, by simp [Command.writes, Role.IsBeside, KeySpace.nextId_eq_key]⟩
  rw [KeySpace.nextId_eq_key] at h
  exact Role.kind_eq hk hk h

theorem ensureWritable_run (operation : String) :
    ensureWritable operation (s, v) =
      if s.readonly then .error (.readOnlyViolation operation) (s, v) else .ok () (s, v) := by
  cases h : s.readonly <;> simp [ensureWritable, h]

section
variable (hv : v.InOrder s.keys)
include hv

/-- The posting keys of an id are those that are noted for it. -/
theorem postingsOf_run (hs : s.Serves v) (id : String) :
    postingsOf id (s, v) = .ok (v.sets (s.keys.terms id)).keys (s, v) := by
  obtain ⟨m, hm⟩ := hv.set? (r := .terms id) rfl
  rw [← KeySpace.terms_eq_key] at hm
  have hrun : v.run (.members (s.keys.terms id)) = (v, .list (m.keys.map .text)) := by
    simp [Server.run, hm]
  simp only [postingsOf, Action.get_bind, ask_of_serves hs, hrun, accept, Reply.listOf?_text,
    Server.sets_eq_of_set? hm]

theorem contains_run (hs : s.Serves v) (id : String) :
    contains id (s, v) = .ok ((v.sets s.keys.docs).contains id) (s, v) := by
  obtain ⟨m, hm⟩ := hv.set? (r := .docs) rfl
  rw [← KeySpace.docs_eq_key] at hm
  have hrun : v.run (.isMember s.keys.docs id) = (v, .integer (if m.contains id then 1 else 0)) := by
    simp [Server.run, hm]
  simp only [contains, Action.bind_run, Action.get_run, ask_of_serves hs, hrun,
    Server.sets_eq_of_set? hm]
  cases m.contains id <;> rfl

theorem increment_run :
    v.run (.increment s.keys.nextId) =
      (Server.successor? (v.keys.get? s.keys.nextId)).elim
        (v, .failure "ERR value is not an integer or out of range")
        fun n => ({ v with keys := v.keys.insert s.keys.nextId (.text (toString n)) }, .integer n) := by
  have hkind (x : Datum) (hx : v.keys.get? s.keys.nextId = some x) : x.kind = .text := by
    rw [KeySpace.nextId_eq_key] at hx
    exact hv .nextId x hx
  rw [Server.run, Server.increment]
  cases hx : v.keys.get? s.keys.nextId with
  | none => rfl
  | some x =>
    have := hkind x hx
    cases x with
    | text t =>
      dsimp only
      cases Server.successor? (some (.text t)) <;> rfl
    | hash => cases this
    | set => cases this

theorem ask_increment (hs : s.Serves v) {n : Nat} (hn : v.nextNumber? s.keys = some n) :
    ask writeFailure (.increment s.keys.nextId) Reply.nat? (s, v) =
      .ok n (s, (v.run (.increment s.keys.nextId)).1) := by
  rw [Server.nextNumber?, Option.map_eq_some_iff] at hn
  obtain ⟨i, hi, rfl⟩ := hn
  simp only [ask_of_serves hs, increment_run hv, hi]
  rfl

theorem ask_increment_spent (hs : s.Serves v) (hn : v.nextNumber? s.keys = none) :
    ∃ e, ask writeFailure (.increment s.keys.nextId) Reply.nat? (s, v) = .error e (s, v) := by
  rw [Server.nextNumber?, Option.map_eq_none_iff] at hn
  simp only [ask_of_serves hs, increment_run hv, hn]
  exact ⟨_, rfl⟩

/-- Nothing is indexed when the counter is spent. -/
theorem index_spent_run (hw : s.Writes v) (hn : v.nextNumber? s.keys = none)
    (d : PreparedDocument) :
    ∃ e, index d none (s, v) = .error e (s, v) := by
  obtain ⟨e, he⟩ := ask_increment_spent hv hw.2 hn
  refine ⟨e, ?_⟩
  simp only [index, Action.bind_run, ensureWritable_run, hw.1, Bool.false_eq_true, if_false,
    Action.get_run, he]

end

section
variable (hk : KeySpace.IsValidStem s.keys.stem) (hv : v.InOrder s.keys) (hw : s.Writes v)
include hk hv hw

/-- **To index under a given id** is to link the document in the place of what was noted. -/
theorem index_given_run (hprevious : IdSets s.keys (v.sets (s.keys.terms id)).keys) :
    index d (some id) (s, v) =
      .ok id (s, (v.runAll (link s.keys id (v.sets (s.keys.terms id)).keys d)).1) := by
  have hlink := succeeds_runAll hk (concerns_link id hprevious d) hv
  simp only [index, Action.bind_run, ensureWritable_run, hw.1, Bool.false_eq_true, if_false,
    Action.get_run, postingsOf_run hv hw.2, Action.pure_run, transact_of_succeeds hw.2 _ hlink]

/-- **To index under a number of the counter** is to link the document in the place of nothing. -/
theorem index_fresh_run {n : Nat} (hn : v.nextNumber? s.keys = some n) :
    index d none (s, v) =
      .ok (toString n)
        (s, ((v.run (.increment s.keys.nextId)).1.runAll (link s.keys (toString n) [] d)).1) := by
  have hsame := (beside_increment hk).sameTraces (v := v) hk
  have hserves : s.Serves (v.run (.increment s.keys.nextId)).1 := hw.2.congr hsame.answering
  have hlink := succeeds_runAll hk (concerns_link (toString n) (idSets_nil s.keys) d)
    (hsame.inOrder hv)
  simp only [index, Action.bind_run, ensureWritable_run, hw.1, Bool.false_eq_true, if_false,
    Action.get_run, ask_increment hv hw.2 hn, Action.pure_run, transact_of_succeeds hserves _ hlink]

/-- **To delete** is to unlink what is stored. -/
theorem delete_run (hprevious : IdSets s.keys (v.sets (s.keys.terms id)).keys) :
    delete id (s, v) =
      if (v.sets s.keys.docs).contains id then
        .ok () (s, (v.runAll (unlink s.keys id (v.sets (s.keys.terms id)).keys ++
          [.remove s.keys.docs [id]])).1)
      else .error (.notFound id) (s, v) := by
  have hall := succeeds_runAll hk (concerns_delete id hprevious) hv
  cases hid : (v.sets s.keys.docs).contains id <;>
    simp only [delete, Action.bind_run, ensureWritable_run, hw.1, Bool.false_eq_true, if_false,
      if_true, Action.get_run, contains_run hv hw.2, postingsOf_run hv hw.2, Action.ite_run,
      Action.pure_run, Action.throw_run, hid, Bool.not_false, Bool.not_true,
      transact_of_succeeds hw.2 _ hall]

end

theorem index_refused (hw : ¬s.Writes v) (d : PreparedDocument) (id : Option String) :
    ∃ e, index d id (s, v) = .error e (s, v) := by
  cases hreadonly : s.readonly with
  | true =>
    refine ⟨.readOnlyViolation "index", ?_⟩
    simp [index, Action.bind_run, ensureWritable_run, hreadonly]
  | false =>
    have hs : ¬s.Serves v := fun hs => hw ⟨hreadonly, hs⟩
    cases id with
    | some id =>
      obtain ⟨e, he⟩ := ask_of_not_serves hs readFailure (.members (s.keys.terms id))
        (Reply.listOf? Reply.text?)
      refine ⟨e, ?_⟩
      simp [index, Action.bind_run, ensureWritable_run, hreadonly, postingsOf, he]
    | none =>
      obtain ⟨e, he⟩ := ask_of_not_serves hs writeFailure (.increment s.keys.nextId) Reply.nat?
      refine ⟨e, ?_⟩
      simp [index, Action.bind_run, ensureWritable_run, hreadonly, he]

theorem delete_refused (hw : ¬s.Writes v) (id : String) :
    ∃ e, delete id (s, v) = .error e (s, v) := by
  cases hreadonly : s.readonly with
  | true =>
    refine ⟨.readOnlyViolation "delete", ?_⟩
    simp [delete, Action.bind_run, ensureWritable_run, hreadonly]
  | false =>
    have hs : ¬s.Serves v := fun hs => hw ⟨hreadonly, hs⟩
    obtain ⟨e, he⟩ := ask_of_not_serves hs readFailure (.isMember s.keys.docs id) Reply.nat?
    refine ⟨e, ?_⟩
    simp [delete, Action.bind_run, ensureWritable_run, hreadonly, contains, he]

section
variable (hk : KeySpace.IsValidStem s.keys.stem) (hv : v.InOrder s.keys)
  (hnoted : ∀ id, IdSets s.keys (v.sets (s.keys.terms id)).keys)
include hk hv hnoted

/-- **To index** links a document in the place of what was noted for a given id, or of nothing under
a number of the counter; or it is refused. -/
theorem index_cases (d : PreparedDocument) (given : Option String) :
    (∃ id v₀ previous, index d given (s, v) = .ok id (s, (v₀.runAll (link s.keys id previous d)).1) ∧
        (given = some id ∧ v₀ = v ∧ previous = (v.sets (s.keys.terms id)).keys ∨
          given = none ∧ v₀ = (v.run (.increment s.keys.nextId)).1 ∧ previous = [])) ∨
      ∃ e, index d given (s, v) = .error e (s, v) := by
  by_cases hw : s.Writes v
  · cases given with
    | some id =>
      exact .inl ⟨id, v, _, index_given_run hk hv hw (hnoted id), .inl ⟨rfl, rfl, rfl⟩⟩
    | none =>
      cases hn : v.nextNumber? s.keys with
      | some n =>
        exact .inl ⟨_, _, [], index_fresh_run hk hv hw hn, .inr ⟨rfl, rfl, rfl⟩⟩
      | none => exact .inr (index_spent_run hv hw hn d)
  · exact .inr (index_refused hw d given)

/-- **To delete** unlinks a document that is there; or it is refused. -/
theorem delete_cases (id : String) :
    delete id (s, v) = .ok () (s, (v.runAll (unlink s.keys id (v.sets (s.keys.terms id)).keys ++
        [.remove s.keys.docs [id]])).1) ∨
      ∃ e, delete id (s, v) = .error e (s, v) := by
  by_cases hw : s.Writes v
  · have hrun := delete_run hk hv hw (hnoted id)
    split at hrun
    · exact .inl hrun
    · exact .inr ⟨_, hrun⟩
  · exact .inr (delete_refused hw id)

end

end Store

/-! ## Searches -/

namespace Program

variable {temp : Nat → String}

/-- Every step of a program writes one of its temporary keys. -/
def Writes (temp : Nat → String) (p : Program) : Prop :=
  (∀ step ∈ p.steps, step.dest ∈ p.temps) ∧ ∀ t ∈ p.temps, ∃ n, t = temp n

theorem writes_joined {op : SetOp} {n : Nat} {parts : List Program}
    (h : ∀ p ∈ parts, p.Writes temp) : (joined op (temp n) parts).Writes temp := by
  constructor
  · intro step hstep
    rcases List.mem_append.1 hstep with hstep | hstep
    · obtain ⟨p, hp, hstep⟩ := List.mem_flatMap.1 hstep
      exact List.mem_append_left _ (List.mem_flatMap.2 ⟨p, hp, (h p hp).1 step hstep⟩)
    · rw [List.mem_singleton.1 hstep]
      exact List.mem_append_right _ (List.mem_singleton_self _)
  · intro t ht
    rcases List.mem_append.1 ht with ht | ht
    · obtain ⟨p, hp, ht⟩ := List.mem_flatMap.1 ht
      exact (h p hp).2 t ht
    · exact ⟨n, List.mem_singleton.1 ht⟩

mutual

theorem writes_compileFrom (temp : Nat → String) (n : Nat) (p : Plan) :
    (compileFrom temp n p).Writes temp :=
  match p with
  | .key k => ⟨by simp [compileFrom], by simp [compileFrom]⟩
  | .nothing => ⟨by simp [compileFrom], by simp [compileFrom]⟩
  | .inter parts => writes_joined (writes_compileAll temp n parts)
  | .union parts => writes_joined (writes_compileAll temp n parts)
  | .diff p q => writes_joined (by
      have hp := writes_compileFrom temp n p
      have hq := writes_compileFrom temp (n + (compileFrom temp n p).temps.length) q
      simpa using ⟨hp, hq⟩)

theorem writes_compileAll (temp : Nat → String) (n : Nat) (ps : List Plan) :
    ∀ p ∈ compileAll temp n ps, p.Writes temp :=
  match ps with
  | [] => by simp [compileAll]
  | p :: ps => by
    have hp := writes_compileFrom temp n p
    have hps := writes_compileAll temp (n + (compileFrom temp n p).temps.length) ps
    simpa [compileAll] using ⟨hp, hps⟩

end

end Program

namespace Store

variable {s : Store} {v v' : Server}

/-- A search writes temporary keys only. -/
theorem beside_searchCommands (hk : KeySpace.IsValidStem s.keys.stem) (run : String) (plan : Plan)
    (offset limit : Nat) :
    ∀ c ∈ searchCommands (.compile s.keys run plan) offset limit, c.Beside s.keys := by
  obtain ⟨hsteps, htemps⟩ := Program.writes_compileFrom (s.keys.temp run) 0 plan
  have hkey (t : String) (ht : t ∈ (Program.compile s.keys run plan).temps) :
      ∃ r : Role, r.IsBeside ∧ r.kind = .set ∧ t = r.key s.keys := by
    obtain ⟨n, rfl⟩ := htemps t ht
    exact ⟨_, .inr (.inr ⟨_, rfl⟩), rfl, KeySpace.temp_eq_key _ run n⟩
  intro c hc
  simp only [searchCommands, List.mem_append, List.mem_map, List.mem_singleton] at hc
  rcases hc with ((⟨step, hstep, rfl⟩ | rfl) | hc) | hc
  · obtain ⟨r, hr, hset, hdest⟩ := hkey _ (hsteps step hstep)
    refine ⟨fun r' h => ?_, fun key h => ?_⟩
    · exact (Role.kind_eq hk hk (hdest ▸ h)).trans hset
    · obtain rfl := List.mem_singleton.1 h
      exact ⟨r, hr, hdest⟩
  · exact ⟨trivial, by simp [Command.writes]⟩
  · split at hc
    · cases hc
    · rw [List.mem_singleton.1 hc]
      exact ⟨trivial, by simp [Command.writes]⟩
  · split at hc
    · cases hc
    · rw [List.mem_singleton.1 hc]
      refine ⟨trivial, fun key h => ?_⟩
      obtain ⟨r, hr, -, hkey⟩ := hkey key h
      exact ⟨r, hr, hkey⟩

def OnServer (k : KeySpace) (J : Server → Prop) (x : Store × Server) : Prop := x.1.keys = k ∧ J x.2

section
variable {α : Type} {k : KeySpace} {J : Server → Prop} {e : String → Error}

theorem keeps_exchange {α : Type} {x : Server → Server × α} {timeoutMs : Nat}
    (hx : ∀ v, J v → J (x v).1) :
    Keeps (OnServer k J) (Action.second (exchange timeoutMs e x)) fun _ => True := by
  rintro ⟨s, v⟩ ⟨hkeys, hv⟩
  simp only [Action.second, Action.focus, exchange_run]
  by_cases ha : v.answers timeoutMs = true
  · by_cases hm : v.mode = .failing
    · simpa [ha, hm] using ⟨hkeys, hv⟩
    · simpa [ha, hm] using ⟨hkeys, hx v hv⟩
  · simpa [ha] using ⟨hkeys, hv⟩

theorem keeps_ask_server {c : Command} {decode : Reply → Option α}
    (hc : ∀ v, J v → J (v.run c).1) :
    Keeps (OnServer k J) (ask e c decode) fun _ => True :=
  Keeps.get.bind fun _ _ => (keeps_exchange hc).seq fun _ => .ofExcept fun _ _ => trivial

theorem keeps_transact_server {cs : List Command} (hcs : ∀ v, J v → J (v.runAll cs).1) :
    Keeps (OnServer k J) (transact e cs) fun _ => True :=
  Keeps.get.bind fun _ _ => (keeps_exchange hcs).seq fun _ => .ofExcept fun _ _ => trivial

end

/-- **A search leaves the traces of all ids**, whether it fails or not. -/
theorem sameTraces_search (hk : KeySpace.IsValidStem s.keys.stem) (plan : Plan)
    (offset limit : Nat) :
    SameTraces s.keys v ((search plan offset limit).after (s, v)).2 := by
  have hkeeps : Keeps (OnServer s.keys (SameTraces s.keys v)) (search plan offset limit)
      fun _ => True := by
    refine Keeps.get.bind fun x hx => ?_
    have hkeys : x.1.keys = s.keys := hx.1
    have hread (keys : List String) : (Command.getAll keys).Beside s.keys :=
      ⟨trivial, by simp [Command.writes]⟩
    dsimp only
    rw [hkeys]
    refine Keeps.seq (keeps_transact_server fun v' hv' => hv'.trans
      (sameTraces_runAll hk (beside_searchCommands hk runLabel plan offset limit))) fun rs => ?_
    exact Keeps.seq (.ofExcept fun _ _ => trivial) fun _ => .ite (fun _ => .pure trivial) fun _ =>
      Keeps.seq (keeps_ask_server fun v' hv' => hv'.trans ((hread _).sameTraces hk)) fun _ =>
        Keeps.seq (.ofExcept fun _ _ => trivial) fun _ => .pure trivial
  exact (hkeeps.after (s := (s, v)) ⟨rfl, .refl _ _⟩).2

theorem keeps_registerField_server {k : KeySpace} {J : Server → Prop} (name : String)
    (config : FieldConfig)
    (hJ : ∀ v entries, J v → J (v.run (.hashPut k.schema entries)).1) :
    Keeps (OnServer k J) (registerField name config) fun _ => True := by
  refine Keeps.seq (Keeps.get.bind fun _ _ => .ite (fun _ => .throw) fun _ => .pure trivial)
    fun _ => Keeps.get.bind fun x hx => ?_
  have hkeys : x.1.keys = k := hx.1
  refine Keeps.seq (keeps_ask_server fun v hv => ?_) fun _ => .modify fun _ h => h
  rw [hkeys]
  exact hJ v _ hv

/-- **To register a field leaves the traces of all ids**, whether it fails or not. -/
theorem sameTraces_registerField (hk : KeySpace.IsValidStem s.keys.stem) (name : String)
    (config : FieldConfig) :
    SameTraces s.keys v ((registerField name config).after (s, v)).2 := by
  have hbeside (entries : List (String × String)) :
      (Command.hashPut s.keys.schema entries).Beside s.keys := by
    refine ⟨fun r h => ?_, by simp [Command.writes, Role.IsBeside, KeySpace.schema_eq_key]⟩
    rw [KeySpace.schema_eq_key] at h
    exact Role.kind_eq hk hk h
  have hkeeps := keeps_registerField_server (J := SameTraces s.keys v) name config
    fun _ entries hv' => hv'.trans ((hbeside entries).sameTraces hk)
  exact (hkeeps.after (s := (s, v)) ⟨rfl, .refl _ _⟩).2

theorem get?_registerField (hk : KeySpace.IsValidStem s.keys.stem) {r : Role} (hr : r ≠ .schema)
    (name : String) (config : FieldConfig) :
    ((registerField name config).after (s, v)).2.keys.get? (r.key s.keys) =
      v.keys.get? (r.key s.keys) := by
  have hne : r.key s.keys ≠ s.keys.schema := by
    rwa [KeySpace.schema_eq_key, Ne, Role.key_eq_key_iff hk]
  have hkeeps := keeps_registerField_server (k := s.keys)
    (J := fun v' => v'.keys.get? (r.key s.keys) = v.keys.get? (r.key s.keys)) name config
    fun v' entries hv' => (Server.get?_run_of_notMem (by simpa [Command.writes] using hne)).trans hv'
  exact (hkeeps.after (s := (s, v)) ⟨rfl, rfl⟩).2

end Store

end Searchlight.SetStore
