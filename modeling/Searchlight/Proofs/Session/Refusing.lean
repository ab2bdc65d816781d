import Searchlight.Proofs.Driver.Registering
import Searchlight.Proofs.Query.Refusing
import Searchlight.Proofs.Session.Algebra

/-!
# Queries that no driver takes

Drivers with the same schema take and refuse the same queries without weights, and refuse them for
the same reason: the first one that the schema gives over the nodes of the query. On disk it matters
that every field that is searched has a number, which holds of every store in every run.
-/

namespace Searchlight

namespace Driver

variable {d : Driver} {q : Query}

/-- A driver fails for the first reason that its schema gives. -/
theorem map_translate (hd : d.Sound) (hshape : ∀ key s, d ≠ limited key s) (hw : q.Weightless) :
    (d.translate q).map (fun _ => ()) =
      checked (q.nodes.findSome? (Query.verdict? d.schema.refuses?)) := by
  have hmap {β : Type} {f : β → NativeQuery} (x : Except Error β) :
      (x.map f).map (fun _ => ()) = x.map fun _ => () := by cases x <;> rfl
  cases d with
  | memory s =>
    rw [translate, hmap]
    exact Query.map_translate_of_refuses _ (Memory.refuses s.schema) hw fun op _ => by
      cases op <;> rfl
  | limited key s => exact absurd rfl (hshape key s)
  | sets s =>
    rw [translate, hmap]
    refine Query.map_translate_of_refuses _ (SetStore.refuses s.keys s.schema) hw fun op hop => ?_
    cases op <;> first | rfl | exact absurd rfl hop
  | disk s =>
    rw [translate, hmap]
    exact Query.map_translate_of_refuses _ (Disk.refuses hd.fields s.analyze) hw fun op _ => by
      cases op <;> rfl

end Driver

namespace Session

open Query (verdict?)

/-- **All drivers refuse alike.** In every run, a store on disk, any store in memory and any posting
sets with the same schema take the same queries without weights, whatever the fields are. A query is
taken by all three if nothing is wrong with any of its nodes, and else refused by all three for what
is wrong with the first one at fault. -/
theorem refused_alike (analyze : Disk.Analyzer) (directories : List String)
    (server : SetStore.Server) (idStem : String) (es : List Event) {n : Nat} {c : Client}
    (hc : (n, c) ∈ ((new (.initial analyze directories server idStem)).after es).held)
    {disk : Disk.Store} (hdisk : c.driver = .disk disk) (memory : Memory.Store)
    (hmemory : memory.schema = disk.fields.schema) (sets : SetStore.Store)
    (hsets : sets.schema = disk.fields.schema) {q : Query} (hw : q.Weightless) :
    match q.nodes.findSome? (verdict? disk.fields.schema.refuses?) with
    | none =>
      (∃ x, (Driver.memory memory).translate q = .ok x) ∧
        (∃ x, (Driver.sets sets).translate q = .ok x) ∧ ∃ x, c.driver.translate q = .ok x
    | some e =>
      (Driver.memory memory).translate q = .error e ∧ (Driver.sets sets).translate q = .error e ∧
        c.driver.translate q = .error e := by
  have hsound : c.driver.Sound := (sound_after analyze directories server idStem es).1 _ hc
  have hinMemory := Driver.map_translate (d := .memory memory) trivial (fun _ _ h => by cases h) hw
  have hinSets := Driver.map_translate (d := .sets sets) trivial (fun _ _ h => by cases h) hw
  have honDisk := Driver.map_translate hsound (fun _ _ h => by cases hdisk.symm.trans h) hw
  rw [Driver.schema, hmemory] at hinMemory
  rw [Driver.schema, hsets] at hinSets
  rw [show c.driver.schema = disk.fields.schema by rw [hdisk, Driver.schema]] at honDisk
  cases hfault : q.nodes.findSome? (verdict? disk.fields.schema.refuses?) with
  | none =>
    rw [hfault] at hinMemory hinSets honDisk
    obtain ⟨x, hx, -⟩ := Except.map_eq_ok.1 hinMemory
    obtain ⟨y, hy, -⟩ := Except.map_eq_ok.1 hinSets
    obtain ⟨z, hz, -⟩ := Except.map_eq_ok.1 honDisk
    exact ⟨⟨x, hx⟩, ⟨y, hy⟩, ⟨z, hz⟩⟩
  | some e =>
    rw [hfault] at hinMemory hinSets honDisk
    exact ⟨Except.map_eq_error.1 hinMemory, Except.map_eq_error.1 hinSets,
      Except.map_eq_error.1 honDisk⟩

/-- A client that registers fields of all kinds before there are documents, an ignored one with an
index and a text without one among them. -/
def measures : List Event :=
  [.openClient "measures" .builtin "tantivy" { BackendOptions.none with path := some "d" } .default,
    .ask "measures" (.registerField "depth" .numeric),
    .ask "measures" (.registerField "taken" .date),
    .ask "measures" (.registerField "skipped" ⟨.ignored, true, false⟩),
    .ask "measures" (.registerField "remark" ⟨.freeText, false, true⟩)]

def measured : Schema :=
  .ofList [("depth", .numeric), ("taken", .date), ("skipped", ⟨.ignored, true, false⟩),
    ("remark", ⟨.freeText, false, true⟩)]

/-- Nobody minds what is asked of fields that are not searched, or a date that is one; the second
depth is none, and is reported before the field that is not there. -/
def misread : Query :=
  ((Query.field "skipped" ["x"]).or (.field "remark" ["deep"])).and
    ((Query.field "taken" ["2024-02-29T00:00:00Z"]).and
      ((Query.field "depth" ["12.5", "deep"]).not (.field "ghost" ["x"])))

theorem refused_alike_measures :
    ∃ c disk, (0, c) ∈ (oneDirectory.after measures).held ∧ c.driver = .disk disk ∧
      (Driver.memory ⟨disk.fields.schema, ∅, 0⟩).translate misread =
        .error (.querying "field 'depth' is numeric, got 'deep'") ∧
      (Driver.sets ⟨⟨"s"⟩, "localhost:6379", 1000, false, disk.fields.schema⟩).translate misread =
        .error (.querying "field 'depth' is numeric, got 'deep'") ∧
      c.driver.translate misread =
        .error (.querying "field 'depth' is numeric, got 'deep'") := by
  have hheld : (oneDirectory.after measures).held.map (fun e =>
      (e.1, e.2.driver.diskReadonly?, decide (e.2.driver.schema = measured))) =
        [(0, some false, true)] := by
    decide +kernel
  obtain ⟨⟨n, c⟩, hc, he⟩ := List.mem_map.1 (hheld ▸ List.mem_singleton_self _)
  simp only [Prod.mk.injEq, decide_eq_true_iff] at he
  obtain ⟨rfl, hreadonly, hschema⟩ := he
  cases hdisk : c.driver with
  | disk disk =>
    rw [hdisk, Driver.schema] at hschema
    have hfault : misread.nodes.findSome? (verdict? disk.fields.schema.refuses?) =
        some (.querying "field 'depth' is numeric, got 'deep'") := by
      rw [hschema]
      decide +kernel
    have hw : misread.Weightless :=
      ⟨⟨trivial, trivial, trivial⟩, trivial, ⟨trivial, trivial⟩, trivial⟩
    have h := refused_alike Text.stems ["d"] (.fresh true) "" measures hc hdisk
      ⟨disk.fields.schema, ∅, 0⟩ rfl
      ⟨⟨"s"⟩, "localhost:6379", 1000, false, disk.fields.schema⟩ rfl hw
    rw [hfault] at h
    exact ⟨c, disk, hc, hdisk, h⟩
  | memory s | limited key s | sets s =>
    rw [hdisk] at hreadonly
    cases hreadonly

end Session

end Searchlight
