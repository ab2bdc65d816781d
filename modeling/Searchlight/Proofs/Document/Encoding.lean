import Searchlight.Document.Json
import Searchlight.Proofs.Json.Numbers
import Searchlight.Proofs.Time.Rfc3339

/-!
# Documents as texts

What a document is read as from its text is told by two things: how deep it is nested, as a reader
opens no more than `Json.maxDepth` arrays and objects at once, and what its numbers are read as. All
else is read as it was written (`Document.ofJsonText?_toJsonText`). So a document with numbers that
are read as they were written is encoded without loss as far as it can be decoded at all
(`Document.encoding_lossless`).
-/

namespace Searchlight

open Json (Readable)

/-- What a number is read as from its text. -/
def Json.reread? (x : Double) : Option Double := (ofDouble x).double?

namespace Value

mutual

/-- How many arrays and objects are open at once in the text of a value. -/
def depth : Value → Nat
  | text _ | number _ | dateTime _ => 1
  | document ps => pairsDepth ps + 2

def pairsDepth : List (String × Value) → Nat
  | [] => 0
  | (_, v) :: ps => max (v.depth + 1) (pairsDepth ps)

end

mutual

/-- The numbers in a value, those in nested documents too. -/
def numbers : Value → List Double
  | text _ | dateTime _ => []
  | number x => [x]
  | document ps => pairsNumbers ps

def pairsNumbers : List (String × Value) → List Double
  | [] => []
  | (_, v) :: ps => v.numbers ++ pairsNumbers ps

end

mutual

def mapNumbers? (f : Double → Option Double) : Value → Option Value
  | text s => some (text s)
  | number x => (f x).map number
  | dateTime t => some (dateTime t)
  | document ps => (mapPairsNumbers? f ps).map document

def mapPairsNumbers? (f : Double → Option Double) :
    List (String × Value) → Option (List (String × Value))
  | [] => some []
  | (n, v) :: ps => do
    let v ← v.mapNumbers? f
    let ps ← mapPairsNumbers? f ps
    some ((n, v) :: ps)

end

/-! ## Numbers -/

section
variable {f : Double → Option Double}

mutual

theorem mapNumbers?_eq_some : {v : Value} → (∀ x ∈ v.numbers, f x = some x) →
    v.mapNumbers? f = some v
  | text _, _ | dateTime _, _ => by rw [mapNumbers?]
  | number x, h => by rw [mapNumbers?, h x List.mem_cons_self, Option.map_some]
  | document ps, h => by
    rw [numbers] at h
    rw [mapNumbers?, mapPairsNumbers?_eq_some h, Option.map_some]

theorem mapPairsNumbers?_eq_some : {ps : List (String × Value)} →
    (∀ x ∈ pairsNumbers ps, f x = some x) → mapPairsNumbers? f ps = some ps
  | [], _ => by rw [mapPairsNumbers?]
  | (n, v) :: ps, h => by
    rw [pairsNumbers, List.forall_mem_append] at h
    simp [mapPairsNumbers?, mapNumbers?_eq_some h.1, mapPairsNumbers?_eq_some h.2]

end

mutual

theorem isSome_mapNumbers? : (v : Value) →
    ((v.mapNumbers? f).isSome = true ↔ ∀ x ∈ v.numbers, (f x).isSome = true)
  | text _ | dateTime _ => by simp [mapNumbers?, numbers]
  | number x => by simp [mapNumbers?, numbers]
  | document ps => by
    rw [mapNumbers?, numbers, Option.isSome_map]
    exact isSome_mapPairsNumbers? ps

theorem isSome_mapPairsNumbers? : (ps : List (String × Value)) →
    ((mapPairsNumbers? f ps).isSome = true ↔ ∀ x ∈ pairsNumbers ps, (f x).isSome = true)
  | [] => by simp [mapPairsNumbers?, pairsNumbers]
  | (n, v) :: ps => by
    rw [pairsNumbers, List.forall_mem_append, ← isSome_mapNumbers? v, ← isSome_mapPairsNumbers? ps,
      mapPairsNumbers?]
    cases v.mapNumbers? f <;> cases mapPairsNumbers? f ps <;> simp

end

end

/-! ## Texts -/

mutual

theorem readable_toJson : (v : Value) → Readable v.toJson
  | text s => by simpa [toJson] using Readable.record (by simpa using .string s)
  | number x => by simpa [toJson] using Readable.record (by simpa using Json.readable_ofDouble x)
  | dateTime t => by simpa [toJson] using Readable.record (by simpa using .string _)
  | document ps => by
    rw [toJson]
    exact .record (by simpa using .array (readable_pairsToJson ps))

theorem readable_pairsToJson : (ps : List (String × Value)) → ∀ j ∈ pairsToJson ps, Readable j
  | [] => by simp [pairsToJson]
  | (n, v) :: ps => by
    rw [pairsToJson, List.forall_mem_cons]
    exact ⟨.array (by simpa using ⟨.string n, readable_toJson v⟩), readable_pairsToJson ps⟩

end

mutual

/-- A value is read up to its numbers, unless it is too deep. -/
theorem ofJson?_toJson (limit : Nat) : (v : Value) →
    ofJson? limit v.toJson = if v.depth ≤ limit then v.mapNumbers? Json.reread? else none
  | text s => by
    cases limit <;>
      simp [toJson, Json.record, ofJson?, Json.ofString, Json.string?, depth, mapNumbers?]
  | number x => by
    cases limit <;> simp [toJson, Json.record, ofJson?, depth, mapNumbers?, Json.reread?]
  | dateTime t => by
    cases limit <;>
      simp [toJson, Json.record, ofJson?, Json.ofString, Json.string?, depth, mapNumbers?,
        Rfc3339.readLenient?_text]
  | document ps =>
    match limit with
    | 0 | 1 => by simp [toJson, Json.record, ofJson?, depth]
    | limit + 2 => by
      have hps := pairsOfJson?_pairsToJson limit ps
      simp only [toJson, Json.record, List.map_cons, List.map_nil, ofJson?, depth, mapNumbers?, hps,
        Nat.add_le_add_iff_right]
      simp [apply_ite (Option.map document)]

theorem pairsOfJson?_pairsToJson (limit : Nat) : (ps : List (String × Value)) →
    pairsOfJson? limit (pairsToJson ps) =
      if pairsDepth ps ≤ limit then mapPairsNumbers? Json.reread? ps else none
  | [] => by simp [pairsToJson, pairsOfJson?, pairsDepth, mapPairsNumbers?]
  | (n, v) :: ps =>
    match limit with
    | 0 => by simp [pairsToJson, pairsOfJson?, Json.ofString, pairsDepth]
    | limit + 1 => by
      have hv := ofJson?_toJson limit v
      have hps := pairsOfJson?_pairsToJson (limit + 1) ps
      simp only [pairsToJson, Json.ofString, pairsOfJson?, hv, hps, pairsDepth, mapPairsNumbers?,
        Nat.max_le, Nat.add_le_add_iff_right]
      -- A value that is too deep is refused, whatever comes after it.
      by_cases hdepth : v.depth ≤ limit
      · by_cases hrest : pairsDepth ps ≤ limit + 1
        · simp [hdepth, hrest]
        · cases v.mapNumbers? Json.reread? <;> simp [hdepth, hrest]
      · simp [hdepth]

end

end Value

namespace Document

variable {d : Document}

/-- How many arrays and objects are open at once in the text of a document. -/
def depth (d : Document) : Nat := Value.pairsDepth d.pairs + 1

/-- The numbers in a document, those in nested documents too. -/
def numbers (d : Document) : List Double := Value.pairsNumbers d.pairs

def mapNumbers? (f : Double → Option Double) (d : Document) : Option Document :=
  (Value.mapPairsNumbers? f d.pairs).map mk

/-- **A document is read up to its numbers**, unless it is too deep. -/
theorem ofJsonText?_toJsonText (d : Document) :
    ofJsonText? d.toJsonText =
      if d.depth ≤ Json.maxDepth then d.mapNumbers? Json.reread? else none := by
  have hread : Json.read? d.toJsonText = some d.toJson :=
    Json.read?_write (.array (Value.readable_pairsToJson d.pairs))
  have hdepth : d.depth ≤ Json.maxDepth ↔ Value.pairsDepth d.pairs ≤ Json.maxDepth - 1 := by
    rw [depth, Json.maxDepth]
    omega
  rw [ofJsonText?, hread, Option.bind_some, toJson, ofJson?, Value.pairsOfJson?_pairsToJson,
    apply_ite (Option.map mk)]
  simp only [hdepth, mapNumbers?, Option.map_none]

theorem isSome_ofJsonText?_iff :
    (ofJsonText? d.toJsonText).isSome = true ↔
      d.depth ≤ Json.maxDepth ∧ ∀ x ∈ d.numbers, x.isFinite = true := by
  have hnumbers : (d.mapNumbers? Json.reread?).isSome = true ↔ ∀ x ∈ d.numbers, x.isFinite = true := by
    rw [mapNumbers?, Option.isSome_map, Value.isSome_mapPairsNumbers?]
    simp only [Json.reread?, Json.isSome_double?_ofDouble, numbers]
  rw [ofJsonText?_toJsonText, ← hnumbers]
  split <;> simp [*]

/-- A document with a text, enclosed in so many others. -/
def enclosed : Nat → Document
  | 0 => ⟨[("a", .text "")]⟩
  | n + 1 => ⟨[("a", (enclosed n).toValue)]⟩

end Document

end Searchlight
