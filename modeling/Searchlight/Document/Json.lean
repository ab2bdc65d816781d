import Searchlight.Document.Basic
import Searchlight.Json.Decode
import Searchlight.Json.Reader
import Searchlight.Json.Writer

/-!
# Documents as JSON

A document is written as an array of two-element arrays, a name and a value; a value is an
object whose one member names its kind. Reading allows as many nested arrays and objects as
`maxDepth` says.
-/

namespace Searchlight

/-- The most arrays and objects that may be open at once, the text itself not counted. -/
def Json.maxDepth : Nat := 127

namespace Value

mutual

/-- A value as an object that names its kind. -/
def toJson : Value → Json
  | text s => .record [("text", .ofString s)]
  | number x => .record [("number", .ofDouble x)]
  | dateTime t => .record [("date_time", .ofString (Rfc3339.text t))]
  | document ps => .record [("document", .array (pairsToJson ps))]

def pairsToJson : List (String × Value) → List Json
  | [] => []
  | (n, v) :: ps => .array [.ofString n, toJson v] :: pairsToJson ps

end

mutual

/-- Reads a value with at most `depth` open arrays and objects. -/
def ofJson? (depth : Nat) : Json → Option Value
  | .object [(some k, j)] =>
    match depth with
    | 0 => none
    | depth + 1 =>
      if k = "text" then j.string?.map text
      else if k = "number" then j.double?.map number
      else if k = "date_time" then (j.string?.bind Rfc3339.readLenient?).map dateTime
      else if k = "document" then
        match j with
        | .array items =>
          match depth with
          | 0 => none
          | depth + 1 => (pairsOfJson? depth items).map document
        | _ => none
      else none
  | _ => none

def pairsOfJson? (depth : Nat) : List Json → Option (List (String × Value))
  | [] => some []
  | .array [.string (some n), j] :: items =>
    match depth with
    | 0 => none
    | depth' + 1 => do
      let v ← ofJson? depth' j
      let ps ← pairsOfJson? depth items
      some ((n, v) :: ps)
  | _ => none

end

end Value

namespace Document

def toJson (d : Document) : Json := .array (Value.pairsToJson d.pairs)

def ofJson? : Json → Option Document
  | .array items => (Value.pairsOfJson? (Json.maxDepth - 1) items).map Document.mk
  | _ => none

def toJsonText (d : Document) : String := d.toJson.write

def ofJsonText? (s : String) : Option Document := (Json.read? s).bind ofJson?

end Document

end Searchlight
