import Searchlight.Json.Basic

/-!
# Reading typed data out of JSON values

A number is read as a 64-bit value in two steps: its leading digits are gathered as long as
they fit an unsigned 64-bit integer, and the result is scaled once by a power of ten. A record is
an object with its fields in any order, none of them twice, or an array of the fields in
their own order; a choice is an object with one member, or a name alone.
-/

namespace Searchlight.Json

/-! ## Numbers -/

namespace Number

/-- Gathers digits behind `acc` while the result has at most 64 bits; also how many were gathered. -/
def gather (acc : Nat) : List Char → Nat × Nat
  | [] => (acc, 0)
  | c :: cs =>
    let next := acc * 10 + (c.toNat - 48)
    if next < 1 <<< 64 then
      let (n, used) := gather next cs
      (n, used + 1)
    else (acc, 0)

def powerOfTen (e : Nat) : Double := .ofNat (Nat.pow 10 e)

/-- The greatest exponent that one scaling step takes. -/
def maxPower : Nat := 308

/-- Scales by a power of ten, in steps of `maxPower` where it is far below zero; none when the
result is beyond the finite values. -/
def scale : Nat → Double → Int → Option Double
  | 0, x, _ => some x
  | fuel + 1, x, e =>
    if e.natAbs ≤ maxPower then
      if 0 ≤ e then
        let y := x * powerOfTen e.toNat
        if y.isFinite then some y else none
      else some (x / powerOfTen e.natAbs)
    else if x = .zero then some x
    else if 0 ≤ e then none
    else scale fuel (x / powerOfTen maxPower) (e + maxPower)

/-- The number as a 64-bit value; none beyond the finite values. -/
def toDouble? (n : Number) : Option Double :=
  let (acc, used) := gather 0 n.whole
  let (significand, places) := gather acc n.part
  let skipped := n.whole.length - used
  let exponent : Int := (skipped : Int) - places + n.exponent.getD 0
  (scale 4 (.ofNat significand) exponent).map fun x => if n.negative then -x else x

end Number

/-! ## Plain values -/

def string? : Json → Option String
  | string t => t
  | _ => none

def bool? : Json → Option Bool
  | bool b => some b
  | _ => none

/-- A natural number of at most `bits` bits. -/
def nat? (bits : Nat) : Json → Option Nat
  | number n => n.toNat?.filter (· < 1 <<< bits)
  | _ => none

def double? : Json → Option Double
  | number n => n.toDouble?
  | _ => none

def nullable? {α : Type} (read : Json → Option α) : Json → Option (Option α)
  | null => some none
  | j => (read j).map some

/-- A choice without content: its name, or an object that gives it null. -/
def choice? : Json → Option String
  | string t => t
  | object [(some k, null)] => some k
  | _ => none

/-! ## Records -/

/-- What a record says about one field. -/
inductive Field where
  | present (j : Json)
  /-- An object without the member. -/
  | missing
  /-- An array that ends before the field. -/
  | cutOff

/-- The value of the member with the given name, absent when it is there twice. -/
def member? (name : String) (members : List (Text × Json)) : Option Field :=
  match members.filter fun m => m.1 == some name with
  | [] => some .missing
  | [m] => some (.present m.2)
  | _ => none

/-- The fields of a record in the order of `names`. A closed record has no other members. -/
def fields? (names : List String) (closed : Bool) : Json → Option (List Field)
  | object members =>
    if members.all fun m => m.1.any fun k => !closed || names.contains k then
      names.mapM fun name => member? name members
    else none
  | array items =>
    if items.length ≤ names.length then
      some (items.map .present ++ List.replicate (names.length - items.length) .cutOff)
    else none
  | _ => none

def Field.required {α : Type} (read : Json → Option α) : Field → Option α
  | present j => read j
  | _ => none

/-- A field that an object may leave out. -/
def Field.omissible {α : Type} (read : Json → Option α) : Field → Option (Option α)
  | present j => nullable? read j
  | missing => some none
  | cutOff => none

def Field.withDefault {α : Type} (default : α) (read : Json → Option α) : Field → Option α
  | present j => read j
  | _ => some default

/-- The members of an object with readable names, a later one replacing an earlier one of the
same name. -/
def entries? : Json → Option (List (String × Json))
  | object members => members.mapM fun m => m.1.map (·, m.2)
  | _ => none

end Searchlight.Json
