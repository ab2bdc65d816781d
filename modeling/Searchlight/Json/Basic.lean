import Searchlight.Binary.Decimal

/-!
# JSON values

A value keeps numbers as they are spelled, so that integers and fractions stay apart, and
members in the order they are written. A text is absent where an escape names half a
surrogate pair: such a text can be passed over but not read.
-/

namespace Searchlight

/-- A number as spelled: digits, digits after a point, and an exponent. -/
structure Json.Number where
  negative : Bool
  whole : List Char
  part : List Char
  exponent : Option Int
  deriving DecidableEq, Repr

/-- A text, or none when one of its escapes is no character. -/
abbrev Json.Text := Option String

inductive Json where
  | null
  | bool (b : Bool)
  | number (n : Json.Number)
  | string (s : Json.Text)
  | array (items : List Json)
  | object (members : List (Json.Text × Json))
  deriving Repr, Inhabited

namespace Json

def ofString (s : String) : Json := string (some s)

def record (members : List (String × Json)) : Json :=
  object (members.map fun m => (some m.1, m.2))

namespace Number

def ofNat (n : Nat) : Number := ⟨false, Nat.toDigits 10 n, [], none⟩

/-- A number without point, exponent or sign, as a natural number. -/
def toNat? (n : Number) : Option Nat :=
  if n.negative || !n.part.isEmpty || n.exponent.isSome then none
  else some (Nat.ofDigitChars 10 n.whole 0)

/-- The layout of a decimal: positional with at least one place when the leading digit stands
for a power of ten between the bounds, scientific otherwise. -/
def ofDecimal (low high : Int) (negative : Bool) (d : Decimal) : Number :=
  let ds := d.digitChars
  let k := d.leading
  if low ≤ k ∧ k ≤ high then
    if 0 ≤ d.exponent then ⟨negative, ds ++ List.replicate d.exponent.toNat '0', ['0'], none⟩
    else
      let places := (-d.exponent).toNat
      if ds.length ≤ places then
        ⟨negative, ['0'], List.replicate (places - ds.length) '0' ++ ds, none⟩
      else ⟨negative, ds.take (ds.length - places), ds.drop (ds.length - places), none⟩
  else ⟨negative, ds.take 1, ds.drop 1, some k⟩

end Number

/-- A floating-point value: the fewest digits that read back, positional for leading powers of
ten between the bounds, and null for a value that is not finite. -/
def ofBinary {f : Binary.Format} (low high : Int) : Binary f → Json
  | .finite n u _ =>
    if u = 0 then number ⟨n, ['0'], ['0'], none⟩
    else number (.ofDecimal low high n (Decimal.shortest f .toEven u))
  | _ => null

/-- A 64-bit value, positional from `10 ^ (-5)` to below `10 ^ 16`. -/
def ofDouble (x : Double) : Json := ofBinary (-5) 15 x

/-- A 32-bit value, positional from `10 ^ (-6)` to below `10 ^ 13`. -/
def ofSingle (x : Single) : Json := ofBinary (-6) 12 x

def ofNat (n : Nat) : Json := number (.ofNat n)

end Json

end Searchlight
