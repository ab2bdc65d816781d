import Searchlight.Binary.Basic

/-!
# Decimal numerals

A decimal is a natural number times a power of ten. Reading a numeral rounds its
decimal once into the format; the digits chosen for a value are the fewest that
read back to it, and of two such decimals the nearer one.
-/

namespace Searchlight

/-- The number `digits * 10 ^ exponent`. -/
structure Decimal where
  digits : Nat
  exponent : Int
  deriving DecidableEq, Repr

namespace Decimal

/-- The number of decimal digits of `n`; zero has one. -/
def digitCount (n : Nat) : Nat := (Nat.toDigits 10 n).length

def fraction (d : Decimal) : Nat × Nat :=
  (d.digits * Nat.pow 10 d.exponent.toNat, Nat.pow 10 (-d.exponent).toNat)

def roundUnits (f : Binary.Format) (d : Decimal) : Nat :=
  f.round (d.fraction.1 <<< f.unitExponent) d.fraction.2

/-- Decimals outside `10 ^ (-reach)` and `10 ^ reach` are beyond every format here. -/
def reach : Int := 400

def toBinary (f : Binary.Format) (negative : Bool) (d : Decimal) : Binary f :=
  if d.digits = 0 then .finite negative 0 f.fits_zero
  else if reach < d.exponent then .infinite negative
  else if digitCount d.digits + d.exponent < -reach then .finite negative 0 f.fits_zero
  else .ofUnits negative (d.roundUnits f)

/-! ## Reading -/

/-- The exponent at the end of a numeral: nothing, or a mark, a sign and digits. -/
def readExponent : List Char → Option Int
  | [] => some 0
  | c :: cs =>
    if c = 'e' ∨ c = 'E' then
      let (negative, ds) := match cs with
        | '-' :: ds => (true, ds)
        | '+' :: ds => (false, ds)
        | ds => (false, ds)
      if ds.isEmpty || !ds.all Char.isDigit then none
      else
        let n := Nat.ofDigitChars 10 ds 0
        some (if negative then -(n : Int) else n)
    else none

/-- Reads an unsigned numeral: digits with at most one point among or beside them, then an
exponent. -/
def read (cs : List Char) : Option Decimal :=
  let whole := cs.takeWhile Char.isDigit
  let (part, rest) := match cs.dropWhile Char.isDigit with
    | '.' :: r => (r.takeWhile Char.isDigit, r.dropWhile Char.isDigit)
    | r => ([], r)
  if whole.isEmpty && part.isEmpty then none
  else (readExponent rest).map fun e =>
    ⟨Nat.ofDigitChars 10 (whole ++ part) 0, e - part.length⟩

end Decimal

namespace Binary

variable {f : Format}

/-- Reads an unsigned number: a numeral, or a name of infinity or NaN in any case. -/
def readMagnitude (f : Format) (negative : Bool) (cs : List Char) : Option (Binary f) :=
  let name := String.ofList (cs.map Char.toLower)
  if name = "inf" || name = "infinity" then some (.infinite negative)
  else if name = "nan" then some (.nan negative)
  else (Decimal.read cs).map (Decimal.toBinary f negative)

/-- Reads a number with an optional sign and no blanks around it. -/
def read? (f : Format) (text : String) : Option (Binary f) :=
  match text.toList with
  | '-' :: cs => readMagnitude f true cs
  | '+' :: cs => readMagnitude f false cs
  | cs => readMagnitude f false cs

end Binary

/-! ## Choosing digits -/

/-- What happens when two decimals of the same length are equally near. -/
inductive Tie where
  | toEven
  | upward
  deriving DecidableEq, Repr

namespace Decimal

/-- The least power of ten above the fraction, for a positive fraction. -/
def scale (num den : Nat) : Int :=
  if den ≤ num then digitCount (num / den)
  else 1 - (digitCount ((den - 1) / num) : Int)

/-- Whether the decimal, rounded to the format, is the magnitude of `units`. -/
def ReadsBack (f : Binary.Format) (units : Nat) (d : Decimal) : Prop :=
  d.digits ≠ 0 ∧ ¬ reach < d.exponent ∧ ¬ digitCount d.digits + d.exponent < -reach ∧
    d.roundUnits f = units

instance (f : Binary.Format) (units : Nat) (d : Decimal) : Decidable (d.ReadsBack f units) :=
  inferInstanceAs (Decidable (_ ∧ _ ∧ _ ∧ _))

/-- Of the two neighbours of `num / den` on the grid of `10 ^ exponent`, the nearer one that
reads back. -/
def onGrid (f : Binary.Format) (tie : Tie) (units num den : Nat) (exponent : Int) :
    Option Decimal :=
  let n := num * Nat.pow 10 (-exponent).toNat
  let d := den * Nat.pow 10 exponent.toNat
  let low : Decimal := ⟨n / d, exponent⟩
  let high : Decimal := ⟨n / d + 1, exponent⟩
  let lowFirst := 2 * n < (2 * (n / d) + 1) * d ∨
    2 * n = (2 * (n / d) + 1) * d ∧ tie = .toEven ∧ (n / d) % 2 = 0
  let (first, second) := if lowFirst then (low, high) else (high, low)
  if first.ReadsBack f units then some first
  else if second.ReadsBack f units then some second
  else none

/-- Moves factors of ten from the digits to the exponent, at most `fuel` times. -/
def strip : Nat → Decimal → Decimal
  | 0, d => d
  | fuel + 1, d =>
    if d.digits ≠ 0 ∧ d.digits % 10 = 0 then strip fuel ⟨d.digits / 10, d.exponent + 1⟩ else d

/-- The most digits that are tried before the exact value is written. -/
def maxDigits : Nat := 17

/-- The fewest digits that read back to a positive magnitude; the exact value if none of the
tried lengths does. -/
def shortest (f : Binary.Format) (tie : Tie) (units : Nat) : Decimal :=
  let den := 1 <<< f.unitExponent
  let k := scale units den
  let found := (List.range maxDigits).findSome? fun (n : Nat) =>
    onGrid f tie units units den (k - 1 - n)
  match found with
  | some d => strip maxDigits d
  | none => ⟨units * Nat.pow 5 f.unitExponent, -f.unitExponent⟩

/-! ## Layout -/

def digitChars (d : Decimal) : List Char := Nat.toDigits 10 d.digits

/-- The exponent of the leading digit. -/
def leading (d : Decimal) : Int := d.digitChars.length + d.exponent - 1

def positional (d : Decimal) : List Char :=
  let ds := d.digitChars
  if 0 ≤ d.exponent then ds ++ List.replicate d.exponent.toNat '0'
  else
    let places := (-d.exponent).toNat
    if ds.length ≤ places then '0' :: '.' :: (List.replicate (places - ds.length) '0' ++ ds)
    else ds.take (ds.length - places) ++ '.' :: ds.drop (ds.length - places)

/-- Scientific notation, with a point only between digits. -/
def scientific (d : Decimal) : List Char :=
  let mark := 'e' :: (toString d.leading).toList
  match d.digitChars with
  | [] => mark
  | [c] => c :: mark
  | c :: cs => c :: '.' :: (cs ++ mark)

end Decimal

namespace Binary

variable {f : Format}

def signed (negative : Bool) (cs : List Char) : String :=
  String.ofList (if negative then '-' :: cs else cs)

/-- The fewest digits that read back, in positional notation; two equally near choices go
upward. -/
def text : Binary f → String
  | nan _ => "NaN"
  | infinite n => signed n "inf".toList
  | finite n u _ =>
    signed n (if u = 0 then ['0'] else (Decimal.shortest f .upward u).positional)

instance : ToString (Binary f) := ⟨text⟩

/-- The fewest digits that read back, with a point in whole numbers too; an exponent for
magnitudes below 0.0001 and from 10 to the 16th on. -/
def pointedText : Binary f → String
  | nan _ => "NaN"
  | infinite n => signed n "inf".toList
  | finite n u _ =>
    if u = 0 then signed n "0.0".toList
    else
      let d := Decimal.shortest f .upward u
      let k := d.leading
      if -4 ≤ k ∧ k ≤ 15 then
        signed n (if 0 ≤ d.exponent then d.positional ++ ['.', '0'] else d.positional)
      else signed n d.scientific

end Binary

end Searchlight
