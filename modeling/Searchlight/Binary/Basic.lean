/-!
# Binary floating-point values

A format fixes a precision and a least positive value, its *unit*. Every finite
magnitude of the format is a whole number of units, so a value is a sign and a
natural number of units, and the arithmetic is exact arithmetic on naturals
followed by one rounding (to nearest, a tie to the even significand). Two finite
values are equal as numbers exactly when their signed units are.
-/

namespace Searchlight

/-- A binary format: significands of `precision` bits, the unit `2 ^ (-unitExponent)`, and
magnitudes below `2 ^ limit` units. -/
structure Binary.Format where
  precision : Nat
  unitExponent : Nat
  limit : Nat
  deriving DecidableEq, Repr

namespace Binary

def Format.double : Format := ⟨53, 1074, 2098⟩

def Format.single : Format := ⟨24, 149, 277⟩

namespace Format

/-- The power of two that the significand of a magnitude of about `n` units is scaled by. -/
def shift (f : Format) (n : Nat) : Nat := n.log2 + 1 - f.precision

/-- `n` units is a magnitude of the format: its low bits are free and it is below the limit. -/
def Fits (f : Format) (n : Nat) : Prop := n % (1 <<< f.shift n) = 0 ∧ n < (1 <<< f.limit)

instance (f : Format) (n : Nat) : Decidable (f.Fits n) :=
  inferInstanceAs (Decidable (_ ∧ _))

theorem fits_zero (f : Format) : f.Fits 0 :=
  ⟨Nat.zero_mod _, by rw [Nat.one_shiftLeft]; exact Nat.two_pow_pos _⟩

end Format

/-- The quotient rounded to the nearest natural number, a tie to the even one. -/
def roundQuotient (num den : Nat) : Nat :=
  let q := num / den
  let r := num % den
  if 2 * r < den then q
  else if 2 * r = den then q + q % 2
  else q + 1

namespace Format

/-- The quotient, in units, rounded to the precision of the format; the limit is not applied. -/
def round (f : Format) (num den : Nat) : Nat :=
  let s := f.shift (num / den)
  roundQuotient num (den <<< s) <<< s

end Format

end Binary

/-- A value of a binary format. -/
inductive Binary (f : Binary.Format) where
  | nan (negative : Bool)
  | infinite (negative : Bool)
  | finite (negative : Bool) (units : Nat) (fits : f.Fits units)
  deriving DecidableEq

abbrev Double := Binary .double

abbrev Single := Binary .single

namespace Binary

variable {f : Format}

instance : Inhabited (Binary f) := ⟨finite false 0 f.fits_zero⟩

def negative : Binary f → Bool
  | nan n => n
  | infinite n => n
  | finite n _ _ => n

def isFinite : Binary f → Bool
  | finite _ _ _ => true
  | _ => false

def isNaN : Binary f → Bool
  | nan _ => true
  | _ => false

/-- The value of the given sign and units, infinite when the format has no such magnitude. -/
def ofUnits (negative : Bool) (units : Nat) : Binary f :=
  if h : f.Fits units then finite negative units h else infinite negative

def ofFraction (negative : Bool) (num den : Nat) : Binary f :=
  ofUnits negative (f.round (num <<< f.unitExponent) den)

/-- The integer rounded into the format; zero is positive. -/
def ofInt (z : Int) : Binary f := ofFraction (z < 0) z.natAbs 1

def ofNat (n : Nat) : Binary f := ofFraction false n 1

def zero : Binary f := finite false 0 f.fits_zero

/-- The value with the sign bit turned. -/
def neg : Binary f → Binary f
  | nan n => nan !n
  | infinite n => infinite !n
  | finite n u h => finite (!n) u h

/-! ## Arithmetic -/

/-- The sum. An undefined sum is the negative NaN; two opposite values sum to positive zero. -/
def add : Binary f → Binary f → Binary f
  | nan n, _ => nan n
  | _, nan n => nan n
  | infinite a, infinite b => if a = b then infinite a else nan true
  | infinite a, _ => infinite a
  | _, infinite b => infinite b
  | finite a u _, finite b v _ =>
    if a = b then ofUnits a (f.round (u + v) 1)
    else if u = v then zero
    else if v < u then ofUnits a (f.round (u - v) 1)
    else ofUnits b (f.round (v - u) 1)

/-- The product. Zero times infinity is the negative NaN. -/
def mul : Binary f → Binary f → Binary f
  | nan n, _ => nan n
  | _, nan n => nan n
  | infinite a, infinite b => infinite (a ^^ b)
  | infinite a, finite b v _ => if v = 0 then nan true else infinite (a ^^ b)
  | finite a u _, infinite b => if u = 0 then nan true else infinite (a ^^ b)
  | finite a u _, finite b v _ => ofUnits (a ^^ b) (f.round (u * v) (1 <<< f.unitExponent))

/-- The quotient. Zero by zero and infinity by infinity are the negative NaN. -/
def div : Binary f → Binary f → Binary f
  | nan n, _ => nan n
  | _, nan n => nan n
  | infinite _, infinite _ => nan true
  | infinite a, finite b _ _ => infinite (a ^^ b)
  | finite a _ _, infinite b => finite (a ^^ b) 0 f.fits_zero
  | finite a u _, finite b v _ =>
    if v = 0 then (if u = 0 then nan true else infinite (a ^^ b))
    else ofUnits (a ^^ b) (f.round (u <<< f.unitExponent) v)

instance : Add (Binary f) := ⟨add⟩
instance : Mul (Binary f) := ⟨mul⟩
instance : Div (Binary f) := ⟨div⟩
instance : Neg (Binary f) := ⟨neg⟩

/-! ## Comparison -/

/-- Equality as numbers: the two zeros are equal and a NaN equals nothing. -/
def numEq : Binary f → Binary f → Bool
  | infinite a, infinite b => a == b
  | finite a u _, finite b v _ => u == v && (a == b || u == 0)
  | _, _ => false

/-- The finite values that are not below zero, negative zero among them. -/
def isWeight : Binary f → Bool
  | finite n u _ => !n || u == 0
  | _ => false

/-- The place of the magnitude: finite ones by units, then infinity, then NaN. -/
def magnitudeRank : Binary f → Nat
  | finite _ u _ => u
  | infinite _ => 1 <<< f.limit
  | nan _ => (1 <<< f.limit) + 1

/-- The place in the total order of all values, negative zero just below positive zero. -/
def rank (x : Binary f) : Int :=
  if x.negative then -(x.magnitudeRank : Int) - 1 else x.magnitudeRank

theorem magnitudeRank_inj {x y : Binary f} (hs : x.negative = y.negative)
    (hr : x.magnitudeRank = y.magnitudeRank) : x = y := by
  rcases x with a | a | ⟨a, u, hu⟩ <;> rcases y with b | b | ⟨b, v, hv⟩ <;>
    simp only [negative, magnitudeRank] at hs hr <;> subst hs
  case nan.nan => rfl
  case infinite.infinite => rfl
  case finite.finite => subst hr; rfl
  case finite.nan => exact absurd hu.2 (by omega)
  case finite.infinite => exact absurd hu.2 (by omega)
  case nan.finite => exact absurd hv.2 (by omega)
  case infinite.finite => exact absurd hv.2 (by omega)
  all_goals omega

/-- The total order tells all values apart. -/
theorem rank_inj {x y : Binary f} (h : x.rank = y.rank) : x = y := by
  apply magnitudeRank_inj <;> cases hx : x.negative <;> cases hy : y.negative <;>
    simp_all [rank] <;> omega

end Binary

end Searchlight
