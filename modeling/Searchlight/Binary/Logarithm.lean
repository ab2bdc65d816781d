import Searchlight.Binary.Basic

/-!
# Natural logarithms

The logarithm of a 32-bit value is computed in 64-bit arithmetic and rounded once at the end. The
value is a power of two times a number `z` near one; a table of sixteen intervals gives a centre
`c` close to `z`, and what is left, the logarithm of `z / c`, is a cubic polynomial in `z / c - 1`.
The result is less than one place in the last digit away from the logarithm.
-/

namespace Searchlight.Binary

/-- The signed number `n / 2 ^ places`. -/
def ofBinaryFraction (f : Format) (n : Int) (places : Nat) : Binary f :=
  ofFraction (n < 0) n.natAbs (1 <<< places)

def convert {f : Format} (g : Format) : Binary f → Binary g
  | nan n => nan n
  | infinite n => infinite n
  | finite n u _ => ofUnits n (g.round (u <<< g.unitExponent) (1 <<< f.unitExponent))

namespace Logarithm

/-- For the sixteen intervals from `start` to twice that: the reciprocal of a centre, in units of
`2 ^ (-53)`, and the logarithm of the centre, in units of `2 ^ (-57)`. -/
def centres : List (Int × Int) :=
  [(0x2CC3D8F3F1E77C, -0xABDFBC046556F0),
    (0x2AE3DA955F107A, -0x95F7853E036ED8),
    (0x292A73E1E02160, -0x80F573FA89D338),
    (0x27932B6170070A, -0x6CC7629A0893A4),
    (0x261A321910C94A, -0x595D3C2B01DD60),
    (0x24BC44F6171D40, -0x46A8AF1E720400),
    (0x2376949434687E, -0x349CED9D181CBC),
    (0x2246B1E115CB74, -0x232E78B4C23998),
    (0x212A7E8332014E, -0x1252F438E10C1E),
    (0x20000000000000, 0x0),
    (0x1E608CFD9A47AC, 0x1AA5AA5DF25984),
    (0x1CA4B31F026AA0, 0x38BCA7546C5D68),
    (0x1B2036576AFCE6, 0x549B95DC836C20),
    (0x19C2D163A1AA2D, 0x6F0A1834891DC0),
    (0x1886E6037841ED, 0x882C5E4503F708),
    (0x1767DCF5534862, 0xA02182BDB77048)]

/-- The bits of the least number of the first interval, 179 / 256. -/
def start : Int := 0x3F330000

def two : Double := ofBinaryFraction .double 0x162E42FEFA39EF 53

/-- The polynomial `r ↦ r + a r² + b r³ + c r⁴`, as `(c, b, a)`. -/
def coefficients : Double × Double × Double :=
  (ofBinaryFraction .double (-0x201D4691710668) 55, ofBinaryFraction .double 0x2AAEB617C016D4 55,
    ofBinaryFraction .double (-0x3FFFFDE4148246) 55)

/-- The logarithm of the positive magnitude of `units`. -/
def ofUnits (units : Nat) : Single :=
  let top := units.log2
  let significand := if 23 ≤ top then units >>> (top - 23) else units <<< (23 - top)
  let exponent : Int := top - 149
  let offset := (exponent + 126) * (1 <<< 23 : Nat) + significand - start
  let power := offset / (1 <<< 23 : Nat)
  let interval := (offset / (1 <<< 19 : Nat) % 16).toNat
  let (reciprocal, logarithm) := centres.getD interval (0, 0)
  let z := ofBinaryFraction .double significand (23 + power - exponent).toNat
  let r := z * ofBinaryFraction .double reciprocal 53 + -ofNat 1
  let base := ofBinaryFraction .double logarithm 57 + ofInt power * two
  let (c, b, a) := coefficients
  convert .single ((c * (r * r) + (b * r + a)) * (r * r) + (base + r))

end Logarithm

/-- The natural logarithm: that of zero is minus infinity, and a negative number has none. -/
def log : Single → Single
  | nan n => nan n
  | infinite n => if n then nan true else infinite false
  | finite n u _ =>
    if u = 0 then infinite true
    else if n then nan true
    else if u = 1 <<< 149 then zero
    else Logarithm.ofUnits u

end Searchlight.Binary
