import Searchlight.Json.Decode
import Searchlight.Proofs.Binary.Decimals
import Searchlight.Proofs.Json.RoundTrip

/-!
# Reading numbers back

A 64-bit number is written with the fewest digits that read back, and it is read with two
roundings where one would be exact. So a number that is read may differ from the one that was
written, but it stays within the finite values: `isSome_double?_ofDouble` tells that every finite
number is read as some number, and that no other one is, since it is written as null.
-/

namespace Searchlight

/-! ## Digits -/

theorem le_ofDigitChars (cs : List Char) (acc : Nat) : acc ≤ Nat.ofDigitChars 10 cs acc := by
  rw [Nat.ofDigitChars_eq_ofDigitChars_zero]
  exact Nat.le_add_right_of_le (Nat.le_mul_of_pos_left acc (Nat.pow_pos (by decide)))

theorem ofDigitChars_lt {cs : List Char} (h : ∀ c ∈ cs, c.isDigit = true) :
    Nat.ofDigitChars 10 cs 0 < 10 ^ cs.length := by
  induction cs with
  | nil => simp
  | cons c cs ih =>
    have hc : c.toNat - '0'.toNat ≤ 9 := by
      have hdigit := h c List.mem_cons_self
      simp only [Char.isDigit, Bool.and_eq_true, decide_eq_true_eq] at hdigit
      have hle : c.toNat ≤ 57 := hdigit.2
      have hzero : '0'.toNat = 48 := by decide
      omega
    have hcs := ih fun c hc => h c (List.mem_cons_of_mem _ hc)
    rw [Nat.ofDigitChars_cons, Nat.ofDigitChars_eq_ofDigitChars_zero, Nat.mul_zero, Nat.zero_add,
      List.length_cons, Nat.pow_succ]
    have hscaled := Nat.mul_le_mul_left (10 ^ cs.length) hc
    omega

theorem isDigit_toDigits {n : Nat} {c : Char} (h : c ∈ Nat.toDigits 10 n) : c.isDigit = true :=
  Nat.isDigit_of_mem_toDigits (by decide) (by decide) h

namespace Json.Number

/-- What is gathered are digits that were there, and it fits 64 bits. -/
theorem gather_spec (cs : List Char) {acc : Nat} (hacc : acc < 1 <<< 64) :
    (gather acc cs).2 ≤ cs.length ∧
      (gather acc cs).1 = Nat.ofDigitChars 10 (cs.take (gather acc cs).2) acc ∧
      (gather acc cs).1 < 1 <<< 64 := by
  induction cs generalizing acc with
  | nil => exact ⟨Nat.le_refl 0, rfl, hacc⟩
  | cons c cs ih =>
    rw [gather]
    by_cases hnext : acc * 10 + (c.toNat - 48) < 1 <<< 64
    · simp only [hnext, if_true]
      obtain ⟨hle, heq, hlt⟩ := ih hnext
      refine ⟨Nat.succ_le_succ hle, ?_, hlt⟩
      rw [heq, List.take_succ_cons, Nat.ofDigitChars_cons, Nat.mul_comm 10]
      rfl
    · simp only [hnext, if_false]
      exact ⟨Nat.zero_le _, rfl, hacc⟩

theorem gather_all {cs : List Char} {acc : Nat} (h : Nat.ofDigitChars 10 cs acc < 1 <<< 64) :
    gather acc cs = (Nat.ofDigitChars 10 cs acc, cs.length) := by
  induction cs generalizing acc with
  | nil => rfl
  | cons c cs ih =>
    rw [Nat.ofDigitChars_cons, Nat.mul_comm] at h
    have hnext : acc * 10 + (c.toNat - 48) < 1 <<< 64 := Nat.lt_of_le_of_lt (le_ofDigitChars cs _) h
    have hcs : gather (acc * 10 + (c.toNat - 48)) cs = _ := ih h
    simp only [gather, hnext, if_true, hcs]
    rw [Nat.ofDigitChars_cons, Nat.mul_comm 10]
    rfl

/-! ## Scaling -/

theorem isSome_scale_of_neg (fuel : Nat) (x : Double) {e : Int} (he : e < 0) :
    (scale fuel x e).isSome = true := by
  induction fuel generalizing x e with
  | zero => rfl
  | succ fuel ih =>
    rw [scale]
    by_cases hnear : e.natAbs ≤ maxPower
    · rw [if_pos hnear, if_neg (by omega)]
      rfl
    · rw [if_neg hnear]
      split
      · rfl
      · rw [if_neg (by omega)]
        exact ih _ (by simp only [maxPower] at hnear ⊢; omega)

/-- Half a step below the greatest number: what is no more than this is still finite when it is
read with two roundings. -/
@[irreducible]
def readableBound : Nat := (1 <<< 54 - 3) <<< 970

def unitsOf (n : Nat) : Nat := Binary.Format.double.round (n <<< Binary.Format.double.unitExponent) 1

def productUnits (n k : Nat) : Nat :=
  Binary.Format.double.round (unitsOf n * unitsOf k) (1 <<< Binary.Format.double.unitExponent)

def limit : Nat := 1 <<< Binary.Format.double.limit

/-- The bound leaves less than 64 bits for a greater power of ten. -/
theorem productUnits_lt : ∀ i < 20,
    unitsOf (readableBound / Nat.pow 10 (i + 289)) < limit ∧ unitsOf (Nat.pow 10 (i + 289)) < limit ∧
      productUnits (readableBound / Nat.pow 10 (i + 289)) (Nat.pow 10 (i + 289)) < limit := by
  decide +kernel

theorem exists_productUnits_lt : ∃ k, 288 ≤ k ∧ unitsOf (1 <<< 64 - 1) < limit ∧
    unitsOf (Nat.pow 10 k) < limit ∧ productUnits (1 <<< 64 - 1) (Nat.pow 10 k) < limit :=
  ⟨288, Nat.le_refl _, by decide +kernel⟩

theorem exists_readableBound_lt : ∃ k ≤ maxPower + 1, readableBound < Nat.pow 10 k :=
  ⟨309, Nat.le_refl _, by decide +kernel⟩

theorem isFinite_ofNat_mul_powerOfTen {significand e : Nat} (hs : significand < 1 <<< 64)
    (he : e ≤ maxPower) (h : significand * 10 ^ e ≤ readableBound) :
    (Binary.ofNat significand * powerOfTen e : Double).isFinite = true := by
  rcases Nat.lt_or_ge e 289 with hsmall | hlarge
  · obtain ⟨k, hk, hsignificand, hpower, hproduct⟩ := exists_productUnits_lt
    exact Binary.isFinite_ofNat_mul (by decide) (Nat.le_pred_of_lt hs)
      (Nat.pow_le_pow_right (by decide) (by omega)) hsignificand hpower hproduct
  · obtain ⟨i, rfl⟩ := Nat.exists_eq_add_of_le' hlarge
    have hi : i < 20 := by
      simp only [maxPower] at he
      omega
    obtain ⟨hsignificand, hpower, hproduct⟩ := productUnits_lt i hi
    exact Binary.isFinite_ofNat_mul (by decide) ((Nat.le_div_iff_mul_le (Nat.pow_pos (by decide))).2 h)
      (Nat.le_refl _) hsignificand hpower hproduct

theorem isSome_scale_of_le (fuel : Nat) {significand e : Nat} (hs : significand < 1 <<< 64)
    (he : e ≤ maxPower) (h : significand * 10 ^ e ≤ readableBound) :
    (scale (fuel + 1) (.ofNat significand) e).isSome = true := by
  rw [scale, Int.natAbs_natCast, if_pos he, if_pos (Int.natCast_nonneg e), Int.toNat_natCast]
  simp only [isFinite_ofNat_mul_powerOfTen hs he h, if_true, Option.isSome_some]

/-! ## Layouts -/

/-- A number is read when its gathered digits can be scaled. -/
theorem isSome_toDouble? {n : Number} {acc used significand places : Nat}
    (hwhole : gather 0 n.whole = (acc, used)) (hpart : gather acc n.part = (significand, places))
    (h : (scale 4 (.ofNat significand)
      (((n.whole.length - used : Nat) : Int) - places + n.exponent.getD 0)).isSome = true) :
    n.toDouble?.isSome = true := by
  simpa [toDouble?, hwhole, hpart] using h

theorem isSome_toDouble?_positional {n : Number} (hdigits : ∀ c ∈ n.whole, c.isDigit = true)
    (hlength : n.whole.length ≤ 16) (hexponent : n.exponent = none) :
    n.toDouble?.isSome = true := by
  have hlt : Nat.ofDigitChars 10 n.whole 0 < 1 <<< 64 :=
    Nat.lt_of_lt_of_le (ofDigitChars_lt hdigits)
      (Nat.le_trans (Nat.pow_le_pow_right (by decide) hlength) (by decide))
  obtain ⟨-, -, hsignificand⟩ := gather_spec n.part hlt
  refine isSome_toDouble? (gather_all hlt) (Prod.eta _).symm ?_
  rw [hexponent, Nat.sub_self, Option.getD_none]
  generalize (gather _ n.part).1 = significand at hsignificand ⊢
  generalize (gather _ n.part).2 = places
  rcases Nat.eq_zero_or_pos places with rfl | hpos
  · refine isSome_scale_of_le 3 hsignificand (Nat.zero_le _) ?_
    rw [Nat.pow_zero, Nat.mul_one]
    exact Nat.le_trans (Nat.le_of_lt hsignificand) (by decide +kernel)
  · exact isSome_scale_of_neg 4 _ (by omega)

theorem isSome_toDouble?_scientific (negative : Bool) {d : Decimal} (hd : d.digits ≠ 0)
    (h : d.value < readableBound + 1) :
    (⟨negative, d.digitChars.take 1, d.digitChars.drop 1, some d.leading⟩ : Number).toDouble?.isSome =
      true := by
  have hvalue : Nat.ofDigitChars 10 d.digitChars 0 = d.digits :=
    Nat.ofDigitChars_toDigits (by decide) (by decide)
  have hhead : d.digitChars.head? ≠ some '0' := head?_toDigits hd
  have hall : ∀ c ∈ d.digitChars, c.isDigit = true := fun c hc => isDigit_toDigits hc
  rw [Decimal.leading]
  obtain ⟨c, cs, hcs⟩ : ∃ c cs, d.digitChars = c :: cs :=
    List.exists_cons_of_ne_nil Nat.toDigits_ne_nil
  rw [hcs] at hvalue hhead hall ⊢
  have hfirst : Nat.ofDigitChars 10 [c] 0 < 1 <<< 64 :=
    Nat.lt_trans (ofDigitChars_lt fun c' hc => hall c' (by simp_all)) (by simp)
  obtain ⟨hused, hsignificand, hlt⟩ := gather_spec cs hfirst
  refine isSome_toDouble? (gather_all hfirst) (Prod.eta _).symm ?_
  simp only [List.take_succ_cons, List.take_zero, List.drop_succ_cons, List.drop_zero,
    List.length_cons, List.length_nil, Option.getD_some]
  generalize (gather _ cs).1 = significand at hsignificand hlt ⊢
  generalize (gather _ cs).2 = places at hused hsignificand ⊢
  -- The first digit counts, and the digits that are passed over do not make the number less.
  have hpositive : 0 < significand := by
    have hdigit := hall c List.mem_cons_self
    have hne : c.toNat ≠ '0'.toNat := fun h => hhead (congrArg some (Char.toNat_inj.1 h))
    have hge : 48 ≤ c.toNat := by
      simp only [Char.isDigit, Bool.and_eq_true, decide_eq_true_eq] at hdigit
      exact hdigit.1
    have hzero : '0'.toNat = 48 := by decide
    rw [hsignificand]
    refine Nat.lt_of_lt_of_le ?_ (le_ofDigitChars (cs.take places) _)
    rw [Nat.ofDigitChars_cons, Nat.ofDigitChars_nil]
    omega
  have hdigits : significand * 10 ^ (cs.length - places) ≤ d.digits := by
    rw [← hvalue, ← List.singleton_append, Nat.ofDigitChars_append, ← List.take_append_drop places cs,
      Nat.ofDigitChars_append, ← hsignificand, Nat.ofDigitChars_eq_ofDigitChars_zero,
      List.take_append_drop, List.length_drop, Nat.mul_comm]
    exact Nat.le_add_right _ _
  by_cases hneg : ((1 - 1 : Nat) : Int) - places + (((cs.length + 1 : Nat) : Int) + d.exponent - 1) < 0
  · exact isSome_scale_of_neg 4 _ hneg
  obtain ⟨e, he⟩ := Int.eq_ofNat_of_zero_le (Int.not_lt.1 hneg)
  rw [he]
  have hscaled : significand * 10 ^ e ≤ readableBound := by
    have hexponent : (e : Int) = (cs.length - places : Nat) + d.exponent := by omega
    have hle : ((significand * 10 ^ e : Nat) : ℚ) ≤ d.value := by
      push_cast
      rw [← zpow_natCast, hexponent, zpow_add₀ (by norm_num), zpow_natCast, ← mul_assoc, Decimal.value]
      exact mul_le_mul_of_nonneg_right (by exact_mod_cast hdigits) (by positivity)
    have hbelow : significand * 10 ^ e < readableBound + 1 := by
      exact_mod_cast lt_of_le_of_lt hle h
    exact Nat.le_of_lt_add_one hbelow
  refine isSome_scale_of_le 3 hlt ?_ hscaled
  obtain ⟨k, hk, hbeyond⟩ := exists_readableBound_lt
  have hpow : 10 ^ e < 10 ^ k :=
    Nat.lt_of_le_of_lt (Nat.le_trans (Nat.le_mul_of_pos_left _ hpositive) hscaled) hbeyond
  have hlt := (Nat.pow_lt_pow_iff_right (by decide)).1 hpow
  omega

theorem value_lt_of_lt_greatest {d : Decimal}
    (h : d.roundUnits .double < Binary.Format.double.greatest) :
    d.value < readableBound + 1 := by
  have hbound : Binary.Format.double.round
      ((readableBound + 1) <<< Binary.Format.double.unitExponent) 1 = Binary.Format.double.greatest := by
    decide +kernel
  have hscaled := Decimal.value_lt_of_roundUnits_lt (by decide) (hbound ▸ h)
  rw [Nat.shiftLeft_eq, Nat.cast_mul, Nat.cast_pow, Nat.cast_ofNat, Nat.cast_succ] at hscaled
  exact lt_of_mul_lt_mul_right hscaled (pow_nonneg (by norm_num) _)

/-! ## Written numbers -/

/-- The layout of digits is read if they are those of a number below the greatest one. -/
theorem isSome_toDouble?_ofDecimal (negative : Bool) {d : Decimal} (hd : d.digits ≠ 0)
    (h : d.value < readableBound + 1) : (ofDecimal (-5) 15 negative d).toDouble?.isSome = true := by
  have hall : ∀ c ∈ d.digitChars, c.isDigit = true := fun c hc => isDigit_toDigits hc
  simp only [ofDecimal]
  split
  · rename_i hk
    rw [Decimal.leading] at hk
    split
    · refine isSome_toDouble?_positional (fun c hc => ?_) ?_ rfl
      · rcases List.mem_append.1 hc with hc | hc
        · exact hall c hc
        · rw [List.eq_of_mem_replicate hc]
          decide
      · rw [List.length_append, List.length_replicate]
        omega
    · split
      · exact isSome_toDouble?_positional (by simp) (by simp) rfl
      · refine isSome_toDouble?_positional (fun c hc => hall c (List.mem_of_mem_take hc)) ?_ rfl
        rw [List.length_take]
        omega
  · exact isSome_toDouble?_scientific negative hd h

theorem readable_ofDecimal (low high : Int) (negative : Bool) {d : Decimal} (hd : d.digits ≠ 0) :
    (ofDecimal low high negative d).Readable := by
  have hall : ∀ c ∈ d.digitChars, c.isDigit = true := fun c hc => isDigit_toDigits hc
  have hhead : d.digitChars.head? ≠ some '0' := head?_toDigits hd
  have hne : d.digitChars ≠ [] := Nat.toDigits_ne_nil
  have hzeros {k : Nat} {c : Char} (hc : c ∈ List.replicate k '0') : c.isDigit = true := by
    rw [List.eq_of_mem_replicate hc]
    decide
  have htake {k : Nat} (hk : 0 < k) : (d.digitChars.take k).head? = d.digitChars.head? := by
    rw [List.head?_take, if_neg (by omega)]
  simp only [ofDecimal]
  split
  · split
    · exact {
        whole := by simp [hne]
        digits := fun c hc => (List.mem_append.1 hc).elim (hall c) hzeros
        zero := fun h => absurd h (by rw [List.head?_append_of_ne_nil _ hne]; exact hhead)
        places := by simp }
    · split
      · exact {
          whole := by simp
          digits := by simp
          zero := fun _ => rfl
          places := fun c hc => (List.mem_append.1 hc).elim hzeros (hall c) }
      · rename_i hlong
        exact {
          whole := by simpa using ⟨by omega, hne⟩
          digits := fun c hc => hall c (List.mem_of_mem_take hc)
          zero := fun h => absurd h (by rw [htake (by omega)]; exact hhead)
          places := fun c hc => hall c (List.mem_of_mem_drop hc) }
  · exact {
      whole := by simpa using hne
      digits := fun c hc => hall c (List.mem_of_mem_take hc)
      zero := fun h => absurd h (by rw [htake Nat.one_pos]; exact hhead)
      places := fun c hc => hall c (List.mem_of_mem_drop hc) }

end Json.Number

namespace Json

open Number

theorem ofDecimal_unsigned (low high : Int) (negative : Bool) (d : Decimal) :
    { ofDecimal low high negative d with negative := false } = ofDecimal low high false d := by
  simp only [ofDecimal]
  repeat' split
  all_goals rfl

theorem readable_ofDouble (x : Double) : Readable (ofDouble x) := by
  cases x with
  | nan | infinite => exact .null
  | finite negative units h =>
    rw [ofDouble, ofBinary]
    split
    · exact .number ⟨by simp, by simp, fun _ => rfl, by simp⟩
    · rename_i hne
      exact .number (readable_ofDecimal _ _ _ (Decimal.shortest_digits_ne_zero .double .toEven hne))

theorem isSome_toDouble?_unsigned (n : Number) :
    n.toDouble?.isSome = ({ n with negative := false } : Number).toDouble?.isSome := by
  simp [toDouble?]

theorem isSome_toDouble?_greatest (negative : Bool) :
    (ofDecimal (-5) 15 negative
      (Decimal.shortest .double .toEven Binary.Format.double.greatest)).toDouble?.isSome = true := by
  rw [isSome_toDouble?_unsigned, ofDecimal_unsigned]
  decide +kernel

/-- **The finite numbers and no others are read after they were written.** -/
theorem isSome_double?_ofDouble (x : Double) :
    (ofDouble x).double?.isSome = x.isFinite := by
  cases x with
  | nan | infinite => rfl
  | finite negative units h =>
    rw [ofDouble, ofBinary, Binary.isFinite]
    split
    · change (⟨negative, ['0'], ['0'], none⟩ : Number).toDouble?.isSome = true
      exact isSome_toDouble?_positional (by simp) (by simp) rfl
    · rename_i hne
      rcases Nat.lt_or_eq_of_le (Binary.Format.le_greatest (by decide) (by decide) h) with hlt | heq
      · refine isSome_toDouble?_ofDecimal negative
          (Decimal.shortest_digits_ne_zero .double .toEven hne) (value_lt_of_lt_greatest ?_)
        rwa [Decimal.roundUnits_shortest (by decide) .toEven h]
      · rw [heq]
        exact isSome_toDouble?_greatest negative

end Json

end Searchlight
