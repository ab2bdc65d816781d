import Searchlight.Binary.Decimal
import Searchlight.Proofs.Binary.Rounding
import Mathlib.Algebra.Order.Field.Power
import Mathlib.Data.Rat.Cast.Order
import Mathlib.Tactic.Positivity
import Mathlib.Tactic.Ring

/-!
# The digits that are written

How a decimal is rounded depends on the number that it stands for and on nothing else, and the
greater number is not rounded to less (`Decimal.roundUnits_le_roundUnits`). So the digits that are
chosen for a magnitude are rounded to that magnitude again, whether some of the lengths that are
tried have read back or the exact value is written (`Decimal.roundUnits_shortest`).
-/

namespace Searchlight.Decimal

def value (d : Decimal) : ℚ := d.digits * 10 ^ d.exponent

theorem fraction_snd_pos (d : Decimal) : 0 < d.fraction.2 := Nat.pow_pos (by decide)

theorem value_eq_fraction (d : Decimal) : d.value = d.fraction.1 / d.fraction.2 := by
  have hsplit : d.exponent = d.exponent.toNat - (-d.exponent).toNat := by omega
  have hpow : (10 : ℚ) ^ d.exponent = 10 ^ d.exponent.toNat / 10 ^ (-d.exponent).toNat := by
    conv_lhs => rw [hsplit]
    rw [zpow_sub₀ (by norm_num), zpow_natCast, zpow_natCast]
  simp [value, fraction, hpow, mul_div_assoc]

theorem value_strip (fuel : Nat) (d : Decimal) : (strip fuel d).value = d.value := by
  induction fuel generalizing d with
  | zero => rfl
  | succ fuel ih =>
    rw [strip]
    split
    · rename_i h
      have hdigits : (d.digits : ℚ) = (d.digits / 10 : Nat) * 10 := by
        exact_mod_cast (Nat.div_mul_cancel (Nat.dvd_of_mod_eq_zero h.2)).symm
      rw [ih, value, value, zpow_add_one₀ (by norm_num), hdigits]
      ring
    · rfl

theorem strip_digits_ne_zero {d : Decimal} (h : d.digits ≠ 0) (fuel : Nat) :
    (strip fuel d).digits ≠ 0 := by
  induction fuel generalizing d with
  | zero => exact h
  | succ fuel ih =>
    rw [strip]
    split
    · exact ih (by simp only; omega)
    · exact h

/-! ## Rounding a decimal -/

variable {f : Binary.Format} (hf : 0 < f.precision)
include hf

theorem roundUnits_le_roundUnits {d e : Decimal} (h : d.value ≤ e.value) :
    d.roundUnits f ≤ e.roundUnits f := by
  refine Binary.Format.round_le_round hf d.fraction_snd_pos e.fraction_snd_pos ?_
  have hd : (0 : ℚ) < d.fraction.2 := by exact_mod_cast d.fraction_snd_pos
  have he : (0 : ℚ) < e.fraction.2 := by exact_mod_cast e.fraction_snd_pos
  rw [value_eq_fraction, value_eq_fraction, div_le_div_iff₀ hd he] at h
  have hcross : d.fraction.1 * e.fraction.2 ≤ e.fraction.1 * d.fraction.2 := by exact_mod_cast h
  rw [Nat.shiftLeft_eq, Nat.shiftLeft_eq, Nat.mul_right_comm, Nat.mul_right_comm e.fraction.1]
  exact Nat.mul_le_mul_right _ hcross

theorem roundUnits_congr {d e : Decimal} (h : d.value = e.value) :
    d.roundUnits f = e.roundUnits f :=
  le_antisymm (roundUnits_le_roundUnits hf h.le) (roundUnits_le_roundUnits hf h.ge)

theorem value_lt_of_roundUnits_lt {d : Decimal} {m : Nat} (h : d.roundUnits f < f.round m 1) :
    d.value * 2 ^ f.unitExponent < m := by
  by_contra hle
  refine absurd h (Nat.not_lt.2 (Binary.Format.round_le_round hf Nat.one_pos d.fraction_snd_pos ?_))
  have hd : (0 : ℚ) < d.fraction.2 := by exact_mod_cast d.fraction_snd_pos
  rw [not_lt, value_eq_fraction, div_mul_eq_mul_div, le_div_iff₀ hd] at hle
  rw [Nat.shiftLeft_eq, Nat.mul_one]
  exact_mod_cast hle

theorem roundUnits_eq_round {d : Decimal} {m : Nat} (h : d.value * 2 ^ f.unitExponent = m) :
    d.roundUnits f = f.round m 1 := by
  have hd : (0 : ℚ) < d.fraction.2 := by exact_mod_cast d.fraction_snd_pos
  rw [value_eq_fraction, div_mul_eq_mul_div, div_eq_iff hd.ne'] at h
  have hcross : d.fraction.1 <<< f.unitExponent * 1 = m * d.fraction.2 := by
    rw [Nat.shiftLeft_eq, Nat.mul_one]
    exact_mod_cast h
  exact le_antisymm
    (Binary.Format.round_le_round hf d.fraction_snd_pos Nat.one_pos hcross.le)
    (Binary.Format.round_le_round hf Nat.one_pos d.fraction_snd_pos hcross.ge)

/-! ## Choosing digits -/

omit hf

def exact (f : Binary.Format) (units : Nat) : Decimal :=
  ⟨units * Nat.pow 5 f.unitExponent, -f.unitExponent⟩

theorem value_exact (f : Binary.Format) (units : Nat) :
    (exact f units).value * 2 ^ f.unitExponent = units := by
  have hten : (10 : ℚ) ^ f.unitExponent = 5 ^ f.unitExponent * 2 ^ f.unitExponent := by
    rw [← mul_pow]
    norm_num
  have hne : (10 : ℚ) ^ f.unitExponent ≠ 0 := pow_ne_zero _ (by norm_num)
  simp only [value, exact, Nat.pow_eq, Nat.cast_mul, Nat.cast_pow, Nat.cast_ofNat, zpow_neg,
    zpow_natCast]
  rw [mul_right_comm, mul_assoc (units : ℚ), ← hten, mul_assoc, mul_inv_cancel₀ hne, mul_one]

theorem readsBack_of_first {units : Nat} {first second d : Decimal}
    (h : (if first.ReadsBack f units then some first
      else if second.ReadsBack f units then some second else none) = some d) :
    d.ReadsBack f units := by
  by_cases hfirst : first.ReadsBack f units
  · rw [if_pos hfirst] at h
    exact Option.some.inj h ▸ hfirst
  · rw [if_neg hfirst] at h
    by_cases hsecond : second.ReadsBack f units
    · rw [if_pos hsecond] at h
      exact Option.some.inj h ▸ hsecond
    · rw [if_neg hsecond] at h
      exact absurd h.symm (Option.some_ne_none d)

theorem readsBack_of_onGrid {tie : Tie} {units num den : Nat} {e : Int} {d : Decimal}
    (h : onGrid f tie units num den e = some d) : d.ReadsBack f units :=
  readsBack_of_first h

/-- Some digits read back and lose their zeros, or all of them are written. -/
theorem shortest_cases (f : Binary.Format) (tie : Tie) (units : Nat) :
    (∃ d, d.ReadsBack f units ∧ shortest f tie units = strip maxDigits d) ∨
      shortest f tie units = exact f units := by
  simp only [shortest]
  split
  · rename_i d h
    obtain ⟨n, -, hn⟩ := List.exists_of_findSome?_eq_some h
    exact .inl ⟨d, readsBack_of_onGrid hn, rfl⟩
  · exact .inr rfl

theorem shortest_digits_ne_zero (f : Binary.Format) (tie : Tie) {units : Nat} (h : units ≠ 0) :
    (shortest f tie units).digits ≠ 0 := by
  obtain ⟨d, hd, heq⟩ | heq := shortest_cases f tie units
  · rw [heq]
    exact strip_digits_ne_zero hd.1 _
  · rw [heq]
    exact Nat.mul_ne_zero h (Nat.ne_of_gt (Nat.pow_pos (by decide)))

/-- **The chosen digits are rounded to the magnitude that they are chosen for.** -/
theorem roundUnits_shortest (hf : 0 < f.precision) (tie : Tie) {units : Nat} (h : f.Fits units) :
    (shortest f tie units).roundUnits f = units := by
  obtain ⟨d, hd, heq⟩ | heq := shortest_cases f tie units
  · rw [heq, roundUnits_congr hf (value_strip maxDigits d), hd.2.2.2]
  · rw [heq, roundUnits_eq_round hf (value_exact f units), Binary.Format.round_of_fits h]

end Searchlight.Decimal
