import Mathlib.Algebra.Group.Nat.Hom
import Searchlight.Binary.Basic

/-!
# Rounding is monotone

Of two fractions the greater one is rounded to no smaller magnitude, whatever the power of two
that each is scaled by (`Format.round_le_round`). What is rounded has the precision of the format
(`Format.fits_round`), so an operation has a finite result exactly when its rounding is below the
limit, and stays finite when its operands become smaller.
-/

namespace Searchlight.Binary

/-! ## Quotients -/

theorem le_roundQuotient {n num den : Nat} (hden : 0 < den) (h : n * den ≤ num) :
    n ≤ roundQuotient num den := by
  have hn : n ≤ num / den := (Nat.le_div_iff_mul_le hden).2 h
  simp only [roundQuotient]
  split
  · exact hn
  · split <;> omega

theorem roundQuotient_le {n num den : Nat} (hden : 0 < den) (h : num < n * den) :
    roundQuotient num den ≤ n := by
  have hn : num / den < n := (Nat.div_lt_iff_lt_mul hden).2 h
  simp only [roundQuotient]
  split
  · omega
  · split <;> omega

theorem roundQuotient_le_roundQuotient {a b c d : Nat} (hb : 0 < b) (hd : 0 < d)
    (h : a * d ≤ c * b) : roundQuotient a b ≤ roundQuotient c d := by
  have hquotients : a / b ≤ c / d := by
    rw [Nat.le_div_iff_mul_le hd]
    refine Nat.le_of_mul_le_mul_right ?_ hb
    calc a / b * d * b = a / b * b * d := Nat.mul_right_comm ..
      _ ≤ a * d := Nat.mul_le_mul_right d (Nat.div_mul_le_self a b)
      _ ≤ c * b := h
  rcases Nat.lt_or_eq_of_le hquotients with hlt | heq
  · calc roundQuotient a b ≤ a / b + 1 :=
          roundQuotient_le hb (Nat.lt_mul_of_div_lt (Nat.lt_succ_self _) hb)
      _ ≤ c / d := hlt
      _ ≤ roundQuotient c d := le_roundQuotient hd (Nat.div_mul_le_self c d)
  · -- Between the same neighbours, the greater fraction has the greater rest.
    have hrests : a % b * d ≤ c % d * b := by
      have ha : b * (c / d) * d + a % b * d = a * d := by
        rw [← heq, ← Nat.add_mul, Nat.div_add_mod]
      have hc : b * (c / d) * d + c % d * b = c * b := by
        rw [Nat.mul_comm b, Nat.mul_right_comm, Nat.mul_comm (c / d), ← Nat.add_mul,
          Nat.div_add_mod]
      omega
    have hhalf : b ≤ 2 * (a % b) → d ≤ 2 * (c % d) := fun hle => by
      refine Nat.le_of_mul_le_mul_right ?_ hb
      calc d * b = b * d := Nat.mul_comm ..
        _ ≤ 2 * (a % b) * d := Nat.mul_le_mul_right d hle
        _ ≤ 2 * (c % d) * b := by rw [Nat.mul_assoc, Nat.mul_assoc]; omega
    have hover : b < 2 * (a % b) → d < 2 * (c % d) := fun hlt => by
      refine Nat.lt_of_mul_lt_mul_right (a := b) ?_
      calc d * b = b * d := Nat.mul_comm ..
        _ < 2 * (a % b) * d := Nat.mul_lt_mul_of_pos_right hlt hd
        _ ≤ 2 * (c % d) * b := by rw [Nat.mul_assoc, Nat.mul_assoc]; omega
    simp only [roundQuotient, heq]
    rcases Nat.lt_trichotomy (2 * (a % b)) b with hlow | htie | hhigh
    · rw [if_pos hlow]
      split
      · exact Nat.le_refl _
      · split <;> omega
    · have := hhalf (Nat.le_of_eq htie.symm)
      rw [if_neg (by omega), if_pos htie, if_neg (by omega)]
      split <;> omega
    · have := hover hhigh
      refine Nat.le_of_eq ?_
      rw [if_neg (by omega), if_neg (by omega), if_neg (by omega), if_neg (by omega)]

namespace Format

variable {f : Format}

theorem shift_mono {m n : Nat} (h : m ≤ n) : f.shift m ≤ f.shift n := by
  have hlog : m.log2 ≤ n.log2 := by
    by_cases hm : m = 0
    · rw [hm, Nat.log2_zero]
      exact Nat.zero_le _
    · exact (Nat.le_log2 (by omega)).2 (Nat.le_trans (Nat.log2_self_le hm) h)
  simp only [shift]
  omega

theorem lt_two_pow_shift {num den : Nat} (hden : 0 < den) :
    num < 2 ^ f.precision * (den <<< f.shift (num / den)) := by
  have hquotient : num / den < 2 ^ (f.precision + f.shift (num / den)) :=
    Nat.lt_of_lt_of_le Nat.lt_log2_self (Nat.pow_le_pow_right (by decide) (by simp only [shift]; omega))
  rw [Nat.div_lt_iff_lt_mul hden, Nat.pow_add, Nat.mul_assoc] at hquotient
  rwa [Nat.shiftLeft_eq, Nat.mul_comm den]

theorem round_eq (num den : Nat) :
    f.round num den =
      roundQuotient num (den <<< f.shift (num / den)) * 2 ^ f.shift (num / den) :=
  Nat.shiftLeft_eq ..

/-- A magnitude of the format is rounded to itself. -/
theorem round_of_fits {n : Nat} (h : f.Fits n) : f.round n 1 = n := by
  have hfree := h.1
  rw [round_eq, Nat.div_one, roundQuotient, hfree, if_pos (by simp), Nat.one_shiftLeft,
    Nat.div_mul_cancel]
  rw [Nat.one_shiftLeft] at hfree
  exact Nat.dvd_of_mod_eq_zero hfree

variable (hf : 0 < f.precision)
include hf

theorem two_pow_shift_le {num den : Nat} (hden : 0 < den) (h : 0 < f.shift (num / den)) :
    2 ^ (f.precision - 1) * (den <<< f.shift (num / den)) ≤ num := by
  have hne : num / den ≠ 0 := by
    intro hzero
    simp [hzero, shift, Nat.log2_zero] at h
    omega
  have hlog : f.precision - 1 + f.shift (num / den) = (num / den).log2 := by
    simp only [shift] at h ⊢
    omega
  have hquotient : 2 ^ (f.precision - 1 + f.shift (num / den)) ≤ num / den := by
    rw [hlog]
    exact Nat.log2_self_le hne
  rw [Nat.le_div_iff_mul_le hden, Nat.pow_add, Nat.mul_assoc] at hquotient
  rwa [Nat.shiftLeft_eq, Nat.mul_comm den]

/-- **Rounding is monotone.** -/
theorem round_le_round {a b c d : Nat} (hb : 0 < b) (hd : 0 < d) (h : a * d ≤ c * b) :
    f.round a b ≤ f.round c d := by
  have hquotients : a / b ≤ c / d := by
    rw [Nat.le_div_iff_mul_le hd]
    refine Nat.le_of_mul_le_mul_right ?_ hb
    calc a / b * d * b = a / b * b * d := Nat.mul_right_comm ..
      _ ≤ a * d := Nat.mul_le_mul_right d (Nat.div_mul_le_self a b)
      _ ≤ c * b := h
  have hpos {n s : Nat} (hn : 0 < n) : 0 < n <<< s := by
    rw [Nat.shiftLeft_eq]
    exact Nat.mul_pos hn (Nat.two_pow_pos s)
  rw [round_eq, round_eq]
  rcases Nat.lt_or_eq_of_le (shift_mono (f := f) hquotients) with hlt | heq
  · -- The smaller fraction is at most the power of two that the greater one is at least.
    calc roundQuotient a (b <<< f.shift (a / b)) * 2 ^ f.shift (a / b)
        ≤ 2 ^ f.precision * 2 ^ f.shift (a / b) :=
          Nat.mul_le_mul_right _ (roundQuotient_le (hpos hb) (lt_two_pow_shift hb))
      _ ≤ 2 ^ (f.precision - 1) * 2 ^ f.shift (c / d) := by
          rw [← Nat.pow_add, ← Nat.pow_add]
          exact Nat.pow_le_pow_right (by decide) (by omega)
      _ ≤ roundQuotient c (d <<< f.shift (c / d)) * 2 ^ f.shift (c / d) :=
          Nat.mul_le_mul_right _ (le_roundQuotient (hpos hd)
            (two_pow_shift_le hf hd (Nat.zero_lt_of_lt hlt)))
  · rw [heq]
    refine Nat.mul_le_mul_right _ (roundQuotient_le_roundQuotient (hpos hb) (hpos hd) ?_)
    rw [Nat.shiftLeft_eq, Nat.shiftLeft_eq, ← Nat.mul_assoc, ← Nat.mul_assoc]
    exact Nat.mul_le_mul_right _ h

/-- What is rounded has free low bits. -/
theorem round_mod {num den : Nat} (hden : 0 < den) :
    f.round num den % 1 <<< f.shift (f.round num den) = 0 := by
  have hpos : 0 < den <<< f.shift (num / den) := by
    rw [Nat.shiftLeft_eq]
    exact Nat.mul_pos hden (Nat.two_pow_pos _)
  have hle : roundQuotient num (den <<< f.shift (num / den)) ≤ 2 ^ f.precision :=
    roundQuotient_le hpos (lt_two_pow_shift hden)
  rw [Nat.one_shiftLeft, round_eq]
  generalize roundQuotient num (den <<< f.shift (num / den)) = m at hle
  generalize f.shift (num / den) = s
  refine Nat.mod_eq_zero_of_dvd ?_
  rcases Nat.lt_or_eq_of_le hle with hlt | heq
  · refine Nat.dvd_trans (Nat.pow_dvd_pow 2 ?_) (Nat.dvd_mul_left (2 ^ s) m)
    have hlog : (m * 2 ^ s).log2 < f.precision + s := by
      by_cases hzero : m * 2 ^ s = 0
      · rw [hzero, Nat.log2_zero]
        omega
      · rw [Nat.log2_lt hzero, Nat.pow_add]
        exact Nat.mul_lt_mul_of_pos_right hlt (Nat.two_pow_pos s)
    simp only [shift]
    omega
  · rw [heq, ← Nat.pow_add]
    refine Nat.pow_dvd_pow 2 ?_
    simp only [shift, Nat.log2_two_pow]
    omega

theorem fits_round {num den : Nat} (hden : 0 < den) (h : f.round num den < 1 <<< f.limit) :
    f.Fits (f.round num den) := ⟨round_mod hf hden, h⟩

omit hf in
def greatest (f : Format) : Nat := (2 ^ f.precision - 1) * 2 ^ (f.limit - f.precision)

theorem le_greatest (hlimit : f.precision ≤ f.limit) {n : Nat} (h : f.Fits n) : n ≤ f.greatest := by
  refine Nat.not_lt.1 fun hgt => ?_
  rw [greatest] at hgt
  have hhalf : 2 ^ (f.precision - 1) ≤ 2 ^ f.precision - 1 :=
    Nat.le_pred_of_lt (Nat.pow_lt_pow_right (by decide) (by omega))
  have hlog : f.limit - 1 ≤ n.log2 := by
    refine (Nat.le_log2 (Nat.ne_zero_of_lt hgt)).2 (Nat.le_of_lt (Nat.lt_of_le_of_lt ?_ hgt))
    calc 2 ^ (f.limit - 1) = 2 ^ (f.precision - 1) * 2 ^ (f.limit - f.precision) := by
          rw [← Nat.pow_add]
          congr 1
          omega
      _ ≤ _ := Nat.mul_le_mul_right _ hhalf
  have hfree : 2 ^ (f.limit - f.precision) ∣ n := by
    refine Nat.dvd_trans (Nat.pow_dvd_pow 2 ?_) (Nat.dvd_of_mod_eq_zero (Nat.one_shiftLeft _ ▸ h.1))
    simp only [shift]
    omega
  obtain ⟨k, rfl⟩ := hfree
  have hk : k < 2 ^ f.precision := by
    refine Nat.lt_of_mul_lt_mul_left (a := 2 ^ (f.limit - f.precision)) ?_
    calc 2 ^ (f.limit - f.precision) * k < 2 ^ f.limit := by
          rw [← Nat.one_shiftLeft f.limit]
          exact h.2
      _ = 2 ^ (f.limit - f.precision) * 2 ^ f.precision := by
          rw [← Nat.pow_add]
          congr 1
          omega
  rw [Nat.mul_comm] at hgt
  have := Nat.lt_of_mul_lt_mul_left hgt
  omega

end Format

/-! ## Finite results -/

variable {f : Format} (hf : 0 < f.precision)
include hf

theorem isFinite_ofUnits_round (negative : Bool) {num den : Nat} (hden : 0 < den) :
    (ofUnits negative (f.round num den) : Binary f).isFinite = true ↔
      f.round num den < 1 <<< f.limit := by
  rw [ofUnits]
  split
  · exact iff_of_true rfl (‹f.Fits _›.2)
  · exact iff_of_false (by simp [isFinite]) fun h => ‹¬ f.Fits _› (Format.fits_round hf hden h)

theorem ofNat_eq_finite {n : Nat} (h : f.round (n <<< f.unitExponent) 1 < 1 <<< f.limit) :
    ∃ hfits, (ofNat n : Binary f) = .finite false (f.round (n <<< f.unitExponent) 1) hfits := by
  have hfits := Format.fits_round hf Nat.one_pos h
  exact ⟨hfits, by rw [ofNat, ofFraction, ofUnits, dif_pos hfits]⟩

theorem round_shiftLeft_le {m n : Nat} (h : m ≤ n) :
    f.round (m <<< f.unitExponent) 1 ≤ f.round (n <<< f.unitExponent) 1 := by
  refine Format.round_le_round hf Nat.one_pos Nat.one_pos ?_
  rw [Nat.shiftLeft_eq, Nat.shiftLeft_eq]
  exact Nat.mul_le_mul_right _ (Nat.mul_le_mul_right _ h)

/-- A product of whole numbers is finite if it is below the limit, each of them being rounded. -/
theorem isFinite_ofNat_mul {m n k l : Nat} (hmn : m ≤ n) (hkl : k ≤ l)
    (hn : f.round (n <<< f.unitExponent) 1 < 1 <<< f.limit)
    (hl : f.round (l <<< f.unitExponent) 1 < 1 <<< f.limit)
    (h : f.round (f.round (n <<< f.unitExponent) 1 * f.round (l <<< f.unitExponent) 1)
      (1 <<< f.unitExponent) < 1 <<< f.limit) :
    (ofNat m * ofNat k : Binary f).isFinite = true := by
  obtain ⟨_, hmx⟩ := ofNat_eq_finite hf (Nat.lt_of_le_of_lt (round_shiftLeft_le hf hmn) hn)
  obtain ⟨_, hkx⟩ := ofNat_eq_finite hf (Nat.lt_of_le_of_lt (round_shiftLeft_le hf hkl) hl)
  have hone : 0 < 1 <<< f.unitExponent := by
    rw [Nat.one_shiftLeft]
    exact Nat.two_pow_pos _
  rw [hmx, hkx]
  refine (isFinite_ofUnits_round hf _ hone).2 (Nat.lt_of_le_of_lt ?_ h)
  exact Format.round_le_round hf hone hone (Nat.mul_le_mul_right _
    (Nat.mul_le_mul (round_shiftLeft_le hf hmn) (round_shiftLeft_le hf hkl)))

end Searchlight.Binary
