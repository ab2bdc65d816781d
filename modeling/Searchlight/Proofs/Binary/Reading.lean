import Mathlib.Data.List.TakeWhile
import Searchlight.Proofs.Binary.Decimals
import Searchlight.Proofs.Text.Runs

/-!
# Numbers and their own text

The digits that are written for a number are read as a decimal of the same value
(`Decimal.exists_read_positional`), and that is rounded to the number again. So a number that is not
a NaN is read back from its own text (`Binary.read?_text`), and texts tell all such numbers apart,
the two zeros as well (`Binary.text_eq_text_iff`). Texts that always show a point or an exponent do
so too, in every format (`Binary.eq_of_pointedText_eq`).
-/

namespace Searchlight

namespace Decimal

/-! ## Reading digits -/

def Exponential (cs : List Char) : Prop := ∀ c ∈ cs.head?, c = 'e'

theorem exponential_nil : Exponential [] := by simp [Exponential]

theorem exponential_mark (cs : List Char) : Exponential ('e' :: cs) := by simp [Exponential]

theorem Exponential.takeWhile {cs : List Char} (h : Exponential cs) :
    cs.takeWhile Char.isDigit = [] ∧ cs.dropWhile Char.isDigit = cs := by
  cases cs with
  | nil => exact ⟨rfl, rfl⟩
  | cons c cs =>
    obtain rfl : c = 'e' := h c rfl
    exact ⟨rfl, rfl⟩

section
variable {whole part rest : List Char} (hwhole : ∀ c ∈ whole, c.isDigit = true) (hne : whole ≠ [])
include hwhole hne

theorem read_whole_append (hrest : Exponential rest) :
    read (whole ++ rest) =
      (readExponent rest).map fun e => ⟨Nat.ofDigitChars 10 whole 0, e⟩ := by
  simp only [read, List.takeWhile_append_of_pos hwhole, List.dropWhile_append_of_pos hwhole,
    hrest.takeWhile]
  cases rest with
  | nil => simp [hne]
  | cons c cs =>
    obtain rfl : c = 'e' := hrest c rfl
    simp [hne]

theorem read_pointed_append (hpart : ∀ c ∈ part, c.isDigit = true) (hrest : Exponential rest) :
    read (whole ++ '.' :: (part ++ rest)) =
      (readExponent rest).map fun e =>
        ⟨Nat.ofDigitChars 10 (whole ++ part) 0, e - part.length⟩ := by
  have hpoint : ('.' :: (part ++ rest)).takeWhile Char.isDigit = [] ∧
      ('.' :: (part ++ rest)).dropWhile Char.isDigit = '.' :: (part ++ rest) := ⟨rfl, rfl⟩
  simp [read, List.takeWhile_append_of_pos hwhole, List.dropWhile_append_of_pos hwhole, hpoint,
    List.takeWhile_append_of_pos hpart, List.dropWhile_append_of_pos hpart, hne, hrest.takeWhile]

theorem read_whole : read whole = some ⟨Nat.ofDigitChars 10 whole 0, 0⟩ := by
  simpa [readExponent] using read_whole_append hwhole hne exponential_nil

theorem read_pointed (hpart : ∀ c ∈ part, c.isDigit = true) :
    read (whole ++ '.' :: part) =
      some ⟨Nat.ofDigitChars 10 (whole ++ part) 0, -(part.length : Int)⟩ := by
  simpa [readExponent] using read_pointed_append hwhole hne hpart exponential_nil

end

theorem isDigit_digitChars (d : Decimal) : ∀ c ∈ d.digitChars, c.isDigit = true := fun _ hc =>
  Nat.isDigit_of_mem_toDigits (by decide) (by decide) hc

theorem ofDigitChars_digitChars (d : Decimal) : Nat.ofDigitChars 10 d.digitChars 0 = d.digits :=
  Nat.ofDigitChars_toDigits (by decide) (by decide)

theorem isDigit_zeros (n : ℕ) : ∀ c ∈ List.replicate n '0', c.isDigit = true := fun c hc => by
  rw [List.eq_of_mem_replicate hc]
  decide

theorem positional_of_nonneg {d : Decimal} (hexp : 0 ≤ d.exponent) :
    (∀ c ∈ d.positional, c.isDigit = true) ∧ d.positional ≠ [] ∧
      (Nat.ofDigitChars 10 d.positional 0 : ℚ) = d.value := by
  have hpow : (10 : ℚ) ^ d.exponent = 10 ^ d.exponent.toNat := by
    rw [← zpow_natCast, Int.toNat_of_nonneg hexp]
  rw [positional, if_pos hexp]
  refine ⟨List.forall_mem_append.2 ⟨d.isDigit_digitChars, isDigit_zeros _⟩,
    List.append_ne_nil_of_left_ne_nil Nat.toDigits_ne_nil _, ?_⟩
  rw [Nat.ofDigitChars_append, ofDigitChars_digitChars, Nat.ofDigitChars_replicate_zero, value,
    hpow]
  push_cast
  ring

/-- **What is written without a mark** is read as a decimal of the same value, which has no places
beyond its digits. -/
theorem exists_read_positional (d : Decimal) :
    ∃ e, read d.positional = some e ∧ e.value = d.value ∧ e.exponent ≤ 0 := by
  have hdigits := d.isDigit_digitChars
  by_cases hexp : 0 ≤ d.exponent
  · obtain ⟨hall, hne, hvalue⟩ := positional_of_nonneg hexp
    exact ⟨_, read_whole hall hne, by simp [value, hvalue], le_rfl⟩
  · have hplaces : (-(-d.exponent).toNat : Int) = d.exponent := by omega
    refine ⟨d, ?_, rfl, by omega⟩
    simp only [positional, if_neg hexp]
    split
    · rename_i hlength
      rw [← List.singleton_append, read_pointed (List.forall_mem_singleton.2 rfl)
        (List.cons_ne_nil _ _) (List.forall_mem_append.2 ⟨isDigit_zeros _, hdigits⟩),
        List.length_append, List.length_replicate, Nat.sub_add_cancel hlength, hplaces,
        List.singleton_append, Nat.ofDigitChars_cons, Nat.ofDigitChars_append,
        Nat.ofDigitChars_replicate_zero, Nat.sub_self, Nat.mul_zero, ofDigitChars_digitChars]
    · rename_i hlength
      rw [Nat.not_le] at hlength
      have hne : d.digitChars.take (d.digitChars.length - (-d.exponent).toNat) ≠ [] := by
        rw [Ne, List.take_eq_nil_iff]
        rintro (hzero | hnil)
        · omega
        · exact Nat.toDigits_ne_nil hnil
      rw [read_pointed (fun c hc => hdigits c (List.mem_of_mem_take hc)) hne fun c hc =>
        hdigits c (List.mem_of_mem_drop hc), List.take_append_drop, ofDigitChars_digitChars,
        List.length_drop, Nat.sub_sub_self hlength.le, hplaces]

theorem exists_positional_cons (d : Decimal) :
    ∃ c cs, d.positional = c :: cs ∧ c.isDigit = true := by
  obtain ⟨c, cs, hcs⟩ : ∃ c cs, d.digitChars = c :: cs :=
    List.exists_cons_of_ne_nil Nat.toDigits_ne_nil
  have hc : c.isDigit = true := d.isDigit_digitChars c (hcs ▸ List.mem_cons_self)
  simp only [positional]
  split
  · exact ⟨c, _, by rw [hcs]; rfl, hc⟩
  · split
    · exact ⟨'0', _, rfl, rfl⟩
    · rename_i hlength
      obtain ⟨n, hn⟩ := Nat.exists_eq_succ_of_ne_zero (Nat.sub_ne_zero_of_lt (Nat.not_le.1 hlength))
      exact ⟨c, _, by rw [hn, hcs, List.take_succ_cons]; rfl, hc⟩

/-! ## Reading points and exponents -/

theorem readExponent_toString (k : Int) : readExponent ('e' :: (toString k).toList) = some k := by
  have hall (n : ℕ) : (Nat.toDigits 10 n).all Char.isDigit = true :=
    List.all_eq_true.2 fun c hc => Nat.isDigit_of_mem_toDigits (by decide) (by decide) hc
  have hnumber (n : ℕ) : Nat.ofDigitChars 10 (Nat.toDigits 10 n) 0 = n :=
    Nat.ofDigitChars_toDigits (by decide) (by decide)
  rw [Int.toString_eq_repr, Int.repr_eq_if]
  split
  · rename_i hk
    have hdigit := hall k.toNat
    have hvalue := hnumber k.toNat
    rw [Nat.toList_repr]
    obtain ⟨c, cs, hcs⟩ := List.exists_cons_of_ne_nil (@Nat.toDigits_ne_nil k.toNat 10)
    rw [hcs] at hdigit hvalue ⊢
    -- The first digit is no sign.
    have hc : c ≠ '-' ∧ c ≠ '+' := by
      constructor <;> rintro rfl <;> cases hdigit
    simp [readExponent, hc, hdigit, hvalue, Int.toNat_of_nonneg hk]
  · rename_i hk
    simp only [readExponent, String.toList_append, Nat.toList_repr, String.reduceToList]
    simp [hall, hnumber, Nat.toDigits_ne_nil]
    omega

/-- **Scientific notation** is read as the decimal that was written. -/
theorem read_scientific (d : Decimal) : read d.scientific = some d := by
  have hdigits := d.isDigit_digitChars
  have hvalue := d.ofDigitChars_digitChars
  have hexp := readExponent_toString d.leading
  have hleading : d.leading = d.digitChars.length + d.exponent - 1 := rfl
  have hne : d.digitChars ≠ [] := Nat.toDigits_ne_nil
  simp only [scientific]
  split
  · rename_i hnil
    exact absurd hnil hne
  · rename_i c hc
    have hexponent : d.leading = d.exponent := by
      rw [hleading, hc, List.length_singleton]
      omega
    rw [hc] at hdigits hvalue
    rw [← List.singleton_append, read_whole_append hdigits (List.cons_ne_nil _ _)
      (exponential_mark _), hexp, Option.map_some, hvalue, hexponent]
  · rename_i c cs _ hc
    rw [hc, List.forall_mem_cons] at hdigits
    have hexponent : d.leading - cs.length = d.exponent := by
      rw [hleading, hc, List.length_cons]
      omega
    rw [← List.singleton_append, read_pointed_append (List.forall_mem_singleton.2 hdigits.1)
      (List.cons_ne_nil _ _) hdigits.2 (exponential_mark _), hexp, Option.map_some,
      List.singleton_append, ← hc, hvalue, hexponent]

def pointed (d : Decimal) : List Char :=
  if -4 ≤ d.leading ∧ d.leading ≤ 15 then
    if 0 ≤ d.exponent then d.positional ++ ['.', '0'] else d.positional
  else d.scientific

/-- **What is written with a point** is read as a decimal of the same value. -/
theorem exists_read_pointed (d : Decimal) : ∃ e, read d.pointed = some e ∧ e.value = d.value := by
  simp only [pointed]
  split
  · split
    · rename_i hexp
      obtain ⟨hall, hne, hvalue⟩ := positional_of_nonneg hexp
      have hzero : ∀ c ∈ ['0'], c.isDigit = true := List.forall_mem_singleton.2 (by decide)
      refine ⟨_, read_pointed hall hne hzero, ?_⟩
      rw [Nat.ofDigitChars_append, Nat.ofDigitChars_cons]
      simp only [value, Nat.ofDigitChars_nil, Nat.sub_self, Nat.add_zero] at hvalue ⊢
      push_cast
      rw [hvalue]
      norm_num
      ring
    · obtain ⟨e, hread, hvalue, -⟩ := d.exists_read_positional
      exact ⟨e, hread, hvalue⟩
  · exact ⟨d, d.read_scientific, rfl⟩

def IsMark (c : Char) : Prop := c.isDigit = true ∨ c = '.' ∨ c = 'e' ∨ c = '-'

theorem isMark_digitChars (d : Decimal) : ∀ c ∈ d.digitChars, IsMark c := fun c hc =>
  .inl (d.isDigit_digitChars c hc)

theorem isMark_positional (d : Decimal) : ∀ c ∈ d.positional, IsMark c := by
  have hdigits := d.isMark_digitChars
  have hzeros (n : ℕ) : ∀ c ∈ List.replicate n '0', IsMark c := fun c hc =>
    .inl (isDigit_zeros n c hc)
  have hpoint : IsMark '.' := .inr (.inl rfl)
  simp only [positional]
  split
  · exact List.forall_mem_append.2 ⟨hdigits, hzeros _⟩
  · split
    · exact List.forall_mem_cons.2 ⟨.inl (by decide), List.forall_mem_cons.2
        ⟨hpoint, List.forall_mem_append.2 ⟨hzeros _, hdigits⟩⟩⟩
    · exact List.forall_mem_append.2 ⟨fun c hc => hdigits c (List.mem_of_mem_take hc),
        List.forall_mem_cons.2 ⟨hpoint, fun c hc => hdigits c (List.mem_of_mem_drop hc)⟩⟩

theorem isMark_toString (k : Int) : ∀ c ∈ (toString k).toList, IsMark c := by
  have hdigits (n : ℕ) : ∀ c ∈ n.repr.toList, IsMark c := fun c hc => by
    rw [Nat.toList_repr] at hc
    exact .inl (Nat.isDigit_of_mem_toDigits (by decide) (by decide) hc)
  rw [Int.toString_eq_repr, Int.repr_eq_if]
  split
  · exact hdigits _
  · rw [String.toList_append]
    exact List.forall_mem_append.2 ⟨by simp [IsMark], hdigits _⟩

theorem isMark_scientific (d : Decimal) : ∀ c ∈ d.scientific, IsMark c := by
  have hdigits := d.isMark_digitChars
  have hexp : ∀ c ∈ 'e' :: (toString d.leading).toList, IsMark c :=
    List.forall_mem_cons.2 ⟨.inr (.inr (.inl rfl)), isMark_toString _⟩
  simp only [scientific]
  split
  · exact hexp
  · rename_i c hc
    rw [hc, List.forall_mem_singleton] at hdigits
    exact List.forall_mem_cons.2 ⟨hdigits, hexp⟩
  · rename_i c cs _ hc
    rw [hc, List.forall_mem_cons] at hdigits
    exact List.forall_mem_cons.2 ⟨hdigits.1, List.forall_mem_cons.2
      ⟨.inr (.inl rfl), List.forall_mem_append.2 ⟨hdigits.2, hexp⟩⟩⟩

theorem isMark_pointed (d : Decimal) : ∀ c ∈ d.pointed, IsMark c := by
  simp only [pointed]
  split
  · split
    · exact List.forall_mem_append.2 ⟨d.isMark_positional, by simp [IsMark]⟩
    · exact d.isMark_positional
  · exact d.isMark_scientific

theorem exists_pointed_cons (d : Decimal) : ∃ c cs, d.pointed = c :: cs ∧ c.isDigit = true := by
  obtain ⟨c, cs, hcs, hc⟩ := d.exists_positional_cons
  simp only [pointed]
  split
  · split
    · exact ⟨c, _, by rw [hcs, List.cons_append], hc⟩
    · exact ⟨c, cs, hcs, hc⟩
  · simp only [scientific]
    split
    · rename_i hnil
      exact absurd hnil Nat.toDigits_ne_nil
    · rename_i c hc
      exact ⟨c, _, rfl, d.isDigit_digitChars c (hc ▸ List.mem_cons_self)⟩
    · rename_i c cs _ hc
      exact ⟨c, _, rfl, d.isDigit_digitChars c (hc ▸ List.mem_cons_self)⟩

/-! ## Rounding what is read -/

theorem roundUnits_eq_zero_of_value_le {d : Decimal} (h : d.value ≤ (Decimal.mk 1 (-401)).value) :
    d.roundUnits .double = 0 := by
  have hsmall : (Decimal.mk 1 (-401)).roundUnits .double = 0 := by decide +kernel
  exact Nat.le_zero.1 (hsmall ▸ roundUnits_le_roundUnits (by decide) h)

/-- A decimal that is too small to be looked at is rounded to nothing. -/
theorem roundUnits_eq_zero {d : Decimal} (h : digitCount d.digits + d.exponent < -reach) :
    d.roundUnits .double = 0 := by
  have hlt : d.digits < 10 ^ digitCount d.digits :=
    (Nat.length_toDigits_le_iff (by decide) (List.length_pos_of_ne_nil Nat.toDigits_ne_nil)).1
      le_rfl
  have hvalue : d.value ≤ (Decimal.mk 1 (-401)).value := by
    have hdigits : (d.digits : ℚ) ≤ 10 ^ (digitCount d.digits : Int) := by exact_mod_cast hlt.le
    calc d.value ≤ 10 ^ (digitCount d.digits : Int) * 10 ^ d.exponent :=
          mul_le_mul_of_nonneg_right hdigits (by positivity)
      _ = 10 ^ (digitCount d.digits + d.exponent) := (zpow_add₀ (by norm_num) _ _).symm
      _ ≤ 10 ^ (-401 : Int) := zpow_le_zpow_right₀ (by norm_num) (by simp only [reach] at h; omega)
      _ = (Decimal.mk 1 (-401)).value := by simp [value]
  exact roundUnits_eq_zero_of_value_le hvalue

/-- A decimal that is rounded to a magnitude is read as that magnitude. -/
theorem toBinary_eq_finite {d : Decimal} {units : Nat} (hne : units ≠ 0)
    (hunits : d.roundUnits .double = units) (hexp : d.exponent ≤ 0) (negative : Bool)
    (hfits : Binary.Format.double.Fits units) :
    d.toBinary .double negative = .finite negative units hfits := by
  have hdigits : d.digits ≠ 0 := fun hzero =>
    hne (hunits ▸ roundUnits_eq_zero_of_value_le (by simp [value, hzero]))
  have hlow : ¬ digitCount d.digits + d.exponent < -reach := fun h =>
    hne (hunits ▸ roundUnits_eq_zero h)
  rw [toBinary, if_neg hdigits, if_neg (by simp only [reach]; omega), if_neg hlow, hunits,
    Binary.ofUnits, dif_pos hfits]

end Decimal

namespace Binary

/-! ## Reading a text back -/

theorem toLower_of_isDigit {c : Char} (hc : c.isDigit = true) : c.toLower = c := by
  have hcapital : ¬(65 ≤ c.toNat ∧ c.toNat ≤ 90) := by
    have hnine : '9'.toNat = 57 := rfl
    rw [Char.isDigit_iff_toNat] at hc
    omega
  exact dif_neg hcapital

theorem readMagnitude_of_isDigit {f : Format} {negative : Bool} {c : Char} {cs : List Char}
    (hc : c.isDigit = true) :
    readMagnitude f negative (c :: cs) =
      (Decimal.read (c :: cs)).map (Decimal.toBinary f negative) := by
  have hname (s : String) (hs : s.toList.head?.all Char.isDigit = false) :
      String.ofList ((c :: cs).map Char.toLower) ≠ s := by
    rintro rfl
    rw [String.toList_ofList, List.map_cons, List.head?_cons, Option.all_some,
      toLower_of_isDigit hc, hc] at hs
    cases hs
  simp only [readMagnitude]
  rw [if_neg, if_neg (hname "nan" (by decide))]
  rw [Bool.or_eq_true, decide_eq_true_eq, decide_eq_true_eq, not_or]
  exact ⟨hname "inf" (by decide), hname "infinity" (by decide)⟩

/-- **A number is read back from its own text.** -/
theorem read?_text {x : Double} (hx : x.isNaN = false) : read? .double x.text = some x := by
  cases x with
  | nan n => cases hx
  | infinite n => cases n <;> rfl
  | finite n u hu =>
    by_cases hzero : u = 0
    · subst hzero
      cases n
      · exact (rfl : read? .double (zero : Double).text = some zero)
      · exact (rfl : read? .double (-zero : Double).text = some (-zero))
    · obtain ⟨e, hread, hvalue, hexp⟩ :=
        (Decimal.shortest .double .upward u).exists_read_positional
      obtain ⟨c, cs, hcs, hc⟩ := (Decimal.shortest .double .upward u).exists_positional_cons
      have hunits : e.roundUnits .double = u := by
        rw [Decimal.roundUnits_congr (by decide) hvalue,
          Decimal.roundUnits_shortest (by decide) .upward hu]
      have hmagnitude : readMagnitude .double n (c :: cs) = some (.finite n u hu) := by
        rw [readMagnitude_of_isDigit hc, ← hcs, hread, Option.map_some,
          Decimal.toBinary_eq_finite hzero hunits hexp n hu]
      rw [text, if_neg hzero, hcs, signed, read?, String.toList_ofList]
      cases n with
      | true => exact hmagnitude
      | false =>
        rw [if_neg Bool.false_ne_true]
        split
        · rename_i heq
          cases heq
          cases hc
        · rename_i heq
          cases heq
          cases hc
        · exact hmagnitude

/-- **Texts of numbers** are different, but those of a NaN. -/
theorem text_eq_text_iff {x y : Double} :
    x.text = y.text ↔ x = y ∨ x.isNaN = true ∧ y.isNaN = true := by
  have text_of_isNaN {x : Double} (hx : x.isNaN = true) : x.text = "NaN" := by
    cases x <;> first | rfl | cases hx
  have ne_of_isNaN {x y : Double} (hx : x.isNaN = true) (hy : y.isNaN = false) :
      x.text ≠ y.text := by
    intro h
    have hread := read?_text hy
    rw [← h, text_of_isNaN hx] at hread
    have hnan : read? .double "NaN" = some (.nan false) := rfl
    rw [Option.some.inj (hread.symm.trans hnan)] at hy
    cases hy
  cases hx : x.isNaN <;> cases hy : y.isNaN
  · refine ⟨fun h => .inl ?_, by rintro (rfl | ⟨h, -⟩) <;> first | rfl | cases h⟩
    have hread := read?_text hx
    rw [h, read?_text hy] at hread
    exact (Option.some.inj hread).symm
  · simp only [Bool.false_eq_true, false_and, or_false]
    exact iff_of_false (ne_of_isNaN hy hx).symm fun h => by rw [h, hy] at hx; cases hx
  · exact iff_of_false (ne_of_isNaN hx hy) (by rintro (rfl | ⟨-, h⟩); rw [hx] at hy; cases hy; cases h)
  · exact iff_of_true ((text_of_isNaN hx).trans (text_of_isNaN hy).symm) (.inr ⟨rfl, rfl⟩)

end Binary

/-! ## Texts with a point -/

namespace Binary

variable {f : Format}

def pointedUnits (f : Format) (units : ℕ) : List Char :=
  if units = 0 then "0.0".toList else (Decimal.shortest f .upward units).pointed

theorem pointedText_finite (n : Bool) (u : ℕ) (h : f.Fits u) :
    (finite n u h).pointedText = signed n (pointedUnits f u) := by
  simp only [pointedText, pointedUnits, Decimal.pointed]
  split
  · rfl
  · split
    · split <;> rfl
    · rfl

/-- **A magnitude** is what its own digits are rounded to. -/
theorem exists_read_pointedUnits (hf : 0 < f.precision) {u : ℕ} (hu : f.Fits u) :
    ∃ e, Decimal.read (pointedUnits f u) = some e ∧ e.roundUnits f = u := by
  rw [pointedUnits]
  split
  · rename_i hzero
    refine ⟨⟨0, -1⟩, rfl, ?_⟩
    simp [Decimal.roundUnits, Decimal.fraction, Format.round, roundQuotient, hzero]
  · obtain ⟨e, hread, hvalue⟩ := (Decimal.shortest f .upward u).exists_read_pointed
    exact ⟨e, hread, by rw [Decimal.roundUnits_congr hf hvalue,
      Decimal.roundUnits_shortest hf .upward hu]⟩

theorem exists_pointedUnits_cons (f : Format) (u : ℕ) :
    ∃ c cs, pointedUnits f u = c :: cs ∧ c.isDigit = true := by
  rw [pointedUnits]
  split
  · exact ⟨'0', _, rfl, by decide⟩
  · exact Decimal.exists_pointed_cons _

def unsignedText : Binary f → List Char
  | nan _ => "NaN".toList
  | infinite _ => "inf".toList
  | finite _ u _ => pointedUnits f u

theorem toList_pointedText (x : Binary f) :
    x.pointedText.toList =
      if !x.isNaN && x.negative then '-' :: x.unsignedText else x.unsignedText := by
  cases x with
  | nan => rfl
  | infinite n =>
    rw [pointedText, signed, String.toList_ofList]
    rfl
  | finite n u hu =>
    rw [pointedText_finite, signed, String.toList_ofList]
    rfl

theorem exists_unsignedText_cons (x : Binary f) :
    ∃ c cs, x.unsignedText = c :: cs ∧ (c.isDigit = true ↔ x.isFinite = true) ∧ c ≠ '-' := by
  cases x with
  | nan => exact ⟨'N', _, rfl, by simp [isFinite], by decide⟩
  | infinite => exact ⟨'i', _, rfl, by simp [isFinite], by decide⟩
  | finite n u hu =>
    obtain ⟨c, cs, hcs, hc⟩ := exists_pointedUnits_cons f u
    refine ⟨c, cs, hcs, iff_of_true hc rfl, ?_⟩
    rintro rfl
    cases hc

/-- A text with a point tells the sign from the magnitude, and whether that is finite. -/
theorem unsignedText_inj {x y : Binary f} (h : x.pointedText = y.pointedText) :
    (!x.isNaN && x.negative) = (!y.isNaN && y.negative) ∧ x.unsignedText = y.unsignedText ∧
      x.isFinite = y.isFinite := by
  obtain ⟨c, cs, hcs, hc, hne⟩ := x.exists_unsignedText_cons
  obtain ⟨d, ds, hds, hd, hne'⟩ := y.exists_unsignedText_cons
  have hlist := congrArg String.toList h
  have hfinite (h : c = d) : x.isFinite = y.isFinite := by
    rw [Bool.eq_iff_iff, ← hc, ← hd, h]
  rw [toList_pointedText, toList_pointedText, hcs, hds] at hlist
  rw [hcs, hds]
  cases hx : !x.isNaN && x.negative <;> cases hy : !y.isNaN && y.negative <;>
    simp only [hx, hy, if_true, if_false, Bool.false_eq_true, List.cons.injEq] at hlist
  · exact ⟨rfl, by rw [hlist.1, hlist.2], hfinite hlist.1⟩
  · exact absurd hlist.1 hne
  · exact absurd hlist.1.symm hne'
  · exact ⟨rfl, by rw [hlist.2.1, hlist.2.2], hfinite hlist.2.1⟩

/-- **Texts with a point** are different, but those of a NaN. -/
theorem eq_of_pointedText_eq (hf : 0 < f.precision) {x y : Binary f} (hx : x.isNaN = false)
    (h : x.pointedText = y.pointedText) : x = y := by
  obtain ⟨hsign, htext, hfinite⟩ := unsignedText_inj h
  cases x with
  | nan => cases hx
  | infinite n =>
    cases y with
    | nan => exact absurd htext (by decide : "inf".toList ≠ "NaN".toList)
    | infinite m => exact congrArg infinite hsign
    | finite => cases hfinite
  | finite n u hu =>
    cases y with
    | nan | infinite => cases hfinite
    | finite m v hv =>
      obtain ⟨d, hread, rfl⟩ := exists_read_pointedUnits hf hu
      obtain ⟨e, hread', rfl⟩ := exists_read_pointedUnits hf hv
      obtain rfl : d = e := by
        rw [show pointedUnits f _ = pointedUnits f _ from htext, hread'] at hread
        exact (Option.some.inj hread).symm
      obtain rfl : n = m := hsign
      rfl

theorem parenthesis_notMem_pointedText (x : Binary f) : ')' ∉ x.pointedText.toList := by
  have hunsigned : ')' ∉ x.unsignedText := by
    cases x with
    | nan | infinite => simp [unsignedText]
    | finite n u hu =>
      rw [unsignedText, pointedUnits]
      split
      · simp
      · intro hmem
        rcases Decimal.isMark_pointed _ _ hmem with h | h | h | h <;> revert h <;> decide
  rw [toList_pointedText]
  split
  · exact List.not_mem_cons_of_ne_of_not_mem (by decide) hunsigned
  · exact hunsigned

end Binary

/-! ## Texts that are read -/

section
open Text (isWhiteSpace)

theorem solid_of_name {cs : List Char} {name : String}
    (hname : ∀ c ∈ name.toList, isWhiteSpace c = false)
    (h : String.ofList (cs.map Char.toLower) = name) : ∀ c ∈ cs, isWhiteSpace c = false := by
  intro c hc
  refine Bool.eq_false_iff.2 fun hspace => ?_
  have hmem : c.toLower ∈ name.toList := by
    rw [← h, String.toList_ofList]
    exact List.mem_map_of_mem hc
  rw [Text.toLower_of_isWhiteSpace hspace] at hmem
  rw [hname c hmem] at hspace
  cases hspace

namespace Decimal

theorem solid_of_readExponent {cs : List Char} {e : Int} (h : readExponent cs = some e) :
    ∀ c ∈ cs, isWhiteSpace c = false := by
  cases cs with
  | nil => simp
  | cons c cs =>
    have hdigits {ds : List Char} {n : Option Int}
        (h : (if ds.isEmpty || !ds.all Char.isDigit then none else n) = some e) :
        ∀ c ∈ ds, isWhiteSpace c = false := by
      split at h
      · cases h
      · rename_i hall
        simp only [Bool.or_eq_true, Bool.not_eq_true', not_or, Bool.not_eq_false,
          List.all_eq_true] at hall
        exact fun c hc => Text.isWhiteSpace_of_isDigit (hall.2 c hc)
    rw [readExponent.eq_def] at h
    dsimp only at h
    split at h
    · rename_i hmark
      rw [List.forall_mem_cons]
      refine ⟨by rcases hmark with rfl | rfl <;> decide, ?_⟩
      split at h
      · exact List.forall_mem_cons.2 ⟨by decide, hdigits h⟩
      · exact List.forall_mem_cons.2 ⟨by decide, hdigits h⟩
      · exact hdigits h
    · cases h

theorem solid_of_read {cs : List Char} {d : Decimal} (h : read cs = some d) :
    cs ≠ [] ∧ ∀ c ∈ cs, isWhiteSpace c = false := by
  have hdigits (ds : List Char) : ∀ c ∈ ds.takeWhile Char.isDigit, isWhiteSpace c = false :=
    fun c hc => Text.isWhiteSpace_of_isDigit (List.mem_takeWhile_imp hc)
  refine ⟨(by rintro rfl; cases h), ?_⟩
  rw [← List.takeWhile_append_dropWhile (p := Char.isDigit) (l := cs), List.forall_mem_append]
  refine ⟨hdigits cs, ?_⟩
  simp only [read] at h
  split at h
  · rename_i r hr
    rw [hr, List.forall_mem_cons, ← List.takeWhile_append_dropWhile (p := Char.isDigit) (l := r),
      List.forall_mem_append]
    refine ⟨by decide, hdigits r, ?_⟩
    split at h
    · cases h
    · obtain ⟨e, he, -⟩ := Option.map_eq_some_iff.1 h
      exact solid_of_readExponent he
  · split at h
    · cases h
    · obtain ⟨e, he, -⟩ := Option.map_eq_some_iff.1 h
      exact solid_of_readExponent he

end Decimal

namespace Binary

variable {f : Format}

theorem solid_of_readMagnitude {negative : Bool} {cs : List Char} {x : Binary f}
    (h : readMagnitude f negative cs = some x) :
    cs ≠ [] ∧ ∀ c ∈ cs, isWhiteSpace c = false := by
  have hname {name : String} (hne : name ≠ "") (hsolid : name.toList.any isWhiteSpace = false)
      (h : String.ofList (cs.map Char.toLower) = name) :
      cs ≠ [] ∧ ∀ c ∈ cs, isWhiteSpace c = false :=
    ⟨by rintro rfl; exact hne h.symm, solid_of_name (by simpa using hsolid) h⟩
  simp only [readMagnitude] at h
  split at h
  · rename_i hinf
    rw [Bool.or_eq_true, decide_eq_true_eq, decide_eq_true_eq] at hinf
    rcases hinf with hinf | hinf
    · exact hname (by decide) (by decide) hinf
    · exact hname (by decide) (by decide) hinf
  · split at h
    · rename_i hnan
      exact hname (by decide) (by decide) hnan
    · obtain ⟨d, hd, -⟩ := Option.map_eq_some_iff.1 h
      exact Decimal.solid_of_read hd

/-- **A text that is read as a number** is one word. -/
theorem words_of_read? {s : String} {x : Binary f} (h : read? f s = some x) : Text.words s = [s] := by
  have hsolid : s.toList ≠ [] ∧ ∀ c ∈ s.toList, isWhiteSpace c = false := by
    rw [read?] at h
    split at h
    · rename_i cs hcs
      rw [hcs, List.forall_mem_cons]
      exact ⟨List.cons_ne_nil _ _, by decide, (solid_of_readMagnitude h).2⟩
    · rename_i cs hcs
      rw [hcs, List.forall_mem_cons]
      exact ⟨List.cons_ne_nil _ _, by decide, (solid_of_readMagnitude h).2⟩
    · exact solid_of_readMagnitude h
  exact Text.words_of_solid (fun hempty => hsolid.1 (by rw [hempty]; rfl)) hsolid.2

end Binary

end

end Searchlight
