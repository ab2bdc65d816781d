import Searchlight.Proofs.Text.Runs

/-!
# Tokens of a text

White space never stands within a token, so the tokens of a text are those of its words
(`flatMap_tokenize_words`), and of any part that begins and ends where tokens do
(`IsPart.tokenize_infix`). A token is lowered once and for all, and its characters stay letters and
numbers, but for the dotted capital I: its dot above is a character of its own, which no token has
room for. So a token is the one token of its own text unless there is such a dot in it
(`tokenize_token_iff`).
-/

namespace Searchlight.Text

/-! ## Tables as numbers -/

section
variable {a b n : Nat}

theorem testBit_of_and_eq_zero (h : a &&& b = 0) (ha : a.testBit n = true) : b.testBit n = false := by
  have hbit := congrArg (Nat.testBit · n) h
  simpa [ha] using hbit

theorem testBit_of_and_eq_self (h : a &&& b = a) (ha : a.testBit n = true) : b.testBit n = true := by
  have hbit := congrArg (Nat.testBit · n) h
  simpa [ha] using hbit

theorem testBit_foldr {α : Type} (f : α → Nat) (xs : List α) :
    (xs.foldr (fun x b => f x ||| b) b).testBit n = true ↔
      (∃ x ∈ xs, (f x).testBit n = true) ∨ b.testBit n = true := by
  induction xs with
  | nil => simp
  | cons x xs ih =>
    simp only [List.foldr_cons, Nat.testBit_or, Bool.or_eq_true, ih, List.mem_cons,
      exists_eq_or_imp, or_assoc]

end

namespace CodeRanges

variable {ranges : CodeRanges} {c : Char} {n : Nat}

def bits (ranges : CodeRanges) : Nat :=
  ranges.foldr (fun r b => (1 <<< (r.2 + 1 - r.1) - 1) <<< r.1 ||| b) 0

theorem testBit_bits : ranges.bits.testBit n = true ↔ ∃ r ∈ ranges, r.1 ≤ n ∧ n ≤ r.2 := by
  rw [bits, testBit_foldr]
  simp only [Nat.zero_testBit, Bool.false_eq_true, or_false, Nat.testBit_shiftLeft,
    Nat.one_shiftLeft, Nat.testBit_two_pow_sub_one, Bool.and_eq_true, decide_eq_true_eq]
  refine exists_congr fun r => and_congr_right fun _ => ?_
  omega

theorem contains_iff_testBit : ranges.contains c = true ↔ ranges.bits.testBit c.toNat = true := by
  rw [contains_eq_true_iff, testBit_bits]

end CodeRanges

theorem isWhiteSpace_of_isAlphanumeric {c : Char} (hc : isAlphanumeric c = true) :
    isWhiteSpace c = false := by
  have hapart : alphanumericRanges.bits &&& whiteSpaceRanges.bits = 0 := by decide +kernel
  rw [isWhiteSpace, Bool.eq_false_iff, Ne, CodeRanges.contains_iff_testBit,
    testBit_of_and_eq_zero hapart (CodeRanges.contains_iff_testBit.1 hc)]
  exact Bool.false_ne_true

theorem solid_of_isAlphanumeric (c : Char) (hc : isAlphanumeric c = true) :
    (!isWhiteSpace c) = true := by
  rw [isWhiteSpace_of_isAlphanumeric hc]
  rfl

namespace LowercaseRun

def spread (step : Nat) : Nat → Nat
  | 0 => 0
  | count + 1 => spread step count <<< step ||| 1

theorem testBit_spread {step count k : Nat} (hk : k < count) :
    (spread step count).testBit (k * step) = true := by
  induction count generalizing k with
  | zero => exact absurd hk (Nat.not_lt_zero k)
  | succ count ih =>
    rw [spread, Nat.testBit_or, Bool.or_eq_true]
    cases k with
    | zero => exact .inr (by rw [Nat.zero_mul]; rfl)
    | succ k =>
      refine .inl ?_
      rw [Nat.testBit_shiftLeft, Nat.succ_mul, Nat.add_sub_cancel, ih (Nat.lt_of_succ_lt_succ hk)]
      simp

variable {r : LowercaseRun} {n : Nat}

theorem contains_eq_true_iff :
    r.contains n = true ↔ r.first ≤ n ∧ n ≤ r.last ∧ (n - r.first) % r.step = 0 := by
  simp [LowercaseRun.contains, and_assoc]

def bitsAt (r : LowercaseRun) (place : Nat) : Nat :=
  spread r.step ((r.last - r.first) / r.step + 1) <<< place

theorem testBit_bitsAt (h : r.contains n = true) (place : Nat) :
    (r.bitsAt place).testBit (place + (n - r.first)) = true := by
  obtain ⟨-, hlast, hstep⟩ := contains_eq_true_iff.1 h
  rw [bitsAt, Nat.testBit_shiftLeft, Nat.add_sub_cancel_left,
    ← Nat.div_mul_cancel (Nat.dvd_of_mod_eq_zero hstep), testBit_spread]
  · simp
  · exact Nat.lt_succ_of_le (Nat.div_le_div_right (by omega))

def capitals : Nat := lowercaseRuns.foldr (fun r b => r.bitsAt r.first ||| b) (1 <<< 0x130)

def smalls : Nat := lowercaseRuns.foldr (fun r b => r.bitsAt (r.first + r.offset).toNat ||| b) 0

theorem testBit_capitals (hr : r ∈ lowercaseRuns) (h : r.contains n = true) :
    capitals.testBit n = true := by
  have hbit := testBit_bitsAt h r.first
  rw [Nat.add_sub_cancel' (contains_eq_true_iff.1 h).1] at hbit
  exact (testBit_foldr _ _).2 (.inl ⟨r, hr, hbit⟩)

/-- **Lower-case forms** are letters or numbers that have no other lower-case form. -/
theorem smalls_settled :
    (∀ r ∈ lowercaseRuns, (0 : Int) ≤ r.first + r.offset) ∧
      smalls &&& alphanumericRanges.bits = smalls ∧ smalls &&& capitals = 0 ∧
      smalls &&& CodeRanges.bits [(0, 0xD7FF), (0xE000, 0x10FFFF)] = smalls := by
  decide +kernel

theorem testBit_smalls (hr : r ∈ lowercaseRuns) (h : r.contains n = true) :
    smalls.testBit (n + r.offset).toNat = true := by
  have hplace : (n + r.offset).toNat = (r.first + r.offset).toNat + (n - r.first) := by
    have hfirst := smalls_settled.1 r hr
    have hn := (contains_eq_true_iff.1 h).1
    omega
  rw [hplace]
  exact (testBit_foldr _ _).2 (.inl ⟨r, hr, testBit_bitsAt h _⟩)

end LowercaseRun

/-! ## Lowering -/

variable {c d : Char} {cs before r : List Char}

theorem lowerChar_dotted : lowerChar 'İ' = ['i', '\u0307'] := rfl

theorem lowerChar_sigma : lowerChar 'Σ' = ['σ'] := rfl

theorem isAlphanumeric_dot : isAlphanumeric '\u0307' = false := by
  decide +kernel

theorem lowerChar_cases (c : Char) :
    c = 'İ' ∧ lowerChar c = ['i', '\u0307'] ∨
      (∃ r ∈ lowercaseRuns, r.contains c.toNat = true ∧
        lowerChar c = [Char.ofNat (c.toNat + r.offset).toNat]) ∨
      lowerChar c = [c] := by
  unfold lowerChar
  split
  · exact .inl ⟨‹_›, rfl⟩
  · split
    · rename_i r hr
      have hcontains : r.contains c.toNat = true := by simpa using List.find?_some hr
      exact .inr (.inl ⟨r, List.mem_of_find?_eq_some hr, hcontains, rfl⟩)
    · exact .inr (.inr rfl)

theorem lowerChar_eq_self (h : LowercaseRun.capitals.testBit c.toNat = false) :
    lowerChar c = [c] := by
  have hcapital (hc : LowercaseRun.capitals.testBit c.toNat = true) : False := by
    rw [h] at hc
    cases hc
  have hdotted : c ≠ 'İ' := by
    rintro rfl
    exact hcapital ((testBit_foldr _ _).2 (.inr (by decide)))
  rw [lowerChar, if_neg hdotted, List.find?_eq_none.2 fun r hr hc =>
    hcapital (LowercaseRun.testBit_capitals hr hc)]

/-- A lower-case form is a letter or a number with no further lower-case form. -/
theorem settled_of_mem {s : LowercaseRun} (hs : s ∈ lowercaseRuns) (hc : s.contains c.toNat = true)
    (hd : d = Char.ofNat (c.toNat + s.offset).toNat) :
    isAlphanumeric d = true ∧ lowerChar d = [d] := by
  have hsmall := LowercaseRun.testBit_smalls hs hc
  obtain ⟨-, halpha, hcapital, hscalar⟩ := LowercaseRun.smalls_settled
  have hnat : d.toNat = (c.toNat + s.offset).toNat := by
    have hscalar := CodeRanges.testBit_bits.1 (testBit_of_and_eq_self hscalar hsmall)
    have hvalid : Nat.isValidChar (c.toNat + s.offset).toNat := by
      simp only [List.mem_cons, List.not_mem_nil, or_false, exists_eq_or_imp,
        exists_eq_left] at hscalar
      simp only [Nat.isValidChar]
      omega
    rw [hd, Char.ofNat, dif_pos hvalid]
    rfl
  rw [← hnat] at hsmall
  exact ⟨CodeRanges.contains_iff_testBit.2 (testBit_of_and_eq_self halpha hsmall),
    lowerChar_eq_self (testBit_of_and_eq_zero hcapital hsmall)⟩

/-- **Lowering a character** leaves nothing to be lowered. -/
theorem lowerChar_of_mem (hd : d ∈ lowerChar c) : lowerChar d = [d] := by
  rcases lowerChar_cases c with ⟨-, h⟩ | ⟨s, hs, hc, h⟩ | h
  · rw [h, List.mem_pair] at hd
    rcases hd with rfl | rfl <;> rfl
  · rw [h, List.mem_singleton] at hd
    exact (settled_of_mem hs hc hd).2
  · rw [h, List.mem_singleton] at hd
    rw [hd, h]

theorem isAlphanumeric_of_mem_lowerChar (hc : isAlphanumeric c = true) (hne : c ≠ 'İ')
    (hd : d ∈ lowerChar c) : isAlphanumeric d = true := by
  rcases lowerChar_cases c with ⟨rfl, -⟩ | ⟨s, hs, hcontains, h⟩ | h
  · exact absurd rfl hne
  · rw [h, List.mem_singleton] at hd
    exact (settled_of_mem hs hcontains hd).1
  · rw [h, List.mem_singleton] at hd
    rwa [hd]

theorem exists_of_mem_lowerAfter (hd : d ∈ lowerAfter before cs) :
    ∃ c ∈ cs, d ∈ lowerChar c ∨ c = 'Σ' ∧ d = 'ς' := by
  induction cs generalizing before with
  | nil => cases hd
  | cons c cs ih =>
    rcases List.mem_append.1 hd with hd | hd
    · refine ⟨c, List.mem_cons_self, ?_⟩
      split at hd
      · rename_i hc
        rw [List.mem_singleton] at hd
        split at hd
        · exact .inr ⟨hc, hd⟩
        · refine .inl ?_
          rw [hc, hd, lowerChar_sigma]
          exact List.mem_singleton_self _
      · exact .inl hd
    · obtain ⟨c', hc', h⟩ := ih hd
      exact ⟨c', List.mem_cons_of_mem _ hc', h⟩

theorem mem_lowerAfter (hc : c ∈ cs) (hne : c ≠ 'Σ') (hd : d ∈ lowerChar c) :
    d ∈ lowerAfter before cs := by
  induction cs generalizing before with
  | nil => cases hc
  | cons c' cs ih =>
    refine List.mem_append.2 ?_
    rcases List.mem_cons.1 hc with rfl | hc
    · rw [if_neg hne]
      exact .inl hd
    · exact .inr (ih hc)

/-- **Lowering** leaves nothing to be lowered, final sigmas included. -/
theorem lowerChar_of_mem_lower (hd : d ∈ lower cs) : lowerChar d = [d] := by
  obtain ⟨c, -, hd | ⟨-, rfl⟩⟩ := exists_of_mem_lowerAfter hd
  · exact lowerChar_of_mem hd
  · rfl

theorem lowerAfter_eq_self (h : ∀ c ∈ cs, lowerChar c = [c]) : lowerAfter before cs = cs := by
  induction cs generalizing before with
  | nil => rfl
  | cons c cs ih =>
    rw [List.forall_mem_cons] at h
    have hne : c ≠ 'Σ' := by
      rintro rfl
      exact absurd h.1 (lowerChar_sigma ▸ by decide)
    rw [lowerAfter, if_neg hne, h.1, ih h.2]
    rfl

theorem lower_lower (cs : List Char) : lower (lower cs) = lower cs :=
  lowerAfter_eq_self fun _ hc => lowerChar_of_mem_lower hc

theorem lowerChar_ne_nil (c : Char) : lowerChar c ≠ [] := by
  rcases lowerChar_cases c with ⟨-, h⟩ | ⟨_, -, -, h⟩ | h <;> rw [h] <;> exact List.cons_ne_nil _ _

theorem lower_ne_nil (h : cs ≠ []) : lower cs ≠ [] := by
  obtain ⟨c, cs, rfl⟩ := List.exists_cons_of_ne_nil h
  rw [lower, lowerAfter]
  split <;> simp [lowerChar_ne_nil]

section
variable (hr : ∀ c ∈ r, isAlphanumeric c = true)
include hr

theorem isAlphanumeric_of_mem_lower (hdotted : 'İ' ∉ r) (hd : d ∈ lower r) :
    isAlphanumeric d = true := by
  obtain ⟨c, hc, hd | ⟨-, rfl⟩⟩ := exists_of_mem_lowerAfter hd
  · exact isAlphanumeric_of_mem_lowerChar (hr c hc) (ne_of_mem_of_not_mem hc hdotted) hd
  · rfl

theorem dot_mem_lower_iff : '\u0307' ∈ lower r ↔ 'İ' ∈ r := by
  constructor
  · intro hd
    by_contra hdotted
    have hdot := isAlphanumeric_of_mem_lower hr hdotted hd
    rw [isAlphanumeric_dot] at hdot
    cases hdot
  · exact fun hc => mem_lowerAfter hc (by decide) (lowerChar_dotted ▸ by decide)

end

/-- What is lowered has no dotted capital I. -/
theorem dotted_notMem_lower (cs : List Char) : 'İ' ∉ lower cs := fun h =>
  absurd (lowerChar_of_mem_lower h) (lowerChar_dotted ▸ by decide)

/-! ## Tokens -/

variable {s t part : String}

theorem mem_tokenize :
    t ∈ tokenize s ↔ ∃ r ∈ runs isAlphanumeric s.toList, String.ofList (lower r) = t := by
  rw [tokenize, List.mem_map]

theorem tokenize_ne_nil_iff : tokenize s ≠ [] ↔ ∃ c ∈ s.toList, isAlphanumeric c = true := by
  rw [tokenize, Ne, List.map_eq_nil_iff, runs_eq_nil_iff]
  simp

theorem words_ne_nil_of_tokenize (h : tokenize s ≠ []) : words s ≠ [] := by
  obtain ⟨c, hc, halpha⟩ := tokenize_ne_nil_iff.1 h
  exact words_ne_nil_iff.2 ⟨c, hc, isWhiteSpace_of_isAlphanumeric halpha⟩

/-- **The tokens of a text are those of its words.** -/
theorem flatMap_tokenize_words (s : String) : (words s).flatMap tokenize = tokenize s := by
  rw [tokenize, ← flatMap_runs solid_of_isAlphanumeric, List.map_flatMap, words, List.flatMap_map]
  refine List.flatMap_congr fun r _ => ?_
  rw [tokenize, String.toList_ofList]

/-- What stands between spaces is taken apart on its own. -/
theorem tokenize_intercalate (ts : List String) :
    tokenize (" ".intercalate ts) = ts.flatMap tokenize := by
  have hspace : isAlphanumeric ' ' = false :=
    Bool.eq_false_iff.2 fun halpha => absurd (isWhiteSpace_of_isAlphanumeric halpha) (by decide)
  rw [tokenize, runs_toList_intercalate hspace, List.map_flatMap]
  rfl

/-- The part stands in the text, and begins and ends where tokens do. -/
def IsPart (part s : String) : Prop :=
  ∃ front back, s = front ++ part ++ back ∧ Parted isAlphanumeric front.toList part.toList ∧
    Parted isAlphanumeric part.toList back.toList

theorem isPart_self (s : String) : IsPart s s :=
  ⟨"", "", by simp, parted_of_last (by simp), parted_of_head (by simp)⟩

theorem isPart_of_mem_words (h : part ∈ words s) : IsPart part s := by
  obtain ⟨r, hr, rfl⟩ := List.mem_map.1 h
  obtain ⟨front, back, heq, hfront, hback⟩ := exists_of_mem_runs hr
  refine ⟨.ofList front, .ofList back, String.toList_inj.1 ?_, ?_, ?_⟩
  · simp only [String.toList_append, String.toList_ofList, heq]
  · rw [String.toList_ofList, String.toList_ofList]
    exact hfront.mono solid_of_isAlphanumeric
  · rw [String.toList_ofList, String.toList_ofList]
    exact hback.mono solid_of_isAlphanumeric

/-- **The tokens of a part** stand among those of the text. -/
theorem IsPart.tokenize_infix (h : IsPart part s) : tokenize part <:+: tokenize s := by
  obtain ⟨front, back, rfl, hfront, hback⟩ := h
  by_cases hpart : part.toList = []
  · rw [tokenize, hpart]
    exact List.nil_infix
  · have hfront' : Parted isAlphanumeric front.toList (part.toList ++ back.toList) := by
      rw [Parted, List.head?_append_of_ne_nil _ hpart]
      exact hfront
    refine ⟨tokenize front, tokenize back, ?_⟩
    simp only [tokenize, String.toList_append, List.append_assoc]
    rw [runs_append hfront', runs_append hback, List.map_append, List.map_append]

section
variable (ht : t ∈ tokenize s)
include ht

theorem dot_mem_of_dotted_mem : '\u0307' ∈ t.toList → 'İ' ∈ s.toList := by
  obtain ⟨r, hr, rfl⟩ := mem_tokenize.1 ht
  rw [String.toList_ofList, dot_mem_lower_iff fun c hc => (mem_of_mem_runs hr hc).2]
  exact fun hc => (mem_of_mem_runs hr hc).1

theorem dotted_notMem_token : 'İ' ∉ t.toList := by
  obtain ⟨r, -, rfl⟩ := mem_tokenize.1 ht
  rw [String.toList_ofList]
  exact dotted_notMem_lower r

/-- **A token without a dot above is the one token of its own text**, and no other one is. -/
theorem tokenize_token_iff : tokenize t = [t] ↔ '\u0307' ∉ t.toList := by
  constructor
  · intro h hdot
    exact dotted_notMem_token ht (dot_mem_of_dotted_mem (h ▸ List.mem_singleton_self t) hdot)
  · obtain ⟨r, hr, rfl⟩ := mem_tokenize.1 ht
    have halpha : ∀ c ∈ r, isAlphanumeric c = true := fun c hc => (mem_of_mem_runs hr hc).2
    rw [String.toList_ofList, dot_mem_lower_iff halpha]
    intro hdotted
    rw [tokenize, String.toList_ofList, runs_of_all (lower_ne_nil (ne_nil_of_mem_runs hr))
      fun _ => isAlphanumeric_of_mem_lower halpha hdotted, List.map_singleton, lower_lower]

/-- Each token has a token. -/
theorem tokenize_token_ne_nil : tokenize t ≠ [] := by
  by_cases hdot : '\u0307' ∈ t.toList
  · obtain ⟨r, hr, rfl⟩ := mem_tokenize.1 ht
    rw [String.toList_ofList, dot_mem_lower_iff fun c hc => (mem_of_mem_runs hr hc).2] at hdot
    rw [tokenize_ne_nil_iff, String.toList_ofList]
    exact ⟨'i', mem_lowerAfter hdot (by decide) (lowerChar_dotted ▸ List.mem_cons_self), rfl⟩
  · rw [(tokenize_token_iff ht).2 hdot]
    exact List.cons_ne_nil t []

end

/-- **The tokens of a text, joined by spaces, have the same tokens** if and only if there was no
dotted capital I. -/
theorem tokenize_intercalate_tokenize_iff (s : String) :
    tokenize (" ".intercalate (tokenize s)) = tokenize s ↔ 'İ' ∉ s.toList := by
  constructor
  · intro h hdotted
    obtain ⟨r, hr, hmem⟩ := exists_mem_runs hdotted (p := isAlphanumeric) rfl
    have ht : String.ofList (lower r) ∈ tokenize s := mem_tokenize.2 ⟨r, hr, rfl⟩
    have hdot : '\u0307' ∈ (String.ofList (lower r)).toList := by
      rw [String.toList_ofList, dot_mem_lower_iff fun c hc => (mem_of_mem_runs hr hc).2]
      exact hmem
    -- It would be a token of some other token, where there is no dotted capital I any more.
    rw [← h, tokenize_intercalate, List.mem_flatMap] at ht
    obtain ⟨u, hu, ht⟩ := ht
    exact dotted_notMem_token hu (dot_mem_of_dotted_mem ht hdot)
  · intro hdotted
    rw [tokenize_intercalate]
    refine (List.flatMap_congr fun t ht => (tokenize_token_iff ht).2 fun hdot => ?_).trans
      (List.flatMap_singleton' _)
    exact hdotted (dot_mem_of_dotted_mem ht hdot)

end Searchlight.Text
