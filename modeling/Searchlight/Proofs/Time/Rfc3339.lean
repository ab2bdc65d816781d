import Searchlight.Time.Rfc3339
import Searchlight.Proofs.Json.RoundTrip
import Searchlight.Proofs.Text.Runs
import Searchlight.Proofs.Time.Calendar

/-!
# Timestamps are read back

Both readers go through a timestamp part by part (`readWith`), and differ in how they read the parts.
The lenient one reads every timestamp that is written, signed years and leap seconds among them, as
the instant that it was written for (`readLenient?_text`). The strict one does so for the years that
are written with four digits, and reads no others (`read?_text`).

A timestamp to the second tells the second that an instant is in, a leap second apart from the one
before it (`secondsText_eq_iff`).
-/

namespace Searchlight.Instant

/-- The year of the instant is written with four digits. -/
def HasShortYear (t : Instant) : Prop := 0 ≤ t.date.year ∧ t.date.year ≤ 9999

instance (t : Instant) : Decidable t.HasShortYear := inferInstanceAs (Decidable (_ ∧ _))

/-- The instant is in a leap second. -/
def IsLeap (t : Instant) : Prop := 1000000000 ≤ t.nanos

instance (t : Instant) : Decidable t.IsLeap := inferInstanceAs (Decidable (_ ≤ _))

/-- Two instants are in the same second, a leap second being one of its own. -/
def SameSecond (t u : Instant) : Prop := t.seconds = u.seconds ∧ (t.IsLeap ↔ u.IsLeap)

instance (t u : Instant) : Decidable (t.SameSecond u) := inferInstanceAs (Decidable (_ ∧ _))

def wholeSecond (t : Instant) : Instant where
  seconds := t.seconds
  nanos := t.nanos / 1000000000 * 1000000000
  inRange := by
    obtain ⟨hfirst, hlast, hnanos, hleap⟩ := t.inRange
    exact ⟨hfirst, hlast, by omega, by omega⟩

theorem wholeSecond_eq_iff {t u : Instant} : t.wholeSecond = u.wholeSecond ↔ t.SameSecond u := by
  have ht := t.inRange.2.2.1
  have hu := u.inRange.2.2.1
  rw [wholeSecond, wholeSecond, mk.injEq, SameSecond, IsLeap, IsLeap]
  refine and_congr_right fun _ => ?_
  omega

end Searchlight.Instant

namespace Searchlight.Rfc3339

open Json (NoDigit takeWhile_digits dropWhile_digits)

/-! ## Digits -/

theorem isDigit_padded {width n : Nat} {c : Char} (h : c ∈ padded width n) : c.isDigit = true := by
  rcases List.mem_append.1 h with h | h
  · rw [List.eq_of_mem_replicate h]
    decide
  · exact Nat.isDigit_of_mem_toDigits (by decide) (by decide) h

theorem length_padded {width n : Nat} (hwidth : 0 < width) (h : n < 10 ^ width) :
    (padded width n).length = width := by
  have hle := (Nat.length_toDigits_le_iff (by decide : 1 < 10) hwidth).2 h
  rw [padded, List.length_append, List.length_replicate]
  omega

theorem ofDigitChars_padded (width n : Nat) : Nat.ofDigitChars 10 (padded width n) 0 = n := by
  have hzeros (k : Nat) : Nat.ofDigitChars 10 (List.replicate k '0') 0 = 0 := by
    induction k with
    | zero => rfl
    | succ k ih => rw [List.replicate_succ, Nat.ofDigitChars_cons]; exact ih
  rw [padded, Nat.ofDigitChars_append, hzeros, Nat.ofDigitChars_toDigits (by decide) (by decide)]

theorem takeWhile_take_digits {most : Nat} {ds rest : List Char}
    (hd : ∀ c ∈ ds, c.isDigit = true) (hmost : ds.length ≤ most)
    (h : ds.length = most ∨ NoDigit rest) :
    ((ds ++ rest).take most).takeWhile Char.isDigit = ds := by
  rw [List.take_append, List.take_of_length_le hmost]
  refine takeWhile_digits hd ?_
  rcases h with h | h
  · rw [h, Nat.sub_self]
    simp [NoDigit]
  · intro c hc
    rw [List.head?_take] at hc
    split at hc
    · exact absurd hc (by simp)
    · exact h c hc

theorem number_digits {least most : Nat} {ds rest : List Char} (hd : ∀ c ∈ ds, c.isDigit = true)
    (hleast : least ≤ ds.length) (hmost : ds.length ≤ most) (h : ds.length = most ∨ NoDigit rest) :
    number least most (ds ++ rest) = some (Nat.ofDigitChars 10 ds 0, rest) := by
  simp only [number, takeWhile_take_digits hd hmost h, if_neg (Nat.not_lt.2 hleast), List.drop_left]

theorem number_padded {least width n : Nat} (hwidth : 0 < width) (hleast : least ≤ width)
    (h : n < 10 ^ width) (rest : List Char) :
    number least width (padded width n ++ rest) = some (n, rest) := by
  have hlength := length_padded hwidth h
  rw [number_digits (fun c => isDigit_padded) (by omega) (Nat.le_of_eq hlength) (.inl hlength),
    ofDigitChars_padded]

theorem skipBlanks_cons {c : Char} (h : Text.isWhiteSpace c = false) (cs : List Char) :
    skipBlanks (c :: cs) = c :: cs := by
  rw [skipBlanks, List.dropWhile_cons_of_neg (by simp [h])]

theorem exists_padded_eq_cons (width n : Nat) :
    ∃ c cs, padded width n = c :: cs ∧ c.isDigit = true := by
  have hne : padded width n ≠ [] := by simp [padded, Nat.toDigits_ne_nil]
  obtain ⟨c, cs, h⟩ := List.exists_cons_of_ne_nil hne
  exact ⟨c, cs, h, isDigit_padded (h ▸ List.mem_cons_self)⟩

theorem skipBlanks_padded (width n : Nat) (rest : List Char) :
    skipBlanks (padded width n ++ rest) = padded width n ++ rest := by
  obtain ⟨c, cs, h, hc⟩ := exists_padded_eq_cons width n
  rw [h]
  exact skipBlanks_cons (Text.isWhiteSpace_of_isDigit hc) _

/-! ## Parts -/

theorem lenientNumber_padded {n : Nat} (h : n < 100) (rest : List Char) :
    lenientNumber (padded 2 n ++ rest) = some (n, rest) := by
  rw [lenientNumber, skipBlanks_padded]
  exact number_padded (by decide) (by decide) h rest

theorem lenientChar_cons {c : Char} (h : Text.isWhiteSpace c = false) (cs : List Char) :
    lenientChar c (c :: cs) = some cs := by
  rw [lenientChar, skipBlanks_cons h, char, if_pos rfl]

theorem lenientYear_year (y : Int) (rest : List Char) :
    lenientYear (year y ++ '-' :: rest) = some (y, '-' :: rest) := by
  have hend : NoDigit ('-' :: rest) := by simp [NoDigit]
  rw [year]
  by_cases hshort : 0 ≤ y ∧ y ≤ 9999
  · rw [if_pos hshort, lenientYear, skipBlanks_padded]
    have hread : number 1 4 (padded 4 y.toNat ++ '-' :: rest) = some (y.toNat, '-' :: rest) :=
      number_padded (by decide) (by decide) (by omega) ('-' :: rest)
    obtain ⟨c, cs, h, hc⟩ := exists_padded_eq_cons 4 y.toNat
    rw [h] at hread ⊢
    -- A digit is no sign.
    split
    · rename_i heq
      cases heq
      exact absurd hc (by decide)
    · rename_i heq
      cases heq
      exact absurd hc (by decide)
    · rw [hread]
      simp [Int.toNat_of_nonneg hshort.1]
  · have hread : number 1 (padded 4 y.natAbs ++ '-' :: rest).length (padded 4 y.natAbs ++ '-' :: rest) =
        some (y.natAbs, '-' :: rest) := by
      rw [number_digits (fun c => isDigit_padded) ?_ (by simp) (.inr hend), ofDigitChars_padded]
      obtain ⟨c, cs, h, -⟩ := exists_padded_eq_cons 4 y.natAbs
      simp [h]
    rw [if_neg hshort]
    by_cases hneg : y < 0
    · rw [if_pos hneg, List.cons_append, lenientYear, skipBlanks_cons (by decide)]
      simp only [hread, Option.map_some]
      rw [show -(y.natAbs : Int) = y by omega]
    · rw [if_neg hneg, List.cons_append, lenientYear, skipBlanks_cons (by decide)]
      simp only [hread, Option.map_some]
      rw [show (y.natAbs : Int) = y by omega]

/-- So many digits of a second, the rest being zeros. -/
theorem partOfSecond_padded {width n : Nat} (hwidth : 0 < width) (hmost : width ≤ 9)
    (hn : n < 10 ^ width) :
    partOfSecond ('.' :: padded width n ++ ['Z']) = some (n * Nat.pow 10 (9 - width), ['Z']) := by
  have hz : NoDigit ['Z'] := by simp [NoDigit]
  have hdigits : ∀ c ∈ padded width n, c.isDigit = true := fun c => isDigit_padded
  have hlength := length_padded hwidth hn
  have htaken := takeWhile_take_digits hdigits (by omega : (padded width n).length ≤ 9) (.inr hz)
  have hne : ¬ (padded width n).isEmpty = true := by
    rw [List.isEmpty_iff_length_eq_zero]
    omega
  simp only [List.cons_append, partOfSecond, htaken, dropWhile_digits hdigits hz, if_neg hne,
    ofDigitChars_padded, hlength]

theorem partOfSecond_fraction {nanos : Nat} (h : nanos < 1000000000) :
    partOfSecond (fraction nanos ++ ['Z']) = some (nanos, ['Z']) := by
  rw [fraction]
  split
  · rename_i hzero
    rw [hzero]
    rfl
  split
  · rw [partOfSecond_padded (by decide) (by decide) (by omega)]
    simp only [Nat.pow_eq, Option.some.injEq, Prod.mk.injEq, and_true]
    omega
  split
  · rw [partOfSecond_padded (by decide) (by decide) (by omega)]
    simp only [Nat.pow_eq, Option.some.injEq, Prod.mk.injEq, and_true]
    omega
  · rw [partOfSecond_padded (by decide) (by decide) (by omega)]
    simp

theorem lenientOffset_utc : lenientOffset (skipBlanks ['Z']) = some (0, []) := by decide +kernel

/-! ## Timestamps -/

theorem separator_T (cs : List Char) : separator ('T' :: cs) = some cs := rfl

theorem of?_parts (t : Instant) : Instant.of? t.seconds t.nanos = some t := by
  rw [Instant.of?, dif_pos t.inRange]

theorem secondOfDay_lt (t : Instant) : t.secondOfDay < 86400 := by
  simp only [Instant.secondOfDay]
  omega

/-- The parts that are written are those of the instant, second 60 being a leap second. -/
theorem assemble_parts (t : Instant) :
    assemble t.date (t.secondOfDay / 3600) (t.secondOfDay / 60 % 60)
      (t.secondOfDay % 60 + t.nanos / 1000000000) (t.nanos % 1000000000) 0 = some t := by
  have hday := secondOfDay_lt t
  obtain ⟨-, -, hnanos, hleap⟩ := t.inRange
  have hsecond : t.secondOfDay % 60 + t.nanos / 1000000000 ≤ 60 := by omega
  rw [assemble, if_pos ⟨Date.valid_ofDays _, by omega, by omega, hsecond⟩]
  have hwall : t.date.toDays * 86400 + (((t.secondOfDay / 3600 : Nat) : Int) * 3600 +
      ((t.secondOfDay / 60 % 60 : Nat) : Int) * 60 +
        ((min (t.secondOfDay % 60 + t.nanos / 1000000000) 59 : Nat) : Int)) = t.seconds := by
    rw [Instant.date, Date.toDays_ofDays]
    simp only [Instant.secondOfDay] at *
    omega
  have hpart : (if t.secondOfDay % 60 + t.nanos / 1000000000 = 60 then
      t.nanos % 1000000000 + 1000000000 else t.nanos % 1000000000) = t.nanos := by
    have hsixty : t.nanos < 1000000000 ∨ t.secondOfDay % 60 = 59 := by
      simp only [Instant.secondOfDay]
      omega
    by_cases hleap' : t.secondOfDay % 60 + t.nanos / 1000000000 = 60
    · rw [if_pos hleap']
      omega
    · rw [if_neg hleap']
      omega
  simp only [hwall, hpart, of?_parts, Option.bind_eq_bind, Option.bind_some, Int.sub_zero]

def readWith (year : List Char → Option (Int × List Char))
    (number : List Char → Option (Nat × List Char)) (char : Char → List Char → Option (List Char))
    (zone : List Char → Option (Int × List Char)) (skip : List Char → List Char) (cs : List Char) :
    Option Instant := do
  let (year, cs) ← year cs
  let (month, cs) ← number (← char '-' cs)
  let (day, cs) ← number (← char '-' cs)
  let (hour, cs) ← number (← separator cs)
  let (minute, cs) ← number (← char ':' cs)
  let (second, cs) ← number (← char ':' cs)
  let (nanos, cs) ← partOfSecond cs
  let (off, cs) ← zone cs
  if (skip cs).isEmpty then assemble ⟨year, month, day⟩ hour minute second nanos off else none

/-- **What is written is read back** by a reader that reads back every part of it. -/
theorem readWith_writeWith {year : List Char → Option (Int × List Char)}
    {number : List Char → Option (Nat × List Char)} {char : Char → List Char → Option (List Char)}
    {zone : List Char → Option (Int × List Char)} {skip : List Char → List Char} (t : Instant)
    (hyear : ∀ rest, year (Rfc3339.year t.date.year ++ '-' :: rest) = some (t.date.year, '-' :: rest))
    (hnumber : ∀ n < 100, ∀ rest, number (padded 2 n ++ rest) = some (n, rest))
    (hdash : ∀ rest, char '-' ('-' :: rest) = some rest)
    (hcolon : ∀ rest, char ':' (':' :: rest) = some rest) (hzone : zone ['Z'] = some (0, []))
    (hskip : skip [] = []) :
    readWith year number char zone skip (writeWith fraction t) = some t := by
  have hday := secondOfDay_lt t
  have hvalid : t.date.Valid := Date.valid_ofDays _
  obtain ⟨hmonth, hdate⟩ := Date.Valid.two_digits hvalid
  obtain ⟨-, -, hnanos, -⟩ := t.inRange
  rw [writeWith, readWith]
  simp only [List.append_assoc, List.cons_append]
  rw [hyear]
  have hpart := partOfSecond_fraction (Nat.mod_lt t.nanos (by decide : 0 < 1000000000))
  have hhour := hnumber (t.secondOfDay / 3600) (by omega)
  have hminute := hnumber (t.secondOfDay / 60 % 60) (by omega)
  have hsecond := hnumber (t.secondOfDay % 60 + t.nanos / 1000000000) (by omega)
  -- Part by part, since the readers of what follows stand under the binders of what comes before.
  dsimp only [Option.bind_eq_bind]
  rw [Option.bind_some]
  dsimp only
  rw [hdash, Option.bind_some, hnumber _ hmonth, Option.bind_some]
  dsimp only
  rw [hdash, Option.bind_some, hnumber _ hdate, Option.bind_some]
  dsimp only
  rw [separator_T, Option.bind_some, hhour, Option.bind_some]
  dsimp only
  rw [hcolon, Option.bind_some, hminute, Option.bind_some]
  dsimp only
  rw [hcolon, Option.bind_some, hsecond, Option.bind_some]
  dsimp only
  rw [hpart, Option.bind_some]
  dsimp only
  rw [hzone, Option.bind_some]
  dsimp only
  rw [hskip]
  exact assemble_parts t

/-! ## The two readers -/

theorem readLenientChars_eq_readWith (cs : List Char) :
    readLenientChars cs = readWith lenientYear lenientNumber lenientChar
      (fun cs => lenientOffset (skipBlanks cs)) skipBlanks cs :=
  rfl

/-- **A written timestamp is read as the instant that it was written for.** -/
theorem readLenient?_text (t : Instant) : readLenient? (text t) = some t := by
  have hdash : Text.isWhiteSpace '-' = false := by decide +kernel
  have hcolon : Text.isWhiteSpace ':' = false := by decide +kernel
  rw [readLenient?, text, String.toList_ofList, readLenientChars_eq_readWith]
  exact readWith_writeWith t (lenientYear_year _) (fun _ h => lenientNumber_padded h)
    (lenientChar_cons hdash) (lenientChar_cons hcolon) lenientOffset_utc rfl

def strictYear (cs : List Char) : Option (Int × List Char) :=
  (number 4 4 cs).map (Prod.map Int.ofNat id)

theorem readChars_eq_readWith (cs : List Char) :
    readChars cs = readWith strictYear (number 2 2) char (offset (char ':')) id cs := by
  rw [readChars, readWith, strictYear]
  cases number 4 4 cs <;> rfl

theorem strictYear_year {y : Int} (h : 0 ≤ y ∧ y ≤ 9999) (rest : List Char) :
    strictYear (year y ++ rest) = some (y, rest) := by
  have hread : number 4 4 (padded 4 y.toNat ++ rest) = some (y.toNat, rest) :=
    number_padded (by decide) (by decide) (by omega) rest
  rw [year, if_pos h, strictYear, hread, Option.map_some, Prod.map_apply, Int.ofNat_eq_natCast,
    Int.toNat_of_nonneg h.1, id]

theorem strictYear_signed {y : Int} (h : ¬ (0 ≤ y ∧ y ≤ 9999)) (rest : List Char) :
    strictYear (year y ++ rest) = none := by
  rw [year, if_neg h, strictYear]
  by_cases hneg : y < 0
  · rw [if_pos hneg]
    rfl
  · rw [if_neg hneg]
    rfl

/-- **The strict reader reads the years from 0 to 9999**, and no others. -/
theorem read?_text (t : Instant) : read? (text t) = if t.HasShortYear then some t else none := by
  rw [read?, text, String.toList_ofList, readChars_eq_readWith]
  split
  · rename_i hyear
    exact readWith_writeWith t (fun rest => strictYear_year hyear _)
      (fun n hn => number_padded (by decide) (by decide) hn) (fun _ => rfl) (fun _ => rfl) rfl rfl
  · rename_i hyear
    rw [readWith, writeWith]
    simp only [List.append_assoc, List.cons_append, strictYear_signed hyear]
    rfl

/-! ## Seconds -/

theorem secondsText_eq_text (t : Instant) : secondsText t = text t.wholeSecond := by
  have hwhole : t.wholeSecond.nanos / 1000000000 = t.nanos / 1000000000 := by
    rw [Instant.wholeSecond, Nat.mul_div_cancel _ (by decide)]
  have hpart : t.wholeSecond.nanos % 1000000000 = 0 := Nat.mul_mod_left _ _
  rw [secondsText, text, writeWith, writeWith, hwhole, hpart]
  rfl

/-- **A timestamp to the second tells the second** that an instant is in. -/
theorem secondsText_eq_iff {t u : Instant} : secondsText t = secondsText u ↔ t.SameSecond u := by
  rw [secondsText_eq_text, secondsText_eq_text, ← Instant.wholeSecond_eq_iff]
  refine ⟨fun h => ?_, congrArg text⟩
  have hread := readLenient?_text t.wholeSecond
  rw [h, readLenient?_text] at hread
  exact (Option.some.inj hread).symm

end Searchlight.Rfc3339
