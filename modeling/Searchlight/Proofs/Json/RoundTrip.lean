import Searchlight.Json.Reader
import Searchlight.Json.Writer

/-!
# Reading what was written

What is written of a value is read as that value again (`read?_write`), if its texts are texts and
its numbers are spelled as the grammar has them (`Readable`). The reader goes on after a value, so
this is shown for a value with more text behind it, and with as much fuel as the text is long.
-/

namespace Searchlight.Json

/-! ## Texts -/

theorem hexValue?_hexDigit : ∀ n < 16, hexValue? (hexDigit n) = some n := by decide

theorem readPieces_escape {p : Piece} {e cs : List Char} (he : readEscape e = some (p, cs))
    (fuel : Nat) :
    readPieces (fuel + 1) ('\\' :: e) = (readPieces fuel cs).map fun r => (p :: r.1, r.2) := by
  rw [readPieces, if_neg (by decide), if_pos rfl, he]
  cases hrest : readPieces fuel cs <;> simp [hrest]

/-- A written character is read as one piece. -/
theorem readPieces_escapeChar (c : Char) (fuel : Nat) (cs : List Char) :
    readPieces (fuel + 1) (escapeChar c ++ cs) =
      (readPieces fuel cs).map fun r => (.char c :: r.1, r.2) := by
  rw [escapeChar]
  by_cases hquote : c = '"'
  · subst hquote
    exact readPieces_escape rfl fuel
  by_cases hslash : c = '\\'
  · subst hslash
    exact readPieces_escape rfl fuel
  by_cases hb : c = '\x08'
  · subst hb
    exact readPieces_escape rfl fuel
  by_cases hf : c = '\x0c'
  · subst hf
    exact readPieces_escape rfl fuel
  by_cases hn : c = '\n'
  · subst hn
    exact readPieces_escape rfl fuel
  by_cases hr : c = '\r'
  · subst hr
    exact readPieces_escape rfl fuel
  by_cases ht : c = '\t'
  · subst ht
    exact readPieces_escape rfl fuel
  simp only [if_neg hquote, if_neg hslash, if_neg hb, if_neg hf, if_neg hn, if_neg hr, if_neg ht]
  by_cases hcontrol : c.toNat < 0x20
  · rw [if_pos hcontrol]
    refine readPieces_escape ?_ fuel
    have hhigh := hexValue?_hexDigit (c.toNat / 16) (by omega)
    have hlow := hexValue?_hexDigit (c.toNat % 16) (by omega)
    have hunit : c.toNat / 16 * 16 + c.toNat % 16 = c.toNat := by omega
    have hpiece : Piece.ofUnit c.toNat = .char c := by
      rw [Piece.ofUnit, if_neg (by omega), Char.ofNat_toNat]
    have hzero : hexValue? '0' = some 0 := by decide
    simp [readEscape, hzero, hhigh, hlow, hunit, hpiece]
  · rw [if_neg hcontrol]
    cases hrest : readPieces fuel cs <;>
      simp [readPieces, hquote, hslash, hcontrol, hrest]

theorem readPieces_written (cs rest : List Char) {fuel : Nat} (h : cs.length < fuel) :
    readPieces fuel (cs.flatMap escapeChar ++ '"' :: rest) = some (cs.map .char, rest) := by
  induction cs generalizing fuel with
  | nil =>
    obtain ⟨fuel, rfl⟩ := Nat.exists_eq_succ_of_ne_zero (Nat.ne_of_gt h)
    simp [readPieces]
  | cons c cs ih =>
    obtain ⟨fuel, rfl⟩ := Nat.exists_eq_succ_of_ne_zero (Nat.ne_zero_of_lt h)
    rw [List.flatMap_cons, List.append_assoc, readPieces_escapeChar,
      ih (Nat.lt_of_succ_lt_succ h)]
    rfl

theorem joinPieces_chars (cs : List Char) : joinPieces (cs.map .char) = some cs := by
  induction cs with
  | nil => rfl
  | cons c cs ih => simp [joinPieces, ih]

theorem escapeChar_ne_nil (c : Char) : escapeChar c ≠ [] := by
  grind [escapeChar]

theorem length_le_length_escaped (cs : List Char) : cs.length ≤ (cs.flatMap escapeChar).length := by
  induction cs with
  | nil => simp
  | cons c cs ih =>
    have hc : 0 < (escapeChar c).length := List.length_pos_iff.2 (escapeChar_ne_nil c)
    rw [List.flatMap_cons, List.length_append, List.length_cons]
    omega

theorem readText_written (s : String) (rest : List Char) :
    readText (s.toList.flatMap escapeChar ++ '"' :: rest) = some (some s, rest) := by
  have hfuel : s.toList.length < (s.toList.flatMap escapeChar ++ '"' :: rest).length + 1 := by
    have := length_le_length_escaped s.toList
    rw [List.length_append]
    omega
  rw [readText, readPieces_written _ rest hfuel]
  simp [joinPieces_chars]

/-! ## Numbers -/

/-- A number as the grammar has it: no zero in front of other digits. -/
structure Number.Readable (n : Number) : Prop where
  whole : n.whole ≠ []
  digits : ∀ c ∈ n.whole, c.isDigit = true
  zero : n.whole.head? = some '0' → n.whole.length = 1
  places : ∀ c ∈ n.part, c.isDigit = true

theorem head?_toDigits {n : Nat} (hn : n ≠ 0) : (Nat.toDigits 10 n).head? ≠ some '0' := by
  have hdigit : ∀ d < 10, d ≠ 0 → Nat.digitChar d ≠ '0' := by decide
  induction n using Nat.strongRecOn with
  | _ n ih =>
    rw [Nat.toDigits_eq_if (by decide)]
    by_cases hlt : n < 10
    · simpa [if_pos hlt] using hdigit n hlt hn
    · have hhead := ih (n / 10) (by omega) (by omega)
      obtain ⟨d, ds, hd⟩ := List.exists_cons_of_ne_nil (@Nat.toDigits_ne_nil (n / 10) 10)
      rw [hd] at hhead
      simpa [if_neg hlt, hd] using hhead

theorem Number.readable_ofNat (n : Nat) : (Number.ofNat n).Readable where
  whole := Nat.toDigits_ne_nil
  digits _ hc := Nat.isDigit_of_mem_toDigits (by decide) (by decide) hc
  zero h := by
    by_cases hn : n = 0
    · subst hn
      rfl
    · exact absurd h (head?_toDigits hn)
  places _ hc := absurd hc List.not_mem_nil

def NoDigit (cs : List Char) : Prop := ∀ c ∈ cs.head?, c.isDigit = false

theorem takeWhile_digits {ds cs : List Char} (hd : ∀ c ∈ ds, c.isDigit = true) (hc : NoDigit cs) :
    (ds ++ cs).takeWhile Char.isDigit = ds := by
  rw [List.takeWhile_append_of_pos hd]
  cases cs with
  | nil => simp
  | cons c cs => simp [hc c rfl]

theorem dropWhile_digits {ds cs : List Char} (hd : ∀ c ∈ ds, c.isDigit = true) (hc : NoDigit cs) :
    (ds ++ cs).dropWhile Char.isDigit = cs := by
  rw [List.dropWhile_append_of_pos hd]
  cases cs with
  | nil => simp
  | cons c cs => simp [hc c rfl]

def Ends (cs : List Char) : Prop := ∀ c ∈ cs.head?, c = ',' ∨ c = ']' ∨ c = '\x7d'

theorem ends_nil : Ends [] := by simp [Ends]

theorem Ends.noDigit {cs : List Char} (h : Ends cs) : NoDigit cs := fun c hc => by
  rcases h c hc with rfl | rfl | rfl <;> decide

theorem readExponent_written (e : Int) {rest : List Char} (h : NoDigit rest) :
    readExponent ((if e < 0 then '-' else '+') :: (Nat.toDigits 10 e.natAbs ++ rest)) =
      some (e, rest) := by
  have hdigits : ∀ c ∈ Nat.toDigits 10 e.natAbs, c.isDigit = true := fun c hc =>
    Nat.isDigit_of_mem_toDigits (by decide) (by decide) hc
  have hvalue : Nat.ofDigitChars 10 (Nat.toDigits 10 e.natAbs) 0 = e.natAbs :=
    Nat.ofDigitChars_toDigits (by decide) (by decide)
  have hsome : ¬(Nat.toDigits 10 e.natAbs).isEmpty = true := by simp [Nat.toDigits_ne_nil]
  by_cases he : e < 0
  · have hsign : -(e.natAbs : Int) = e := by omega
    simp only [he, if_true, readExponent, takeWhile_digits hdigits h, dropWhile_digits hdigits h,
      if_neg hsome, hvalue, hsign]
  · have hsign : (e.natAbs : Int) = e := by omega
    simp only [he, if_false, readExponent, takeWhile_digits hdigits h, dropWhile_digits hdigits h,
      if_neg hsome, hvalue, hsign, Bool.false_eq_true]

def writeExponent? : Option Int → List Char
  | some e => writeExponent e
  | none => []

theorem noDigit_exponent (e : Option Int) {rest : List Char} (h : Ends rest) :
    NoDigit (writeExponent? e ++ rest) := by
  cases e with
  | none => exact h.noDigit
  | some e => simp [NoDigit, writeExponent?, writeExponent]

theorem readMagnitude_written {n : Number} (h : n.Readable) {rest : List Char} (hrest : Ends rest) :
    readMagnitude n.negative (n.whole ++ (if n.part.isEmpty then [] else '.' :: n.part) ++
      writeExponent? n.exponent ++ rest) = some (n, rest) := by
  obtain ⟨negative, whole, part, exponent⟩ := n
  obtain ⟨hne, hwhole, hzero, hpart⟩ := h
  dsimp only at hne hwhole hzero hpart ⊢
  have hexponent := noDigit_exponent exponent hrest
  have hno : (whole.isEmpty || (decide (whole.length > 1) && whole.head? == some '0')) = false := by
    by_cases hhead : whole.head? = some '0'
    · simp [hne, hzero hhead]
    · simp [hne, hhead]
  have hend (c : Char) (hc : c ∈ rest.head?) : ¬(c = 'e' ∨ c = 'E') := by
    rcases hrest c hc with rfl | rfl | rfl <;> decide
  have htail : NoDigit
        ((if part.isEmpty then [] else '.' :: part) ++ (writeExponent? exponent ++ rest)) := by
    cases part with
    | nil => exact hexponent
    | cons c part => simp [NoDigit]
  rw [List.append_assoc, List.append_assoc, readMagnitude]
  simp only [takeWhile_digits hwhole htail, dropWhile_digits hwhole htail, hno]
  have hplaces := takeWhile_digits hpart hexponent
  have hbehind := dropWhile_digits hpart hexponent
  cases part with
  | nil =>
    cases exponent with
    | some e => simp [writeExponent?, writeExponent, readExponent_written e hrest.noDigit]
    | none =>
      cases rest with
      | nil => rfl
      | cons c rest => rcases hrest c rfl with rfl | rfl | rfl <;> rfl
  | cons c part =>
    rw [List.cons_append] at hplaces hbehind
    simp only [List.isEmpty_cons, Bool.false_eq_true, if_false, List.cons_append, hplaces, hbehind]
    cases exponent with
    | some e => simp [writeExponent?, writeExponent, readExponent_written e hrest.noDigit]
    | none =>
      cases rest with
      | nil => rfl
      | cons c rest => simp [writeExponent?, hend c rfl]

/-! ## Values -/

inductive Readable : Json → Prop where
  | null : Readable null
  | bool (b : Bool) : Readable (bool b)
  | number {n : Number} (h : n.Readable) : Readable (number n)
  | string (s : String) : Readable (ofString s)
  | array {items : List Json} (h : ∀ j ∈ items, Readable j) : Readable (array items)
  | record {members : List (String × Json)} (h : ∀ m ∈ members, Readable m.2) :
    Readable (record members)

theorem writeChars_null : writeChars null = ['n', 'u', 'l', 'l'] := rfl

theorem writeChars_true : writeChars (bool true) = ['t', 'r', 'u', 'e'] := rfl

theorem writeChars_false : writeChars (bool false) = ['f', 'a', 'l', 's', 'e'] := rfl

theorem writeChars_string (s : String) : writeChars (ofString s) = writeText (some s) := rfl

theorem writeChars_array (items : List Json) :
    writeChars (array items) = '[' :: (separated (writeItems items) ++ [']']) := rfl

theorem writeChars_record (members : List (String × Json)) :
    writeChars (record members) =
      '\x7b' :: (separated (writeMembers (members.map fun m => (some m.1, m.2))) ++ ['\x7d']) := rfl

theorem writeChars_number (n : Number) :
    writeChars (.number n) = (if n.negative then ['-'] else []) ++
      (n.whole ++ (if n.part.isEmpty then [] else '.' :: n.part) ++ writeExponent? n.exponent) := by
  change writeNumber n = _
  rw [writeNumber, writeExponent?.eq_def]
  cases n.exponent <;> simp

theorem writeText_append (s : String) (rest : List Char) :
    writeText (some s) ++ rest = '"' :: (s.toList.flatMap escapeChar ++ '"' :: rest) := by
  simp [writeText, writeString]

/-- No value begins with a blank or with what ends another one. -/
theorem Readable.begins {j : Json} (h : Readable j) :
    ∃ c cs, writeChars j = c :: cs ∧ isBlank c = false ∧ c ≠ ']' := by
  cases h with
  | null => exact ⟨'n', _, rfl, by decide, by decide⟩
  | bool b => cases b <;> exact ⟨_, _, rfl, by decide, by decide⟩
  | @number n h =>
    rw [writeChars_number]
    cases n.negative with
    | true => exact ⟨'-', _, rfl, by decide, by decide⟩
    | false =>
      obtain ⟨c, cs, hc⟩ := List.exists_cons_of_ne_nil h.whole
      have hdigit := h.digits c (hc ▸ List.mem_cons_self)
      refine ⟨c, _, by rw [hc]; rfl, ?_, fun hend => ?_⟩
      · rw [Bool.eq_false_iff]
        intro hblank
        simp only [isBlank, Bool.or_eq_true, beq_iff_eq] at hblank
        rcases hblank with ((rfl | rfl) | rfl) | rfl <;> exact absurd hdigit (by decide)
      · subst hend
        exact absurd hdigit (by decide)
  | string s => exact ⟨'"', _, rfl, by decide, by decide⟩
  | @array items _ => exact ⟨'[', _, writeChars_array items, by decide, by decide⟩
  | @record members _ => exact ⟨'\x7b', _, writeChars_record members, by decide, by decide⟩

def IsRead (j : Json) : Prop :=
  ∀ fuel rest, 2 * (writeChars j).length ≤ fuel → Ends rest →
    readValue fuel (writeChars j ++ rest) = some (j, rest)

theorem readItems_written {items : List Json} (hne : items ≠ []) (h : ∀ j ∈ items, IsRead j)
    (rest : List Char) (fuel : Nat)
    (hfuel : 2 * (separated (writeItems items)).length + 1 ≤ fuel) :
    readItems fuel (separated (writeItems items) ++ ']' :: rest) = some (items, rest) := by
  induction items generalizing fuel with
  | nil => exact absurd rfl hne
  | cons j items ih =>
    obtain ⟨fuel, rfl⟩ := Nat.exists_eq_add_of_le' (Nat.le_of_add_left_le hfuel)
    have hj := h j List.mem_cons_self
    cases items with
    | nil =>
      have hread := hj fuel (']' :: rest) (by simpa [writeItems, separated] using hfuel)
        (by simp [Ends])
      simp [readItems, writeItems, separated, hread, skipBlanks, isBlank]
    | cons j' items =>
      simp only [writeItems, separated, List.length_append, List.length_cons] at hfuel
      have hread := hj fuel (',' :: (separated (writeItems (j' :: items)) ++ ']' :: rest))
        (by omega) (by simp [Ends])
      have hrest := ih (by simp) (fun j hj => h j (List.mem_cons_of_mem _ hj)) fuel
        (by simp only [writeItems]; omega)
      simp only [writeItems] at hread hrest
      simp [readItems, writeItems, separated, hread, hrest, skipBlanks, isBlank]

theorem readMembers_written {members : List (String × Json)} (hne : members ≠ [])
    (h : ∀ m ∈ members, IsRead m.2) (rest : List Char) (fuel : Nat)
    (hfuel : 2 * (separated (writeMembers (members.map fun m => (some m.1, m.2)))).length + 1 ≤
      fuel) :
    readMembers fuel
        (separated (writeMembers (members.map fun m => (some m.1, m.2))) ++ '\x7d' :: rest) =
      some (members.map fun m => (some m.1, m.2), rest) := by
  induction members generalizing fuel with
  | nil => exact absurd rfl hne
  | cons m members ih =>
    obtain ⟨k, j⟩ := m
    obtain ⟨fuel, rfl⟩ := Nat.exists_eq_add_of_le' (Nat.le_of_add_left_le hfuel)
    have hj : IsRead j := h (k, j) List.mem_cons_self
    cases members with
    | nil =>
      simp only [List.map_cons, List.map_nil, writeMembers, separated, List.length_append,
        List.length_cons] at hfuel
      have hread := hj fuel ('\x7d' :: rest) (by omega) (by simp [Ends])
      simp [readMembers, writeMembers, separated, writeText_append, readText_written, hread,
        skipBlanks, isBlank]
    | cons m' members =>
      have htail := ih (by simp) (fun m hm => h m (List.mem_cons_of_mem _ hm)) fuel
      have hsplit : separated (writeMembers (((k, j) :: m' :: members).map fun m => (some m.1, m.2))) =
          (writeText (some k) ++ ':' :: writeChars j) ++
            ',' :: separated (writeMembers ((m' :: members).map fun m => (some m.1, m.2))) := by
        simp only [List.map_cons, writeMembers, separated]
      rw [hsplit] at hfuel ⊢
      generalize separated (writeMembers ((m' :: members).map fun m => (some m.1, m.2))) = tail
        at hfuel htail ⊢
      simp only [List.length_append, List.length_cons] at hfuel
      have hread := hj fuel (',' :: (tail ++ '\x7d' :: rest)) (by omega) (by simp [Ends])
      simp [readMembers, writeText_append, readText_written, hread, htail (by omega), skipBlanks,
        isBlank]

theorem skipBlanks_cons {c : Char} (h : isBlank c = false) (cs : List Char) :
    skipBlanks (c :: cs) = c :: cs := by
  rw [skipBlanks, List.dropWhile_cons_of_neg (by simp [h])]

theorem readValue_digit {c : Char} (hc : c.isDigit = true) (fuel : Nat) (cs : List Char) :
    readValue (fuel + 1) (c :: cs) =
      (readMagnitude false (c :: cs)).map fun r => (.number r.1, r.2) := by
  have hblank : isBlank c = false := by
    rw [Bool.eq_false_iff]
    intro h
    simp only [isBlank, Bool.or_eq_true, beq_iff_eq] at h
    rcases h with ((rfl | rfl) | rfl) | rfl <;> exact absurd hc (by decide)
  rw [readValue, skipBlanks_cons hblank]
  -- No other value begins with a digit.
  split
  all_goals try
    rename_i h
    cases h <;> exact absurd hc (by decide)
  cases readMagnitude false (c :: cs) <;> rfl

/-- **A written value is read again**, and what ends it is left. -/
theorem Readable.isRead {j : Json} (h : Readable j) : IsRead j := by
  induction h with
  | null =>
    intro fuel rest hfuel _
    obtain ⟨fuel, rfl⟩ := Nat.exists_eq_add_of_le' (Nat.le_trans (by decide : 1 ≤ 8) hfuel)
    simp [readValue, writeChars_null, skipBlanks, isBlank, dropText]
  | bool b =>
    intro fuel rest hfuel _
    cases b with
    | true =>
      obtain ⟨fuel, rfl⟩ := Nat.exists_eq_add_of_le' (Nat.le_trans (by decide : 1 ≤ 8) hfuel)
      simp [readValue, writeChars_true, skipBlanks, isBlank, dropText]
    | false =>
      obtain ⟨fuel, rfl⟩ := Nat.exists_eq_add_of_le' (Nat.le_trans (by decide : 1 ≤ 10) hfuel)
      simp [readValue, writeChars_false, skipBlanks, isBlank, dropText]
  | @number n h =>
    intro fuel rest hfuel hrest
    have hread := readMagnitude_written h hrest
    rw [writeChars_number] at hfuel ⊢
    obtain ⟨c, cs, hc⟩ := List.exists_cons_of_ne_nil h.whole
    have hdigit := h.digits c (hc ▸ List.mem_cons_self)
    obtain ⟨fuel, rfl⟩ := Nat.exists_eq_add_of_le' (Nat.le_trans
      (by simp only [hc, List.length_append, List.length_cons]; omega : 1 ≤ _) hfuel)
    cases hn : n.negative with
    | true =>
      rw [hn] at hread
      rw [if_pos rfl, List.append_assoc, List.singleton_append]
      generalize n.whole ++ (if n.part.isEmpty = true then [] else '.' :: n.part) ++
        writeExponent? n.exponent ++ rest = cs at hread ⊢
      simp [readValue, skipBlanks, isBlank, hread]
    | false =>
      rw [hn] at hread
      rw [if_neg Bool.false_ne_true, List.nil_append]
      rw [hc] at hread ⊢
      simp only [List.cons_append] at hread ⊢
      rw [readValue_digit hdigit, hread]
      rfl
  | string s =>
    intro fuel rest hfuel _
    rw [writeChars_string, writeText_append]
    rw [writeChars_string, writeText, writeString, List.length_cons] at hfuel
    obtain ⟨fuel, rfl⟩ := Nat.exists_eq_add_of_le' (Nat.le_trans (by omega : 1 ≤ _) hfuel)
    simp [readValue, skipBlanks, isBlank, readText_written, ofString]
  | @array items h ih =>
    intro fuel rest hfuel _
    rw [writeChars_array] at hfuel ⊢
    rw [List.length_cons, List.length_append] at hfuel
    obtain ⟨fuel, rfl⟩ := Nat.exists_eq_add_of_le' (Nat.le_trans (by omega : 1 ≤ _) hfuel)
    cases items with
    | nil => simp [readValue, skipBlanks, isBlank, writeItems, separated]
    | cons j items =>
      have hread := readItems_written (by simp) ih rest fuel (by simp at hfuel; omega)
      obtain ⟨c, cs, hc, hblank, hend⟩ := (h j List.mem_cons_self).begins
      have hbegins : ∃ cs, separated (writeItems (j :: items)) = c :: cs := by
        cases items <;> simp [writeItems, separated, hc]
      obtain ⟨cs, hcs⟩ := hbegins
      rw [hcs] at hread ⊢
      simp only [List.cons_append, List.append_assoc, List.nil_append] at hread ⊢
      rw [readValue, skipBlanks_cons (by decide)]
      simp only [skipBlanks_cons hblank]
      simp [hend, hread]
  | @record members h ih =>
    intro fuel rest hfuel _
    rw [writeChars_record] at hfuel ⊢
    rw [List.length_cons, List.length_append] at hfuel
    obtain ⟨fuel, rfl⟩ := Nat.exists_eq_add_of_le' (Nat.le_trans (by omega : 1 ≤ _) hfuel)
    cases members with
    | nil => simp [readValue, skipBlanks, isBlank, writeMembers, separated, Json.record]
    | cons m members =>
      have hread := readMembers_written (by simp) ih rest fuel (by simp at hfuel ⊢; omega)
      have hbegins : ∃ cs, separated
          (writeMembers ((m :: members).map fun m => (some m.1, m.2))) = '"' :: cs := by
        cases members <;> simp [writeMembers, separated, writeText, writeString]
      obtain ⟨cs, hcs⟩ := hbegins
      rw [hcs] at hread ⊢
      simp only [List.cons_append, List.append_assoc, List.nil_append] at hread ⊢
      rw [readValue, skipBlanks_cons (by decide)]
      simp only [skipBlanks_cons (by decide : isBlank '"' = false)]
      simp [hread, Json.record]

theorem read?_write {j : Json} (h : Readable j) : read? j.write = some j := by
  have hread := h.isRead (2 * (writeChars j).length + 2) [] (by omega) ends_nil
  rw [List.append_nil] at hread
  rw [read?, write, String.toList_ofList, readChars, hread]
  rfl

end Searchlight.Json
