import Mathlib.Data.Nat.Notation
import Searchlight.Text.Quoted

/-!
# Telling quoted texts

A value is told by what is written for it if it can be read off the front of any text that begins
with that, whatever follows: then what is written for a pair, a list or a tree of such values tells
those too. Every character is told when it is quoted (`told_quoteChar`), and no quoted character
begins with a quote, so every text is told from between its quotes (`told_quote`), and so is a
bracketed list of values that are told and do not begin with a bracket (`told_bracketed`).
-/

namespace Searchlight.Text

/-- Of all values, only this one is written so that a text can begin with it, and it is clear where
it ends. -/
def Told {α : Type} (write : α → List Char) (x : α) : Prop :=
  ∀ y r s, write x ++ r = write y ++ s → x = y ∧ r = s

/-- Something is written, and the mark does not begin it. -/
def Opens (mark : Char) (cs : List Char) : Prop := ∃ c rest, cs = c :: rest ∧ c ≠ mark

theorem Opens.ne_append {mark : Char} {cs : List Char} (h : Opens mark cs) (r s : List Char) :
    mark :: r ≠ cs ++ s := by
  obtain ⟨c, rest, rfl, hne⟩ := h
  exact fun heq => hne (List.cons.inj heq).1.symm

section
variable {α : Type} {write : α → List Char}

theorem Told.eq {x y : α} (hx : Told write x) (h : write x = write y) : x = y :=
  (hx y [] [] (by rw [h])).1

theorem Told.before {x y : α} (hx : Told write x) (cs : List Char) {r s : List Char}
    (h : write x ++ (cs ++ r) = write y ++ (cs ++ s)) : x = y ∧ r = s := by
  obtain ⟨hxy, hrest⟩ := hx y _ _ h
  exact ⟨hxy, List.append_cancel_left hrest⟩

/-- The values of a list are told one after the other, up to a mark that begins none of them. -/
theorem told_flatMap {mark : Char} (hopens : ∀ y, Opens mark (write y)) {xs : List α}
    (hxs : ∀ x ∈ xs, Told write x) (ys : List α) (r s : List Char)
    (h : xs.flatMap write ++ mark :: r = ys.flatMap write ++ mark :: s) : xs = ys ∧ r = s := by
  induction xs generalizing ys with
  | nil =>
    cases ys with
    | nil => exact ⟨rfl, (List.cons_inj_right mark).1 h⟩
    | cons y ys =>
      rw [List.flatMap_cons, List.append_assoc] at h
      exact absurd h ((hopens y).ne_append _ _)
  | cons x xs ih =>
    rw [List.forall_mem_cons] at hxs
    rw [List.flatMap_cons, List.append_assoc] at h
    cases ys with
    | nil => exact absurd h.symm ((hopens x).ne_append _ _)
    | cons y ys =>
      rw [List.flatMap_cons, List.append_assoc] at h
      obtain ⟨rfl, hrest⟩ := hxs.1 y _ _ h
      obtain ⟨rfl, hr⟩ := ih hxs.2 ys hrest
      exact ⟨rfl, hr⟩

end

theorem append_cons_inj {α : Type} {c : α} {xs ys us vs : List α} (hx : c ∉ xs) (hy : c ∉ ys)
    (h : xs ++ c :: us = ys ++ c :: vs) : xs = ys ∧ us = vs := by
  induction xs generalizing ys with
  | nil =>
    cases ys with
    | nil => exact ⟨rfl, by simpa using h⟩
    | cons y ys =>
      obtain ⟨rfl, -⟩ := List.cons.inj h
      exact absurd List.mem_cons_self hy
  | cons x xs ih =>
    cases ys with
    | nil =>
      obtain ⟨rfl, -⟩ := List.cons.inj h
      exact absurd List.mem_cons_self hx
    | cons y ys =>
      simp only [List.mem_cons, not_or, List.cons_append, List.cons.injEq] at hx hy h
      obtain ⟨rfl, rfl⟩ := ih hx.2 hy.2 h.2
      exact ⟨by rw [h.1], rfl⟩

/-! ## Quoted characters -/

theorem exists_digitChar_of_mem_hexDigits {n : ℕ} {c : Char} (h : c ∈ hexDigits n) :
    ∃ d, c = Nat.digitChar d := by
  induction n using Nat.strongRecOn with
  | ind n ih =>
    rw [hexDigits, Nat.toDigits_eq_if (by decide)] at h
    split at h
    · exact ⟨n, List.mem_singleton.1 h⟩
    · rename_i hn
      rcases List.mem_append.1 h with h | h
      · exact ih (n / 16) (by omega) h
      · exact ⟨_, List.mem_singleton.1 h⟩

theorem brace_notMem_hexDigits (n : ℕ) : '\x7d' ∉ hexDigits n := fun h => by
  obtain ⟨d, hd⟩ := exists_digitChar_of_mem_hexDigits h
  exact Nat.digitChar_ne '\x7d' (by decide) hd.symm

theorem digitChar_inj : ∀ m < 16, ∀ n < 16, Nat.digitChar m = Nat.digitChar n → m = n := by decide

theorem hexDigits_injective : Function.Injective hexDigits := by
  intro m
  induction m using Nat.strongRecOn with
  | ind m ih =>
    intro n h
    rw [hexDigits, hexDigits, Nat.toDigits_eq_if (by decide),
      Nat.toDigits_eq_if (n := n) (by decide)] at h
    split at h <;> split at h
    · exact digitChar_inj m ‹_› n ‹_› (List.singleton_inj.1 h)
    · have hone : [] ++ [Nat.digitChar m] = hexDigits (n / 16) ++ [Nat.digitChar (n % 16)] := h
      exact absurd (List.append_inj' hone rfl).1.symm Nat.toDigits_ne_nil
    · have hone : hexDigits (m / 16) ++ [Nat.digitChar (m % 16)] = [] ++ [Nat.digitChar n] := h
      exact absurd (List.append_inj' hone rfl).1 Nat.toDigits_ne_nil
    · obtain ⟨hhigh, hlow⟩ := List.append_inj' h rfl
      have hquot := ih (m / 16) (by omega) hhigh
      have hrem := digitChar_inj (m % 16) (Nat.mod_lt _ (by decide)) (n % 16)
        (Nat.mod_lt _ (by decide)) (List.singleton_inj.1 hlow)
      omega

def escapes : List (Char × Char) :=
  [('"', '"'), ('\\', '\\'), ('\x00', '0'), ('\t', 't'), ('\n', 'n'), ('\r', 'r')]

theorem eq_of_mem_escapes : ∀ p ∈ escapes, ∀ q ∈ escapes, p.2 = q.2 → p.1 = q.1 := by decide

theorem ne_of_mem_escapes : ∀ p ∈ escapes, p.2 ≠ 'u' := by decide

inductive QuotedAs (c : Char) : List Char → Prop
  | itself (hquote : c ≠ '"') (hslash : c ≠ '\\') : QuotedAs c [c]
  | letter {l : Char} (hl : (c, l) ∈ escapes) : QuotedAs c ['\\', l]
  | code : QuotedAs c ('\\' :: 'u' :: '\x7b' :: (hexDigits c.toNat ++ ['\x7d']))

theorem quotedAs_quoteChar (c : Char) : QuotedAs c (quoteChar c) := by
  have letter {d l : Char} (hc : c = d) (hl : (d, l) ∈ escapes) : QuotedAs c ['\\', l] :=
    .letter (hc ▸ hl)
  simp only [quoteChar]
  split
  · exact letter ‹_› (by decide)
  split
  · exact letter ‹_› (by decide)
  split
  · exact letter ‹_› (by decide)
  split
  · exact letter ‹_› (by decide)
  split
  · exact letter ‹_› (by decide)
  split
  · exact letter ‹_› (by decide)
  split
  · exact .itself ‹_› ‹_›
  · exact .code

/-- Neither a letter nor a code is a beginning of another one, or of a character that stands for
itself. -/
theorem QuotedAs.inj {c d : Char} {cs ds : List Char} (hc : QuotedAs c cs) (hd : QuotedAs d ds)
    {r s : List Char} (h : cs ++ r = ds ++ s) : c = d ∧ r = s := by
  cases hc with
  | itself _ hslash =>
    cases hd with
    | itself => exact List.cons.inj h
    | letter => exact absurd (List.cons.inj h).1 hslash
    | code => exact absurd (List.cons.inj h).1 hslash
  | letter hl =>
    cases hd with
    | itself _ hslash => exact absurd (List.cons.inj h).1.symm hslash
    | letter hl' =>
      obtain ⟨hletter, hrest⟩ := List.cons.inj (List.cons.inj h).2
      exact ⟨eq_of_mem_escapes _ hl _ hl' hletter, hrest⟩
    | code => exact absurd (List.cons.inj (List.cons.inj h).2).1 (ne_of_mem_escapes _ hl)
  | code =>
    cases hd with
    | itself _ hslash => exact absurd (List.cons.inj h).1.symm hslash
    | letter hl => exact absurd (List.cons.inj (List.cons.inj h).2).1.symm (ne_of_mem_escapes _ hl)
    | code =>
      simp only [List.cons_append, List.append_assoc, List.nil_append, List.cons.injEq,
        true_and] at h
      obtain ⟨hdigits, hrest⟩ := append_cons_inj (brace_notMem_hexDigits _)
        (brace_notMem_hexDigits _) h
      exact ⟨Char.toNat_inj.1 (hexDigits_injective hdigits), hrest⟩

/-- **A quoted character** is told, whatever follows it. -/
theorem told_quoteChar (c : Char) : Told quoteChar c := fun d _ _ h =>
  (quotedAs_quoteChar c).inj (quotedAs_quoteChar d) h

theorem QuotedAs.opens {c : Char} {cs : List Char} (h : QuotedAs c cs) : Opens '"' cs := by
  cases h with
  | itself hquote => exact ⟨c, [], rfl, hquote⟩
  | letter => exact ⟨_, _, rfl, by decide⟩
  | code => exact ⟨_, _, rfl, by decide⟩

/-! ## Quoted texts and bracketed lists -/

theorem toList_quote (s : String) :
    (quote s).toList = '"' :: (s.toList.flatMap quoteChar ++ ['"']) := by
  rw [quote, String.toList_ofList, quoteChars]

theorem opens_quote {mark : Char} (hmark : '"' ≠ mark) (s : String) :
    Opens mark (quote s).toList := ⟨'"', _, toList_quote s, hmark⟩

/-- **A quoted text** is told, whatever characters it is made of. -/
theorem told_quote (s : String) : Told (fun s => (quote s).toList) s := by
  intro t r u h
  simp only [toList_quote, List.cons_append, List.append_assoc, List.nil_append,
    List.cons.injEq, true_and] at h
  obtain ⟨hst, hru⟩ := told_flatMap (fun c => (quotedAs_quoteChar c).opens)
    (fun c _ => told_quoteChar c) t.toList r u h
  exact ⟨String.toList_inj.1 hst, hru⟩

section
variable {α : Type} {write : α → String}

theorem toList_bracketed_cons (x : α) (xs : List α) :
    (bracketed ((x :: xs).map write)).toList =
      '[' :: ((write x).toList ++
        (xs.flatMap (fun x => ',' :: ' ' :: (write x).toList) ++ [']'])) := by
  have hintercalate : ", ".toList.intercalate (((x :: xs).map write).map String.toList) =
      (write x).toList ++ xs.flatMap fun x => ',' :: ' ' :: (write x).toList := by
    induction xs generalizing x with
    | nil => simp
    | cons y ys ih =>
      simp only [List.map_cons, List.flatMap_cons] at ih ⊢
      rw [List.intercalate_cons_cons, ih y]
      simp
  rw [bracketed, String.toList_append, String.toList_append, String.toList_intercalate,
    hintercalate]
  simp

/-- **A bracketed list** is told by what tells its values, if no value begins with the bracket that
ends the list. -/
theorem told_bracketed (hopens : ∀ y, Opens ']' (write y).toList) {xs : List α}
    (hxs : ∀ x ∈ xs, Told (fun x => (write x).toList) x) :
    Told (fun xs => (bracketed (xs.map write)).toList) xs := by
  intro ys r s h
  have hempty : (bracketed (([] : List α).map write)).toList = ['[', ']'] := by simp [bracketed]
  have hne (z : α) (zs : List α) (r s : List Char) :
      ['[', ']'] ++ r ≠ (bracketed ((z :: zs).map write)).toList ++ s := by
    simp only [toList_bracketed_cons, List.cons_append, List.append_assoc]
    exact fun heq => (hopens z).ne_append _ _ (List.cons.inj heq).2
  simp only at h
  cases xs with
  | nil =>
    cases ys with
    | nil => exact ⟨rfl, List.append_cancel_left h⟩
    | cons y ys => exact absurd (hempty ▸ h) (hne y ys r s)
  | cons x xs =>
    cases ys with
    | nil => exact absurd (hempty ▸ h).symm (hne x xs s r)
    | cons y ys =>
      rw [List.forall_mem_cons] at hxs
      simp only [toList_bracketed_cons, List.cons_append, List.append_assoc, List.nil_append,
        List.cons.injEq, true_and] at h
      obtain ⟨rfl, hrest⟩ := hxs.1 y _ _ h
      have hfollowing : ∀ x ∈ xs, Told (fun x => ',' :: ' ' :: (write x).toList) x :=
        fun x hx y r s h => hxs.2 x hx y r s (List.cons.inj (List.cons.inj h).2).2
      obtain ⟨rfl, hrs⟩ :=
        told_flatMap (fun _ => ⟨',', _, rfl, by decide⟩) hfollowing ys r s hrest
      exact ⟨rfl, hrs⟩

end

end Searchlight.Text
