import Mathlib.Data.List.Infix
import Searchlight.Text.Words

/-!
# Runs of a text

Where no run goes on across a place, a text can be cut there and the parts taken apart on their own
(`runs_append`). So it does not matter whether a text is first cut at white space and then into
tokens, or into tokens at once (`flatMap_runs`). The words of a text, joined by spaces, are the text
again only if it was spaced so before (`intercalate_words_eq_iff`).
-/

namespace Searchlight.Text

variable {p q : Char → Bool} {c d : Char} {cs ds xs ys zs r : List Char} {rs : List (List Char)}

/-! ## Runs from the front -/

theorem runs_cons_of_neg (hc : p c = false) : runs p (c :: cs) = runs p cs := by
  simp only [runs, hc, Bool.false_eq_true, if_false]

theorem runs_cons_of_head_neg (hc : p c = true) (hcs : ∀ d ∈ cs.head?, p d = false) :
    runs p (c :: cs) = [c] :: runs p cs := by
  cases cs with
  | nil => simp [runs, hc]
  | cons d ds =>
    have hd : p d = false := hcs d rfl
    simp only [runs.eq_def p (c :: d :: ds), hc, if_true]
    cases runs p (d :: ds) <;> simp [hd]

theorem exists_runs_cons (ds : List Char) (hd : p d = true) : ∃ r rs, runs p (d :: ds) = (d :: r) :: rs := by
  simp only [runs.eq_def p (d :: ds), hd, if_true]
  split
  · split
    · exact ⟨_, _, rfl⟩
    · exact ⟨[], _, rfl⟩
  · exact ⟨[], _, rfl⟩

theorem runs_cons_of_head_pos (hc : p c = true) (hd : p d = true)
    (h : runs p (d :: ds) = r :: rs) : runs p (c :: d :: ds) = (c :: r) :: rs := by
  simp only [runs.eq_def p (c :: d :: ds), hc, h, hd, if_true]

/-- What comes after a cut is the same with a character more before it. -/
theorem runs_cons_append (hhead : (d :: xs).head? = ys.head?)
    (h : runs p ys = runs p (d :: xs) ++ rs) : runs p (c :: ys) = runs p (c :: d :: xs) ++ rs := by
  obtain ⟨e, ys, rfl⟩ := List.exists_cons_of_ne_nil (l := ys) (by rintro rfl; cases hhead)
  obtain rfl : d = e := Option.some.inj hhead
  by_cases hc : p c = true
  · by_cases hd : p d = true
    · obtain ⟨r, rs', hr⟩ := exists_runs_cons xs hd
      rw [hr, List.cons_append] at h
      rw [runs_cons_of_head_pos hc hd h, runs_cons_of_head_pos hc hd hr, List.cons_append]
    · have hhead (zs : List Char) : ∀ b ∈ (d :: zs).head?, p b = false := by simpa using hd
      rw [runs_cons_of_head_neg hc (hhead ys), runs_cons_of_head_neg hc (hhead xs), h,
        List.cons_append]
  · have hc : p c = false := by simpa using hc
    rw [runs_cons_of_neg hc, runs_cons_of_neg hc, h]

/-! ## Cutting -/

/-- No run goes on from the first text into the second. -/
def Parted (p : Char → Bool) (xs ys : List Char) : Prop :=
  ∀ c ∈ xs.getLast?, ∀ d ∈ ys.head?, p c = true → p d = false

theorem Parted.mono (hpq : ∀ c, p c = true → q c = true) (h : Parted q xs ys) : Parted p xs ys :=
  fun c hc d hd hp => Bool.eq_false_iff.2 fun hpd => by
    have hqd := h c hc d hd (hpq c hp)
    rw [hpq d hpd] at hqd
    cases hqd

theorem parted_of_head (h : ∀ d ∈ ys.head?, p d = false) : Parted p xs ys := fun _ _ d hd _ => h d hd

theorem parted_of_last (h : ∀ c ∈ xs.getLast?, p c = false) : Parted p xs ys := fun c hc _ _ hp => by
  rw [h c hc] at hp
  cases hp

/-- **A text that is cut between runs** has the runs of its parts. -/
theorem runs_append (h : Parted p xs ys) : runs p (xs ++ ys) = runs p xs ++ runs p ys := by
  induction xs with
  | nil => rfl
  | cons c xs ih =>
    cases xs with
    | nil =>
      by_cases hc : p c = true
      · have hys : ∀ d ∈ ys.head?, p d = false := fun d hd => h c rfl d hd hc
        rw [List.singleton_append, runs_cons_of_head_neg hc hys, runs_cons_of_head_neg hc (by simp)]
        rfl
      · rw [List.singleton_append, runs_cons_of_neg (by simpa using hc),
          runs_cons_of_neg (by simpa using hc)]
        rfl
    | cons d xs =>
      refine runs_cons_append rfl (ih fun c hc => h c ?_)
      rwa [List.getLast?_cons_cons]

theorem runs_append_cons (hc : p c = false) :
    runs p (xs ++ c :: ys) = runs p xs ++ runs p ys := by
  rw [runs_append (parted_of_head (by simpa using hc)), runs_cons_of_neg hc]

theorem runs_intercalate (hc : p c = false) (xss : List (List Char)) :
    runs p ([c].intercalate xss) = xss.flatMap (runs p) := by
  induction xss with
  | nil => rfl
  | cons xs xss ih =>
    cases xss with
    | nil => simp
    | cons ys yss =>
      rw [List.intercalate_cons_cons, List.append_assoc, List.singleton_append,
        runs_append_cons hc, ih]
      rfl

theorem runs_toList_intercalate (hspace : p ' ' = false) (ts : List String) :
    runs p (" ".intercalate ts).toList = ts.flatMap fun t => runs p t.toList := by
  rw [String.toList_intercalate]
  change runs p ([' '].intercalate _) = _
  rw [runs_intercalate hspace, List.flatMap_map]

/-- **A text can be cut at a coarser class first.** -/
theorem flatMap_runs (hpq : ∀ c, p c = true → q c = true) :
    (runs q cs).flatMap (runs p) = runs p cs := by
  induction cs with
  | nil => rfl
  | cons c cs ih =>
    by_cases hqc : q c = true
    · by_cases hhead : ∀ d ∈ cs.head?, q d = false
      · have hparted : Parted p [c] cs := (parted_of_head hhead).mono hpq
        rw [runs_cons_of_head_neg hqc hhead, List.flatMap_cons, ih, ← runs_append hparted]
        rfl
      · cases cs with
        | nil => simp at hhead
        | cons d ds =>
          have hqd : q d = true := by simpa using hhead
          obtain ⟨r, rs, hr⟩ := exists_runs_cons ds hqd
          rw [hr, List.flatMap_cons] at ih
          rw [runs_cons_of_head_pos hqc hqd hr, List.flatMap_cons]
          have hlonger : runs p (c :: d :: ds) = runs p (c :: d :: r) ++ rs.flatMap (runs p) :=
            runs_cons_append rfl ih.symm
          exact hlonger.symm
    · have hpc : p c = false := Bool.eq_false_iff.2 fun hpc => hqc (hpq c hpc)
      rw [runs_cons_of_neg (by simpa using hqc), runs_cons_of_neg hpc, ih]

theorem runs_of_all (hne : cs ≠ []) (hall : ∀ c ∈ cs, p c = true) : runs p cs = [cs] := by
  induction cs with
  | nil => exact absurd rfl hne
  | cons c cs ih =>
    rw [List.forall_mem_cons] at hall
    cases cs with
    | nil => exact runs_cons_of_head_neg hall.1 (by simp)
    | cons d ds =>
      exact runs_cons_of_head_pos hall.1 (hall.2 d List.mem_cons_self)
        (ih (List.cons_ne_nil d ds) hall.2)

theorem mem_of_mem_runs (hr : r ∈ runs p cs) (hc : c ∈ r) : c ∈ cs ∧ p c = true := by
  have hflatten : c ∈ (runs p cs).flatten := List.mem_flatten.2 ⟨r, hr, hc⟩
  rwa [flatten_runs, List.mem_filter] at hflatten

theorem exists_mem_runs (hc : c ∈ cs) (hp : p c = true) : ∃ r ∈ runs p cs, c ∈ r := by
  rw [← List.mem_flatten, flatten_runs]
  exact List.mem_filter.2 ⟨hc, hp⟩

theorem runs_eq_nil_iff : runs p cs = [] ↔ ∀ c ∈ cs, p c = false := by
  constructor
  · intro h c hc
    by_contra hp
    obtain ⟨r, hr, -⟩ := exists_mem_runs hc (by simpa using hp)
    rw [h] at hr
    cases hr
  · intro h
    refine List.eq_nil_iff_forall_not_mem.2 fun r hr => ?_
    obtain ⟨c, hc⟩ := List.exists_mem_of_ne_nil r (ne_nil_of_mem_runs hr)
    obtain ⟨hmem, hp⟩ := mem_of_mem_runs hr hc
    rw [h c hmem] at hp
    cases hp

/-- The first run and what comes before and after it. -/
theorem exists_of_runs_eq_cons (h : runs p cs = r :: rs) :
    ∃ before after, cs = before ++ r ++ after ∧ (∀ c ∈ before, p c = false) ∧
      (∀ c ∈ after.head?, p c = false) ∧ runs p after = rs := by
  induction cs generalizing r with
  | nil => cases h
  | cons c cs ih =>
    by_cases hc : p c = true
    · by_cases hhead : ∀ d ∈ cs.head?, p d = false
      · rw [runs_cons_of_head_neg hc hhead] at h
        cases h
        exact ⟨[], cs, rfl, by simp, hhead, rfl⟩
      · cases cs with
        | nil => simp at hhead
        | cons d ds =>
          have hd : p d = true := by simpa using hhead
          obtain ⟨r', rs', hr'⟩ := exists_runs_cons ds hd
          rw [runs_cons_of_head_pos hc hd hr'] at h
          cases h
          obtain ⟨before, after, heq, hbefore, hafter, hrest⟩ := ih hr'
          cases before with
          | nil =>
            exact ⟨[], after, by simpa using heq, by simp, hafter, hrest⟩
          | cons b before =>
            obtain ⟨rfl, -⟩ := List.cons_eq_cons.1 heq
            rw [hbefore d List.mem_cons_self] at hd
            cases hd
    · rw [runs_cons_of_neg (by simpa using hc)] at h
      obtain ⟨before, after, rfl, hbefore, hafter, hrest⟩ := ih h
      refine ⟨c :: before, after, rfl, ?_, hafter, hrest⟩
      rw [List.forall_mem_cons]
      exact ⟨by simpa using hc, hbefore⟩

theorem exists_of_mem_runs (hr : r ∈ runs p cs) :
    ∃ before after, cs = before ++ r ++ after ∧ Parted p before r ∧ Parted p r after := by
  obtain ⟨rs, hrs⟩ : ∃ rs, runs p cs = rs := ⟨_, rfl⟩
  rw [hrs] at hr
  induction rs generalizing cs with
  | nil => cases hr
  | cons r₀ rs ih =>
    obtain ⟨before, after, rfl, hbefore, hafter, hrest⟩ := exists_of_runs_eq_cons hrs
    rcases List.mem_cons.1 hr with rfl | hr
    · exact ⟨before, after, rfl, parted_of_last fun c hc => hbefore c (List.mem_of_getLast? hc),
        parted_of_head hafter⟩
    · obtain ⟨inner, rest, rfl, hinner, hrparted⟩ := ih hr hrest
      refine ⟨before ++ r₀ ++ inner, rest, by simp, ?_, hrparted⟩
      cases inner with
      | nil =>
        -- The run begins where the first one has ended.
        have hne : r ≠ [] := ne_nil_of_mem_runs (hrest ▸ hr)
        obtain ⟨d, r, rfl⟩ := List.exists_cons_of_ne_nil hne
        exact parted_of_head hafter
      | cons d inner =>
        intro c hc
        rw [List.getLast?_append_of_ne_nil _ (List.cons_ne_nil d inner)] at hc
        exact hinner c hc

/-! ## White space -/

theorem isDigit_of_isWhiteSpace (h : isWhiteSpace c = true) : c.isDigit = false := by
  rw [← Bool.not_eq_true]
  intro hdigit
  rw [Char.isDigit_iff_toNat] at hdigit
  have hzero : '0'.toNat = 48 := rfl
  have hnine : '9'.toNat = 57 := rfl
  simp [isWhiteSpace, whiteSpaceRanges, CodeRanges.contains] at h
  omega

theorem isWhiteSpace_of_isDigit (h : c.isDigit = true) : isWhiteSpace c = false :=
  Bool.eq_false_iff.2 fun hspace => by
    rw [isDigit_of_isWhiteSpace hspace] at h
    cases h

theorem toLower_of_isWhiteSpace (h : isWhiteSpace c = true) : c.toLower = c := by
  have hcapital : ¬(65 ≤ c.toNat ∧ c.toNat ≤ 90) := by
    simp [isWhiteSpace, whiteSpaceRanges, CodeRanges.contains] at h
    omega
  exact dif_neg hcapital

/-! ## Words -/

theorem words_ne_nil_iff {s : String} :
    words s ≠ [] ↔ ∃ c ∈ s.toList, isWhiteSpace c = false := by
  rw [words, Ne, List.map_eq_nil_iff, runs_eq_nil_iff]
  simp

theorem words_of_solid {s : String} (hne : s ≠ "") (h : ∀ c ∈ s.toList, isWhiteSpace c = false) :
    words s = [s] := by
  have hne' : s.toList ≠ [] := fun hnil => hne (String.toList_inj.1 hnil)
  rw [words, runs_of_all hne' (by simpa using h), List.map_singleton, String.ofList_toList]

theorem solid_of_mem_words {s w : String} (hw : w ∈ words s) :
    w ≠ "" ∧ ∀ c ∈ w.toList, isWhiteSpace c = false := by
  obtain ⟨r, hr, rfl⟩ := List.mem_map.1 hw
  rw [String.toList_ofList]
  refine ⟨fun hempty => ne_nil_of_mem_runs hr ?_, fun c hc => ?_⟩
  · rw [← String.toList_ofList (l := r), hempty]
    rfl
  · simpa using (mem_of_mem_runs hr hc).2

/-- What stands between spaces is cut into words on its own. -/
theorem words_intercalate (ts : List String) : words (" ".intercalate ts) = ts.flatMap words := by
  rw [words, runs_toList_intercalate (by decide), List.map_flatMap]
  rfl

theorem words_intercalate_words (s : String) : words (" ".intercalate (words s)) = words s := by
  rw [words_intercalate]
  refine (List.flatMap_congr fun w hw => ?_).trans (List.flatMap_singleton' _)
  exact words_of_solid (solid_of_mem_words hw).1 (solid_of_mem_words hw).2

/-- Each white space is a single space between two other characters. -/
def SingleSpaced : List Char → Prop
  | [] => True
  | [c] => isWhiteSpace c = false
  | c :: d :: ds =>
    isWhiteSpace c = false ∧
      if isWhiteSpace d then d = ' ' ∧ ds ≠ [] ∧ SingleSpaced ds else SingleSpaced (d :: ds)

def spaced (cs : List Char) : List Char := [' '].intercalate (runs (!isWhiteSpace ·) cs)

theorem toList_intercalate_words (s : String) :
    (" ".intercalate (words s)).toList = spaced s.toList := by
  rw [String.toList_intercalate, words, List.map_map, spaced]
  congr 1
  exact (List.map_congr_left fun _ _ => String.toList_ofList).trans (List.map_id _)

theorem spaced_cons_of_white (hc : isWhiteSpace c = true) : spaced (c :: cs) = spaced cs := by
  rw [spaced, runs_cons_of_neg (by simpa using hc), spaced]

theorem spaced_cons_of_solid (hc : isWhiteSpace c = false) (hd : isWhiteSpace d = false) :
    spaced (c :: d :: ds) = c :: spaced (d :: ds) := by
  obtain ⟨r, rs, hr⟩ := exists_runs_cons (p := (!isWhiteSpace ·)) ds (by simpa using hd)
  rw [spaced, runs_cons_of_head_pos (by simpa using hc) (by simpa using hd) hr, spaced, hr]
  cases rs <;> simp [List.intercalate_cons_cons]

theorem spaced_cons_white (hc : isWhiteSpace c = false) (hd : isWhiteSpace d = true) :
    spaced (c :: d :: ds) = if runs (!isWhiteSpace ·) ds = [] then [c] else c :: ' ' :: spaced ds := by
  rw [spaced, runs_cons_of_head_neg (by simpa using hc) (by simpa using hd),
    runs_cons_of_neg (by simpa using hd), spaced]
  cases runs (!isWhiteSpace ·) ds <;> simp [List.intercalate_cons_cons]

theorem spaced_singleton (hc : isWhiteSpace c = false) : spaced [c] = [c] := by
  rw [spaced, runs_of_all (List.cons_ne_nil c []) (by simpa using hc), List.intercalate_singleton]

theorem length_spaced_le (cs : List Char) : (spaced cs).length ≤ cs.length := by
  induction cs using SingleSpaced.induct with
  | case1 => exact Nat.le_refl 0
  | case2 c =>
    by_cases hc : isWhiteSpace c = true
    · rw [spaced_cons_of_white hc]
      exact Nat.zero_le 1
    · rw [spaced_singleton (by simpa using hc)]
  | case3 c d ds ih ih' =>
    by_cases hc : isWhiteSpace c = true
    · rw [spaced_cons_of_white hc]
      exact Nat.le_succ_of_le ih'
    · by_cases hd : isWhiteSpace d = true
      · rw [spaced_cons_white (by simpa using hc) hd]
        split <;> simp only [List.length_cons, List.length_nil] <;> omega
      · rw [spaced_cons_of_solid (by simpa using hc) (by simpa using hd)]
        exact Nat.succ_le_succ ih'

theorem spaced_cons_ne (hc : isWhiteSpace c = true) : spaced (c :: cs) ≠ c :: cs := fun h => by
  have hle := length_spaced_le cs
  rw [← spaced_cons_of_white hc, h] at hle
  exact Nat.not_succ_le_self _ hle

theorem spaced_eq_self_iff (cs : List Char) : spaced cs = cs ↔ SingleSpaced cs := by
  induction cs using SingleSpaced.induct with
  | case1 => exact iff_of_true rfl trivial
  | case2 c =>
    by_cases hc : isWhiteSpace c = true
    · exact iff_of_false (spaced_cons_ne hc) (by simp [SingleSpaced, hc])
    · rw [spaced_singleton (by simpa using hc)]
      exact iff_of_true rfl (by simpa [SingleSpaced] using hc)
  | case3 c d ds ih ih' =>
    by_cases hc : isWhiteSpace c = true
    · exact iff_of_false (spaced_cons_ne hc) (by simp [SingleSpaced, hc])
    by_cases hd : isWhiteSpace d = true
    · rw [SingleSpaced, if_pos hd, spaced_cons_white (by simpa using hc) hd, ← ih]
      split
      · rename_i hnil
        have hds : spaced ds = [] := by rw [spaced, hnil, List.intercalate_nil]
        rw [hds]
        refine iff_of_false (by simp) ?_
        rintro ⟨-, -, hne, heq⟩
        exact hne heq.symm
      · rename_i hne
        have hds : ds ≠ [] := by
          rintro rfl
          exact hne rfl
        simp only [List.cons.injEq, true_and]
        constructor
        · rintro ⟨rfl, heq⟩
          exact ⟨by simpa using hc, rfl, hds, heq⟩
        · rintro ⟨-, rfl, -, heq⟩
          exact ⟨rfl, heq⟩
    · rw [SingleSpaced, if_neg hd, spaced_cons_of_solid (by simpa using hc) (by simpa using hd),
        ← ih']
      simp [hc]

/-- **Which texts are their words joined by spaces.** -/
theorem intercalate_words_eq_iff (s : String) :
    " ".intercalate (words s) = s ↔ SingleSpaced s.toList := by
  rw [← String.toList_inj, toList_intercalate_words, spaced_eq_self_iff]

/-- A text is what words joined by spaces are if it has these words and is spaced so. -/
theorem eq_intercalate_words_iff {s t : String} :
    s = " ".intercalate (words t) ↔ words s = words t ∧ SingleSpaced s.toList := by
  rw [← intercalate_words_eq_iff]
  constructor
  · rintro rfl
    rw [words_intercalate_words]
    exact ⟨rfl, rfl⟩
  · rintro ⟨hwords, hs⟩
    rw [← hwords, hs]

end Searchlight.Text
