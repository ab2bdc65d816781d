/-!
# Pieces between separators

A text is cut at each separator, so there is one piece more than there are separators.
-/

namespace Searchlight.Text

/-- The pieces between separators; a text without one is a single piece. -/
def pieces (separator : Char) : List Char → List (List Char)
  | [] => [[]]
  | c :: cs =>
    if c = separator then [] :: pieces separator cs
    else
      match pieces separator cs with
      | p :: ps => (c :: p) :: ps
      | [] => [[c]]

theorem pieces_ne_nil (separator : Char) (cs : List Char) : pieces separator cs ≠ [] := by
  cases cs with
  | nil => simp [pieces]
  | cons c cs =>
    simp only [pieces]
    split
    · simp
    · split <;> simp

theorem notMem_of_mem_pieces {separator : Char} {cs p : List Char}
    (h : p ∈ pieces separator cs) : separator ∉ p := by
  induction cs generalizing p with
  | nil =>
    obtain rfl := List.mem_singleton.1 h
    exact List.not_mem_nil
  | cons c cs ih =>
    rw [pieces] at h
    split at h
    · rcases List.mem_cons.1 h with rfl | h
      · exact List.not_mem_nil
      · exact ih h
    · rename_i hc
      split at h
      · rename_i q qs hq
        rcases List.mem_cons.1 h with rfl | h
        · have hsep : separator ∉ q := ih (hq ▸ List.mem_cons_self)
          simpa [Ne.symm hc] using hsep
        · exact ih (hq ▸ List.mem_cons_of_mem _ h)
      · rename_i hq
        exact absurd hq (pieces_ne_nil separator cs)

theorem pieces_of_notMem {separator : Char} {cs : List Char} (h : separator ∉ cs) :
    pieces separator cs = [cs] := by
  induction cs with
  | nil => rfl
  | cons c cs ih =>
    rw [List.mem_cons, not_or] at h
    rw [pieces, if_neg (Ne.symm h.1), ih h.2]

/-- A separator parts the pieces before it from those behind it. -/
theorem pieces_append (separator : Char) (xs ys : List Char) :
    pieces separator (xs ++ separator :: ys) = pieces separator xs ++ pieces separator ys := by
  induction xs with
  | nil => simp [pieces]
  | cons x xs ih =>
    rw [List.cons_append, pieces, pieces, ih]
    by_cases hx : x = separator
    · simp [hx]
    · cases hp : pieces separator xs with
      | nil => exact absurd hp (pieces_ne_nil separator xs)
      | cons p ps => simp [hx]

end Searchlight.Text
