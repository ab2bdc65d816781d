import Searchlight.Text.Alphanumeric
import Searchlight.Text.Case
import Searchlight.Text.CodeRanges

/-!
# Words

A text is cut into its maximal runs of characters of one class: runs without white space are
words, runs of letters and numbers are tokens once lowered. `flatten_runs` says that the runs
hold exactly the characters of the class, in order.
-/

namespace Searchlight.Text

/-- The maximal runs of characters that satisfy `p`. -/
def runs (p : Char → Bool) : List Char → List (List Char)
  | [] => []
  | c :: cs =>
    if p c then
      match cs, runs p cs with
      | d :: _, r :: rs => if p d then (c :: r) :: rs else [c] :: r :: rs
      | _, rs => [c] :: rs
    else runs p cs

theorem flatten_runs (p : Char → Bool) (cs : List Char) : (runs p cs).flatten = cs.filter p := by
  induction cs with
  | nil => rfl
  | cons c cs ih =>
    by_cases hc : p c
    · simp only [runs, hc, if_true, List.filter_cons_of_pos, ← ih]
      split
      · rename_i heq
        split <;> simp [heq]
      · simp
    · simpa [runs, hc] using ih

theorem ne_nil_of_mem_runs {p : Char → Bool} {cs r : List Char} (h : r ∈ runs p cs) : r ≠ [] := by
  induction cs generalizing r with
  | nil => simp [runs] at h
  | cons c cs ih =>
    by_cases hc : p c
    · simp only [runs, hc, if_true] at h
      split at h
      · rename_i heq
        split at h <;> rcases List.mem_cons.1 h with rfl | h'
        · simp
        · exact ih (by rw [heq]; exact List.mem_cons_of_mem _ h')
        · simp
        · exact ih (by rw [heq]; exact h')
      · rcases List.mem_cons.1 h with rfl | h'
        · simp
        · exact ih h'
    · exact ih (by simpa [runs, hc] using h)

/-- Without white space at either end. -/
def trimChars (cs : List Char) : List Char :=
  ((cs.dropWhile isWhiteSpace).reverse.dropWhile isWhiteSpace).reverse

def trim (s : String) : String := String.ofList (trimChars s.toList)

/-- The words of a text: its pieces between white space. -/
def words (s : String) : List String :=
  (runs (fun c => !isWhiteSpace c) s.toList).map String.ofList

/-- The tokens of a text: its runs of letters and numbers, each lowered as a word of its own. -/
def tokenize (s : String) : List String :=
  (runs isAlphanumeric s.toList).map fun r => String.ofList (lower r)

end Searchlight.Text
