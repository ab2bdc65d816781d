/-!
# Sets of code points

A character class is a list of inclusive ranges of code points, in ascending order. White space is
such a class: the characters with the Unicode property White_Space.
-/

namespace Searchlight.Text

/-- Inclusive ranges of code points. -/
abbrev CodeRanges := List (Nat × Nat)

namespace CodeRanges

def contains (ranges : CodeRanges) (c : Char) : Bool :=
  ranges.any fun r => r.1 ≤ c.toNat && c.toNat ≤ r.2

/-- Each range is non-empty and ends at least two below the next one. -/
def Ascending : CodeRanges → Prop
  | [] => True
  | [r] => r.1 ≤ r.2
  | r :: s :: rest => r.1 ≤ r.2 ∧ r.2 + 1 < s.1 ∧ Ascending (s :: rest)

theorem contains_eq_true_iff {ranges : CodeRanges} {c : Char} :
    ranges.contains c = true ↔ ∃ r ∈ ranges, r.1 ≤ c.toNat ∧ c.toNat ≤ r.2 := by
  simp [contains]

end CodeRanges

/-- The ranges of White_Space. -/
def whiteSpaceRanges : CodeRanges :=
  [(0x9, 0xD), (0x20, 0x20), (0x85, 0x85), (0xA0, 0xA0), (0x1680, 0x1680), (0x2000, 0x200A),
    (0x2028, 0x2029), (0x202F, 0x202F), (0x205F, 0x205F), (0x3000, 0x3000)]

def isWhiteSpace (c : Char) : Bool := whiteSpaceRanges.contains c

end Searchlight.Text
