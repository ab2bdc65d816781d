import Searchlight.Text.Pieces

/-!
# Addresses of eight words

An address of version 6 is eight words of 16 bits, written as groups of hexadecimal digits with
colons between them. Two colons stand once for one or more words that are zero, and the last two
words can be written as four decimal bytes with points between them.
-/

namespace Searchlight.SetStore.Ipv6

open Text (pieces)

def hexDigit? (c : Char) : Option Nat :=
  if '0' ≤ c ∧ c ≤ '9' then some (c.toNat - '0'.toNat)
  else if 'a' ≤ c ∧ c ≤ 'f' then some (c.toNat - 'a'.toNat + 10)
  else if 'A' ≤ c ∧ c ≤ 'F' then some (c.toNat - 'A'.toNat + 10)
  else none

/-- One to four hexadecimal digits. -/
def readGroup (cs : List Char) : Option Nat :=
  if cs.isEmpty ∨ 4 < cs.length then none
  else cs.foldlM (fun n c => (hexDigit? c).map (16 * n + ·)) 0

/-- A decimal number below 256 without zeros in front. -/
def readByte (cs : List Char) : Option Nat :=
  let n := Nat.ofDigitChars 10 cs 0
  if cs.isEmpty || !cs.all Char.isDigit || 255 < n || (cs.head? = some '0' && cs ≠ ['0']) then none
  else some n

/-- Four bytes with points between them, as two words. -/
def readBytes (cs : List Char) : Option (List Nat) :=
  match (pieces '.' cs).mapM readByte with
  | some [a, b, c, d] => some [a * 256 + b, c * 256 + d]
  | _ => none

/-- Groups with colons between them, the last of which may be two words in bytes. -/
def readGroups (allowBytes : Bool) : List (List Char) → Option (List Nat)
  | [] => some []
  | [cs] => if allowBytes && cs.contains '.' then readBytes cs else (readGroup cs).map ([·])
  | cs :: rest => do
    let w ← readGroup cs
    let ws ← readGroups allowBytes rest
    some (w :: ws)

/-- The groups of a text between colons, none in an empty text. -/
def groupsOf (cs : List Char) : List (List Char) := if cs.isEmpty then [] else pieces ':' cs

/-- The texts before and after the first two colons. -/
def splitGap : List Char → Option (List Char × List Char)
  | ':' :: ':' :: cs => some ([], cs)
  | c :: cs => (splitGap cs).map fun r => (c :: r.1, r.2)
  | [] => none

def read? (cs : List Char) : Option (List Nat) :=
  match splitGap cs with
  | none => (readGroups true (groupsOf cs)).filter fun ws => ws.length == 8
  | some (front, back) => do
    let ws ← readGroups false (groupsOf front)
    let vs ← readGroups true (groupsOf back)
    if ws.length + vs.length < 8 then
      some (ws ++ List.replicate (8 - ws.length - vs.length) 0 ++ vs)
    else none

end Searchlight.SetStore.Ipv6
