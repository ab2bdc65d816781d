import Searchlight.Text.CodeRanges
import Searchlight.Time.Instant

/-!
# Timestamps as text

An instant is written in universal time as `YYYY-MM-DDThh:mm:ssZ`, with a sign and at least
four digits for a year outside 0 to 9999, and second 60 for a leap second. Two readers
accept timestamps with an offset: the strict one wants four digits of year and two of
everything else, the lenient one allows signed years, short numbers and blanks between the
parts.
-/

namespace Searchlight.Rfc3339

/-! ## Writing -/

/-- The digits of `n`, with zeros in front up to `width`. -/
def padded (width n : Nat) : List Char :=
  let ds := Nat.toDigits 10 n
  List.replicate (width - ds.length) '0' ++ ds

/-- A year: four digits, or a sign and at least four. -/
def year (y : Int) : List Char :=
  if 0 ≤ y ∧ y ≤ 9999 then padded 4 y.toNat
  else (if y < 0 then '-' else '+') :: padded 4 y.natAbs

/-- The part of a second in as few of 0, 3, 6 or 9 digits as hold it. -/
def fraction (nanos : Nat) : List Char :=
  if nanos = 0 then []
  else if nanos % 1000000 = 0 then '.' :: padded 3 (nanos / 1000000)
  else if nanos % 1000 = 0 then '.' :: padded 6 (nanos / 1000)
  else '.' :: padded 9 nanos

/-- The timestamp with the given part of a second. -/
def writeWith (part : Nat → List Char) (t : Instant) : List Char :=
  let d := t.date
  let s := t.secondOfDay
  year d.year ++ '-' :: padded 2 d.month ++ '-' :: padded 2 d.day ++
    'T' :: padded 2 (s / 3600) ++ ':' :: padded 2 (s / 60 % 60) ++
    ':' :: padded 2 (s % 60 + t.nanos / 1000000000) ++ part (t.nanos % 1000000000) ++ ['Z']

def text (t : Instant) : String := String.ofList (writeWith fraction t)

/-- The timestamp to the second, any part of it left out. -/
def secondsText (t : Instant) : String := String.ofList (writeWith (fun _ => []) t)

/-! ## Reading -/

/-- Reads at least `least` and at most `most` digits. -/
def number (least most : Nat) (cs : List Char) : Option (Nat × List Char) :=
  let ds := (cs.take most).takeWhile Char.isDigit
  if ds.length < least then none else some (Nat.ofDigitChars 10 ds 0, cs.drop ds.length)

def char (c : Char) : List Char → Option (List Char)
  | d :: cs => if d = c then some cs else none
  | [] => none

/-- Reads an optional part of a second; digits after the ninth are passed over. -/
def partOfSecond : List Char → Option (Nat × List Char)
  | '.' :: cs =>
    let ds := (cs.take 9).takeWhile Char.isDigit
    if ds.isEmpty then none
    else some (Nat.ofDigitChars 10 ds 0 * Nat.pow 10 (9 - ds.length), cs.dropWhile Char.isDigit)
  | cs => some (0, cs)

/-- Reads an offset in seconds: `Z`, or a sign, two digits of hours, what `colon` allows, and
two digits of minutes. -/
def offset (colon : List Char → Option (List Char)) : List Char → Option (Int × List Char)
  | [] => none
  | c :: cs =>
    if c = 'Z' ∨ c = 'z' then some (0, cs)
    else if c = '+' ∨ c = '-' ∨ c = '−' then do
      let (hours, cs) ← number 2 2 cs
      let (minutes, cs) ← number 2 2 (← colon cs)
      if 60 ≤ minutes then none
      else
        let seconds : Int := hours * 3600 + minutes * 60
        if 86400 ≤ seconds then none
        else some (if c = '+' then seconds else -seconds, cs)
    else none

/-- The instant of a local date and time at an offset. -/
def assemble (date : Date) (hour minute second nanos : Nat) (offset : Int) : Option Instant :=
  if date.Valid ∧ hour < 24 ∧ minute < 60 ∧ second ≤ 60 then
    let sod : Int := hour * 3600 + minute * 60 + (min second 59 : Nat)
    do
      let wall ← Instant.of? (date.toDays * 86400 + sod)
        (if second = 60 then nanos + 1000000000 else nanos)
      Instant.of? (wall.seconds - offset) wall.nanos
  else none

def separator : List Char → Option (List Char)
  | c :: cs => if c = 'T' ∨ c = 't' ∨ c = ' ' then some cs else none
  | [] => none

def readChars (cs : List Char) : Option Instant := do
  let (year, cs) ← number 4 4 cs
  let (month, cs) ← number 2 2 (← char '-' cs)
  let (day, cs) ← number 2 2 (← char '-' cs)
  let (hour, cs) ← number 2 2 (← separator cs)
  let (minute, cs) ← number 2 2 (← char ':' cs)
  let (second, cs) ← number 2 2 (← char ':' cs)
  let (nanos, cs) ← partOfSecond cs
  let (off, cs) ← offset (char ':') cs
  if cs.isEmpty then assemble ⟨year, month, day⟩ hour minute second nanos off else none

/-- Reads a timestamp strictly. -/
def read? (s : String) : Option Instant := readChars s.toList

/-! ## Lenient reading -/

def skipBlanks (cs : List Char) : List Char := cs.dropWhile Text.isWhiteSpace

/-- Reads a year: a sign and any digits, or up to four digits. -/
def lenientYear (cs : List Char) : Option (Int × List Char) :=
  match skipBlanks cs with
  | '-' :: cs => (number 1 cs.length cs).map fun (n, r) => (-(n : Int), r)
  | '+' :: cs => (number 1 cs.length cs).map fun (n, r) => ((n : Int), r)
  | cs => (number 1 4 cs).map fun (n, r) => ((n : Int), r)

/-- Reads one or two digits after blanks. -/
def lenientNumber (cs : List Char) : Option (Nat × List Char) := number 1 2 (skipBlanks cs)

/-- Reads a given character after blanks. -/
def lenientChar (c : Char) (cs : List Char) : Option (List Char) := char c (skipBlanks cs)

/-- Reads an offset, or `UTC` in any case. -/
def lenientOffset (cs : List Char) : Option (Int × List Char) :=
  if (cs.take 3).map Char.toLower = ['u', 't', 'c'] then some (0, cs.drop 3)
  else offset (fun cs => some (cs.dropWhile fun c => c == ':' || Text.isWhiteSpace c)) cs

def readLenientChars (cs : List Char) : Option Instant := do
  let (year, cs) ← lenientYear cs
  let (month, cs) ← lenientNumber (← lenientChar '-' cs)
  let (day, cs) ← lenientNumber (← lenientChar '-' cs)
  let (hour, cs) ← lenientNumber (← separator cs)
  let (minute, cs) ← lenientNumber (← lenientChar ':' cs)
  let (second, cs) ← lenientNumber (← lenientChar ':' cs)
  let (nanos, cs) ← partOfSecond cs
  let (off, cs) ← lenientOffset (skipBlanks cs)
  if (skipBlanks cs).isEmpty then assemble ⟨year, month, day⟩ hour minute second nanos off
  else none

/-- Reads a timestamp leniently. -/
def readLenient? (s : String) : Option Instant := readLenientChars s.toList

end Searchlight.Rfc3339
