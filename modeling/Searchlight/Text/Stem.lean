import Searchlight.Text.Words

/-!
# English stems

A word is brought to its stem by steps that take off or replace endings. Where an ending may go
is told by two regions: the first one begins after the first consonant that follows a vowel,
the second one likewise within the first. Both are fixed before the first step. A y at the
beginning or after a vowel is a consonant and is written as a capital meanwhile.
-/

namespace Searchlight.Text

/-- A word under way to its stem. -/
structure Stemming where
  /-- The letters from the last to the first. -/
  letters : List Char
  /-- The number of letters before the first region. -/
  region1 : Nat
  /-- The number of letters before the second region. -/
  region2 : Nat

namespace Stemming

def isVowel (c : Char) : Bool := ['a', 'e', 'i', 'o', 'u', 'y'].contains c

/-- Writes each y after a vowel as a capital. -/
def markAfterVowels : List Char → List Char
  | c :: d :: cs =>
    if isVowel c && d == 'y' then c :: 'Y' :: markAfterVowels cs
    else c :: markAfterVowels (d :: cs)
  | cs => cs

/-- Writes each y that is a consonant as a capital. -/
def markConsonants : List Char → List Char
  | 'y' :: cs => markAfterVowels ('Y' :: cs)
  | cs => markAfterVowels cs

/-- What comes after the first consonant that follows a vowel. -/
def afterSyllable (cs : List Char) : List Char :=
  ((cs.dropWhile fun c => !isVowel c).dropWhile isVowel).drop 1

/-- Beginnings that are no part of the first region. -/
def longBeginnings : List (List Char) := ["gener".toList, "commun".toList, "arsen".toList]

def firstRegion (cs : List Char) : List Char :=
  match longBeginnings.find? (·.isPrefixOf cs) with
  | some b => cs.drop b.length
  | none => afterSyllable cs

def ofWord (cs : List Char) : Stemming :=
  let cs := markConsonants cs
  let first := firstRegion cs
  ⟨cs.reverse, cs.length - first.length, cs.length - (afterSyllable first).length⟩

def toWord (w : Stemming) : List Char :=
  w.letters.reverse.map fun c => if c == 'Y' then 'y' else c

/-! ## Endings -/

/-- The first of the endings that the word has; the longer ones are listed first. -/
def ending? (w : Stemming) (endings : List String) : Option String :=
  endings.find? fun e => e.toList.reverse.isPrefixOf w.letters

/-- The letters before an ending, from the last to the first. -/
def before (w : Stemming) (ending : String) : List Char := w.letters.drop ending.length

def replace (w : Stemming) (ending new : String) : Stemming :=
  { w with letters := new.toList.reverse ++ w.before ending }

def inRegion1 (w : Stemming) (ending : String) : Bool :=
  w.region1 + ending.length ≤ w.letters.length

def inRegion2 (w : Stemming) (ending : String) : Bool :=
  w.region2 + ending.length ≤ w.letters.length

/-- The letters, from the last to the first, end in a short syllable: a vowel between
consonants, the last of them none of w, x and Y; or a vowel and a consonant that are all. -/
def endsShort : List Char → Bool
  | c :: v :: d :: _ =>
    !isVowel c && !(['w', 'x', 'Y'].contains c) && isVowel v && !isVowel d
  | [c, v] => !isVowel c && isVowel v
  | _ => false

/-- Looks for the first ending in a table of endings and replacements, and replaces it when
it lies in the first region and may go. -/
def replaceIn (w : Stemming) (table : List (String × String))
    (mayGo : String → List Char → Bool) : Stemming :=
  match w.ending? (table.map (·.1)) with
  | none => w
  | some e =>
    if w.inRegion1 e && mayGo e (w.before e) then
      w.replace e ((table.lookup e).getD "")
    else w

/-! ## Steps -/

/-- Plurals. -/
def step1a (w : Stemming) : Stemming :=
  match w.ending? ["sses", "ied", "ies", "us", "ss", "s"] with
  | some "sses" => w.replace "sses" "ss"
  | some "s" => if ((w.before "s").drop 1).any isVowel then w.replace "s" "" else w
  | some "us" | some "ss" | none => w
  | some e => w.replace e (if 2 ≤ (w.before e).length then "i" else "ie")

/-- The letters that are not doubled at the end of a stem. -/
def doubles : List Char := ['b', 'd', 'f', 'g', 'm', 'n', 'p', 'r', 't']

/-- Mends a word that has lost a verbal ending. -/
def mend (w : Stemming) : Stemming :=
  if (w.ending? ["at", "bl", "iz"]).isSome then w.replace "" "e"
  else
    match w.letters with
    | c :: d :: cs =>
      if c == d && doubles.contains c then { w with letters := d :: cs }
      else if w.letters.length == w.region1 && endsShort w.letters then w.replace "" "e"
      else w
    | _ => w

/-- Verbal endings. -/
def step1b (w : Stemming) : Stemming :=
  match w.ending? ["eedly", "ingly", "edly", "eed", "ing", "ed"] with
  | none => w
  | some e =>
    if e == "eed" || e == "eedly" then
      if w.inRegion1 e then w.replace e "ee" else w
    else if (w.before e).any isVowel then (w.replace e "").mend
    else w

/-- A last y after a consonant that is not the first letter. -/
def step1c (w : Stemming) : Stemming :=
  match w.letters with
  | y :: c :: d :: cs =>
    if (y == 'y' || y == 'Y') && !isVowel c then { w with letters := 'i' :: c :: d :: cs } else w
  | _ => w

/-- The letters that li may follow. -/
def beforeLi : List Char := ['c', 'd', 'e', 'g', 'h', 'k', 'm', 'n', 'r', 't']

/-- Double endings of nouns and adverbs. -/
def step2 (w : Stemming) : Stemming :=
  w.replaceIn
    [("ational", "ate"), ("fulness", "ful"), ("iveness", "ive"), ("ization", "ize"),
      ("ousness", "ous"), ("biliti", "ble"), ("lessli", "less"), ("tional", "tion"),
      ("ation", "ate"), ("alism", "al"), ("aliti", "al"), ("entli", "ent"), ("fulli", "ful"),
      ("iviti", "ive"), ("ousli", "ous"), ("alli", "al"), ("abli", "able"), ("anci", "ance"),
      ("ator", "ate"), ("enci", "ence"), ("izer", "ize"), ("bli", "ble"), ("ogi", "og"),
      ("li", "")]
    fun e rest =>
      if e == "ogi" then rest.head? == some 'l'
      else if e == "li" then (rest.head?.map beforeLi.contains).getD false
      else true

/-- Endings of adjectives. -/
def step3 (w : Stemming) : Stemming :=
  w.replaceIn
    [("ational", "ate"), ("tional", "tion"), ("alize", "al"), ("icate", "ic"), ("iciti", "ic"),
      ("ative", ""), ("ical", "ic"), ("ness", ""), ("ful", "")]
    fun e _ => e != "ative" || w.inRegion2 e

/-- Endings in the second region. -/
def step4 (w : Stemming) : Stemming :=
  match w.ending? ["ement", "ance", "ence", "able", "ible", "ment", "ant", "ent", "ism", "ate",
    "iti", "ous", "ive", "ize", "ion", "al", "er", "ic"] with
  | none => w
  | some e =>
    let afterST := ((w.before e).head?.map ['s', 't'].contains).getD false
    if w.inRegion2 e && (e != "ion" || afterST) then w.replace e "" else w

/-- A last e, and one of two last l. -/
def step5 (w : Stemming) : Stemming :=
  match w.letters with
  | 'e' :: cs =>
    if w.inRegion2 "e" || (w.inRegion1 "e" && !endsShort cs) then { w with letters := cs } else w
  | 'l' :: 'l' :: cs => if w.inRegion2 "l" then { w with letters := 'l' :: cs } else w
  | _ => w

/-- Words that are left alone after the first step. -/
def keptAfterPlurals : List String :=
  ["inning", "outing", "canning", "herring", "earring", "proceed", "exceed", "succeed"]

def run (w : Stemming) : Stemming :=
  let w := w.step1a
  if keptAfterPlurals.contains (String.ofList w.letters.reverse) then w
  else w.step1b.step1c.step2.step3.step4.step5

end Stemming

/-- Words with stems of their own. -/
def irregularStems : List (String × String) :=
  [("skis", "ski"), ("skies", "sky"), ("dying", "die"), ("lying", "lie"), ("tying", "tie"),
    ("idly", "idl"), ("gently", "gentl"), ("ugly", "ugli"), ("early", "earli"), ("only", "onli"),
    ("singly", "singl"), ("sky", "sky"), ("news", "news"), ("howe", "howe"), ("atlas", "atlas"),
    ("cosmos", "cosmos"), ("bias", "bias"), ("andes", "andes")]

/-- The stem of a word of lower-case letters and numbers. Words of less than three characters
stay as they are. -/
def stem (word : List Char) : List Char :=
  match irregularStems.lookup (String.ofList word) with
  | some s => s.toList
  | none => if word.length < 3 then word else (Stemming.ofWord word).run.toWord

/-- The stems of a text: its runs of letters and numbers, each character lowered on its own. -/
def stems (s : String) : List String :=
  (runs isAlphanumeric s.toList).map fun r => String.ofList (stem (lowerEach r))

end Searchlight.Text
