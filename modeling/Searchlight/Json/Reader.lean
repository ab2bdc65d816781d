import Searchlight.Json.Basic

/-!
# Reading JSON

The reader accepts exactly the JSON grammar. Nesting is bounded by the length of the text, so
that length is the bound on the recursion.
-/

namespace Searchlight.Json

def isBlank (c : Char) : Bool := c == ' ' || c == '\n' || c == '\t' || c == '\r'

def skipBlanks (cs : List Char) : List Char := cs.dropWhile isBlank

/-! ## Strings -/

/-- What one character or escape contributes to a text. -/
inductive Piece where
  | char (c : Char)
  | surrogate (unit : Nat)
  deriving DecidableEq, Repr

def hexValue? (c : Char) : Option Nat :=
  if '0' ≤ c ∧ c ≤ '9' then some (c.toNat - 48)
  else if 'a' ≤ c ∧ c ≤ 'f' then some (c.toNat - 87)
  else if 'A' ≤ c ∧ c ≤ 'F' then some (c.toNat - 55)
  else none

def Piece.ofUnit (n : Nat) : Piece :=
  if 0xD800 ≤ n ∧ n ≤ 0xDFFF then surrogate n else char (Char.ofNat n)

def readEscape : List Char → Option (Piece × List Char)
  | '"' :: cs => some (.char '"', cs)
  | '\\' :: cs => some (.char '\\', cs)
  | '/' :: cs => some (.char '/', cs)
  | 'b' :: cs => some (.char '\x08', cs)
  | 'f' :: cs => some (.char '\x0c', cs)
  | 'n' :: cs => some (.char '\n', cs)
  | 'r' :: cs => some (.char '\r', cs)
  | 't' :: cs => some (.char '\t', cs)
  | 'u' :: a :: b :: c :: d :: cs => do
    let a ← hexValue? a
    let b ← hexValue? b
    let c ← hexValue? c
    let d ← hexValue? d
    some (.ofUnit (((a * 16 + b) * 16 + c) * 16 + d), cs)
  | _ => none

def readPieces : Nat → List Char → Option (List Piece × List Char)
  | 0, _ => none
  | _, [] => none
  | fuel + 1, c :: cs =>
    if c = '"' then some ([], cs)
    else if c = '\\' then do
      let (p, cs) ← readEscape cs
      let (ps, cs) ← readPieces fuel cs
      some (p :: ps, cs)
    else if c.toNat < 0x20 then none
    else do
      let (ps, cs) ← readPieces fuel cs
      some (.char c :: ps, cs)

/-- The characters of the pieces, a high surrogate joined with the low one after it. -/
def joinPieces : List Piece → Option (List Char)
  | [] => some []
  | .char c :: ps => (joinPieces ps).map (c :: ·)
  | .surrogate h :: .surrogate l :: ps =>
    if h < 0xDC00 ∧ 0xDC00 ≤ l then
      (joinPieces ps).map (Char.ofNat (0x10000 + (h - 0xD800) * 0x400 + (l - 0xDC00)) :: ·)
    else none
  | .surrogate _ :: _ => none

def readText (cs : List Char) : Option (Text × List Char) := do
  let (ps, rest) ← readPieces (cs.length + 1) cs
  some ((joinPieces ps).map String.ofList, rest)

/-! ## Numbers -/

def readExponent (cs : List Char) : Option (Int × List Char) :=
  let (negative, cs) := match cs with
    | '-' :: r => (true, r)
    | '+' :: r => (false, r)
    | r => (false, r)
  let ds := cs.takeWhile Char.isDigit
  if ds.isEmpty then none
  else
    let n := Nat.ofDigitChars 10 ds 0
    some (if negative then -(n : Int) else n, cs.dropWhile Char.isDigit)

/-- Reads a number after its sign: no leading zeros, and digits on both sides of a point. -/
def readMagnitude (negative : Bool) (cs : List Char) : Option (Number × List Char) := do
  let whole := cs.takeWhile Char.isDigit
  if whole.isEmpty || (whole.length > 1 && whole.head? == some '0') then none
  else
    let (part, cs) ← match cs.dropWhile Char.isDigit with
      | '.' :: r =>
        let ds := r.takeWhile Char.isDigit
        if ds.isEmpty then none else some (ds, r.dropWhile Char.isDigit)
      | r => some ([], r)
    match cs with
    | c :: r =>
      if c = 'e' ∨ c = 'E' then do
        let (e, r) ← readExponent r
        some (⟨negative, whole, part, some e⟩, r)
      else some (⟨negative, whole, part, none⟩, cs)
    | [] => some (⟨negative, whole, part, none⟩, [])

/-! ## Values -/

def dropText (text cs : List Char) : Option (List Char) :=
  if text.isPrefixOf cs then some (cs.drop text.length) else none

mutual

/-- Reads one value and leaves what follows it. -/
def readValue : Nat → List Char → Option (Json × List Char)
  | 0, _ => none
  | fuel + 1, cs =>
    match skipBlanks cs with
    | [] => none
    | 'n' :: r => (dropText "ull".toList r).map (null, ·)
    | 't' :: r => (dropText "rue".toList r).map (bool true, ·)
    | 'f' :: r => (dropText "alse".toList r).map (bool false, ·)
    | '"' :: r => do
      let (t, r) ← readText r
      some (string t, r)
    | '[' :: r =>
      match skipBlanks r with
      | ']' :: r => some (array [], r)
      | r => do
        let (items, r) ← readItems fuel r
        some (array items, r)
    | '\x7b' :: r =>
      match skipBlanks r with
      | '\x7d' :: r => some (object [], r)
      | r => do
        let (members, r) ← readMembers fuel r
        some (object members, r)
    | '-' :: r => do
      let (n, r) ← readMagnitude true r
      some (number n, r)
    | r => do
      let (n, r) ← readMagnitude false r
      some (number n, r)

def readItems : Nat → List Char → Option (List Json × List Char)
  | 0, _ => none
  | fuel + 1, cs => do
    let (j, r) ← readValue fuel cs
    match skipBlanks r with
    | ']' :: r => some ([j], r)
    | ',' :: r => do
      let (js, r) ← readItems fuel r
      some (j :: js, r)
    | _ => none

def readMembers : Nat → List Char → Option (List (Text × Json) × List Char)
  | 0, _ => none
  | fuel + 1, cs => do
    match skipBlanks cs with
    | '"' :: r =>
      let (k, r) ← readText r
      match skipBlanks r with
      | ':' :: r =>
        let (j, r) ← readValue fuel r
        match skipBlanks r with
        | '\x7d' :: r => some ([(k, j)], r)
        | ',' :: r => do
          let (ms, r) ← readMembers fuel r
          some ((k, j) :: ms, r)
        | _ => none
      | _ => none
    | _ => none

end

/-- Reads a text that holds one value and blanks around it. -/
def readChars (cs : List Char) : Option Json := do
  let (j, r) ← readValue (2 * cs.length + 2) cs
  if (skipBlanks r).isEmpty then some j else none

def read? (s : String) : Option Json := readChars s.toList

end Searchlight.Json
