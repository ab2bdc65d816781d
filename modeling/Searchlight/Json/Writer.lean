import Searchlight.Json.Basic

/-!
# Writing JSON

Values are written without blanks. A string is escaped where the grammar demands it and
nowhere else.
-/

namespace Searchlight.Json

def hexDigit (n : Nat) : Char := Nat.digitChar n

def escapeChar (c : Char) : List Char :=
  if c = '"' then ['\\', '"']
  else if c = '\\' then ['\\', '\\']
  else if c = '\x08' then ['\\', 'b']
  else if c = '\x0c' then ['\\', 'f']
  else if c = '\n' then ['\\', 'n']
  else if c = '\r' then ['\\', 'r']
  else if c = '\t' then ['\\', 't']
  else if c.toNat < 0x20 then
    ['\\', 'u', '0', '0', hexDigit (c.toNat / 16), hexDigit (c.toNat % 16)]
  else [c]

def writeString (cs : List Char) : List Char := '"' :: (cs.flatMap escapeChar ++ ['"'])

/-- A text; one that cannot be read is written as an empty string. -/
def writeText (t : Text) : List Char := writeString ((t.getD "").toList)

/-- An exponent with its mark; the sign is always written. -/
def writeExponent (e : Int) : List Char :=
  'e' :: (if e < 0 then '-' else '+') :: Nat.toDigits 10 e.natAbs

/-- A number: sign, digits, the places after the point if there are any, and the exponent. -/
def writeNumber (n : Number) : List Char :=
  (if n.negative then ['-'] else []) ++ n.whole ++
    (if n.part.isEmpty then [] else '.' :: n.part) ++
    match n.exponent with
    | some e => writeExponent e
    | none => []

def separated : List (List Char) → List Char
  | [] => []
  | [t] => t
  | t :: ts => t ++ ',' :: separated ts

mutual

/-- A value without blanks. -/
def writeChars : Json → List Char
  | null => "null".toList
  | bool true => "true".toList
  | bool false => "false".toList
  | number n => writeNumber n
  | string t => writeText t
  | array items => '[' :: (separated (writeItems items) ++ [']'])
  | object members => '\x7b' :: (separated (writeMembers members) ++ ['\x7d'])

def writeItems : List Json → List (List Char)
  | [] => []
  | j :: js => writeChars j :: writeItems js

def writeMembers : List (Text × Json) → List (List Char)
  | [] => []
  | (k, j) :: ms => (writeText k ++ ':' :: writeChars j) :: writeMembers ms

end

def write (j : Json) : String := String.ofList (writeChars j)

end Searchlight.Json
