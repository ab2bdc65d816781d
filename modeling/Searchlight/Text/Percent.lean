import Searchlight.Text.Pieces

/-!
# Percent codes

Inside a locator a byte can be written as a percent sign and two hexadecimal digits. A percent
sign without two such digits after it stands for itself. In a query, pairs of a name and a
value stand between ampersands, and a plus sign is a blank.
-/

namespace Searchlight.Text.Percent

def bytesOf (cs : List Char) : List UInt8 := (String.ofList cs).toUTF8.toList

def hexDigit? (b : UInt8) : Option UInt8 :=
  if 0x30 ≤ b ∧ b ≤ 0x39 then some (b - 0x30)
  else if 0x41 ≤ b ∧ b ≤ 0x46 then some (b - 0x37)
  else if 0x61 ≤ b ∧ b ≤ 0x66 then some (b - 0x57)
  else none

/-- Replaces each code by its byte. -/
def decode : List UInt8 → List UInt8
  | [] => []
  | c :: a :: b :: rest =>
    match hexDigit? a, hexDigit? b with
    | some high, some low =>
      if c = 0x25 then (high * 16 + low) :: decode rest else c :: decode (a :: b :: rest)
    | _, _ => c :: decode (a :: b :: rest)
  | c :: rest => c :: decode rest

/-- The characters, their codes replaced, are a text. -/
def isText (cs : List Char) : Bool :=
  (String.fromUTF8? ⟨(decode (bytesOf cs)).toArray⟩).isSome

/-- The bytes of one side of a pair. -/
def formBytes (cs : List Char) : List UInt8 :=
  decode (bytesOf (cs.map fun c => if c = '+' then ' ' else c))

/-- The pairs of a query; a name without an equals sign has an empty value. -/
def pairs (cs : List Char) : List (List UInt8 × List UInt8) :=
  ((pieces '&' cs).filter fun p => !p.isEmpty).map fun p =>
    (formBytes (p.takeWhile (· ≠ '=')), formBytes ((p.dropWhile (· ≠ '=')).drop 1))

/-- The value of the last pair with a name. -/
def lastValue? (name : String) (cs : List Char) : Option (List UInt8) :=
  ((pairs cs).reverse.find? fun p => p.1 == name.toUTF8.toList).map (·.2)

end Searchlight.Text.Percent
