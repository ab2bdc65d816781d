import Searchlight.Text.Printable

/-!
# Quoted text

A quoted text stands between double quotes. Quotes, backslashes and the common controls are
written with a backslash, other unprintable characters by their code point in hexadecimal.
-/

namespace Searchlight.Text

def hexDigits (n : Nat) : List Char := Nat.toDigits 16 n

def quoteChar (c : Char) : List Char :=
  if c = '"' then ['\\', '"']
  else if c = '\\' then ['\\', '\\']
  else if c = '\x00' then ['\\', '0']
  else if c = '\t' then ['\\', 't']
  else if c = '\n' then ['\\', 'n']
  else if c = '\r' then ['\\', 'r']
  else if isPrintable c then [c]
  else '\\' :: 'u' :: '\x7b' :: (hexDigits c.toNat ++ ['\x7d'])

def quoteChars (cs : List Char) : List Char := '"' :: (cs.flatMap quoteChar ++ ['"'])

def quote (s : String) : String := String.ofList (quoteChars s.toList)

/-- A bracketed list of texts that are already written. -/
def bracketed (items : List String) : String := "[" ++ ", ".intercalate items ++ "]"

end Searchlight.Text
