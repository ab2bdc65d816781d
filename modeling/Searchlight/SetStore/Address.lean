import Searchlight.SetStore.Ipv6
import Searchlight.Text.Percent

/-!
# Server addresses

The address of a server is a locator of a scheme without special rules: an optional user and
password before the last at sign, a host, a port, a path that is empty or the number of a
database, and a query that can choose a version of the protocol. A host has none of the
characters that separate the parts of a locator; one in brackets is an address of eight words.
An address that stands for every host names no server.
-/

namespace Searchlight.SetStore

/-- The locator of a host and a port. -/
def addressText (host : String) (port : Nat) : String :=
  "redis://" ++ host ++ ":" ++ toString port ++ "/"

namespace Address

open Text (pieces)

/-! ## User, host and port -/

/-- The characters that end the part with user, host and port. -/
def endsAuthority (c : Char) : Bool := c == '/' || c == '?' || c == '#'

/-- The user and password before the last at sign, if there is one, and the rest. -/
def splitUser (cs : List Char) : List Char × List Char :=
  let rest := (cs.reverse.takeWhile (· ≠ '@')).reverse
  ((cs.take (cs.length - rest.length)).dropLast, rest)

/-- The user before the first colon and the password after it are texts. -/
def isUser (cs : List Char) : Bool :=
  Text.Percent.isText (cs.takeWhile (· ≠ ':')) &&
    Text.Percent.isText ((cs.dropWhile (· ≠ ':')).drop 1)

/-- The characters of a host, colons in brackets among them, and what comes after. -/
def splitHost : Bool → List Char → List Char × List Char
  | _, [] => ([], [])
  | inBrackets, c :: cs =>
    if c = ':' ∧ inBrackets = false then ([], c :: cs)
    else
      let inBrackets := if c = '[' then true else if c = ']' then false else inBrackets
      let (host, rest) := splitHost inBrackets cs
      (c :: host, rest)

def forbiddenInHost : List Char :=
  ['\x00', '\t', '\n', '\x0d', ' ', '#', '/', ':', '<', '>', '?', '@', '[', '\\', ']', '^', '|']

/-- A name, or an address of eight words in brackets, that does not stand for every host. -/
def isHost (cs : List Char) : Bool :=
  match cs with
  | [] => false
  | '[' :: rest =>
    rest.getLast? == some ']' &&
      match Ipv6.read? rest.dropLast with
      | some words => words.any (· ≠ 0)
      | none => false
  | _ => cs.all (fun c => !forbiddenInHost.contains c) && cs ≠ "0.0.0.0".toList

/-- A colon with a number below 65536 or nothing after it; or no port at all. -/
def isPort : List Char → Bool
  | [] => true
  | _ :: digits => digits.all Char.isDigit && Nat.ofDigitChars 10 digits 0 < 65536

/-! ## Path -/

/-- The dots of a segment, each written as it is or by its code; none for any other segment. -/
def dots? : List Char → Option Nat
  | [] => some 0
  | '.' :: cs => (dots? cs).map (· + 1)
  | '%' :: '2' :: e :: cs => if e = 'e' ∨ e = 'E' then (dots? cs).map (· + 1) else none
  | _ => none

/-- A letter with a colon or a bar after it, and after that nothing or a backslash. -/
def isDrive : List Char → Bool
  | letter :: mark :: rest =>
    letter.isAlpha && (mark == ':' || mark == '|') && (rest.isEmpty || rest.head? == some '\\')
  | _ => false

/-- The segments so far, last one first, with one more: a dot adds nothing, and two dots take the
last one away unless it names a drive. -/
def addSegment (segments : List (List Char)) (segment : List Char) : List (List Char) :=
  match dots? segment with
  | some 1 => segments
  | some 2 =>
    match segments with
    | s :: rest => if isDrive s then segments else rest
    | [] => []
  | _ => segment :: segments

/-- The segments of a path that are not empty. -/
def segments (path : List Char) : List (List Char) :=
  (((pieces '/' (path.drop 1)).foldl addSegment []).reverse).filter fun s => !s.isEmpty

/-- A decimal number of 64 bits with an optional sign. -/
def isNumber (cs : List Char) : Bool :=
  let digits := match cs with
    | '-' :: ds => ds
    | '+' :: ds => ds
    | ds => ds
  !digits.isEmpty && digits.all Char.isDigit &&
    Nat.ofDigitChars 10 digits 0 < 1 <<< 63 + (if cs.head? = some '-' then 1 else 0)

/-- Nothing, or the number of a database. -/
def isDatabase (path : List Char) : Bool :=
  match segments path with
  | [] => true
  | [s] => isNumber s
  | _ => false

/-! ## Query -/

def protocols : List String := ["2", "resp2", "3", "resp3"]

/-- A query that does not choose a version of the protocol, or an existing one. -/
def isQuery (cs : List Char) : Bool :=
  match Text.Percent.lastValue? "protocol" cs with
  | none => true
  | some v => protocols.any fun p => p.toUTF8.toList == v

end Address

open Address in
/-- The host and port make the address of a server. Tabs and line breaks do not count. -/
def isAddress (host : String) (port : Nat) : Bool :=
  let cs := (host.toList ++ ':' :: (toString port).toList ++ ['/']).filter fun c =>
    c ≠ '\t' ∧ c ≠ '\n' ∧ c ≠ '\x0d'
  let authority := cs.takeWhile fun c => !endsAuthority c
  let rest := (cs.drop authority.length).takeWhile (· ≠ '#')
  let (userPart, serverPart) := splitUser authority
  let (hostPart, portPart) := splitHost false serverPart
  isUser userPart && isHost hostPart && isPort portPart &&
    isDatabase (rest.takeWhile (· ≠ '?')) && isQuery ((rest.dropWhile (· ≠ '?')).drop 1)

end Searchlight.SetStore
