/-!
# TOML documents

A reader for the part of TOML that a configuration can be made of: strings, integers,
booleans, arrays and tables. A document that uses any other kind of value is refused.
-/

namespace Searchlight

/-- How a table came about, which decides what may still be added to it. -/
inductive Toml.TableKind where
  /-- By a header of its own. -/
  | headed
  /-- On the way to the table of a header. -/
  | implied
  /-- By a dotted key. -/
  | dotted
  /-- Between braces. -/
  | inlined
  deriving DecidableEq, Repr

inductive Toml where
  | string (s : String)
  | integer (n : Int)
  | bool (b : Bool)
  | array (items : List Toml)
  | table (kind : Toml.TableKind) (entries : List (String × Toml))
  deriving Repr, Inhabited

namespace Toml

/-! ## Tables -/

abbrev Entries := List (String × Toml)

def lookup (key : String) (es : Entries) : Option Toml :=
  (es.find? fun e => e.1 == key).map (·.2)

def replace (key : String) (v : Toml) (es : Entries) : Entries :=
  es.map fun e => if e.1 == key then (key, v) else e

/-- Assigns a value under a dotted key; no key is assigned twice. -/
def assign (v : Toml) : List String → Entries → Option Entries
  | [], _ => none
  | [k], es => if (lookup k es).isSome then none else some (es ++ [(k, v)])
  | k :: ks, es =>
    match lookup k es with
    | none => (assign v ks []).map fun inner => es ++ [(k, table .dotted inner)]
    | some (table .dotted inner) =>
      (assign v ks inner).map fun inner => replace k (table .dotted inner) es
    | some _ => none

/-- Opens the table of a header; a table has one header at most. -/
def openTable : List String → Entries → Option Entries
  | [], _ => none
  | [k], es =>
    match lookup k es with
    | none => some (es ++ [(k, table .headed [])])
    | some (table .implied inner) => some (replace k (table .headed inner) es)
    | some _ => none
  | k :: ks, es =>
    match lookup k es with
    | none => (openTable ks []).map fun inner => es ++ [(k, table .implied inner)]
    | some (table .inlined _) => none
    | some (table kind inner) => (openTable ks inner).map fun inner => replace k (table kind inner) es
    | some _ => none

def assignIn (keys : List String) (v : Toml) : List String → Entries → Option Entries
  | [], es => assign v keys es
  | p :: ps, es =>
    match lookup p es with
    | some (table kind inner) =>
      (assignIn keys v ps inner).map fun inner => replace p (table kind inner) es
    | _ => none

/-! ## Blanks -/

def isBlank (c : Char) : Bool := c == ' ' || c == '\t'

def skipBlanks (cs : List Char) : List Char := cs.dropWhile isBlank

/-- The character may stand in a comment or a literal string. -/
def isPlain (c : Char) : Bool := c == '\t' || (0x20 ≤ c.toNat && c.toNat != 0x7F)

def skipComment : List Char → List Char
  | '#' :: cs => cs.dropWhile isPlain
  | cs => cs

/-- Takes one line end, which is a line feed with or without a carriage return before it. -/
def readLineEnd : List Char → Option (List Char × List Char)
  | '\n' :: cs => some (['\n'], cs)
  | '\r' :: '\n' :: cs => some (['\r', '\n'], cs)
  | _ => none

def newline? (cs : List Char) : Option (List Char) := (readLineEnd cs).map (·.2)

def skipLines : Nat → List Char → List Char
  | 0, cs => cs
  | fuel + 1, cs =>
    let cs := skipComment (skipBlanks cs)
    match newline? cs with
    | some cs => skipLines fuel cs
    | none => cs

/-! ## Strings -/

def hexValue (ds : List Char) : Option Nat :=
  ds.foldlM (fun n c =>
    if '0' ≤ c ∧ c ≤ '9' then some (n * 16 + (c.toNat - 48))
    else if 'a' ≤ c ∧ c ≤ 'f' then some (n * 16 + (c.toNat - 87))
    else if 'A' ≤ c ∧ c ≤ 'F' then some (n * 16 + (c.toNat - 55))
    else none) 0

/-- Reads the character with a code of `width` hexadecimal digits. -/
def readCode (width : Nat) (cs : List Char) : Option (Char × List Char) := do
  let ds := cs.take width
  if ds.length < width then none
  else
    let n ← hexValue ds
    if n.isValidChar then some (Char.ofNat n, cs.drop width) else none

def readEscape : List Char → Option (Char × List Char)
  | 'b' :: cs => some ('\x08', cs)
  | 't' :: cs => some ('\t', cs)
  | 'n' :: cs => some ('\n', cs)
  | 'f' :: cs => some ('\x0c', cs)
  | 'r' :: cs => some ('\r', cs)
  | 'e' :: cs => some ('\x1b', cs)
  | '"' :: cs => some ('"', cs)
  | '\\' :: cs => some ('\\', cs)
  | 'x' :: cs => readCode 2 cs
  | 'u' :: cs => readCode 4 cs
  | 'U' :: cs => readCode 8 cs
  | _ => none

def readBasic : Nat → List Char → Option (List Char × List Char)
  | 0, _ => none
  | _, [] => none
  | fuel + 1, c :: cs =>
    if c = '"' then some ([], cs)
    else if c = '\\' then do
      let (d, cs) ← readEscape cs
      let (ds, cs) ← readBasic fuel cs
      some (d :: ds, cs)
    else if isPlain c then do
      let (ds, cs) ← readBasic fuel cs
      some (c :: ds, cs)
    else none

def readLiteral (cs : List Char) : Option (List Char × List Char) :=
  let body := cs.takeWhile fun c => isPlain c && c != '\''
  match cs.drop body.length with
  | '\'' :: rest => some (body, rest)
  | _ => none

/-- Reads the quotes that end a string of several lines: three, and up to two before them that
belong to it. -/
def closingQuotes (quote : Char) (cs : List Char) : Option (List Char × List Char) :=
  let n := (cs.takeWhile (· == quote)).length
  if n < 3 then none
  else
    let inside := min (n - 3) 2
    some (List.replicate inside quote, cs.drop (inside + 3))

def skipEmptyLines : Nat → List Char → List Char
  | 0, cs => cs
  | fuel + 1, cs =>
    match newline? (skipBlanks cs) with
    | some cs => skipEmptyLines fuel cs
    | none => skipBlanks cs

/-- After a backslash at the end of a line, passes over blanks and line ends. -/
def continuation? (cs : List Char) : Option (List Char) :=
  (newline? (skipBlanks cs)).map fun cs => skipEmptyLines (cs.length + 1) cs

/-- Reads a string of several lines up to its quotes; line ends are kept as they are written. -/
def readLong (quote : Char) : Nat → List Char → Option (List Char × List Char)
  | 0, _ => none
  | _, [] => none
  | fuel + 1, c :: cs =>
    match closingQuotes quote (c :: cs) with
    | some r => some r
    | none =>
      if c = '\\' ∧ quote = '"' then
        match continuation? cs with
        | some cs => readLong quote fuel cs
        | none => do
          let (d, cs) ← readEscape cs
          let (ds, cs) ← readLong quote fuel cs
          some (d :: ds, cs)
      else
        match readLineEnd (c :: cs) with
        | some (ending, cs) => do
          let (ds, cs) ← readLong quote fuel cs
          some (ending ++ ds, cs)
        | none =>
          if isPlain c then do
            let (ds, cs) ← readLong quote fuel cs
            some (c :: ds, cs)
          else none

/-- A line end right after the opening quotes does not belong to the string. -/
def skipFirstNewline (cs : List Char) : List Char := (newline? cs).getD cs

def readString : List Char → Option (String × List Char)
  | '"' :: '"' :: '"' :: cs =>
    (readLong '"' (cs.length + 1) (skipFirstNewline cs)).map fun r => (String.ofList r.1, r.2)
  | '\'' :: '\'' :: '\'' :: cs =>
    (readLong '\'' (cs.length + 1) (skipFirstNewline cs)).map fun r => (String.ofList r.1, r.2)
  | '"' :: cs => (readBasic (cs.length + 1) cs).map fun r => (String.ofList r.1, r.2)
  | '\'' :: cs => (readLiteral cs).map fun r => (String.ofList r.1, r.2)
  | _ => none

/-! ## Keys -/

def isBareKeyChar (c : Char) : Bool := c.isAlphanum || c == '_' || c == '-'

def readKeyPart : List Char → Option (String × List Char)
  | '"' :: cs => (readBasic (cs.length + 1) cs).map fun r => (String.ofList r.1, r.2)
  | '\'' :: cs => (readLiteral cs).map fun r => (String.ofList r.1, r.2)
  | cs =>
    let part := cs.takeWhile isBareKeyChar
    if part.isEmpty then none else some (String.ofList part, cs.drop part.length)

/-- Reads a key with the dots between its parts, and the blanks after it. -/
def readKey : Nat → List Char → Option (List String × List Char)
  | 0, _ => none
  | fuel + 1, cs => do
    let (k, cs) ← readKeyPart (skipBlanks cs)
    match skipBlanks cs with
    | '.' :: cs => do
      let (ks, cs) ← readKey fuel cs
      some (k :: ks, cs)
    | cs => some ([k], cs)

/-! ## Numbers -/

/-- The digits without the marks between them; none when a mark is not between two digits. -/
def withoutMarks (isDigit : Char → Bool) : List Char → Option (List Char)
  | [] => none
  | [c] => if isDigit c then some [c] else none
  | c :: '_' :: cs => if isDigit c then (withoutMarks isDigit cs).map (c :: ·) else none
  | c :: cs => if isDigit c then (withoutMarks isDigit cs).map (c :: ·) else none

def baseValue (base : Nat) (ds : List Char) : Nat :=
  ds.foldl (fun n c => n * base + ((hexValue [c]).getD 0)) 0

/-- Reads a number in the base that its marker names. -/
def readBased (base : Nat) (isDigit : Char → Bool) (cs : List Char) : Option (Int × List Char) := do
  let word := cs.takeWhile fun c => c.isAlphanum || c == '_'
  let ds ← withoutMarks isDigit word
  some ((baseValue base ds : Nat), cs.drop word.length)

def isHexDigit (c : Char) : Bool := (hexValue [c]).isSome

def readDecimal (cs : List Char) : Option (Nat × List Char) := do
  let word := cs.takeWhile fun c => c.isDigit || c == '_'
  let ds ← withoutMarks Char.isDigit word
  if ds.length > 1 && ds.head? == some '0' then none
  else some (baseValue 10 ds, cs.drop word.length)

def readInteger : List Char → Option (Int × List Char)
  | '0' :: 'x' :: cs => readBased 16 isHexDigit cs
  | '0' :: 'o' :: cs => readBased 8 (fun c => '0' ≤ c && c ≤ '7') cs
  | '0' :: 'b' :: cs => readBased 2 (fun c => c == '0' || c == '1') cs
  | '-' :: cs => (readDecimal cs).map fun r => (-(r.1 : Int), r.2)
  | '+' :: cs => (readDecimal cs).map fun r => ((r.1 : Int), r.2)
  | cs => (readDecimal cs).map fun r => ((r.1 : Int), r.2)

/-! ## Values -/

def dropText (text cs : List Char) : Option (List Char) :=
  if text.isPrefixOf cs then some (cs.drop text.length) else none

mutual

def readValue : Nat → List Char → Option (Toml × List Char)
  | 0, _ => none
  | fuel + 1, cs =>
    match cs with
    | '"' :: _ | '\'' :: _ => (readString cs).map fun r => (string r.1, r.2)
    | 't' :: r => (dropText "rue".toList r).map (bool true, ·)
    | 'f' :: r => (dropText "alse".toList r).map (bool false, ·)
    | '[' :: r => (readItems fuel r).map fun r => (array r.1, r.2)
    | '\x7b' :: r => (readEntries fuel [] r).map fun r => (table .inlined r.1, r.2)
    | r => (readInteger r).map fun r => (integer r.1, r.2)

def readItems : Nat → List Char → Option (List Toml × List Char)
  | 0, _ => none
  | fuel + 1, cs =>
    match skipLines cs.length cs with
    | ']' :: r => some ([], r)
    | r => do
      let (v, r) ← readValue fuel r
      match skipLines r.length r with
      | ']' :: r => some ([v], r)
      | ',' :: r => do
        let (vs, r) ← readItems fuel r
        some (v :: vs, r)
      | _ => none

/-- Reads the entries of an inlined table up to its brace, on top of those read before. -/
def readEntries : Nat → Entries → List Char → Option (Entries × List Char)
  | 0, _, _ => none
  | fuel + 1, es, cs =>
    match skipLines cs.length cs with
    | '\x7d' :: r => some (es, r)
    | r => do
      let (key, r) ← readKey r.length r
      match r with
      | '=' :: r => do
        let (v, r) ← readValue fuel (skipBlanks r)
        let es ← assign v key es
        match skipLines r.length r with
        | '\x7d' :: r => some (es, r)
        | ',' :: r => readEntries fuel es r
        | _ => none
      | _ => none

end

/-! ## Documents -/

/-- Reads the end of a line: blanks and a comment, then a line end or the end of the text. -/
def lineEnd? (cs : List Char) : Option (List Char) :=
  match skipComment (skipBlanks cs) with
  | [] => some []
  | cs => newline? cs

/-- Reads the lines of a document: headers, assignments to the table of the last header, and
empty lines. -/
def readLines : Nat → List String → Entries → List Char → Option Entries
  | 0, _, _, _ => none
  | fuel + 1, current, es, cs =>
    match skipLines cs.length cs with
    | [] => some es
    | '[' :: '[' :: _ => none
    | '[' :: r => do
      let (path, r) ← readKey r.length r
      match r with
      | ']' :: r => do
        let es ← openTable path es
        readLines fuel path es (← lineEnd? r)
      | _ => none
    | r => do
      let (key, r) ← readKey r.length r
      match r with
      | '=' :: r => do
        let (v, r) ← readValue r.length (skipBlanks r)
        let es ← assignIn key v current es
        readLines fuel current es (← lineEnd? r)
      | _ => none

/-- Reads a document as a table; a byte order mark in front is passed over. -/
def read? (text : String) : Option Entries :=
  let cs := match text.toList with
    | '\ufeff' :: cs => cs
    | cs => cs
  readLines (cs.length + 1) [] [] cs

end Toml

end Searchlight
