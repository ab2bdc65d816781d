import Searchlight.KeyMap
import Searchlight.SetStore.Program

/-!
# The key server

A server holds texts, hashes and sets under keys. A set or hash that loses its last member is
gone, and a command on a key of another type fails, except for reading several texts at
once. A transaction runs its commands in order, whatever they answer. Keys are scanned by a pattern.
-/

namespace Searchlight.Text

/-! ## Patterns

In a pattern `*` stands for any text, `?` for any one character, a backslash makes the character
after it stand for itself, and so does every other character. -/

/-- Some suffix of the text satisfies `p`. -/
def anySuffix (p : List Char → Bool) : List Char → Bool
  | [] => p []
  | c :: cs => p (c :: cs) || anySuffix p cs

def globMatch : List Char → List Char → Bool
  | [], cs => cs.isEmpty
  | '*' :: ps, cs => anySuffix (globMatch ps) cs
  | '\\' :: p :: ps, c :: cs => p == c && globMatch ps cs
  | '\\' :: _ :: _, [] => false
  | '?' :: ps, _ :: cs => globMatch ps cs
  | p :: ps, c :: cs => p == c && globMatch ps cs
  | _ :: _, [] => false

end Searchlight.Text

namespace Searchlight.SetStore

/-- The result of an operation on sets, the first one first. -/
def SetOp.apply (op : SetOp) : List TextSet → TextSet
  | [] => ∅
  | s :: ss =>
    match op with
    | inter => ss.foldl TextSet.inter s
    | union => ss.foldl TextSet.union s
    | diff => ss.foldl TextSet.diff s

inductive Datum where
  | text (s : String)
  | hash (fields : KeyMap String)
  | set (members : TextSet)
  deriving DecidableEq

inductive Command where
  | get (key : String)
  | put (key value : String)
  | getAll (keys : List String)
  | increment (key : String)
  | delete (keys : List String)
  | hashPut (key : String) (fields : List (String × String))
  | hashFields (key : String)
  | add (key : String) (members : List String)
  | remove (key : String) (members : List String)
  | members (key : String)
  | isMember (key member : String)
  | cardinality (key : String)
  | store (step : Step)
  /-- A window of the members of a set in ascending order. -/
  | sorted (key : String) (offset limit : Nat)
  /-- A page of the keys that match a pattern. -/
  | scan (cursor : Nat) (pattern : String) (count : Nat)
  deriving DecidableEq

inductive Reply where
  | done
  | integer (n : Int)
  | text (s : String)
  | absent
  | list (items : List Reply)
  | failure (message : String)

/-- How the server answers its clients. -/
inductive Mode where
  | normal
  /-- Every command fails. -/
  | failing
  /-- No command is answered. -/
  | stalled
  deriving DecidableEq, Repr

structure Server where
  keys : KeyMap Datum
  /-- The keys that a scan under way goes through. -/
  scanning : List String
  mode : Mode
  reachable : Bool

namespace Server

def fresh (reachable : Bool) : Server := ⟨∅, [], .normal, reachable⟩

/-- The failure of a command on a key of another type. -/
def wrongType : Reply :=
  .failure "WRONGTYPE Operation against a key holding the wrong kind of value"

/-- Numbers of a command are less. -/
def numberBound : Nat := 1 <<< 63

def outOfRange : Reply := .failure "ERR value is not an integer or out of range"

/-- The set under a key, empty when there is none; none when the key holds something else. -/
def set? (s : Server) (key : String) : Option TextSet :=
  match s.keys.get? key with
  | none => some ∅
  | some (.set m) => some m
  | some _ => none

def hash? (s : Server) (key : String) : Option (KeyMap String) :=
  match s.keys.get? key with
  | none => some ∅
  | some (.hash m) => some m
  | some _ => none

/-- The server with a set under a key; an empty set is no key. -/
def putSet (s : Server) (key : String) (members : TextSet) : Server :=
  { s with
    keys := if members.isEmpty then s.keys.erase key else s.keys.insert key (.set members) }

/-- The number after the one that a text holds; both have to be 64-bit integers. -/
def successor? (value : Option Datum) : Option Int :=
  match value with
  | none => some 1
  | some (.text t) =>
    t.toInt?.bind fun n =>
      if toString n = t ∧ Int64.minValue.toInt ≤ n ∧ n < Int64.maxValue.toInt then some (n + 1) else none
  | some _ => none

def increment (s : Server) (key : String) : Server × Reply :=
  match s.keys.get? key with
  | some (.hash _) | some (.set _) => (s, wrongType)
  | value =>
    match successor? value with
    | some n =>
      ({ s with keys := s.keys.insert key (.text (toString n)) }, .integer n)
    | none => (s, .failure "ERR value is not an integer or out of range")

/-- The pages of a scan: the cursor counts the keys that are behind it. -/
def scanPage (s : Server) (cursor : Nat) (pattern : String) (count : Nat) : Server × Reply :=
  let all := if cursor = 0 then s.keys.keys else s.scanning
  let page := (all.drop cursor).take count
  let next := if cursor + count < all.length then cursor + count else 0
  let found := page.filter fun k => Text.globMatch pattern.toList k.toList
  ({ s with scanning := all },
    .list [.text (toString next), .list (found.map .text)])

def run (s : Server) : Command → Server × Reply
  | .get key =>
    match s.keys.get? key with
    | none => (s, .absent)
    | some (.text t) => (s, .text t)
    | some _ => (s, wrongType)
  | .put key value => ({ s with keys := s.keys.insert key (.text value) }, .done)
  | .getAll keys =>
    (s, .list (keys.map fun key =>
      match s.keys.get? key with
      | some (.text t) => .text t
      | _ => .absent))
  | .increment key => s.increment key
  | .delete keys =>
    let present := (TextSet.ofList keys).keys.filter s.keys.contains
    ({ s with keys := s.keys.filter fun k _ => !keys.contains k }, .integer present.length)
  | .hashPut key fields =>
    match s.hash? key with
    | none => (s, wrongType)
    | some m =>
      let m' := fields.foldl (fun m f => m.insert f.1 f.2) m
      ({ s with keys := s.keys.insert key (.hash m') }, .integer (m'.size - m.size : Nat))
  | .hashFields key =>
    match s.hash? key with
    | none => (s, wrongType)
    | some m => (s, .list (m.entries.flatMap fun e => [.text e.1, .text e.2]))
  | .add key members =>
    match s.set? key with
    | none => (s, wrongType)
    | some m =>
      let m' := m.union (TextSet.ofList members)
      (s.putSet key m', .integer (m'.size - m.size : Nat))
  | .remove key members =>
    match s.set? key with
    | none => (s, wrongType)
    | some m =>
      let m' := m.diff (TextSet.ofList members)
      (s.putSet key m', .integer (m.size - m'.size : Nat))
  | .members key =>
    match s.set? key with
    | none => (s, wrongType)
    | some m => (s, .list (m.keys.map .text))
  | .isMember key member =>
    match s.set? key with
    | none => (s, wrongType)
    | some m => (s, .integer (if m.contains member then 1 else 0))
  | .cardinality key =>
    match s.set? key with
    | none => (s, wrongType)
    | some m => (s, .integer m.size)
  | .store step =>
    match step.sources.mapM s.set? with
    | none => (s, wrongType)
    | some sources =>
      let m := step.op.apply sources
      (s.putSet step.dest m, .integer m.size)
  | .sorted key offset limit =>
    if offset < numberBound ∧ limit < numberBound then
      match s.set? key with
      | none => (s, wrongType)
      | some m => (s, .list (((m.keys.drop offset).take limit).map .text))
    else (s, outOfRange)
  | .scan cursor pattern count => s.scanPage cursor pattern count

def runAll (s : Server) : List Command → Server × List Reply
  | [] => (s, [])
  | c :: cs =>
    let (s, r) := s.run c
    let (s, rs) := s.runAll cs
    (s, r :: rs)

/-- The server answers a client that waits this long. -/
def answers (s : Server) (timeoutMs : Nat) : Bool :=
  s.reachable && s.mode != .stalled && timeoutMs != 0

end Server

/-! ## Commands and answers as text -/

/-- Pairs of neighbours; none for an odd number of texts. -/
def pairUp : List String → Option (List (String × String))
  | [] => some []
  | a :: b :: rest => (pairUp rest).map ((a, b) :: ·)
  | [_] => none

/-- The command that a list of words asks for. -/
def Command.ofWords? : List String → Option Command
  | [] => none
  | name :: args =>
    match String.ofList (name.toList.map Char.toUpper), args with
    | "GET", [k] => some (.get k)
    | "SET", [k, v] => some (.put k v)
    | "MGET", k :: ks => some (.getAll (k :: ks))
    | "INCR", [k] => some (.increment k)
    | "DEL", k :: ks => some (.delete (k :: ks))
    | "HSET", k :: f :: fs => (pairUp (f :: fs)).map (.hashPut k)
    | "HGETALL", [k] => some (.hashFields k)
    | "SADD", k :: m :: ms => some (.add k (m :: ms))
    | "SREM", k :: m :: ms => some (.remove k (m :: ms))
    | "SMEMBERS", [k] => some (.members k)
    | "SISMEMBER", [k, m] => some (.isMember k m)
    | "SCARD", [k] => some (.cardinality k)
    | "SINTERSTORE", d :: s :: ss => some (.store ⟨.inter, d, s :: ss⟩)
    | "SUNIONSTORE", d :: s :: ss => some (.store ⟨.union, d, s :: ss⟩)
    | "SDIFFSTORE", d :: s :: ss => some (.store ⟨.diff, d, s :: ss⟩)
    | "SORT", [k, "LIMIT", o, n, "ALPHA"] => do some (.sorted k (← o.toNat?) (← n.toNat?))
    | "SCAN", [c, "MATCH", p, "COUNT", n] => do some (.scan (← c.toNat?) p (← n.toNat?))
    | _, _ => none

mutual

/-- An answer as it goes over the wire. -/
def Reply.wire : Reply → String
  | done => "+OK\r\n"
  | integer n => ":" ++ toString n ++ "\r\n"
  | text s => "$" ++ toString s.utf8ByteSize ++ "\r\n" ++ s ++ "\r\n"
  | absent => "$-1\r\n"
  | list items => "*" ++ toString items.length ++ "\r\n" ++ wireAll items
  | failure m => "-" ++ m ++ "\r\n"

def Reply.wireAll : List Reply → String
  | [] => ""
  | r :: rs => r.wire ++ wireAll rs

end

def Server.runWords (s : Server) (words : List String) : Server × Reply :=
  match Command.ofWords? words with
  | some c => s.run c
  | none => (s, .failure "ERR unknown command")

end Searchlight.SetStore
