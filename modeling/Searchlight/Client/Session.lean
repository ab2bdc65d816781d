import Searchlight.Client.Basic

/-!
# Sessions

A session holds clients and cursors under names. A cursor keeps the driver of its client: the
driver goes when neither the name of the client nor a cursor refers to it any more. The lease
goes with the name.
-/

namespace Searchlight

/-- Clients and cursors under names, on one host. -/
structure Session where
  host : Host
  /-- The clients that a name or a cursor refers to, by number. -/
  held : List (Nat × Client)
  names : KeyMap Nat
  results : KeyMap (Nat × ResultCursor)
  documents : KeyMap (Nat × DocumentCursor)
  opened : Nat

namespace Session

variable {α κ : Type}

def new (host : Host) : Session := ⟨host, [], ∅, ∅, ∅, 0⟩

def refersTo (s : Session) (n : Nat) : Bool :=
  s.names.entries.any (·.2 == n) || s.results.entries.any (·.2.1 == n) ||
    s.documents.entries.any (·.2.1 == n)

def dropDriver (h : Host) (c : Client) : Host :=
  match Driver.drop (c.driver, h) with
  | .ok _ (_, h) => h
  | .error _ (_, h) => h

/-- Lets the drivers go that nothing refers to. -/
def sweep (s : Session) : Session :=
  let (kept, gone) := s.held.partition fun e => s.refersTo e.1
  { s with held := kept, host := gone.foldl (fun h e => dropDriver h e.2) s.host }

def put (s : Session) (n : Nat) (c : Client) (h : Host) : Session :=
  { s with host := h, held := s.held.map fun e => if e.1 == n then (n, c) else e }

/-- Lets a client work; none if there is none of that number. -/
def runAt (s : Session) (n : Nat) (x : ClientWork α) : Option (Except Error α × Session) :=
  (s.held.lookup n).map fun c =>
    match x (c, s.host) with
    | .ok a (c, h) => (.ok a, s.put n c h)
    | .error e (c, h) => (.error e, s.put n c h)

/-! ## Clients -/

def client? (s : Session) (name : String) : Option Client :=
  (s.names.get? name).bind fun n => s.held.lookup n

def run (s : Session) (name : String) (x : ClientWork α) : Option (Except Error α × Session) :=
  (s.names.get? name).bind fun n => s.runAt n x

/-- Forgets the client under a name without closing it. -/
def forget (s : Session) (name : String) : Session :=
  let s := ((s.run name Client.releaseLease).map (·.2)).getD s
  { s with names := s.names.erase name }.sweep

/-- Opens a client under a name. A client that has the name is forgotten once the new one is
open. -/
def openClient (s : Session) (name : String) (x : Action Host Client) :
    Except Error ClientState × Session :=
  match x s.host with
  | .error e h => (.error e, { s with host := h })
  | .ok c h =>
    let s := { s with host := h }.forget name
    (.ok c.state,
      { s with
        held := (s.opened, c) :: s.held
        names := s.names.insert name s.opened
        opened := s.opened + 1 })

/-! ## Cursors -/

def openResults (s : Session) (name cursor : String) (q : Query) (offset limit : Nat) :
    Option (Except Error Unit × Session) :=
  (s.names.get? name).bind fun n =>
    (s.runAt n (Client.search q offset limit)).map fun (outcome, s) =>
      match outcome with
      | .ok k => (.ok (), { s with results := s.results.insert cursor (n, k) }.sweep)
      | .error e => (.error e, s)

def openDocuments (s : Session) (name cursor : String) : Option (Except Error Unit × Session) :=
  (s.names.get? name).bind fun n =>
    (s.runAt n Client.iterDocuments).map fun (outcome, s) =>
      match outcome with
      | .ok k => (.ok (), { s with documents := s.documents.insert cursor (n, k) }.sweep)
      | .error e => (.error e, s)

/-- Lets a cursor work with the client of the given number. -/
def runCursor (s : Session) (n : Nat) (k : κ) (x : Client.CursorWork κ α) :
    Option (Except Error α × κ × Session) :=
  (s.held.lookup n).map fun c =>
    match x (k, c, s.host) with
    | .ok a (k, c, h) => (.ok a, k, s.put n c h)
    | .error e (k, c, h) => (.error e, k, s.put n c h)

def nextHit (s : Session) (cursor : String) :
    Option (Except Error (Option SearchHit) × Session) := do
  let (n, k) ← s.results.get? cursor
  let (outcome, k, s) ← s.runCursor n k Client.nextHit
  some (outcome, { s with results := s.results.insert cursor (n, k) })

def nextDocument (s : Session) (cursor : String) :
    Option (Except Error (Option StoredDocument) × Session) := do
  let (n, k) ← s.documents.get? cursor
  let (outcome, k, s) ← s.runCursor n k Client.nextDocument
  some (outcome, { s with documents := s.documents.insert cursor (n, k) })

def backendOf (s : Session) (n : Nat) : String :=
  ((s.held.lookup n).map (·.driver.name)).getD ""

/-- The descriptions of all cursors in ascending order. -/
def cursorDescriptions (s : Session) : List String :=
  (s.results.entries.map (fun e => e.2.2.description (s.backendOf e.2.1)) ++
    s.documents.entries.map fun e => e.2.2.description (s.backendOf e.2.1)).mergeSort
      fun a b => a ≤ b

end Session

end Searchlight
