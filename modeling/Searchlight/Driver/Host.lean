import Searchlight.Disk.Fields
import Searchlight.Disk.Volume
import Searchlight.KeyMap
import Searchlight.SetStore.Server

/-!
# Hosts

A host is what all clients of one process share: the files and the analyzer of the indexes among
them, the key server, the ids that were drawn, the leases on stores that have a writer, and the
warnings.
-/

namespace Searchlight

/-- What all clients share. -/
structure Host where
  volume : Disk.Volume
  /-- How indexes on disk take free text apart. -/
  analyze : Disk.Analyzer
  server : SetStore.Server
  /-- What all drawn ids begin with. -/
  idStem : String
  /-- How many ids were drawn. -/
  drawn : Nat
  /-- The stores that a client writes to. -/
  leases : TextSet
  /-- The warnings, the oldest first. -/
  warnings : List String

namespace Host

def initial (analyze : Disk.Analyzer) (directories : List String) (server : SetStore.Server)
    (idStem : String) : Host :=
  ⟨⟨.ofDirectories directories, 0⟩, analyze, server, idStem, 0, ∅, []⟩

/-- The digits of a number, with zeros in front to the given length. -/
def paddedDigits (length n : Nat) : String :=
  let digits := Nat.toDigits 10 n
  String.ofList (List.replicate (length - digits.length) '0' ++ digits)

def seriesStem (series : Nat) : String := "00000000-" ++ paddedDigits 4 series ++ "-4000-8000-"

/-- The id drawn at a place in the order of drawing. -/
def drawnId (h : Host) (n : Nat) : String := h.idStem ++ paddedDigits 12 n

def nextId (h : Host) : String := h.drawnId h.drawn

def warn (ws : List String) : Action Host Unit :=
  modify fun h => { h with warnings := h.warnings ++ ws }

def acquireLease (store : String) : Action Host Unit := do
  let h ← get
  if h.leases.contains store then throw (.exclusiveLockHeld store)
  set { h with leases := h.leases.add store }

def releaseLease (store : String) : Action Host Unit :=
  modify fun h => { h with leases := h.leases.erase store }

end Host

end Searchlight
