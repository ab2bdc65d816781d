import Searchlight.SetStore.Plan

/-!
# Programs

A plan is compiled to steps that each store the result of one operation under a temporary
key, the parts of a node before the node. A plan that matches nothing is a temporary key that
no step writes; a key on its own needs no step.
-/

namespace Searchlight.SetStore

inductive SetOp where
  | inter
  | union
  | diff
  deriving DecidableEq, Repr

/-- The command that stores the result of an operation. -/
def SetOp.command : SetOp → String
  | inter => "SINTERSTORE"
  | union => "SUNIONSTORE"
  | diff => "SDIFFSTORE"

/-- Stores the result of an operation on the sources under a key. -/
structure Step where
  op : SetOp
  dest : String
  sources : List String
  deriving DecidableEq, Repr

/-- A compiled plan: its steps in order, the key of its result, and all its temporary keys. -/
structure Program where
  steps : List Step
  result : String
  temps : List String
  deriving DecidableEq, Repr

namespace Program

/-- The steps and temporary keys of several programs one after the other. -/
def joined (op : SetOp) (dest : String) (parts : List Program) : Program :=
  { steps := parts.flatMap (·.steps) ++ [⟨op, dest, parts.map (·.result)⟩]
    result := dest
    temps := parts.flatMap (·.temps) ++ [dest] }

mutual

/-- Compiles a plan with temporary keys from the `n`-th on. -/
def compileFrom (temp : Nat → String) (n : Nat) : Plan → Program
  | .key k => ⟨[], k, []⟩
  | .nothing => ⟨[], temp n, [temp n]⟩
  | .inter parts =>
    let compiled := compileAll temp n parts
    joined .inter (temp (n + (compiled.flatMap (·.temps)).length)) compiled
  | .union parts =>
    let compiled := compileAll temp n parts
    joined .union (temp (n + (compiled.flatMap (·.temps)).length)) compiled
  | .diff p q =>
    let p := compileFrom temp n p
    let q := compileFrom temp (n + p.temps.length) q
    joined .diff (temp (n + p.temps.length + q.temps.length)) [p, q]

def compileAll (temp : Nat → String) (n : Nat) : List Plan → List Program
  | [] => []
  | p :: ps =>
    let p := compileFrom temp n p
    p :: compileAll temp (n + p.temps.length) ps

end

def compile (keys : KeySpace) (run : String) (p : Plan) : Program := compileFrom (keys.temp run) 0 p

end Program

end Searchlight.SetStore
