import Keystream.Error
/-!
Runs: stretches of neighbouring blocks that are all free or all one allocation. A row of runs is
split where an allocation begins and ends, and joined where a free run meets another.
-/
namespace Keystream

structure Run where
  blocks : Int
  used : Bool
  deriving DecidableEq, Repr

namespace Run

/-- A free run of `blocks` once `want` of them behind the first `pad` are used. -/
def split (blocks pad want : Int) : List Run :=
  (if pad = 0 then [] else [⟨pad, false⟩]) ++ ⟨want, true⟩ ::
    if want + pad < blocks then [⟨blocks - want - pad, false⟩] else []

/-- Uses the first `want` free blocks side by side that begin at a multiple of `align`, where the
row begins at `pos`. Gives where they begin. -/
def place (align want pos : Int) : List Run → Option (Int × List Run)
  | [] => none
  | run :: rest =>
    let pad := (-pos).fmod align
    if !run.used && want + pad ≤ run.blocks then
      some (pos + pad, split run.blocks pad want ++ rest)
    else
      (place align want (pos + run.blocks) rest).map fun (found, runs) => (found, run :: runs)

def join (blocks : Int) : List Run → List Run
  | next :: rest =>
    if next.used then ⟨blocks, false⟩ :: next :: rest else ⟨blocks + next.blocks, false⟩ :: rest
  | [] => [⟨blocks, false⟩]

/-- Frees the used run that begins `distance` blocks into the row. -/
def release (distance : Int) : List Run → Except Error (List Run)
  | [] => throw .notAllocated
  | run :: rest => do
    if distance < 0 then throw .notAllocated
    if distance = 0 then
      if run.used then return join run.blocks rest else throw .alreadyFree
    let rest ← release (distance - run.blocks) rest
    if distance = run.blocks ∧ run.used = false then return join run.blocks rest
    return run :: rest

def total (used : Bool) : List Run → Int
  | [] => 0
  | run :: rest => (if run.used = used then run.blocks else 0) + total used rest

end Run

end Keystream
