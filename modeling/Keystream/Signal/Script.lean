import Keystream.Signal.Basic
/-!
A host that plays back prepared replies and keeps a log of what it was asked.
-/
namespace Keystream

inductive Reply where
  | answer (value : Option Int)
  | failure (e : Error)

inductive Call where
  | signal (sig value : Int)
  | halt
  deriving DecidableEq, Repr

structure Script where
  replies : List Reply
  log : List Call := []

namespace Script

/-- Notes the call and plays the next reply; when they are used up there is no answer. -/
def play (call : Call) : Action Script (Option Int) := do
  let script ← get
  set { script with log := script.log ++ [call], replies := script.replies.tail }
  match script.replies.head? with
  | none => return none
  | some (.answer value) => return value
  | some (.failure e) => throw e

def host : Host Script where
  signal sig value := play (.signal sig value)
  halt := do
    let _ ← play .halt

end Script

end Keystream
