import Keystream.Cipher.State
import Keystream.Memory
/-!
The four buffers that one run owns in memory, and the cipher state once it is loaded from them.
-/
namespace Keystream

structure Buffers where
  key : Int
  nonce : Int
  state : Int
  output : Int
  loaded : Option State := none

namespace Buffers

/-- One after another; those before one that fails stay allocated. -/
def allocate [Machine] : Action Memory Buffers := do
  let key ← Memory.allocate 32 4
  let nonce ← Memory.allocate 12 4
  let state ← Memory.allocate 64 4
  let output ← Memory.allocate 64 4
  return { key, nonce, state, output }

def addresses (b : Buffers) : List Int := [b.key, b.nonce, b.state, b.output]

def release (b : Buffers) : Action Memory Unit := do
  Memory.release b.key
  Memory.release b.nonce
  Memory.release b.state
  Memory.release b.output

def storeState : Action (Memory × Buffers) Unit := do
  let b := (← get).2
  match b.loaded with
  | none => throw .noState
  | some s => (Memory.write b.state s.build).onFirst

def loadState (counter : Int) : Action (Memory × Buffers) State := do
  let b := (← get).2
  let key ← (Memory.read b.key 32).onFirst
  let nonce ← (Memory.read b.nonce 12).onFirst
  let s ← State.ofKeyNonce key nonce counter
  Action.onSecond (modify fun b => { b with loaded := some s })
  storeState
  return s

end Buffers

end Keystream
