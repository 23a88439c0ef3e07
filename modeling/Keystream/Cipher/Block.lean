import Keystream.ByteOrder
import Keystream.Cipher.Round
import Keystream.Cipher.State
import Keystream.Machine
/-!
Keystream blocks. A block is the state after ten double rounds, added word by word to the state
before them; making one moves the counter on.
-/
namespace Keystream.State

def blockWords (s : State) : List Word :=
  let mixed := ((Round.doubleRounds 10).run s.integers).state
  mixed.zipWith (fun x w => Word.ofInt (x + w)) s.integers

def block (s : State) (order : ByteOrder) : Bytes × State :=
  (s.blockWords.flatMap order.bytes, s.advance 1)

def blockNamed (s : State) (order : String) : Except Error (Bytes × State) := do
  return s.block (← ByteOrder.ofName order)

def blocks (order : ByteOrder) : Nat → State → Bytes → Bytes × State
  | 0, s, buffer => (buffer, s)
  | n + 1, s, _ =>
    let (block, s) := s.block order
    blocks order n s block

/-- Leaves the last of `iterations` blocks in the buffer; with none the buffer stays as it is, and
it does not matter whether there is an order to write in. -/
def keystream [Machine] (s : State) (iterations : Int) (buffer : Bytes)
    (order : Except Error ByteOrder) : Except Error (Bytes × State) := do
  if iterations < 0 then throw (Machine.telling iterations (.negativeIterations iterations))
  if buffer.length ≠ 64 then throw (.bufferLength buffer.length)
  if iterations = 0 then return (buffer, s)
  return blocks (← order) iterations.toNat s buffer

end Keystream.State
