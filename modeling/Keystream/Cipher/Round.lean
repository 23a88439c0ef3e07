import Keystream.Action
import Keystream.Bits
import Keystream.Segments
/-!
The rounds of ChaCha20 on a list of integers of any size. Places may count from the end. A round
stops at the first place that the list does not have, with what it changed before left changed.
-/
namespace Keystream.Round

def fetch (i : Int) : Action (List Int) Int := do
  match (place? (← get).length i).bind ((← get)[·]?) with
  | some v => return v
  | none => throw (if isNumbered i then .noSuchIndex else .indexTooLarge)

def store (i : Int) (v : Int) : Action (List Int) Unit := do
  match place? (← get).length i with
  | some k => modify (·.set k v)
  | none => throw (if isNumbered i then .noSuchSlot else .indexTooLarge)

def add (a b : Int) : Action (List Int) Unit := do
  let x ← fetch a
  let y ← fetch b
  store a (Bits.low 32 (x + y))

def twist (d a r : Int) : Action (List Int) Unit := do
  let x ← fetch d
  let y ← fetch a
  store d (Bits.rotateLeft 32 (Bits.xor x y) r)

def mix (a b d r : Int) : Action (List Int) Unit := do
  add a b
  twist d a r

def quarterRound (a b c d : Int) : Action (List Int) Unit := do
  mix a b d 16
  mix c d b 12
  mix a b d 8
  mix c d b 7

def columnRound : Action (List Int) Unit := do
  quarterRound 0 4 8 12
  quarterRound 1 5 9 13
  quarterRound 2 6 10 14
  quarterRound 3 7 11 15

def diagonalRound : Action (List Int) Unit := do
  quarterRound 0 5 10 15
  quarterRound 1 6 11 12
  quarterRound 2 7 8 13
  quarterRound 3 4 9 14

def doubleRound : Action (List Int) Unit := do
  columnRound
  diagonalRound

def doubleRounds : Nat → Action (List Int) Unit
  | 0 => return ()
  | n + 1 => do
    doubleRound
    doubleRounds n

end Keystream.Round
