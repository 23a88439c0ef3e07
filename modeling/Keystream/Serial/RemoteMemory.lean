import Keystream.Memory
import Keystream.Serial.Link
/-!
The memory of the program at the other end of a link. The host reaches it by requests, which the
program serves while it waits for the answer to a signal.
-/
namespace Keystream.RemoteMemory

variable [Machine]

def write (addr : Int) (s : Bytes) : Action Link Unit := do
  Link.send (← Frame.request Frame.writeMagic addr s.length)
  Link.write (s ++ Word.bytes (checksum s))
  let answer ← Link.receive
  let _ ← Frame.response Frame.writeMagic (Frame.magicOf answer) answer

/-- No bytes are read without asking. -/
def read (addr size : Int) : Action Link Bytes := do
  if size = 0 then return []
  Link.send (← Frame.request Frame.readMagic addr size)
  let answer ← Link.receive
  let stated ← Frame.response Frame.readMagic (Frame.magicOf answer) answer
  let s ← Link.readFull size
  let computed := Word.toInt (checksum s)
  if stated ≠ computed then throw (.dataChecksum stated computed)
  return s

def readWord (addr : Int) : Action Link Word := do
  match Word.unpack (← read addr 4) with
  | w :: _ => return w
  | [] => throw .shortInput

def writeWord (addr v : Int) : Action Link Unit := write addr (Word.bytes (Word.ofInt v))

def readValue (addr : Int) (layout : Layout) : Action Link Value := do
  layout.read (← read addr layout.size)

def access (base : Int) : MemoryAccess Link where
  base
  read := read
  write := write

end Keystream.RemoteMemory
