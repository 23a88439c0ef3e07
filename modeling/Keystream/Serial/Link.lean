import Keystream.Action
import Keystream.Machine
import Keystream.Serial.Frame
import Keystream.Serial.Port
import Keystream.Text.Hex
/-!
A link: one end of a serial line that carries frames among console text. Text between frames is
shown line by line, unless the console is turned off. Traced links print every frame.
-/
namespace Keystream

structure Link where
  port : Port
  traced : Bool
  /-- Whether console text is shown. -/
  console : Bool := true
  /-- Whether a line of console text is begun and not ended. -/
  lineBegun : Bool := false

namespace Link

def readFull [Machine] (size : Int) : Action Link Bytes := do
  let link ← get
  let (s, port) := link.port.collect size.toNat
  set { link with port }
  if s.length < size.toNat then
    throw (Machine.telling size.toNat (.timeout size.toNat s.length))
  return s

def write (s : Bytes) : Action Link Unit :=
  modify fun link => { link with port := link.port.write s }

def consoleText (begun : Bool) : Bytes → List Char × Bool
  | [] => ([], begun)
  | b :: s =>
    let rest := consoleText (b != 10) s
    ((if begun then [] else "TTY> ".toList) ++ Char.ofNat b.toNat :: rest.1, rest.2)

def showNoise (s : Bytes) : Action Link Unit := do
  let link ← get
  if link.console && !s.isEmpty then
    let (text, lineBegun) := consoleText link.lineBegun s
    set { link with lineBegun }
    Action.print (String.ofList text)

/-- Reads up to the beginning of the next frame, which it gives. -/
def sync : Action Link Bytes := do
  let link ← get
  let found := link.port.hunt .nothing
  set { link with port := found.port }
  showNoise found.noise
  match found.header with
  | some s => return s
  | none => throw (.timeout 1 0)

def trace (arrows : String) (s : Bytes) : Action Link Unit := do
  if (← get).traced then
    let digits := Hex.encode s " "
    Action.printLine s!"{arrows} {digits}"

/-- Reads the next frame; its bytes are given if they state their checksum. -/
def receive [Machine] : Action Link Bytes := do
  let header ← sync
  let s := header ++ (← readFull 12)
  trace ">>" s
  let stated := Frame.statedChecksum s
  let computed := checksum (s.take 12)
  if stated ≠ computed then throw (.frameChecksum (Word.toInt stated) (Word.toInt computed))
  return s

def transmit (body : Bytes) : Action Link Unit := do
  let s := Frame.withChecksum body
  trace "<<" s
  write s

def send (f : Frame) : Action Link Unit := transmit f.body

/-- Names that no field to send may have, for the link has a meaning of its own for them. -/
def reservedNames : List String := ["checksum", "self", "stype"]

/-- Sends the fields of a layout that ends in a checksum, which the link puts in. -/
def sendFields (layout : Layout) (fields : List (String × Value)) : Action Link Unit := do
  if fields.any fun field => reservedNames.contains field.1 then throw .wrongShape
  let s ← layout.write (.record (fields ++ [("checksum", .int 0)]))
  transmit (s.take (s.length - 4))

def reply (magic status response : Int) : Action Link Unit := do
  send (← Frame.reply magic status response)

end Link

end Keystream
