import Keystream.Memory
import Keystream.Serial.Link
import Keystream.Signal.Basic
/-!
The program's end of a link. While it waits for the answer to a signal it serves the host's requests
to read and write its memory; it waits without a timeout, for it has nothing else to do.
-/
namespace Keystream.ProgramEnd

variable {μ : Type} [Machine]

def inside (a : Action σ α) : Action σ (Option α) := do
  try
    return some (← a)
  catch e =>
    if e.kind = .index then return none else throw e

/-- Takes in the bytes to write and their checksum before anything is answered. -/
def serveWrite (mem : MemoryAccess μ) (magic : Int) (request : Frame) : Action (μ × Link) Unit := do
  let s ← (Link.readFull request.second.toNat).onSecond
  let stated ← (Link.readFull 4).onSecond
  if stated ≠ Word.bytes (checksum s) then
    (Link.reply magic Frame.Status.checksumFailed.code 0).onSecond
  else
    match ← inside (mem.write (Word.toInt request.first) s).onFirst with
    | some _ => (Link.reply magic Frame.Status.ok.code 0).onSecond
    | none => (Link.reply magic Frame.Status.invalid.code 0).onSecond

def serveRead (mem : MemoryAccess μ) (magic : Int) (request : Frame) : Action (μ × Link) Unit := do
  match ← inside (mem.read (Word.toInt request.first) (Word.toInt request.second)).onFirst with
  | some s => Action.onSecond do
    Link.reply magic Frame.Status.ok.code (Word.toInt (checksum s))
    Link.write s
  | none => (Link.reply magic Frame.Status.invalid.code 0).onSecond

/-- Serves a memory request, which spells an address and a size. Too large a one is turned down with
its bytes unread. -/
def serve (mem : MemoryAccess μ) (magic : Int) (s : Bytes) : Action (μ × Link) Unit := do
  let request ← Frame.decode s
  if Frame.maxTransfer < Word.toInt request.second then
    (Link.reply magic Frame.Status.invalid.code 0).onSecond
  else if magic = Frame.writeMagic then serveWrite mem magic request
  else serveRead mem magic request

/-- Waits for the reply to `magic` and serves memory requests meanwhile. Each turn takes bytes off
the line, so that there is an end to the turns when there is one to the bytes. -/
def await (mem : Option (MemoryAccess μ)) (magic : Int) : Nat → Action (μ × Link) Int
  | 0 => throw (.timeout 1 0)
  | turns + 1 => do
    let s ← Link.receive.onSecond
    let got := Frame.magicOf s
    match mem with
    | some mem =>
      if got = Frame.readMagic ∨ got = Frame.writeMagic then
        serve mem got s
        await (some mem) magic turns
      else Frame.response magic got s
    | none => Frame.response magic got s

def setTimeout (timeout : Option Seconds) : Action Link Unit :=
  modify fun link => { link with port := { link.port with timeout } }

def request (mem : Option (MemoryAccess μ)) (magic first second : Int) :
    Action (μ × Link) Int := do
  Action.onSecond do
    Link.send (← Frame.request magic first second)
  let port := (← get).2.port
  (setTimeout none).onSecond
  (await mem magic (port.unread.length + 1)).ensuring (setTimeout port.timeout).onSecond

/-- The channel over the link. The argument of a signal is cut to a word, and a halt is not
answered. -/
def channel (mem : Option (MemoryAccess μ)) : Channel (μ × Link) where
  signal sig value := request mem Frame.signalMagic sig (Word.toInt (Word.ofInt value))
  halt := Action.onSecond do
    Link.send (← Frame.request Frame.haltMagic 0 0)

end Keystream.ProgramEnd
