import Keystream.Serial.Link
import Keystream.Signal.Basic
/-!
The host's end of a link: it reads requests, has a host answer them and sends the replies.
-/
namespace Keystream.HostEnd

variable {η : Type} [Machine]

def statusOf (e : Error) : Frame.Status :=
  match e.kind with
  | .badSignal => .badSignal
  | .value | .index => .invalid
  | _ => .hostFailure

def dispatch (host : Host (Link × η)) (magic : Int) (s : Bytes) :
    Action (Link × η) (Option Int) := do
  if magic ≠ Frame.signalMagic then throw (.unknownRequest magic)
  let request ← Frame.decode s
  host.signal (Word.toInt request.first) (Word.toInt request.second)

/-- Serves one request; `false` for a halt, which gets no reply. A failure of the host is replied to
and passed on. -/
def serveOne (host : Host (Link × η)) : Action (Link × η) Bool := do
  let s ← Link.receive.onFirst
  let magic := Frame.magicOf s
  if magic = Frame.haltMagic then
    host.halt
    return false
  let answer ←
    try dispatch host magic s
    catch e =>
      (Link.reply magic (statusOf e).code 0).onFirst
      throw e
  (Link.reply magic Frame.Status.ok.code (answer.getD 0)).onFirst
  return true

def serveUpTo (host : Host (Link × η)) : Nat → Action (Link × η) Unit
  | 0 => return ()
  | turns + 1 => do
    if ← serveOne host then serveUpTo host turns

/-- Serves requests up to a halt. Each takes bytes off the line, so there are no more of them than
of bytes. -/
def serve (host : Host (Link × η)) : Action (Link × η) Unit := do
  serveUpTo host ((← get).1.port.unread.length + 1)

end Keystream.HostEnd
