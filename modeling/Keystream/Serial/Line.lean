import Keystream.Serial.Link
import Keystream.Text.Numeral
/-!
Serial lines: which port to open and how, and the port once it is open. What is not asked for is
looked up in the environment.
-/
namespace Keystream

structure Environment where
  device : Option String := none
  timeout : Option String := none

structure PortAddress where
  path : String
  baud : Int
  timeout : Seconds

namespace PortAddress

def splitAtLastColon (s : List Char) : Option (List Char × List Char) :=
  if s.contains ':' then
    let back := s.reverse
    some ((back.dropWhile (· != ':')).tail.reverse, (back.takeWhile (· != ':')).reverse)
  else none

def readSeconds (text : String) : Except Error Seconds :=
  match Decimal.read? text with
  | some x => return .real x
  | none => throw (.notDecimal text)

def readBaud [Machine] (text : String) : Except Error Int :=
  match Numeral.read text with
  | .ok n => return n
  | .error .malformed => throw (.notInteger text)
  | .error (.tooLong digits) => throw (.tooManyDigits Machine.digits (some digits))

/-- The timeout is worked out before the device is taken apart. -/
def resolve [Machine] (environment : Environment) (device : Option String)
    (timeout : Option Seconds) : Except Error PortAddress := do
  let device := device.getD (environment.device.getD "/dev/ttyACM0:115200")
  let timeout ← match timeout with
    | some seconds => pure seconds
    | none => readSeconds (environment.timeout.getD "3")
  match splitAtLastColon device.toList with
  | none => return ⟨device, 115200, timeout⟩
  | some (path, baud) => return ⟨String.ofList path, ← readBaud (String.ofList baud), timeout⟩

end PortAddress

/-- A line with the bytes that wait on it, and its port once that is open. -/
structure Line where
  environment : Environment
  waiting : Bytes
  limit : Option Nat
  opened : Option (PortAddress × Port) := none

namespace Line

/-- Opens a port and acts on a link over it, beside a further state. -/
def connect [Machine] (device : Option String) (traced : Bool) (a : Action (μ × Link) α) :
    Action (Line × μ) α := fun (line, m) =>
  match PortAddress.resolve line.environment device none with
  | .error e => ⟨.error e, (line, m), []⟩
  | .ok address =>
    let port : Port :=
      { unread := line.waiting, limit := line.limit, timeout := some address.timeout }
    let done := a (m, { port, traced })
    let (m, link) := done.state
    ⟨done.result, ({ line with opened := some (address, link.port) }, m), done.printed⟩

end Line

end Keystream
