import Keystream.CommandLine.Run
/-!
The command itself. A run is a calculation on the bytes that wait on its line, so these are read
before it, and what it sent goes out after it.
-/
namespace Keystream.CommandLine

/-- Runs the command; if that opens a line, again on the bytes that wait there. -/
def runOnLine (args : List String) : IO (Outcome Line Exit) := do
  let device ← IO.getEnv "CHACHA_DEVICE"
  let timeout ← IO.getEnv "CHACHA_TIMEOUT"
  let line : Line := { environment := { device, timeout }, waiting := [], limit := none }
  let silent := run args line
  match silent.state.opened with
  | none => return silent
  | some (address, _) =>
    let waiting ← IO.FS.readBinFile address.path
    return run args { line with waiting := waiting.toList }

def sendAll (line : Line) : IO Unit := do
  if let some (address, port) := line.opened then
    let handle ← IO.FS.Handle.mk address.path .append
    handle.write ⟨port.sent.toArray⟩

def report (result : Except Error Exit) : IO UInt32 := do
  match result with
  | .ok (.status code) => return .ofNat code
  | .ok (.usage e) =>
    IO.eprintln s!"error: {e.message}"
    return 2
  | .ok .help =>
    for rule in rules do
      IO.println (String.intercalate ", " rule.names)
    return 0
  | .error e =>
    IO.eprintln s!"error: {e.message}"
    return 1

end Keystream.CommandLine

def main (args : List String) : IO UInt32 := do
  let done ← Keystream.CommandLine.runOnLine args
  Keystream.CommandLine.sendAll done.state
  for text in done.printed do
    IO.print text
  Keystream.CommandLine.report done.result
