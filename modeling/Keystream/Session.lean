import Keystream.Oracle
import Keystream.Program.Basic
import Keystream.Serial.HostEnd
import Keystream.Serial.Line
import Keystream.Serial.ProgramEnd
import Keystream.Serial.RemoteMemory
/-!
Whole runs: program and oracle in one place, or one of them at an end of a serial line. The
program's buffers are given back whatever comes of a run.
-/
namespace Keystream.Session

def memoryBase : Int := 0x02000000
def memorySize : Int := 0x40000

/-- What a program is told besides its memory. A counter or an order that there is not fails the run
where it is first needed. -/
structure Task where
  counter : Except Error Int := .ok 1
  order : Except Error ByteOrder := .ok .little
  traced : Bool := false

structure Quest where
  key : Bytes
  nonce : Bytes
  iterations : Int := 1
  traced : Bool := false

variable [Machine]

def Quest.oracle (quest : Quest) : Except Error Oracle :=
  Oracle.create quest.key quest.nonce quest.iterations quest.traced

def runProgram (task : Task) (channel : Channel (Target π)) : Action (Target π) Bytes := do
  let buffers ← Buffers.allocate.onFirst
  let program : Program :=
    { buffers, counter := task.counter, order := task.order, traced := task.traced }
  let (block, _) ←
    (Action.withLocal program (Program.run channel)).ensuring buffers.release.onFirst
  return block

/-- Runs program and oracle on one memory and gives the oracle after the halt. -/
def runLoopback (task : Task) (quest : Quest) : Action Memory Oracle := do
  let oracle ← quest.oracle
  let access := Memory.access (← get).base
  let channel := (Oracle.host access).loopback quest.traced
  let (_, oracle) ← Action.withLocal oracle (runProgram task channel)
  return oracle

def runHost (device : Option String) (quest : Quest) : Action (Line × μ) Oracle :=
  Line.connect device quest.traced <| Action.onSecond do
    let oracle ← quest.oracle
    let host := Oracle.host (RemoteMemory.access memoryBase)
    let (_, oracle) ← Action.withLocal oracle (HostEnd.serve host)
    return oracle

/-- Runs the program at its end of a line and gives the last block. -/
def runTarget (device : Option String) (task : Task) : Action (Line × Memory) Bytes := do
  let access := Memory.access (← get).2.base
  Line.connect device task.traced (runProgram task (ProgramEnd.channel (some access)))

end Keystream.Session
