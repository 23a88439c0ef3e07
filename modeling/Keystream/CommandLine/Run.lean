import Keystream.CommandLine.Options
import Keystream.Session
/-!
The command: it runs a program, an oracle, or both in one place, and compares the output with what
is expected of it.
-/
namespace Keystream.CommandLine

inductive Exit where
  | status (code : Nat)
  | usage (e : UsageError)
  | help
  deriving DecidableEq, Repr

namespace Settings

def task (s : Settings) : Session.Task where
  counter := s.counter.orElse 1
  order := s.order.orElse "little" >>= ByteOrder.ofName
  traced := s.traced

def quest (s : Settings) (iterations : Int) : Session.Quest where
  key := s.key
  nonce := s.nonce
  iterations
  traced := s.traced

/-- The block to expect: the one given, or that of the standard's example if the run is its own. -/
def expectation (s : Settings) (iterations : Int) : Option Bytes :=
  if s.expected.isSome then s.expected
  else if s.key = Standard.exampleKey ∧ s.nonce = Standard.exampleNonce ∧ iterations = 1 ∧
      s.counter ∈ [.absent, .value 1] ∧ s.order ∈ [.absent, .value "little"] then
    some Standard.exampleBlock
  else none

end Settings

variable [Machine]

def memory : Except Error Memory :=
  Memory.create Session.memorySize Session.memoryBase none false

def actAsProgram (s : Settings) : Action Line Unit := do
  let (block, _) ← Action.withLocal (← memory) (Session.runTarget (some s.serve) s.task)
  Action.printLines (Dump.plain 0 block)

def runOracle (s : Settings) (iterations : Int) : Action Line Oracle := do
  let quest := s.quest iterations
  if s.device ≠ "" then
    let (oracle, _) ← Action.withLocal () (Session.runHost (some s.device) quest)
    return oracle
  else
    let (oracle, _) ← Action.withLocal (← memory) (Session.runLoopback s.task quest).onSecond
    return oracle

def judge (oracle : Oracle) : Option Bytes → Action σ Nat
  | none => return 0
  | some expected =>
    match oracle.verify expected with
    | .ok () => do
      Action.printLine "PASS"
      return 0
    | .error (.mismatch diff) => do
      Action.printLine ("FAIL: " ++ (Error.mismatch diff).message)
      return 1
    | .error e => throw e

def execute (s : Settings) (iterations : Int) : Action Line Nat := do
  if s.serve ≠ "" then
    actAsProgram s
    return 0
  let oracle ← runOracle s iterations
  let count ← Machine.decimal iterations
  Action.printLine s!"Output after {count} iteration(s):"
  Action.printLines (Dump.plain 0 (oracle.output.getD []))
  judge oracle (s.expectation iterations)

def run (args : List String) : Action Line Exit := do
  match read rules {} args with
  | .error e => return .usage e
  | .ok none => return .help
  | .ok (some s) =>
    let iterations ← s.iterations.orElse 1
    match s.check iterations with
    | .error e => return .usage e
    | .ok () => return .status (← execute s iterations)

end Keystream.CommandLine
