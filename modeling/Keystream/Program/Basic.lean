import Keystream.Cipher.Block
import Keystream.Program.Buffers
import Keystream.Signal.Basic
/-!
The program: it publishes its key and nonce buffers, asks how many blocks to make, makes them one
over the other into its output buffer, announces that buffer before and after, and halts. Each step
is taken at its own stage only, and a step whose signal fails can be taken again.
-/
namespace Keystream

/-- How far a run has come. The number of iterations is known from one stage on. -/
inductive Phase where
  | idle
  | keyPublished
  | noncePublished
  | iterationsKnown (count : Int)
  | looping (count : Int)
  | outputAnnounced (count : Int)
  | halted (count : Int)
  deriving DecidableEq, Repr

namespace Phase

def stage : Phase → Stage
  | idle => .idle
  | keyPublished => .keyPublished
  | noncePublished => .noncePublished
  | iterationsKnown _ => .iterationsKnown
  | looping _ => .looping
  | outputAnnounced _ => .outputAnnounced
  | halted _ => .halted

def iterations? : Phase → Option Int
  | idle | keyPublished | noncePublished => none
  | iterationsKnown count | looping count | outputAnnounced count | halted count => some count

end Phase

structure Program where
  buffers : Buffers
  /-- The block counter to begin at, or why there is none. -/
  counter : Except Error Int
  /-- The byte order of the output, or why there is none. -/
  order : Except Error ByteOrder
  traced : Bool
  phase : Phase := .idle

abbrev Target (π : Type) := Memory × π

abbrev Running (π : Type) := Target π × Program

namespace Program

variable {π : Type} [Machine]

def enter (phase : Phase) : Action (Running π) Unit :=
  Action.onSecond (modify fun p => { p with phase })

def memory (a : Action Memory α) : Action (Running π) α := a.onFirst.onFirst

def inBuffers (a : Action (Memory × Buffers) α) : Action (Running π) α := fun ((m, peer), p) =>
  let done := a (m, p.buffers)
  let (m, buffers) := done.state
  ⟨done.result, ((m, peer), { p with buffers }), done.printed⟩

def note (text : String) : Action (Running π) Unit := do
  let p := (← get).2
  if p.traced then Action.printLine s!"[{p.phase.stage.name}] {text}"

def signal (channel : Channel (Target π)) (sig : Signal) (value : Int) :
    Action (Running π) Int := do
  if (← get).2.phase.stage = .halted then throw (.programHalted sig.code)
  (channel.signal sig.code value).onFirst

def showBytes (channel : Channel (Target π)) (addr length : Int) : Action (Running π) Unit := do
  let _ ← signal channel .displayBytes (Signal.packDisplay addr length)

def showWords (channel : Channel (Target π)) (addr length : Int) : Action (Running π) Unit := do
  let _ ← signal channel .displayWords (Signal.packDisplay addr length)

def expect (stage : Stage) : Action (Running π) Unit := do
  let actual := (← get).2.phase.stage
  if actual ≠ stage then throw (.wrongStage stage actual)

def publishKey (channel : Channel (Target π)) : Action (Running π) Unit := do
  expect .idle
  let _ ← signal channel .keyAddress (← get).2.buffers.key
  enter .keyPublished

def publishNonce (channel : Channel (Target π)) : Action (Running π) Unit := do
  expect .keyPublished
  let _ ← signal channel .nonceAddress (← get).2.buffers.nonce
  enter .noncePublished

def requestIterations (channel : Channel (Target π)) : Action (Running π) Int := do
  expect .noncePublished
  let count ← signal channel .iterations 0
  enter (.iterationsKnown count)
  let number ← Machine.decimal count
  note s!"iterations={number}"
  return count

def expectIterations : Action (Running π) Int := do
  match (← get).2.phase with
  | .iterationsKnown count => return count
  | phase => throw (.wrongStage .iterationsKnown phase.stage)

/-- More blocks than have a number that can be written are never made. -/
def loop (s : State) (count : Int) : Action (Running π) Bytes := do
  let p := (← get).2
  let before ← memory (Memory.read p.buffers.output 64)
  let (block, s) ← s.keystream count before p.order
  Action.onSecond (modify fun p => { p with buffers := { p.buffers with loaded := some s } })
  memory (Memory.write p.buffers.output block)
  inBuffers Buffers.storeState
  note s!"{count} blocks, counter now {Text.markedHex (Word.toInt s.counter)}"
  return block

/-- The key and the nonce are read before the first announcement, the output buffer after it. -/
def generate (channel : Channel (Target π)) : Action (Running π) Bytes := do
  let count ← expectIterations
  let p := (← get).2
  let counter ← p.counter
  let s ← inBuffers (Buffers.loadState counter)
  note s!"state {s.describe}"
  let _ ← signal channel .outputAddress p.buffers.output
  enter (.looping count)
  let block ← loop s count
  let _ ← signal channel .outputAddress p.buffers.output
  enter (.outputAnnounced count)
  return block

/-- The program has halted even if its host objects. -/
def halt (channel : Channel (Target π)) : Action (Running π) Unit := do
  match (← get).2.phase with
  | .outputAnnounced count =>
    enter (.halted count)
    channel.halt.onFirst
  | phase => throw (.wrongStage .outputAnnounced phase.stage)

def run (channel : Channel (Target π)) : Action (Running π) Bytes := do
  publishKey channel
  publishNonce channel
  let _ ← requestIterations channel
  let block ← generate channel
  halt channel
  return block

end Program

end Keystream
