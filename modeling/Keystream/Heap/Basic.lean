import Keystream.Action
import Keystream.Heap.Ledger
import Keystream.Heap.Run
import Keystream.Machine
/-!
The heap: a row of runs over equal blocks between two addresses, and a ledger of the sizes asked
for. Allocation takes the first place that fits.
-/
namespace Keystream

structure Heap where
  start : Int
  block : Int
  count : Int
  runs : List Run
  sizes : Ledger
  deriving DecidableEq, Repr

namespace Heap

def create (start stop block : Int) : Except Error Heap := do
  if block = 0 then throw .divisionByZero
  if start.fmod block ≠ 0 then throw .heapStartUnaligned
  if stop.fmod block ≠ 0 then throw .heapEndUnaligned
  if stop ≤ start then throw .heapEmpty
  let count := (stop - start).fdiv block
  return ⟨start, block, count, [⟨count, false⟩], []⟩

/-- Zero, which asks for nothing, passes too. -/
def isAlignment (align : Int) : Bool :=
  0 ≤ align && align.toNat &&& (align.toNat - 1) == 0

/-- An allocation of no bytes or fewer still gets an address of its own. -/
def blocksFor (block size : Int) : Int := max 1 ((size + block - 1).fdiv block)

def allocate (h : Heap) (align size : Int) : Except Error (Int × Heap) := do
  if !isAlignment align then throw (.notPowerOfTwo align)
  let step := (max align h.block).fdiv h.block
  if step = 0 ∧ h.runs.any (!·.used) then throw .divisionByZero
  match Run.place step (blocksFor h.block size) (h.start.fdiv h.block) h.runs with
  | none => throw .heapExhausted
  | some (pos, runs) =>
    let addr := h.block * pos
    return (addr, { h with runs, sizes := h.sizes.enter addr size })

def allocateBlocks (h : Heap) (size : Int) : Except Error (Int × Heap) := h.allocate h.block size

def release (h : Heap) (addr : Int) : Except Error Heap := do
  if addr.fmod h.block ≠ 0 then throw .freeUnaligned
  if addr < h.start then throw .freeBelow
  let index := (addr - h.start).fdiv h.block
  if h.count ≤ index then throw .freeBeyond
  let runs ← Run.release index h.runs
  match h.sizes.strike? addr with
  | none => throw (.unknownAddress addr)
  | some sizes => return { h with runs, sizes }

def sizeOf (h : Heap) (addr : Int) : Except Error Int :=
  match h.sizes.size? addr with
  | some size => return size
  | none => throw (.unknownAddress addr)

/-- The free and the used bytes, if the runs add up to the whole. -/
def usage (h : Heap) : Except Error (Int × Int) :=
  let free := Run.total false h.runs
  let used := Run.total true h.runs
  if free + used = h.count then return (free * h.block, used * h.block)
  else throw .heapInconsistent

def check [Machine] : Action Heap (Int × Int) := do
  let (free, used) ← (← get).usage
  Action.printLine "Heap stats:"
  let usedText ← Machine.decimal used
  Action.printLine s!" In use: {Text.padLeft 6 usedText} bytes"
  let freeText ← Machine.decimal free
  Action.printLine s!" Free:   {Text.padLeft 6 freeText} bytes"
  return (free, used)

def releaseAt (addr : Int) : Action Heap Unit := .step fun h => do return ((), ← h.release addr)

/-- Runs `body` with an allocation that is given back whatever comes of it. -/
def guarded (size : Int) (body : Int → Action Heap α) : Action Heap α := do
  let addr ← Action.step (·.allocateBlocks size)
  (body addr).ensuring (releaseAt addr)

end Heap

end Keystream
