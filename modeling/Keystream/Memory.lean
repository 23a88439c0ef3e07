import Keystream.Machine
import Keystream.Heap.Basic
import Keystream.Layout
import Keystream.Text.Dump
/-!
Memory: consecutive bytes from a base address on, with a heap over part of them. An access lies
wholly inside or fails and changes nothing. Traced memory prints a dump of everything read and
written.
-/
namespace Keystream

structure Memory where
  base : Int
  bytes : Array UInt8
  heap : Heap
  traced : Bool

namespace Memory

def size (m : Memory) : Nat := m.bytes.size

/-- The heap takes the space from `heapStart` to the end, all of it if that is not given. -/
def create [Machine] (size base : Int) (heapStart : Option Int) (traced : Bool) :
    Except Error Memory := do
  Machine.checkRoom size
  if size < 0 then throw .negativeSize
  let heap ← Heap.create (heapStart.getD base) (base + size) 16
  return ⟨base, Array.replicate size.toNat 0, heap, traced⟩

def offset (m : Memory) (addr size : Int) : Except Error Nat :=
  if addr < m.base ∨ m.base + m.size < addr + size then
    throw (.outside addr size m.base (m.base + m.size))
  else return (addr - m.base).toNat

/-- A size below zero reads up to a cut that counts back from the end of memory. -/
def slice (m : Memory) (first : Nat) (size : Int) : Bytes :=
  (m.bytes.extract first (cut m.size (first + size))).toList

def bytesAt (m : Memory) (addr size : Int) : Except Error Bytes := do
  return m.slice (← m.offset addr size) size

def overwrite (bytes : Array UInt8) (first : Nat) : Bytes → Array UInt8
  | [] => bytes
  | b :: s => overwrite (bytes.setIfInBounds first b) (first + 1) s

def put (m : Memory) (addr : Int) (s : Bytes) : Except Error Memory := do
  let first ← m.offset addr s.length
  return { m with bytes := overwrite m.bytes first s }

@[simp] theorem size_overwrite (bytes : Array UInt8) (first : Nat) (s : Bytes) :
    (overwrite bytes first s).size = bytes.size := by
  induction s generalizing bytes first with
  | nil => rfl
  | cons b s ih => simp [overwrite, ih]

theorem getElem?_overwrite (bytes : Array UInt8) (first : Nat) (s : Bytes) (i : Nat)
    (h : first + s.length ≤ bytes.size) :
    (overwrite bytes first s)[i]? =
      if first ≤ i ∧ i < first + s.length then s[i - first]? else bytes[i]? := by
  induction s generalizing bytes first with
  | nil => simp only [overwrite, List.length_nil]; grind
  | cons b s ih =>
    simp only [overwrite, List.length_cons] at h ⊢
    rw [ih _ _ (by simp only [Array.size_setIfInBounds]; omega)]
    grind

def trace (arrows : String) (addr : Int) (s : Bytes) : Action Memory Unit := do
  if (← get).traced then
    Action.printLine s!"{arrows} MEM {Text.markedHex addr}:"
    Action.printLines (Dump.plain addr s)

def read (addr size : Int) : Action Memory Bytes := do
  let s ← (← get).bytesAt addr size
  trace ">>" addr s
  return s

def write (addr : Int) (s : Bytes) : Action Memory Unit := do
  let written ← (← get).put addr s
  trace "<<" addr s
  set written

def aligned (addr : Int) : Action Memory Unit := do
  if addr % 4 ≠ 0 then throw .misaligned

def readWord (addr : Int) : Action Memory Word := do
  aligned addr
  match Word.unpack (← read addr 4) with
  | w :: _ => return w
  | [] => throw .shortInput

def writeWord (addr v : Int) : Action Memory Unit := do
  aligned addr
  write addr (Word.bytes (Word.ofInt v))

def readValue (addr : Int) (layout : Layout) : Action Memory Value := do
  layout.read (← read addr layout.size)

/-- The value is laid out before the address is looked at. -/
def writeValue (addr : Int) (layout : Layout) (value : Value) : Action Memory Unit := do
  write addr (← layout.write value)

/-- A size below zero fills nothing. The range is looked at before the bytes are made. -/
def fill [Machine] (addr value size : Int) : Action Memory Unit := do
  Machine.checkRoom size
  let _ ← (← get).offset addr (max size 0)
  write addr (List.replicate size.toNat (.ofNat (value % 256).toNat))

def allocate [Machine] (size align : Int) : Action Memory Int := do
  let addr ← Action.step fun m => do
    let (addr, heap) ← m.heap.allocate align size
    return (addr, { m with heap })
  fill addr 0 size
  return addr

def release (addr : Int) : Action Memory Unit := .step fun m => do
  return ((), { m with heap := ← m.heap.release addr })

end Memory

/-- Memory as a host sees it: beside it, or at the other end of a line. -/
structure MemoryAccess (σ : Type) where
  base : Int
  read : Int → Int → Action σ Bytes
  write : Int → Bytes → Action σ Unit

namespace Memory

def access (base : Int) : MemoryAccess Memory where
  base
  read := read
  write := write

def ifPresent (a : Action Memory α) : Action (Option Memory) α
  | none => ⟨.error .noMemory, none, []⟩
  | some m =>
    let done := a m
    ⟨done.result, some done.state, done.printed⟩

def accessIfPresent (base : Int) : MemoryAccess (Option Memory) where
  base
  read addr size := ifPresent (read addr size)
  write addr s := ifPresent (write addr s)

end Memory

end Keystream
