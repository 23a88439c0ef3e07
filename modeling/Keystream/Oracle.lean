import Keystream.Cipher.State
import Keystream.Memory
import Keystream.Signal.Basic
import Keystream.Text.WordDiff
/-!
The oracle: the host of a keystream run. It writes the key and the nonce into the buffers that the
program publishes, says how many blocks to make, and reads the output buffer when that is announced
for the second time.
-/
namespace Keystream

inductive Shown where
  | bytes (s : Bytes)
  | words (ws : List Word)
  deriving DecidableEq, Repr

structure Oracle where
  key : Vector UInt8 32
  nonce : Vector UInt8 12
  iterations : Nat
  traced : Bool
  keyAddress : Option Int := none
  nonceAddress : Option Int := none
  outputAddress : Option Int := none
  announcements : Nat := 0
  halted : Bool := false
  output : Option Bytes := none
  shown : List Shown := []

namespace Oracle

def create [Machine] (key nonce : Bytes) (iterations : Int) (traced : Bool) :
    Except Error Oracle := do
  let key ← State.checkedKey key
  let nonce ← State.checkedNonce nonce
  if iterations < 0 then throw (Machine.telling iterations (.negativeIterations iterations))
  return { key, nonce, iterations := iterations.toNat, traced }

variable {μ : Type} [Machine]

def alter (f : Oracle → Oracle) : Action (μ × Oracle) Unit := Action.onSecond (modify f)

def note (line : String) : Action (μ × Oracle) Unit := do
  if (← get).2.traced then Action.printLine line

/-- The buffer is looked at on its second announcement only. -/
def announce (mem : MemoryAccess μ) (addr : Int) : Action (μ × Oracle) Unit := do
  alter fun o => { o with outputAddress := some addr, announcements := o.announcements + 1 }
  let count := (← get).2.announcements
  if count = 1 then
    note s!"output @ 0x{Text.hexFilled 8 addr} (watching)"
  else if count = 2 then
    let block ← (mem.read addr 64).onFirst
    alter fun o => { o with output := some block }
    let digits := Hex.encode block ""
    note s!"output @ 0x{Text.hexFilled 8 addr}: {digits}"
  else throw .announcedTooOften

def showBytes (mem : MemoryAccess μ) (value : Int) : Action (μ × Oracle) Unit := do
  let (addr, length) := Signal.unpackDisplay value
  let s ← (mem.read (Signal.pageAddress mem.base addr) length).onFirst
  alter fun o => { o with shown := o.shown ++ [.bytes s] }
  Action.printLines (Dump.plain addr s)

/-- A count below zero reads its bytes but spells no words. -/
def showWords (mem : MemoryAccess μ) (value : Int) : Action (μ × Oracle) Unit := do
  let (addr, length) := Signal.unpackDisplay value
  let s ← (mem.read (Signal.pageAddress mem.base addr) (length * 4)).onFirst
  if length < 0 then throw (Machine.telling length .unevenWords)
  alter fun o => { o with shown := o.shown ++ [.words (Word.unpack s)] }
  let words ← Hex.encodeWords s " "
  Action.printLine s!"{Text.hexFilled 8 addr}  {words}"

def answer (mem : MemoryAccess μ) (sig value : Int) : Action (μ × Oracle) Int := do
  let o := (← get).2
  if o.halted then throw (Machine.telling sig (.oracleHalted sig))
  match Signal.ofCode? sig with
  | some .keyAddress =>
    alter fun o => { o with keyAddress := some value }
    (mem.write value o.key.toList).onFirst
    note s!"key @ 0x{Text.hexFilled 8 value}"
    return 0
  | some .nonceAddress =>
    alter fun o => { o with nonceAddress := some value }
    (mem.write value o.nonce.toList).onFirst
    note s!"nonce @ 0x{Text.hexFilled 8 value}"
    return 0
  | some .iterations =>
    let count ← Machine.decimal o.iterations
    note s!"iterations: {count}"
    return o.iterations
  | some .outputAddress =>
    announce mem value
    return 0
  | some .displayBytes =>
    showBytes mem value
    return 0
  | some .displayWords =>
    showWords mem value
    return 0
  | none => throw (Machine.telling sig (.unknownSignal sig value))

/-- A halt counts even if it comes too early. -/
def finish : Action (μ × Oracle) Unit := do
  let o := (← get).2
  if o.halted then throw .haltedTwice
  alter fun o => { o with halted := true }
  if o.output.isNone then throw .haltedEarly
  note "halt"

def host (mem : MemoryAccess μ) : Host (μ × Oracle) where
  signal sig value := do return some (← answer mem sig value)
  halt := finish

/-- Whether the run is over and its output is `expected`; a mismatch is reported by words. -/
def verify (o : Oracle) (expected : Bytes) : Except Error Unit := do
  if !o.halted then throw .notHalted
  match o.output with
  | none => throw .noOutput
  | some output =>
    if output ≠ expected then
      throw (.mismatch (← WordDiff.render expected output true))

end Oracle

end Keystream
