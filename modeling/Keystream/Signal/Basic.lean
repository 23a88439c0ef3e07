import Keystream.Action
import Keystream.Machine
/-!
Signals: the numbered requests a program makes of its host, each with one number for an argument and
one for an answer. A host answers them; a channel carries them there.
-/
namespace Keystream

inductive Signal where
  | keyAddress
  | nonceAddress
  | iterations
  | outputAddress
  | displayBytes
  | displayWords
  deriving DecidableEq, Repr

namespace Signal

def code : Signal → Int
  | keyAddress => 0
  | nonceAddress => 1
  | iterations => 2
  | outputAddress => 3
  | displayBytes => 64
  | displayWords => 65

def ofCode? (code : Int) : Option Signal :=
  [keyAddress, nonceAddress, iterations, outputAddress, displayBytes, displayWords].find?
    (·.code == code)

theorem ofCode?_code (s : Signal) : ofCode? s.code = some s := by
  cases s <;> decide

def page : Int := 0x1000000

def packDisplay (addr length : Int) : Int := addr % page + length % 256 * page

/-- What is to be shown: an address within a page, and a length. -/
def unpackDisplay (value : Int) : Int × Int := (value % page, value / page)

theorem unpackDisplay_packDisplay (addr length : Int) :
    unpackDisplay (packDisplay addr length) = (addr % page, length % 256) := by
  simp only [unpackDisplay, packDisplay, page, Prod.mk.injEq]
  omega

/-- The address within the page that holds `base`. -/
def pageAddress (base addr : Int) : Int := base - base % page + addr

end Signal

structure Host (σ : Type) where
  signal : Int → Int → Action σ (Option Int)
  halt : Action σ Unit

structure Channel (σ : Type) where
  signal : Int → Int → Action σ Int
  halt : Action σ Unit

/-- The same host in a larger world, of which it sees the second part only. -/
def Host.beside (host : Host τ) : Host (σ × τ) where
  signal sig value := (host.signal sig value).onSecond
  halt := host.halt.onSecond

def Channel.unconnected : Channel σ where
  signal _ _ := throw .unconnected
  halt := throw .unconnected

namespace Host

def signalTrap : Nat := 4
def haltTrap : Nat := 16

/-- The channel to a host in the same place; no answer counts as zero. -/
def loopback [Machine] (host : Host σ) (traced : Bool) : Channel σ where
  signal sig value := do
    if traced then
      let number ← Machine.decimal sig
      Action.printLine s!"SWI {signalTrap}: signal {number} value=0x{Text.hexFilled 8 value}"
    let answer := (← host.signal sig value).getD 0
    if traced then
      Action.printLine s!"SWI {signalTrap}: -> 0x{Text.hexFilled 8 answer}"
    return answer
  halt := do
    if traced then
      Action.printLine s!"SWI {haltTrap}: halt"
    host.halt

end Host

end Keystream
