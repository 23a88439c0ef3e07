import Keystream.Error
/-!
The machine that everything runs on: what it has room for, and how long the numbers may be that it
reads and writes in base ten. What exceeds it fails before it is made.
-/
namespace Keystream

def Machine.limit : Int := 0x8000000000000000

/-- What machines differ in. A mebibyte has room on each of them, and one that bounds the length of
numbers at all lets 640 digits pass. -/
class Machine where
  /-- So many bytes find no room in one place. -/
  room : Int
  /-- How many digits a number may have in base ten; zero sets no bound. -/
  digits : Nat
  ample : 0x100000 ≤ room
  counted : room ≤ Machine.limit
  legible : digits = 0 ∨ 640 ≤ digits

namespace Machine

/-- The machine for which no other one is given. -/
instance (priority := low) stock : Machine where
  room := 0x1000000000
  digits := 4300
  ample := by decide
  counted := by decide
  legible := by decide

def bitDigits (bits : Int) : Int := (bits + 29) / 30

def integerSize (digits : Int) : Int := 24 + 4 * digits

variable [Machine]

/-- What keeps `size` bytes from being made, of which a negative number may mean none. -/
def checkRoom (size : Int) : Except Error Unit := do
  if size < -limit ∨ limit ≤ size then throw .sizeTooLarge
  if room ≤ size then throw .noRoom

/-- Whether a number can be written in base ten. -/
def Spells (n : Int) : Prop := digits = 0 ∨ (Nat.toDigits 10 n.natAbs).length ≤ digits

instance (n : Int) : Decidable (Spells n) := inferInstanceAs (Decidable (_ ∨ _))

/-- What is raised instead of `e`, whose message tells `n`, if `n` cannot be written. -/
def telling (n : Int) (e : Error) : Error :=
  if Spells n then e else .tooManyDigits digits none

def decimal (n : Int) : Except Error String :=
  if Spells n then return toString n else throw (.tooManyDigits digits none)

end Machine

end Keystream
