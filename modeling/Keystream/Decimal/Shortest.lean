/-!
The shortest decimal that reads back as a binary number. The reals that round to `m * 2^q` form an
interval; of the decimals in it, those with the fewest digits, and of those the nearest.
-/
namespace Keystream.Decimal

/-- A binary number with its place among its neighbours. -/
structure Binary where
  m : Nat
  q : Int
  /-- Whether the neighbour below is only half as far away as the one above. -/
  narrow : Bool

structure Scientific where
  digits : Nat
  exponent : Int

def twos (k : Int) : Nat := Nat.pow 2 k.toNat

def tens (k : Int) : Nat := Nat.pow 10 k.toNat

namespace Binary

def quarter (b : Binary) : Nat × Nat := (twos (b.q - 2), twos (2 - b.q))

def bounds (b : Binary) : Nat × Nat :=
  (4 * b.m - (if b.narrow then 1 else 2), 4 * b.m + 2)

/-- Whether `c * 10^t` rounds to `b`; the ends of the interval do if `m` is even. -/
def covers (b : Binary) (t : Int) (c : Nat) : Bool :=
  let (a, d) := b.quarter
  let value := c * tens t * d
  let scale := a * tens (-t)
  let (low, high) := b.bounds
  if b.m % 2 = 0 then low * scale ≤ value && value ≤ high * scale
  else low * scale < value && value < high * scale

def steps (b : Binary) (t : Int) : Nat :=
  let (a, d) := b.quarter
  4 * b.m * a * tens (-t) / (d * tens t)

def leading (b : Binary) : Int :=
  let whole := b.steps 0
  if whole ≠ 0 then (Nat.toDigits 10 whole).length - 1
  else -((List.range 400).findIdx fun (j : Nat) => b.steps (-j) ≠ 0)

/-- Whether `c` steps lie nearer than `c + 1`; a tie goes to the even count. -/
def prefersLower (b : Binary) (t : Int) (c : Nat) : Bool :=
  let (a, d) := b.quarter
  let middle := (2 * c + 1) * tens t * d
  let value := 8 * b.m * a * tens (-t)
  value < middle || (value == middle && c % 2 == 0)

/-- The decimal of the grid `10^t` that rounds to `b`, if there is one. -/
def onGrid (b : Binary) (t : Int) : Option Scientific :=
  let c := b.steps t
  if b.covers t c && (b.prefersLower t c || !b.covers t (c + 1)) then some ⟨c, t⟩
  else if b.covers t (c + 1) then some ⟨c + 1, t⟩
  else none

/-- Seventeen digits are always enough. -/
def shortest (b : Binary) : Scientific :=
  ((List.range 17).findSome? fun (k : Nat) => b.onGrid (b.leading - k)).getD
    ⟨b.steps (b.leading - 16), b.leading - 16⟩

end Binary

end Keystream.Decimal
