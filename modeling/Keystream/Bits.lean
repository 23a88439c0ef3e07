import Keystream.Machine
/-!
Integers as endless rows of bits: negative ones end in ones for ever. Rotation takes the lowest
`width` bits and turns them round.
-/
namespace Keystream.Bits

/-- The lowest `width` bits of a number. The power of two, which may be far larger than the number,
is made only if there are bits to cut off. -/
def truncate (width n : Nat) : Nat := if n >>> width = 0 then n else n % Nat.pow 2 width

def low (width : Nat) : Int → Nat
  | .ofNat n => truncate width n
  | .negSucc n => (Int.negSucc n % Nat.pow 2 width).toNat

def xor : Int → Int → Int
  | .ofNat m, .ofNat n => (m ^^^ n : Nat)
  | .negSucc m, .negSucc n => (m ^^^ n : Nat)
  | .ofNat m, .negSucc n => .negSucc (m ^^^ n)
  | .negSucc m, .ofNat n => .negSucc (m ^^^ n)

/-- Bit `i` of the result is the bit of `v` that stands `r` places lower, round the `width`. -/
def rotateLeft (width : Nat) (v r : Int) : Nat :=
  let bits := low width v
  let shift := (r % width).toNat
  truncate (width - shift) bits <<< shift ||| bits >>> (width - shift)

theorem truncate_eq (width n : Nat) : truncate width n = n % Nat.pow 2 width := by
  unfold truncate
  split
  · next h =>
    rw [Nat.shiftRight_eq_div_pow] at h
    have small := (Nat.div_eq_zero_iff_lt (Nat.two_pow_pos width)).1 h
    exact (Nat.mod_eq_of_lt small).symm
  · rfl

theorem low_eq (width : Nat) (v : Int) : low width v = (v % Nat.pow 2 width).toNat := by
  cases v with
  | ofNat n => rw [low, truncate_eq, Int.ofNat_eq_natCast, ← Int.natCast_emod, Int.toNat_natCast]
  | negSucc n => rfl

section

variable [Machine]

/-- What keeps a row of `width` bits from being cut off, for which the next power of two is made. -/
def checkWidth (width : Int) : Except Error Unit := do
  if width < 0 then throw .negativeShift
  Machine.checkRoom (Machine.integerSize (1 + Machine.bitDigits width))

/-- What keeps a row of bits from being moved up, before what stands above its width is cut off. -/
def checkShift (bits : Nat) (shift : Int) : Except Error Unit := do
  if bits ≠ 0 then
    Machine.checkRoom
      (Machine.integerSize (Machine.bitDigits (bits.log2 + 1) + Machine.bitDigits shift))

/-- Bits are cut off before they are turned, and an empty row cannot be turned. -/
def rotateLeft? (v r width : Int) : Except Error Int := do
  checkWidth width
  if width = 0 then throw .divisionByZero
  checkShift (low width.toNat v) (r % width)
  return rotateLeft width.toNat v r

/-- How far to turn is worked out first. -/
def rotateRight? (v r width : Int) : Except Error Int := do
  if width = 0 then throw .divisionByZero
  rotateLeft? v (width - r % width) width

end

end Keystream.Bits
