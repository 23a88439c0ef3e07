import Keystream.Bits
import Keystream.Cipher.Standard
import Mathlib.Data.Nat.Bitwise
/-!
Integers of any size and sign modulo `2^32`. Adding, taking the exclusive or and turning them round
and then reducing is the same as reducing them and working on words.
-/
namespace Keystream.Word

theorem toInt_mem_range (w : Word) : 0 ≤ toInt w ∧ toInt w < 0x100000000 := by
  have := w.toNat_lt
  simp only [toInt]
  omega

theorem ofInt_natCast (n : Nat) : ofInt n = .ofNat n := by
  apply UInt32.toNat_inj.1
  simp only [ofInt, UInt32.toNat_ofNat']
  omega

theorem ofInt_negSucc (n : Nat) : ofInt (.negSucc n) = ~~~(.ofNat n) := by
  apply UInt32.toNat_inj.1
  simp only [ofInt, UInt32.toNat_not, UInt32.toNat_ofNat', UInt32.size]
  omega

theorem ofInt_add (x y : Int) : ofInt (x + y) = ofInt x + ofInt y := by
  apply UInt32.toNat_inj.1
  simp only [ofInt, UInt32.toNat_add, UInt32.toNat_ofNat']
  omega

theorem not_xor (v w : Word) : ~~~v ^^^ w = ~~~(v ^^^ w) := by
  apply UInt32.toBitVec_inj.1
  ext i hi
  simp

theorem xor_not (v w : Word) : v ^^^ ~~~w = ~~~(v ^^^ w) := by
  rw [UInt32.xor_comm, not_xor, UInt32.xor_comm]

theorem ofInt_xor (x y : Int) : ofInt (Bits.xor x y) = ofInt x ^^^ ofInt y := by
  cases x <;> cases y <;>
    simp only [Bits.xor, Int.ofNat_eq_natCast, ofInt_natCast, ofInt_negSucc, UInt32.ofNat_xor,
      not_xor, xor_not, UInt32.not_not]

theorem low_eq_toNat (v : Int) : Bits.low 32 v = (ofInt v).toNat := by
  have bound : Nat.pow 2 32 = 0x100000000 := rfl
  rw [Bits.low_eq, bound, ofInt, UInt32.toNat_ofNat']
  omega

theorem rotateLeft_eq_rotate (v : Int) {r : Nat} (hr : 0 < r ∧ r < 32) :
    Bits.rotateLeft 32 v r = (Standard.rotate (ofInt v) r).toNat := by
  have shift : ((r : Int) % (32 : Nat)).toNat = r := by omega
  simp only [Bits.rotateLeft, shift, low_eq_toNat, Bits.truncate_eq, Standard.rotate,
    UInt32.toNat_or, UInt32.toNat_shiftLeft, UInt32.toNat_shiftRight, UInt32.toNat_ofNat']
  generalize (ofInt v).toNat = n
  have hr1 : r % 2 ^ 32 % 32 = r := by omega
  have hr2 : (32 - r) % 2 ^ 32 % 32 = 32 - r := by omega
  rw [hr1, hr2]
  congr 1
  apply Nat.eq_of_testBit_eq
  intro i
  show ((n % 2 ^ (32 - r)) <<< r).testBit i = _
  simp only [Nat.testBit_shiftLeft, Nat.testBit_mod_two_pow]
  grind

end Keystream.Word
