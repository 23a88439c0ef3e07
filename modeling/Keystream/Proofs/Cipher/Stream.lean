import Keystream.Proofs.Cipher.Block
import Mathlib.Data.List.OfFn
/-!
Stretches of blocks. Of `n + 1` blocks the last is the one at the counter `n` further on, and the
input of a block is laid out as the standard has it.
-/
namespace Keystream

namespace Standard

def wordAt (s : Vector UInt8 n) (i : Fin (n / 4)) : Word :=
  Word.ofBytes s[4 * i.val] s[4 * i.val + 1] s[4 * i.val + 2] s[4 * i.val + 3]

/-- Constants, key, counter and nonce, as section 2.3 lays them out. -/
def input (key : Vector UInt8 32) (nonce : Vector UInt8 12) (counter : Word) : Vector Word 16 :=
  let k : Fin 8 → Word := wordAt key
  let n : Fin 3 → Word := wordAt nonce
  #v[0x61707865, 0x3320646e, 0x79622d32, 0x6b206574, k 0, k 1, k 2, k 3, k 4, k 5, k 6, k 7,
    counter, n 0, n 1, n 2]

/-- The last of `count` blocks from `counter` on, spelled in `order`; zeros if there are none. -/
def lastBlock (key : Vector UInt8 32) (nonce : Vector UInt8 12) (counter : Int) (count : Nat)
    (order : ByteOrder) : Bytes :=
  if count = 0 then List.replicate 64 0
  else
    (block (input key nonce (Word.ofInt (counter + count - 1)))).toList.flatMap order.bytes

@[simp] theorem length_lastBlock (key : Vector UInt8 32) (nonce : Vector UInt8 12) (counter : Int)
    (count : Nat) (order : ByteOrder) : (lastBlock key nonce counter count order).length = 64 := by
  unfold lastBlock
  split
  · simp
  · simp [List.length_flatMap]

example :
    lastBlock (.ofFn fun i => .ofNat i) #v[0, 0, 0, 9, 0, 0, 0, 0x4a, 0, 0, 0, 0] 1 1 .little =
      exampleBlock := by
  decide +kernel

end Standard

namespace Word

theorem getElem?_unpack {s : Bytes} {i : Nat} (h : 4 * i + 3 < s.length) :
    (unpack s)[i]? = some (ofBytes s[4 * i] s[4 * i + 1] s[4 * i + 2] s[4 * i + 3]) := by
  fun_induction unpack s generalizing i with
  | case1 a b c d rest ih =>
    cases i with
    | zero => rfl
    | succ i =>
      simp only [List.length_cons] at h
      rw [List.getElem?_cons_succ, ih (by omega)]
      simp only [Nat.mul_add, Nat.mul_one, List.getElem_cons_succ]
  | case2 s none =>
    obtain _ | ⟨a, _ | ⟨b, _ | ⟨c, _ | ⟨d, rest⟩⟩⟩⟩ := s
    case cons.cons.cons.cons => exact absurd rfl (none a b c d rest)
    all_goals
      simp only [List.length_cons, List.length_nil] at h
      omega

theorem unpack_toList (s : Vector UInt8 n) :
    unpack s.toList = List.ofFn (Standard.wordAt s) := by
  apply List.ext_getElem?
  intro i
  by_cases h : i < n / 4
  · rw [getElem?_unpack (by simp; omega), List.getElem?_ofFn, dif_pos h]
    simp only [Standard.wordAt, Vector.getElem_toList]
  · rw [List.getElem?_eq_none (by simp [length_unpack]; omega),
      List.getElem?_eq_none (by simp; omega)]

end Word

namespace State

variable {machine : Machine} (key : Vector UInt8 32) (nonce : Vector UInt8 12)

theorem words_make (counter : Int) :
    (make key nonce counter).words = Standard.input key nonce (Word.ofInt counter) := by
  apply Vector.toList_inj.1
  simp only [make, Word.unpack_toList]
  rfl

theorem advance_make (counter count : Int) :
    (make key nonce counter).advance count = make key nonce (counter + count) := by
  have other (s : State) (t : State) (h : s.words = t.words) : s = t := by
    cases s; cases t; exact congrArg _ h
  apply other
  rw [advance_eq, State.counter, words_make, words_make, Word.ofInt_add]
  rfl

theorem advance_advance (s : State) (m n : Int) : (s.advance m).advance n = s.advance (m + n) := by
  simp only [advance_eq, counter, Vector.getElem_set_self, Vector.set_set, Word.ofInt_add,
    UInt32.add_assoc]

@[simp] theorem advance_zero (s : State) : s.advance 0 = s := by
  rw [advance_eq, counter]
  simp [Word.ofInt]

theorem blocks_succ (order : ByteOrder) (n : Nat) (s : State) (buffer : Bytes) :
    blocks order (n + 1) s buffer = (s.advance n).block order := by
  induction n generalizing s buffer with
  | zero => exact congrArg (·.block order) (advance_zero s).symm
  | succ n ih =>
    rw [blocks, block_eq]
    show blocks order (n + 1) (s.advance 1) _ = _
    rw [ih, advance_advance]
    congr 2
    omega

theorem keystream_eq (s : State) (order : ByteOrder) (n : Nat) {buffer : Bytes}
    (length : buffer.length = 64) :
    s.keystream n buffer (.ok order) =
      .ok (if n = 0 then buffer else ((s.advance (n - 1)).block order).1, s.advance n) := by
  have counted : ¬(n : Int) < 0 := by omega
  have fits : ¬buffer.length ≠ 64 := not_not.2 length
  unfold keystream
  rw [if_neg counted, if_neg fits]
  cases n with
  | zero =>
    show Except.ok (buffer, s) = .ok (buffer, s.advance 0)
    rw [advance_zero]
  | succ n =>
    have last : ((n + 1 : Nat) : Int) - 1 = n := by omega
    rw [if_neg (by omega), if_neg (by omega), last]
    show Except.ok (blocks order (n + 1) s buffer) = _
    rw [blocks_succ, block_eq, advance_advance]
    rfl

/-- A stretch of blocks leaves the standard's block of the last counter, or the buffer if it has
none. -/
theorem keystream_make_over (counter : Int) (order : ByteOrder) (n : Nat) {buffer : Bytes}
    (length : buffer.length = 64) :
    (make key nonce counter).keystream n buffer (.ok order) =
      .ok (if n = 0 then buffer else Standard.lastBlock key nonce counter n order,
        make key nonce (counter + n)) := by
  have last : counter + ((n : Int) - 1) = counter + n - 1 := by omega
  rw [keystream_eq _ _ _ length, advance_make, advance_make, block_eq, words_make, last]
  split
  · rfl
  · next some => rw [Standard.lastBlock, if_neg some]

theorem keystream_make (counter : Int) (order : ByteOrder) (n : Nat) :
    (make key nonce counter).keystream n (List.replicate 64 0) (.ok order) =
      .ok (Standard.lastBlock key nonce counter n order, make key nonce (counter + n)) := by
  rw [keystream_make_over _ _ _ _ _ List.length_replicate]
  split
  · next none => rw [Standard.lastBlock, if_pos none]
  · rfl

end State

end Keystream
