import Keystream.Cipher.Block
import Keystream.Proofs.Cipher.Rounds
/-!
Blocks made by the rounds on integers are the standard's blocks. The counter moves on by one with
each block, modulo `2^32`, and nothing else of the state moves.
-/
namespace Keystream.State

open Keystream.Action Word

theorem blockWords_eq (s : State) : s.blockWords = (Standard.block s.words).toList := by
  have same : s.integers = Round.integers s.words := rfl
  have mixed : ((Round.doubleRounds 10).run (Round.integers s.words)).state =
      Round.integers (Standard.rounds 10 s.words) :=
    (Prod.mk.inj (Round.effect_doubleRounds 10 s.words)).2
  have sum (x w : Word) : ofInt (toInt x + toInt w) = x + w := by
    rw [ofInt_add, ofInt_toInt, ofInt_toInt]
  rw [blockWords, same, mixed]
  simp only [Round.integers, Standard.block, Vector.toList_zipWith, List.zipWith_map, sum]

theorem advance_eq (s : State) (count : Int) :
    s.advance count = ⟨s.words.set 12 (s.counter + ofInt count) (by decide)⟩ := by
  rw [advance, setCounter, ofInt_add, ofInt_toInt]

theorem block_eq (s : State) (order : ByteOrder) :
    s.block order = ((Standard.block s.words).toList.flatMap order.bytes, s.advance 1) := by
  rw [block, blockWords_eq]

theorem ofName_eq (name : String) :
    ByteOrder.ofName name =
      if name = "little" ∨ name = "native" then .ok .little
      else if name = "big" then .ok .big
      else .error (.unknownByteOrder name) := by
  unfold ByteOrder.ofName ByteOrder.named
  simp only [List.lookup_cons, List.lookup_nil]
  by_cases big : name = "big"
  · subst big; rfl
  · by_cases little : name = "little"
    · subst little; rfl
    · by_cases native : name = "native"
      · subst native; rfl
      · simp only [beq_false_of_ne big, beq_false_of_ne little, beq_false_of_ne native, little,
          native, or_self, big, if_false]
        rfl

/-- A block asked for by the name of a byte order is the standard's block of the state, spelled in
that order, and counts the state on; for any other name nothing is made and the state stays. -/
theorem blockNamed_eq_standard (s : State) (name : String) :
    (step (blockNamed · name)).effect s =
      (if name = "little" ∨ name = "native" then
        (.ok (pack (Standard.block s.words).toList), ⟨s.words.set 12 (s.counter + 1) (by decide)⟩)
      else if name = "big" then
        (.ok ((Standard.block s.words).toList.flatMap fun w => (bytes w).reverse),
          ⟨s.words.set 12 (s.counter + 1) (by decide)⟩)
      else (.error (.unknownByteOrder name), s)) ∧
    (Error.unknownByteOrder name).kind = .value := by
  have next : s.advance 1 = ⟨s.words.set 12 (s.counter + 1) (by decide)⟩ := advance_eq s 1
  refine ⟨?_, rfl⟩
  rw [effect_step, blockNamed, ofName_eq]
  by_cases little : name = "little" ∨ name = "native"
  · rw [if_pos little, if_pos little]
    show ((.ok (s.block .little).1, (s.block .little).2) : Except Error Bytes × State) = _
    rw [block_eq, next]
    rfl
  · rw [if_neg little, if_neg little]
    by_cases big : name = "big"
    · rw [if_pos big, if_pos big]
      show ((.ok (s.block .big).1, (s.block .big).2) : Except Error Bytes × State) = _
      rw [block_eq, next]
      rfl
    · rw [if_neg big, if_neg big]
      rfl

end Keystream.State
