import Keystream.Proofs.Cipher.Stream
import Keystream.Proofs.Machine
/-!
A stretch of blocks as a jump. Blocks are written one over the other, so that of a whole stretch the
buffer shows the last one only, which the state makes at once when its counter is moved up to it. A
call that cannot be served leaves state and buffer as they are.
-/
namespace Keystream

namespace ByteOrder

theorem exists_ofName {name : String} (known : name ∈ names) :
    ∃ order, ofName name = .ok order := by
  simp only [names, named, List.map_cons, List.map_nil, List.mem_cons, List.not_mem_nil,
    or_false] at known
  rcases known with rfl | rfl | rfl <;> exact ⟨_, rfl⟩

theorem ofName_of_not_mem {name : String} (unknown : name ∉ names) :
    ofName name = .error (.unknownByteOrder name) := by
  have absent : named.lookup name = none :=
    List.lookup_eq_none_iff.2 fun entry member =>
      bne_iff_ne.2 fun same => unknown (List.mem_map.2 ⟨entry, member, same.symm⟩)
  rw [ofName, absent]
  rfl

end ByteOrder

namespace State

open Keystream.Action

/-- A stretch of blocks in the place of what a buffer holds, in an order asked for by name. -/
def keystreamOver [Machine] (count : Int) (name : String) : Action (State × Bytes) Unit :=
  .step fun (s, buffer) => do
    let (block, s) ← s.keystream count buffer (ByteOrder.ofName name)
    return ((), s, block)

def overwriteBlock (name : String) : Action (State × Bytes) Unit := do
  let block ← (Action.step (blockNamed · name)).onFirst
  Action.onSecond (set block)

def overwriteBlocks (name : String) : Nat → Action (State × Bytes) Unit
  | 0 => Pure.pure ()
  | n + 1 => do
    overwriteBlock name
    overwriteBlocks name n

/-- What is wrong with asking for `count` blocks over a buffer of `length` bytes. -/
def keystreamFault [Machine] (count : Int) (length : Nat) (name : String) : Option Error :=
  if count < 0 then some (Machine.telling count (.negativeIterations count))
  else if length ≠ 64 then some (.bufferLength length)
  else if 0 < count ∧ name ∉ ByteOrder.names then some (.unknownByteOrder name)
  else none

section

variable {machine : Machine} {s : State} {name : String} {order : ByteOrder} {buffer : Bytes}

theorem effect_blockNamed (known : ByteOrder.ofName name = .ok order) :
    (step (blockNamed · name)).effect s = (.ok (s.block order).1, s.advance 1) := by
  rw [effect_step, blockNamed, known]
  rfl

theorem effect_overwriteBlock (known : ByteOrder.ofName name = .ok order) :
    (overwriteBlock name).effect (s, buffer) = (.ok (), (s.advance 1, (s.block order).1)) := by
  rw [overwriteBlock, effect_bind, effect_onFirst, effect_blockNamed known]
  rfl

theorem effect_overwriteBlock_of_not_mem (unknown : name ∉ ByteOrder.names) :
    (overwriteBlock name).effect (s, buffer) = (.error (.unknownByteOrder name), (s, buffer)) := by
  rw [overwriteBlock, effect_bind, effect_onFirst, effect_step, blockNamed,
    ByteOrder.ofName_of_not_mem unknown]
  rfl

theorem overwriteBlocks_add (name : String) (m n : Nat) :
    overwriteBlocks name (m + n) = overwriteBlocks name m >>= fun _ => overwriteBlocks name n := by
  induction m with
  | zero => rw [Nat.zero_add, overwriteBlocks, pure_bind]
  | succ m ih =>
    rw [Nat.succ_add, overwriteBlocks, overwriteBlocks, ih, bind_assoc]

theorem effect_overwriteBlocks (known : ByteOrder.ofName name = .ok order) (n : Nat) :
    (overwriteBlocks name n).effect (s, buffer) = (.ok (), (blocks order n s buffer).swap) := by
  induction n generalizing s buffer with
  | zero => rw [overwriteBlocks, effect_pure]; rfl
  | succ n ih =>
    rw [overwriteBlocks, effect_bind_of_ok (effect_overwriteBlock known), ih]
    rfl

theorem effect_keystreamOver (s : State) (name : String) (n : Nat) (length : buffer.length = 64) :
    (keystreamOver n name).effect (s, buffer) = (overwriteBlocks name n).effect (s, buffer) := by
  have counted : ¬(n : Int) < 0 := by omega
  have fits : ¬buffer.length ≠ 64 := not_not.2 length
  unfold keystreamOver
  rw [effect_step]
  simp only [keystream, counted, fits, if_false]
  cases n with
  | zero => rw [overwriteBlocks]; rfl
  | succ n =>
    rw [if_neg (by omega)]
    by_cases member : name ∈ ByteOrder.names
    · obtain ⟨order, known⟩ := ByteOrder.exists_ofName member
      rw [effect_overwriteBlocks known, known]
      rfl
    · rw [overwriteBlocks, effect_bind_of_error (effect_overwriteBlock_of_not_mem member),
        ByteOrder.ofName_of_not_mem member]
      rfl

theorem effect_keystreamOver_of_fault {count : Int} {e : Error}
    (fault : keystreamFault count buffer.length name = some e) :
    (keystreamOver count name).effect (s, buffer) = (.error e, (s, buffer)) := by
  have failed : s.keystream count buffer (ByteOrder.ofName name) = .error e := by
    unfold keystreamFault at fault
    unfold keystream
    split_ifs at fault with negative misfit unknown
    · cases fault
      rw [if_pos negative]
      rfl
    · cases fault
      rw [if_neg negative, if_pos misfit]
      rfl
    · cases fault
      rw [if_neg negative, if_neg misfit, if_neg unknown.1.ne',
        ByteOrder.ofName_of_not_mem unknown.2]
      rfl
  unfold keystreamOver
  rw [effect_step]
  simp only [failed]
  rfl

theorem length_of_overwriteBlocks (name : String) (n : Nat) :
    Keeps (fun t => t.2.length = 64) (overwriteBlocks name n) := by
  induction n with
  | zero =>
    rw [overwriteBlocks]
    exact keeps_pure _
  | succ n ih =>
    refine Keeps.bind (fun t length => ?_) fun _ => ih
    by_cases member : name ∈ ByteOrder.names
    · obtain ⟨order, known⟩ := ByteOrder.exists_ofName member
      rw [effect_overwriteBlock known, block_eq]
      simp [List.length_flatMap]
    · rw [effect_overwriteBlock_of_not_mem member]
      exact length

/-- Two stretches in turn are one stretch, be it that their blocks can be made or not. -/
theorem keystreamOver_add (s : State) (buffer : Bytes) (name : String) (m n : Nat) :
    (keystreamOver m name >>= fun _ => keystreamOver n name).effect (s, buffer) =
      (keystreamOver (m + n : Nat) name).effect (s, buffer) := by
  by_cases length : buffer.length = 64
  · have kept := length_of_overwriteBlocks name m (s, buffer) length
    rw [effect_bind, effect_keystreamOver _ _ _ length, effect_keystreamOver _ _ _ length,
      overwriteBlocks_add, effect_bind]
    rcases done : (overwriteBlocks name m).effect (s, buffer) with ⟨_ | _, t⟩
    · rfl
    · rw [done] at kept
      exact effect_keystreamOver _ _ _ kept
  · have misfit (k : Nat) :
        keystreamFault k buffer.length name = some (.bufferLength buffer.length) := by
      rw [keystreamFault, if_neg (by omega), if_pos length]
    rw [effect_bind_of_error (effect_keystreamOver_of_fault (misfit m)),
      effect_keystreamOver_of_fault (misfit (m + n))]

theorem toInt_counter_setCounter (s : State) (v : Int) :
    Word.toInt (s.setCounter v).counter = v % 0x100000000 := by
  rw [setCounter, counter, Vector.getElem_set_self, Word.toInt_ofInt]

theorem words_setCounter (s : State) (v : Int) {i : Nat} (inside : i < 16) (other : i ≠ 12) :
    (s.setCounter v).words[i] = s.words[i] :=
  Vector.getElem_set_ne (by decide) inside other.symm

theorem toInt_counter_advance (s : State) (count : Int) :
    Word.toInt (s.advance count).counter = (Word.toInt s.counter + count) % 0x100000000 :=
  toInt_counter_setCounter ..

theorem words_advance (s : State) (count : Int) {i : Nat} (inside : i < 16) (other : i ≠ 12) :
    (s.advance count).words[i] = s.words[i] :=
  words_setCounter s _ inside other

/-- Of `n` blocks over a buffer the last one is left, the one that the state makes `n - 1` counts
further on, and the counter moves by `n`; none change nothing, and what cannot be done changes
nothing either. -/
theorem keystream_is_jump (s : State) (buffer : Bytes) (name : String) :
    (∀ n : Nat, 1 ≤ n → buffer.length = 64 → name ∈ ByteOrder.names →
      ∃ block t, (step (blockNamed · name)).effect (s.advance (n - 1)) = (.ok block, t) ∧
        (keystreamOver n name).effect (s, buffer) = (.ok (), (t, block)) ∧
        Word.toInt t.counter = (Word.toInt s.counter + n) % 0x100000000 ∧
        ∀ i (inside : i < 16), i ≠ 12 → t.words[i] = s.words[i]) ∧
    (buffer.length = 64 → (keystreamOver 0 name).effect (s, buffer) = (.ok (), (s, buffer))) ∧
    (∀ m n : Nat, (keystreamOver m name >>= fun _ => keystreamOver n name).effect (s, buffer) =
      (keystreamOver (m + n : Nat) name).effect (s, buffer)) ∧
    ∀ count : Int, (count < 0 ∨ buffer.length ≠ 64 ∨ 1 ≤ count ∧ name ∉ ByteOrder.names) →
      ∃ e, keystreamFault count buffer.length name = some e ∧ e.kind = .value ∧
        (keystreamOver count name).effect (s, buffer) = (.error e, (s, buffer)) := by
  refine ⟨fun n some length member => ?_, fun length => ?_, keystreamOver_add s buffer name,
    fun count fails => ?_⟩
  · obtain ⟨order, known⟩ := ByteOrder.exists_ofName member
    obtain ⟨k, rfl⟩ := Nat.exists_eq_add_of_le' some
    have before : ((k + 1 : Nat) : Int) - 1 = k := by omega
    have moved : ((s.advance k).block order).2 = s.advance (k + 1 : Nat) :=
      advance_advance s k 1
    refine ⟨((s.advance k).block order).1, s.advance (k + 1 : Nat), ?_, ?_,
      toInt_counter_advance s _, fun i inside other => words_advance s _ inside other⟩
    · rw [before, effect_blockNamed known, ← moved]
      rfl
    · rw [effect_keystreamOver s name _ length, effect_overwriteBlocks known, blocks_succ, ← moved]
      rfl
  · exact (effect_keystreamOver s name 0 length).trans (by rw [overwriteBlocks, effect_pure])
  · suffices ∃ e, keystreamFault count buffer.length name = some e ∧ e.kind = .value by
      obtain ⟨e, fault, kind⟩ := this
      exact ⟨e, fault, kind, effect_keystreamOver_of_fault fault⟩
    unfold keystreamFault
    split_ifs with negative misfit unknown
    · exact ⟨_, rfl, Machine.kind_telling rfl⟩
    · exact ⟨_, rfl, rfl⟩
    · exact ⟨_, rfl, rfl⟩
    · rcases fails with below | other | ⟨counted, missing⟩
      exacts [absurd below negative, absurd other misfit, absurd ⟨by omega, missing⟩ unknown]

end

/-- A stretch on which the counter wraps four times and passes zero, and calls that fail. -/
theorem keystream_is_jump_past_wrap :
    let s := make (.ofFn fun i => .ofNat i) (.replicate 12 9) 0xffffffff
    (∃ block t, (step (blockNamed · "big")).effect (s.advance 0x300000001) = (.ok block, t) ∧
      (keystreamOver 0x300000002 "big").effect (s, List.replicate 64 0xa5) = (.ok (), (t, block)) ∧
      Word.toInt t.counter = 1) ∧
    (keystreamOver 0x300000002 "middle").effect (s, List.replicate 64 0xa5) =
      (.error (.unknownByteOrder "middle"), (s, List.replicate 64 0xa5)) ∧
    (keystreamOver (-1) "middle").effect (s, [0xa5]) =
      (.error (.negativeIterations (-1)), (s, [0xa5])) ∧
    (keystreamOver 0 "middle").effect (s, [0xa5]) = (.error (.bufferLength 1), (s, [0xa5])) := by
  intro s
  refine ⟨?_, ?_, ?_, ?_⟩
  · obtain ⟨block, t, made, done, counted, -⟩ :=
      (keystream_is_jump s (List.replicate 64 0xa5) "big").1 0x300000002 (by decide)
        List.length_replicate (by decide)
    exact ⟨block, t, made, done, counted.trans (by decide)⟩
  · obtain ⟨e, fault, -, done⟩ := (keystream_is_jump s (List.replicate 64 0xa5) "middle").2.2.2
      0x300000002 (.inr (.inr (by decide)))
    rw [done, ← Option.some.inj fault]
  · obtain ⟨e, fault, -, done⟩ := (keystream_is_jump s [0xa5] "middle").2.2.2 (-1)
      (.inl (by decide))
    rw [done, ← Option.some.inj fault]
    rfl
  · obtain ⟨e, fault, -, done⟩ := (keystream_is_jump s [0xa5] "middle").2.2.2 0
      (.inr (.inl (by decide)))
    exact done.trans (by rw [← Option.some.inj fault]; rfl)

end State

end Keystream
