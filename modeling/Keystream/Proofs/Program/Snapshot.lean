import Keystream.Proofs.Program.Run
/-!
Generating a block in front of any host. The host has its turn at each of the two announcements and
may then do to the bytes of memory what it likes. Key and nonce are taken before the first turn and
the output buffer is taken behind it; what the host finds at the second turn is what the program has
made of the memory that the first one left.
-/
namespace Keystream

open Keystream.Action

theorem Memory.Holds.of_same {m g : Memory} {addr : Int} {n : Nat} (inside : m.Holds addr n)
    (same : g.base = m.base ∧ g.size = m.size) : g.Holds addr n := by
  unfold Holds at *
  rwa [same.1, same.2]

variable {key : Vector UInt8 32} {nonce : Vector UInt8 12} {counter : Int} {n : Nat}
  {order : ByteOrder} {block : Bytes}

namespace Buffers

/-- What comes of memory as the first announcement left it: a block in the output buffer, the last
one of `n` or with none what was there before, and the state behind it in its own. -/
structure Renewed (b : Buffers) (key : Vector UInt8 32) (nonce : Vector UInt8 12) (counter : Int)
    (n : Nat) (order : ByteOrder) (left : Memory) (block : Bytes) (m : Memory) : Prop where
  made : block =
    if n = 0 then left.stretch b.output 64 else Standard.lastBlock key nonce counter n order
  output : m.stretch b.output 64 = block
  state : m.stretch b.state 64 =
    Word.pack (Standard.input key nonce (Word.ofInt (counter + n))).toList
  others : left.ChangedOnly
    (fun a => b.output ≤ a ∧ a < b.output + 64 ∨ b.state ≤ a ∧ a < b.state + 64) m

variable {b : Buffers} {left : Memory}

theorem length_of_made (made : block =
    if n = 0 then left.stretch b.output 64 else Standard.lastBlock key nonce counter n order) :
    block.length = 64 := by
  rw [made]
  split
  · exact Memory.length_stretch ..
  · exact Standard.length_lastBlock ..

theorem renewed (holdsState : left.Holds b.state 64) (holdsOutput : left.Holds b.output 64)
    (clear : Clear b.state 64 b.output 64) (made : block =
      if n = 0 then left.stretch b.output 64 else Standard.lastBlock key nonce counter n order) :
    b.Renewed key nonce counter n order left block
      (b.stored (.make key nonce (counter + n)) (left.written b.output block)) := by
  have whole := length_of_made made
  have built := State.length_build (.make key nonce (counter + n))
  have wrote : left.Holds b.output block.length := whole ▸ holdsOutput
  have stores : (left.written b.output block).Holds b.state
      (State.make key nonce (counter + n)).build.length := by
    rw [built, Memory.holds_written]
    exact holdsState
  refine ⟨made, ?_, ?_, ⟨rfl, rfl, ?_, fun a spared => ?_⟩⟩
  · have self := Memory.stretch_written_self wrote
    rw [whole] at self
    refine (Memory.stretch_written_of_apart stores ?_).trans self
    rw [built]
    exact clear.symm
  · have self := Memory.stretch_written_self stores
    rw [built] at self
    refine self.trans ?_
    rw [State.build, State.words_make]
  · simp only [stored, Memory.size_written]
  · rw [stored, Memory.byteAt?_written_of_apart stores (by omega),
      Memory.byteAt?_written_of_apart wrote (by omega)]

end Buffers

namespace Program

variable {π : Type} {channel : Channel (Target π)} {p : Program} {m : Memory}

theorem effect_loop_of_made [Machine] (peer : π) (isOrder : p.order = .ok order)
    (holdsState : m.Holds p.buffers.state 64) (holdsOutput : m.Holds p.buffers.output 64)
    (made : block = if n = 0 then m.stretch p.buffers.output 64
      else Standard.lastBlock key nonce counter n order) :
    (loop (.make key nonce counter) n).effect ((m, peer), p) =
      (.ok block, ((p.buffers.stored (.make key nonce (counter + n))
        (m.written p.buffers.output block), peer),
          p.holding p.phase (.make key nonce (counter + n)))) := by
  refine effect_loop_of_keystream (Buffers.length_of_made made) ?_ holdsState holdsOutput
  rw [made, isOrder, State.keystream_make_over key nonce counter order n (Memory.length_stretch ..)]

theorem effect_signal_last (sig : Signal) {value : Int} {t : Target π} (phase : Phase)
    (running : p.phase.stage ≠ .halted) :
    let done := (do
      let _ ← signal channel sig value
      enter phase
      return block : Action (Running π) Bytes).effect (t, p)
    done.1 = ((channel.signal sig.code value).effect t).1.map (fun _ => block) ∧
      done.2.1 = ((channel.signal sig.code value).effect t).2 := by
  intro done
  have isDone := effect_bind (signal channel sig value)
    (fun _ => do enter phase; return block) (t, p)
  rcases answered : (channel.signal sig.code value).effect t with ⟨e | r, u⟩ <;>
  · rw [effect_signal sig running answered] at isDone
    exact ⟨congrArg Prod.fst isDone, congrArg (·.2.1) isDone⟩

/-- A block is made of the key and the nonce that stand in their buffers at the start, whatever the
host does to memory when the output is announced; without iterations it is what the host leaves in
the output buffer. Of the buffers no two need be apart but those of the output and the state. -/
theorem generate_takes_snapshot [Machine] (channel : Channel (Target π)) (peer : π)
    (here : p.phase = .iterationsKnown n) (isCounter : p.counter = .ok counter)
    (isOrder : p.order = .ok order) (holdsKey : m.Holds p.buffers.key 32)
    (holdsNonce : m.Holds p.buffers.nonce 12) (holdsState : m.Holds p.buffers.state 64)
    (holdsOutput : m.Holds p.buffers.output 64)
    (clear : Clear p.buffers.state 64 p.buffers.output 64)
    (isKey : m.stretch p.buffers.key 32 = key.toList)
    (isNonce : m.stretch p.buffers.nonce 12 = nonce.toList)
    (inPlace : ∀ value t,
      let left := ((channel.signal Signal.outputAddress.code value).effect t).2.1
      left.base = t.1.base ∧ left.size = t.1.size) :
    let announce := (channel.signal Signal.outputAddress.code p.buffers.output).effect
    let first := announce (p.buffers.begun key nonce counter m, peer)
    let done := (generate channel).effect ((m, peer), p)
    (∀ e, first.1 = .error e → done.1 = .error e ∧ done.2.1 = first.2) ∧
    ∀ r, first.1 = .ok r →
      ∃ block renewed, p.buffers.Renewed key nonce counter n order first.2.1 block renewed ∧
        done.1 = (announce (renewed, first.2.2)).1.map (fun _ => block) ∧
        done.2.1 = (announce (renewed, first.2.2)).2 := by
  intro announce first done
  have isDone : done = _ := effect_generate_load channel here isCounter holdsKey holdsNonce
    holdsState isKey isNonce
  have stays := inPlace p.buffers.output (p.buffers.begun key nonce counter m, peer)
  have running : (p.holding p.phase (.make key nonce counter)).phase.stage ≠ .halted := by
    rw [holding, here]
    exact fun halted => by cases halted
  rcases answered : first with ⟨e | r, left, peer'⟩
  · rw [effect_bind_of_error (effect_signal .outputAddress running answered)] at isDone
    rw [isDone]
    exact ⟨fun e' failed => ⟨congrArg _ (Except.error.inj failed), rfl⟩, fun _ ok => by cases ok⟩
  · have same : left.base = m.base ∧ left.size = m.size := by
      rw [show (channel.signal _ _).effect _ = (.ok r, (left, peer')) from answered] at stays
      exact ⟨stays.1, stays.2.trans (Memory.size_written ..)⟩
    obtain ⟨block, made⟩ : ∃ block, block = if n = 0 then left.stretch p.buffers.output 64
      else Standard.lastBlock key nonce counter n order := ⟨_, rfl⟩
    have looped := effect_loop_of_made (p := p.holding (.looping n) (.make key nonce counter))
      peer' isOrder (holdsState.of_same same) (holdsOutput.of_same same) made
    rw [effect_bind_of_ok (effect_signal .outputAddress running answered),
      effect_bind_of_ok (effect_enter _)] at isDone
    rw [isDone.trans (effect_bind_of_ok looped _)]
    exact ⟨(fun _ failed => by cases failed), fun _ _ => ⟨block, _,
      Buffers.renewed (holdsState.of_same same) (holdsOutput.of_same same) clear made,
      effect_signal_last .outputAddress _ fun halted => by cases halted⟩⟩

/-- A host that counts every byte of memory up whenever it is told something. -/
theorem generate_takes_snapshot_of_bytes_counted_up :
    let m : Memory := ⟨0, Array.replicate 176 1, ⟨0, 16, 11, [⟨11, true⟩], []⟩, false⟩
    let p : Program :=
      { buffers := { key := 0, nonce := 32, state := 48, output := 112 }, counter := .ok (-1),
        order := .ok .big, traced := false, phase := .iterationsKnown 2 }
    let channel : Channel (Target Unit) :=
      { signal := fun _ _ => do
          modify fun (m, u) => ({ m with bytes := m.bytes.map (· + 1) }, u)
          return 0
        halt := Pure.pure () }
    ((channel.signal 3 112).effect (m, ())).2.1.stretch 0 44 = List.replicate 44 2 ∧
      ((generate channel).effect ((m, ()), p)).1 =
        .ok (Standard.lastBlock (.replicate 32 1) (.replicate 12 1) (-1) 2 .big) := by
  intro m p channel
  have inPlace (value) (t : Target Unit) :
      ((channel.signal 3 value).effect t).2.1.base = t.1.base ∧
        ((channel.signal 3 value).effect t).2.1.size = t.1.size := ⟨rfl, Array.size_map ..⟩
  have isKey : m.stretch 0 32 = (Vector.replicate 32 1).toList := by decide +kernel
  have isNonce : m.stretch 32 12 = (Vector.replicate 12 1).toList := by decide +kernel
  have snapshot := generate_takes_snapshot (p := p) (n := 2) channel () rfl rfl rfl
    (by decide +kernel) (by decide +kernel) (by decide +kernel) (by decide +kernel)
    (.inl (by decide)) isKey isNonce inPlace
  obtain ⟨block, renewed, made, done, -⟩ := snapshot.2 0 rfl
  refine ⟨by decide +kernel, done.trans ?_⟩
  rw [made.made, if_neg (by decide)]
  rfl

end Program

end Keystream
