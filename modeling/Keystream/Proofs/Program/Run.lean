import Keystream.Program.Basic
import Keystream.Proofs.Cipher.Stream
import Keystream.Proofs.Machine
import Keystream.Proofs.Program.Buffers
/-!
A whole run of the program, over any channel whose host puts a key and a nonce where the program
publishes its buffers and names a number of blocks. It leaves the standard's last block in the
output buffer and gives it.
-/
namespace Keystream

open Keystream.Action

/-- Two ranges of `n` and `k` bytes that do not overlap. -/
def Clear (a : Int) (n : Nat) (b : Int) (k : Nat) : Prop := a + n ≤ b ∨ b + k ≤ a

namespace State

theorem checkedKey_toList (key : Vector UInt8 32) : checkedKey key.toList = .ok key := by
  rw [checkedKey, dif_pos Vector.length_toList]
  rfl

theorem checkedNonce_toList (nonce : Vector UInt8 12) : checkedNonce nonce.toList = .ok nonce := by
  rw [checkedNonce, dif_pos Vector.length_toList]
  rfl

theorem ofKeyNonce_toList (key : Vector UInt8 32) (nonce : Vector UInt8 12) (counter : Int) :
    ofKeyNonce key.toList nonce.toList counter = .ok (make key nonce counter) := by
  rw [ofKeyNonce, checkedKey_toList, checkedNonce_toList]
  rfl

end State

namespace Buffers

/-- Buffers that lie in memory `m` apart from each other, with zeros for an output. -/
structure Placed (b : Buffers) (m : Memory) : Prop where
  key : m.Holds b.key 32
  nonce : m.Holds b.nonce 12
  state : m.Holds b.state 64
  output : m.Holds b.output 64
  keyNonce : Clear b.key 32 b.nonce 12
  keyOutput : Clear b.key 32 b.output 64
  nonceOutput : Clear b.nonce 12 b.output 64
  stateOutput : Clear b.state 64 b.output 64
  blank : m.stretch b.output 64 = List.replicate 64 0

theorem Lent.placed {m g : Memory} {b : Buffers} (l : Lent m b g) : b.Placed g := by
  have w := l.wellFormed
  have distinct : b.addresses.Nodup := l.distinct
  simp only [addresses, List.nodup_cons, List.mem_cons, List.not_mem_nil, or_false,
    not_or] at distinct
  obtain ⟨⟨keyNonce, _, keyOutput⟩, ⟨_, nonceOutput⟩, stateOutput, _⟩ := distinct
  have own (entry) (member : entry ∈ b.entries) : entry ∈ g.heap.sizes :=
    (l.live entry).2 (.inl member)
  have key : (b.key, ((32 : Nat) : Int)) ∈ g.heap.sizes := own _ (by simp [entries])
  have nonce : (b.nonce, ((12 : Nat) : Int)) ∈ g.heap.sizes := own _ (by simp [entries])
  have state : (b.state, ((64 : Nat) : Int)) ∈ g.heap.sizes := own _ (by simp [entries])
  have output : (b.output, ((64 : Nat) : Int)) ∈ g.heap.sizes := own _ (by simp [entries])
  exact ⟨w.holds key, w.holds nonce, w.holds state, w.holds output,
    w.heap.clear key nonce keyNonce, w.heap.clear key output keyOutput,
    w.heap.clear nonce output nonceOutput, w.heap.clear state output stateOutput, l.blank⟩

def stored (b : Buffers) (s : State) (m : Memory) : Memory := m.written b.state s.build

theorem effect_storeState {b : Buffers} {s : State} {m : Memory} (loaded : b.loaded = some s)
    (inside : m.Holds b.state 64) : storeState.effect (m, b) = (.ok (), (b.stored s m, b)) := by
  simp only [storeState, effect_bind, effect_get, loaded, effect_onFirst]
  rw [Memory.effect_write_of_holds (by simpa using inside)]
  rfl

theorem effect_loadState {b : Buffers} {m : Memory} {key : Vector UInt8 32}
    {nonce : Vector UInt8 12} (holdsKey : m.Holds b.key 32) (holdsNonce : m.Holds b.nonce 12)
    (holdsState : m.Holds b.state 64) (isKey : m.stretch b.key 32 = key.toList)
    (isNonce : m.stretch b.nonce 12 = nonce.toList) (counter : Int) :
    (loadState counter).effect (m, b) =
      (.ok (.make key nonce counter), (b.stored (.make key nonce counter) m,
        { b with loaded := some (.make key nonce counter) })) := by
  have readKey : (Memory.read b.key 32).effect m = (.ok key.toList, m) :=
    isKey ▸ Memory.effect_read_of_holds holdsKey
  have readNonce : (Memory.read b.nonce 12).effect m = (.ok nonce.toList, m) :=
    isNonce ▸ Memory.effect_read_of_holds holdsNonce
  simp only [loadState, effect_bind, effect_get, effect_onFirst, effect_onSecond, effect_liftM,
    effect_modify, readKey, readNonce, State.ofKeyNonce_toList]
  rw [effect_storeState (b := { b with loaded := some (.make key nonce counter) }) rfl holdsState]
  rfl

def supplied (b : Buffers) (key : Vector UInt8 32) (nonce : Vector UInt8 12) (m : Memory) :
    Memory :=
  (m.written b.key key.toList).written b.nonce nonce.toList

def begun (b : Buffers) (key : Vector UInt8 32) (nonce : Vector UInt8 12) (counter : Int)
    (m : Memory) : Memory :=
  b.stored (.make key nonce counter) m

/-- Memory with the last of `n` blocks in the output buffer and the state behind it in its own. -/
def ended (b : Buffers) (key : Vector UInt8 32) (nonce : Vector UInt8 12) (counter : Int) (n : Nat)
    (order : ByteOrder) (m : Memory) : Memory :=
  b.stored (.make key nonce (counter + n))
    ((b.begun key nonce counter m).written b.output (Standard.lastBlock key nonce counter n order))

namespace Placed

variable {b : Buffers} {m : Memory} (placed : b.Placed m)
include placed

theorem written {addr : Int} {s : Bytes} (inside : m.Holds addr s.length)
    (clear : Clear addr s.length b.output 64) : b.Placed (m.written addr s) :=
  ⟨(Memory.holds_written ..).2 placed.key, (Memory.holds_written ..).2 placed.nonce,
    (Memory.holds_written ..).2 placed.state, (Memory.holds_written ..).2 placed.output,
    placed.keyNonce, placed.keyOutput, placed.nonceOutput, placed.stateOutput,
    (Memory.stretch_written_of_apart inside clear.symm).trans placed.blank⟩

variable (key : Vector UInt8 32) (nonce : Vector UInt8 12)

theorem holdsKey : m.Holds b.key key.toList.length := by
  rw [Vector.length_toList]
  exact placed.key

theorem holdsNonce : (m.written b.key key.toList).Holds b.nonce nonce.toList.length := by
  rw [Memory.holds_written, Vector.length_toList]
  exact placed.nonce

theorem supplied : b.Placed (b.supplied key nonce m) := by
  have keyed : b.Placed (m.written b.key key.toList) := by
    refine placed.written (placed.holdsKey key) ?_
    rw [Vector.length_toList]
    exact placed.keyOutput
  refine keyed.written (placed.holdsNonce key nonce) ?_
  rw [Vector.length_toList]
  exact placed.nonceOutput

theorem stretch_key : (b.supplied key nonce m).stretch b.key 32 = key.toList := by
  have self := Memory.stretch_written_self (placed.holdsKey key)
  rw [Vector.length_toList] at self
  refine (Memory.stretch_written_of_apart (placed.holdsNonce key nonce) ?_).trans self
  rw [Vector.length_toList]
  exact placed.keyNonce

theorem stretch_nonce : (b.supplied key nonce m).stretch b.nonce 12 = nonce.toList := by
  have self := Memory.stretch_written_self (placed.holdsNonce key nonce)
  rwa [Vector.length_toList] at self

theorem begun (counter : Int) : b.Placed (b.begun key nonce counter m) := by
  refine placed.written ?_ ?_ <;> rw [State.length_build]
  · exact placed.state
  · exact placed.stateOutput

theorem holdsOutput (counter : Int) (n : Nat) (order : ByteOrder) :
    (b.begun key nonce counter m).Holds b.output
      (Standard.lastBlock key nonce counter n order).length := by
  rw [Standard.length_lastBlock]
  exact (placed.begun key nonce counter).output

theorem stretch_output (counter : Int) (n : Nat) (order : ByteOrder) :
    (b.ended key nonce counter n order m).stretch b.output 64 =
      Standard.lastBlock key nonce counter n order := by
  have self := Memory.stretch_written_self (placed.holdsOutput key nonce counter n order)
  rw [Standard.length_lastBlock] at self
  refine (Memory.stretch_written_of_apart ?_ ?_).trans self
  · rw [State.length_build, Memory.holds_written]
    exact (placed.begun key nonce counter).state
  · rw [State.length_build]
    exact placed.stateOutput.symm

theorem holds_ended (counter : Int) (n : Nat) (order : ByteOrder) :
    (b.ended key nonce counter n order m).Holds b.output 64 := by
  simp only [ended, stored, Buffers.begun, Memory.holds_written]
  exact placed.output

theorem effect_read_output (counter : Int) (n : Nat) (order : ByteOrder) :
    (Memory.read b.output 64).effect (b.ended key nonce counter n order m) =
      (.ok (Standard.lastBlock key nonce counter n order), b.ended key nonce counter n order m) :=
  placed.stretch_output key nonce counter n order ▸
    Memory.effect_read_of_holds (placed.holds_ended key nonce counter n order)

end Placed

end Buffers

namespace Program

def holding (p : Program) (phase : Phase) (s : State) : Program :=
  { p with phase, buffers := { p.buffers with loaded := some s } }

variable {machine : Machine} {π : Type} {t u : Target π} {p : Program}

@[simp] theorem effect_enter (phase : Phase) :
    (enter phase).effect (t, p) = (.ok (), (t, { p with phase })) := rfl

@[simp] theorem effect_note (text : String) : (note text).effect (t, p) = (.ok (), (t, p)) := by
  simp only [note, effect_get_bind]
  split <;> rfl

@[simp] theorem effect_memory (a : Action Memory α) (m : Memory) (peer : π) :
    (memory a).effect ((m, peer), p) = ((a.effect m).1, (((a.effect m).2, peer), p)) := rfl

@[simp] theorem effect_inBuffers (a : Action (Memory × Buffers) α) (m : Memory) (peer : π) :
    (inBuffers a).effect ((m, peer), p) =
      ((a.effect (m, p.buffers)).1, (((a.effect (m, p.buffers)).2.1, peer),
        { p with buffers := (a.effect (m, p.buffers)).2.2 })) := rfl

variable {channel : Channel (Target π)}

theorem effect_signal (sig : Signal) {value : Int} {r : Except Error Int}
    (running : p.phase.stage ≠ .halted)
    (answered : (channel.signal sig.code value).effect t = (r, u)) :
    (signal channel sig value).effect (t, p) = (r, (u, p)) := by
  simp only [signal, effect_get_bind]
  rw [if_neg running]
  show (channel.signal sig.code value).onFirst.effect (t, p) = _
  rw [effect_onFirst, answered]

theorem effect_expect {stage : Stage} (here : p.phase.stage = stage) :
    (expect stage).effect (t, p) = (.ok (), (t, p)) := by
  simp only [expect, effect_get_bind]
  rw [if_neg (not_not.2 here)]
  rfl

theorem effect_publishKey {r : Int} (here : p.phase = .idle)
    (answered : (channel.signal 0 p.buffers.key).effect t = (.ok r, u)) :
    (publishKey channel).effect (t, p) = (.ok (), (u, { p with phase := .keyPublished })) := by
  have stage : p.phase.stage = .idle := by rw [here]; rfl
  rw [publishKey, effect_bind_of_ok (effect_expect stage), effect_get_bind,
    effect_bind_of_ok (effect_signal .keyAddress (by rw [stage]; decide) answered),
    effect_enter]

theorem effect_publishNonce {r : Int} (here : p.phase = .keyPublished)
    (answered : (channel.signal 1 p.buffers.nonce).effect t = (.ok r, u)) :
    (publishNonce channel).effect (t, p) = (.ok (), (u, { p with phase := .noncePublished })) := by
  have stage : p.phase.stage = .keyPublished := by rw [here]; rfl
  rw [publishNonce, effect_bind_of_ok (effect_expect stage), effect_get_bind,
    effect_bind_of_ok (effect_signal .nonceAddress (by rw [stage]; decide) answered),
    effect_enter]

theorem effect_requestIterations {r : Int} (spells : Machine.Spells r)
    (here : p.phase = .noncePublished)
    (answered : (channel.signal 2 0).effect t = (.ok r, u)) :
    (requestIterations channel).effect (t, p) =
      (.ok r, (u, { p with phase := .iterationsKnown r })) := by
  have stage : p.phase.stage = .noncePublished := by rw [here]; rfl
  rw [requestIterations, effect_bind_of_ok (effect_expect stage),
    effect_bind_of_ok (effect_signal .iterations (by rw [stage]; decide) answered),
    effect_bind_of_ok (effect_enter _), Machine.decimal_of_spells spells]
  refine (effect_bind_of_ok (effect_liftM ..) _).trans ?_
  rw [effect_bind_of_ok (effect_note _)]
  rfl

theorem effect_halt {n : Int} {r : Except Error Unit} (here : p.phase = .outputAnnounced n)
    (ended : channel.halt.effect t = (r, u)) :
    (halt channel).effect (t, p) = (r, (u, { p with phase := .halted n })) := by
  simp only [halt, effect_get_bind, here]
  rw [effect_bind_of_ok (effect_enter _)]
  show channel.halt.onFirst.effect (t, { p with phase := .halted n }) = _
  rw [effect_onFirst, ended]

section

variable {key : Vector UInt8 32} {nonce : Vector UInt8 12} {counter : Int} {n : Nat}
  {order : ByteOrder} {m : Memory} {peer : π}

/-- The loop puts what is made over the output buffer into it, and the state behind it into its
own. -/
theorem effect_loop_of_keystream {s s' : State} {block : Bytes} (length : block.length = 64)
    (made : s.keystream n (m.stretch p.buffers.output 64) p.order = .ok (block, s'))
    (holdsState : m.Holds p.buffers.state 64) (holdsOutput : m.Holds p.buffers.output 64) :
    (loop s n).effect ((m, peer), p) =
      (.ok block, ((p.buffers.stored s' (m.written p.buffers.output block), peer),
        p.holding p.phase s')) := by
  have before : (Memory.read p.buffers.output 64).effect m =
      (.ok (m.stretch p.buffers.output 64), m) := Memory.effect_read_of_holds holdsOutput
  have wrote := Memory.effect_write_of_holds (s := block) (length.symm ▸ holdsOutput)
  have stored := Buffers.effect_storeState (b := { p.buffers with loaded := some s' }) rfl
    ((Memory.holds_written m p.buffers.output block _ _).2 holdsState)
  simp only [loop, effect_bind, effect_get, effect_memory, before, effect_liftM, made,
    effect_onSecond, effect_modify, wrote, effect_inBuffers, stored, effect_note, effect_pure]
  rfl

theorem effect_loop (phase : Phase) (isOrder : p.order = .ok order) (placed : p.buffers.Placed m) :
    (loop (.make key nonce counter) n).effect
        ((p.buffers.begun key nonce counter m, peer), p.holding phase (.make key nonce counter)) =
      (.ok (Standard.lastBlock key nonce counter n order),
        ((p.buffers.ended key nonce counter n order m, peer),
          p.holding phase (.make key nonce (counter + n)))) := by
  have begun := placed.begun key nonce counter
  refine effect_loop_of_keystream (p := p.holding phase (.make key nonce counter))
    (Standard.length_lastBlock ..) ?_ begun.state begun.output
  show State.keystream _ n ((p.buffers.begun key nonce counter m).stretch p.buffers.output 64)
    p.order = _
  rw [begun.blank, isOrder, State.keystream_make]

theorem effect_generate_load (channel : Channel (Target π)) (here : p.phase = .iterationsKnown n)
    (isCounter : p.counter = .ok counter) (holdsKey : m.Holds p.buffers.key 32)
    (holdsNonce : m.Holds p.buffers.nonce 12) (holdsState : m.Holds p.buffers.state 64)
    (isKey : m.stretch p.buffers.key 32 = key.toList)
    (isNonce : m.stretch p.buffers.nonce 12 = nonce.toList) :
    (generate channel).effect ((m, peer), p) =
      (do
        let _ ← signal channel .outputAddress p.buffers.output
        enter (.looping n)
        let block ← loop (.make key nonce counter) n
        let _ ← signal channel .outputAddress p.buffers.output
        enter (.outputAnnounced n)
        return block : Action (Running π) Bytes).effect
          ((p.buffers.begun key nonce counter m, peer),
            p.holding p.phase (.make key nonce counter)) := by
  have known : expectIterations.effect ((m, peer), p) = (.ok (n : Int), ((m, peer), p)) := by
    simp only [expectIterations, effect_get_bind, here]
    rfl
  have given : (liftM p.counter : Action (Running π) Int).effect ((m, peer), p) =
      (.ok counter, ((m, peer), p)) := by
    rw [effect_liftM, isCounter]
  have load : (inBuffers (Buffers.loadState counter)).effect ((m, peer), p) =
      (.ok (.make key nonce counter), ((p.buffers.begun key nonce counter m, peer),
        p.holding p.phase (.make key nonce counter))) := by
    rw [effect_inBuffers, Buffers.effect_loadState holdsKey holdsNonce holdsState isKey isNonce]
    rfl
  rw [generate, effect_bind_of_ok known, effect_get_bind]
  refine (effect_bind_of_ok given _).trans ((effect_bind_of_ok load _).trans ?_)
  exact effect_bind_of_ok (effect_note _) _

theorem effect_generate [Machine] {peer' peer'' : π} {r r' : Int}
    (here : p.phase = .iterationsKnown n) (isCounter : p.counter = .ok counter)
    (isOrder : p.order = .ok order)
    (placed : p.buffers.Placed m) (isKey : m.stretch p.buffers.key 32 = key.toList)
    (isNonce : m.stretch p.buffers.nonce 12 = nonce.toList)
    (announced : (channel.signal 3 p.buffers.output).effect
      (p.buffers.begun key nonce counter m, peer) =
        (.ok r, (p.buffers.begun key nonce counter m, peer')))
    (announcedAgain : (channel.signal 3 p.buffers.output).effect
      (p.buffers.ended key nonce counter n order m, peer') =
        (.ok r', (p.buffers.ended key nonce counter n order m, peer''))) :
    (generate channel).effect ((m, peer), p) =
      (.ok (Standard.lastBlock key nonce counter n order),
        ((p.buffers.ended key nonce counter n order m, peer''),
          p.holding (.outputAnnounced n) (.make key nonce (counter + n)))) := by
  have first := effect_signal .outputAddress
    (p := p.holding p.phase (.make key nonce counter))
    (by rw [holding, here]; exact nofun) announced
  have second := effect_signal .outputAddress
    (p := p.holding (.looping n) (.make key nonce (counter + n))) nofun announcedAgain
  rw [effect_generate_load channel here isCounter placed.key placed.nonce placed.state isKey
      isNonce, effect_bind_of_ok first, effect_bind_of_ok (effect_enter _)]
  refine (effect_bind_of_ok (effect_loop (.looping n) isOrder placed) _).trans ?_
  rw [effect_bind_of_ok second, effect_bind_of_ok (effect_enter _)]
  rfl

/-- A run over a channel that supplies a key, a nonce and a number of blocks. -/
theorem effect_run (channel : Channel (Target π))
    {peer₁ peer₂ peer₃ peer₄ peer₅ peer₆ : π} {r₁ r₂ r₃ r₄ : Int} (spells : Machine.Spells n)
    (here : p.phase = .idle) (isCounter : p.counter = .ok counter) (isOrder : p.order = .ok order)
    (placed : p.buffers.Placed m)
    (keyed : (channel.signal 0 p.buffers.key).effect (m, peer) =
      (.ok r₁, (m.written p.buffers.key key.toList, peer₁)))
    (supplied : (channel.signal 1 p.buffers.nonce).effect
      (m.written p.buffers.key key.toList, peer₁) =
        (.ok r₂, (p.buffers.supplied key nonce m, peer₂)))
    (counted : (channel.signal 2 0).effect (p.buffers.supplied key nonce m, peer₂) =
      (.ok n, (p.buffers.supplied key nonce m, peer₃)))
    (announced : (channel.signal 3 p.buffers.output).effect
      (p.buffers.begun key nonce counter (p.buffers.supplied key nonce m), peer₃) =
        (.ok r₃, (p.buffers.begun key nonce counter (p.buffers.supplied key nonce m), peer₄)))
    (announcedAgain : (channel.signal 3 p.buffers.output).effect
      (p.buffers.ended key nonce counter n order (p.buffers.supplied key nonce m), peer₄) =
        (.ok r₄,
          (p.buffers.ended key nonce counter n order (p.buffers.supplied key nonce m), peer₅)))
    (ended : channel.halt.effect
      (p.buffers.ended key nonce counter n order (p.buffers.supplied key nonce m), peer₅) =
        (.ok (),
          (p.buffers.ended key nonce counter n order (p.buffers.supplied key nonce m), peer₆))) :
    (run channel).effect ((m, peer), p) =
      (.ok (Standard.lastBlock key nonce counter n order),
        ((p.buffers.ended key nonce counter n order (p.buffers.supplied key nonce m), peer₆),
          p.holding (.halted n) (.make key nonce (counter + n)))) := by
  have generated := effect_generate (p := { p with phase := .iterationsKnown n }) rfl isCounter
    isOrder (placed.supplied key nonce) (placed.stretch_key key nonce)
    (placed.stretch_nonce key nonce) announced announcedAgain
  rw [run, effect_bind_of_ok (effect_publishKey here keyed)]
  have second := effect_publishNonce (p := { p with phase := .keyPublished }) rfl supplied
  have third :=
    effect_requestIterations (p := { p with phase := .noncePublished }) spells rfl counted
  have last := effect_halt (p := p.holding (.outputAnnounced n) (.make key nonce (counter + n)))
    rfl ended
  refine (effect_bind_of_ok second _).trans ((effect_bind_of_ok third _).trans ?_)
  exact (effect_bind_of_ok generated _).trans (effect_bind_of_ok last _)

end

end Program

end Keystream
