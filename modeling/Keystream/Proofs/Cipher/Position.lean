import Keystream.Proofs.Cipher.Jump
import Mathlib.Algebra.Ring.Int.Defs
/-!
Histories of a state. Blocks, stretches of blocks, advances and assignments of the counter move the
place in the stream and nothing else, whichever of them fail, and a block depends on the place it is
made at only, not on how the state came there.

Of a stretch only the last block is seen. To speak of all of them, calls are also run with a note
of each block; that the notes change nothing is proved first.
-/
namespace Keystream.State

open Keystream.Action Word

/-- A block that was made: the counter of the state at that moment, the byte order asked for, and
the bytes. -/
structure Made where
  counter : Word
  order : String
  block : Bytes
  deriving DecidableEq

def noteBlock (name : String) : Action (State × List Made) Bytes := do
  let (s, notes) ← get
  let block ← (step (blockNamed · name)).onFirst
  onSecond (set (notes ++ [⟨s.counter, name, block⟩]))
  return block

def noteBlocks (name : String) : Nat → Bytes → Action (State × List Made) Bytes
  | 0, buffer => return buffer
  | n + 1, _ => do noteBlocks name n (← noteBlock name)

def noteKeystream [Machine] (count : Int) (buffer : Bytes) (name : String) :
    Action (State × List Made) Bytes := do
  if count < 0 then throw (Machine.telling count (.negativeIterations count))
  if buffer.length ≠ 64 then throw (.bufferLength buffer.length)
  noteBlocks name count.toNat buffer

/-- What may be asked of a state, with a buffer of any length for the blocks of a stretch. -/
inductive Call where
  | block (order : String)
  | keystream (count : Int) (buffer : Bytes) (order : String)
  | advance (count : Int)
  | assign (value : Int)

namespace Call

def perform [Machine] : Call → Action State (Option Bytes)
  | block order => do return some (← step (blockNamed · order))
  | keystream count buffer order => do
    return some (← step (State.keystream · count buffer (ByteOrder.ofName order)))
  | advance count => do
    modify (State.advance · count)
    return none
  | assign value => do
    modify (setCounter · value)
    return none

def noted [Machine] : Call → Action (State × List Made) (Option Bytes)
  | block order => do return some (← noteBlock order)
  | keystream count buffer order => do return some (← noteKeystream count buffer order)
  | advance count => (advance count).perform.onFirst
  | assign value => (assign value).perform.onFirst

/-- How far a call moves the counter of `s`, but for the blocks that it makes. -/
def move (s : State) : Call → Int
  | block _ | keystream .. => 0
  | advance count => count
  | assign value => value - toInt s.counter

end Call

def afterCalls [Machine] (calls : List Call) (s : State) : State :=
  calls.foldl (fun s call => (call.perform.effect s).2) s

def afterNoted [Machine] (calls : List Call) (x : State × List Made) : State × List Made :=
  calls.foldl (fun x call => (call.noted.effect x).2) x

/-- All blocks that are made in some calls, those of a stretch that others take the place of too. -/
def madeBy [Machine] (calls : List Call) (s : State) : List Made := (afterNoted calls (s, [])).2

def advances (calls : List Call) : Int :=
  (calls.map fun | .advance count => count | _ => 0).sum

/-! What a state is with its counter set. -/

section

variable (s : State)

@[simp] theorem setCounter_setCounter (v w : Int) :
    (s.setCounter v).setCounter w = s.setCounter w := by
  simp only [setCounter, Vector.set_set]

@[simp] theorem setCounter_counter : s.setCounter (toInt s.counter) = s := by
  simp only [setCounter, counter, ofInt_toInt, Vector.set_getElem_self]

theorem setCounter_congr {v w : Int} (same : v % 0x100000000 = w % 0x100000000) :
    s.setCounter v = s.setCounter w := by
  simp only [setCounter, ofInt, same]

theorem integers_setCounter (v : Int) :
    (s.setCounter v).integers = s.integers.set 12 (v % 0x100000000) := by
  rw [integers, setCounter, Vector.toList_set, List.map_set, toInt_ofInt, integers]

theorem ofWords_integers : ofWords s.integers = .ok s := by
  have length : s.integers.length = 16 := by simp [integers]
  have inside : s.integers.find? (fun w => !(0 ≤ w && w < 0x100000000)) = none := by
    refine List.find?_eq_none.2 fun w member => ?_
    obtain ⟨v, -, rfl⟩ := List.mem_map.1 member
    simp [toInt_mem_range v]
  have same : s.integers.map ofInt = s.words.toList := by
    rw [integers, List.map_map]
    exact (List.map_congr_left fun w _ => ofInt_toInt w).trans (List.map_id _)
  rw [ofWords, dif_pos length, inside]
  simp only [same]
  rfl

end

/-! That notes change nothing. -/

section

variable {α β : Type}

/-- That `a` has the result of `b` and leaves the state that `b` leaves, whatever it notes. -/
def Erases (a : Action (State × List Made) α) (b : Action State α) : Prop :=
  ∀ x, (a.effect x).1 = (b.effect x.1).1 ∧ (a.effect x).2.1 = (b.effect x.1).2

theorem erases_onFirst (b : Action State α) : Erases b.onFirst b := fun _ => ⟨rfl, rfl⟩

theorem Erases.map {a : Action (State × List Made) α} {b : Action State α} (same : Erases a b)
    (f : α → β) : Erases (do return f (← a)) (do return f (← b)) := by
  intro x
  obtain ⟨result, state⟩ := same x
  rw [effect_bind_pure, effect_bind_pure, result]
  exact ⟨rfl, state⟩

end

section

variable {machine : Machine} {name : String} {order : ByteOrder}

theorem effect_noteBlock (known : ByteOrder.ofName name = .ok order) (x : State × List Made) :
    (noteBlock name).effect x =
      (.ok (x.1.block order).1,
        (x.1.advance 1, x.2 ++ [⟨x.1.counter, name, (x.1.block order).1⟩])) := by
  rw [noteBlock, effect_get_bind, effect_bind, effect_onFirst, effect_blockNamed known]
  rfl

theorem effect_noteBlock_of_not_mem (unknown : name ∉ ByteOrder.names) (x : State × List Made) :
    (noteBlock name).effect x = (.error (.unknownByteOrder name), x) := by
  rw [noteBlock, effect_get_bind, effect_bind, effect_onFirst, effect_step, blockNamed,
    ByteOrder.ofName_of_not_mem unknown]
  rfl

theorem erases_noteBlock (name : String) : Erases (noteBlock name) (step (blockNamed · name)) := by
  intro x
  by_cases member : name ∈ ByteOrder.names
  · obtain ⟨order, known⟩ := ByteOrder.exists_ofName member
    rw [effect_noteBlock known, effect_blockNamed known]
    exact ⟨rfl, rfl⟩
  · rw [effect_noteBlock_of_not_mem member, effect_step, blockNamed,
      ByteOrder.ofName_of_not_mem member]
    exact ⟨rfl, rfl⟩

theorem effect_noteBlocks (known : ByteOrder.ofName name = .ok order) (n : Nat) (buffer : Bytes)
    (x : State × List Made) :
    ((noteBlocks name n buffer).effect x).1 = .ok (blocks order n x.1 buffer).1 ∧
      ((noteBlocks name n buffer).effect x).2.1 = (blocks order n x.1 buffer).2 := by
  induction n generalizing x buffer with
  | zero => exact ⟨rfl, rfl⟩
  | succ n ih =>
    rw [noteBlocks, effect_bind_of_ok (effect_noteBlock known x)]
    exact ih ..

theorem erases_noteKeystream (count : Int) (buffer : Bytes) (name : String) :
    Erases (noteKeystream count buffer name)
      (step (State.keystream · count buffer (ByteOrder.ofName name))) := by
  intro x
  rw [effect_step]
  unfold noteKeystream keystream
  by_cases negative : count < 0
  · simp only [if_pos negative]
    exact ⟨rfl, rfl⟩
  by_cases misfit : buffer.length ≠ 64
  · simp only [if_neg negative, if_pos misfit]
    exact ⟨rfl, rfl⟩
  simp only [if_neg negative, if_neg misfit]
  obtain ⟨n, rfl⟩ := Int.eq_ofNat_of_zero_le (Int.not_lt.1 negative)
  rw [Int.toNat_natCast]
  cases n with
  | zero => exact ⟨rfl, rfl⟩
  | succ n =>
    rw [if_neg (by omega)]
    by_cases member : name ∈ ByteOrder.names
    · obtain ⟨order, known⟩ := ByteOrder.exists_ofName member
      rw [known]
      exact effect_noteBlocks known (n + 1) buffer x
    · rw [noteBlocks, effect_bind_of_error (effect_noteBlock_of_not_mem member x),
        ByteOrder.ofName_of_not_mem member]
      exact ⟨rfl, rfl⟩

theorem Call.erases_noted (call : Call) : Erases call.noted call.perform := by
  cases call with
  | block order => exact (erases_noteBlock order).map some
  | keystream count buffer order => exact (erases_noteKeystream count buffer order).map some
  | advance | assign => exact erases_onFirst _

theorem fst_afterNoted (calls : List Call) (x : State × List Made) :
    (afterNoted calls x).1 = afterCalls calls x.1 := by
  induction calls generalizing x with
  | nil => rfl
  | cons call calls ih =>
    rw [afterNoted, List.foldl_cons]
    exact (ih _).trans (congrArg (afterCalls calls) (call.erases_noted x).2)

end

/-! One call is one move, and so is a history. -/

def Made.By (made : Made) (s : State) : Prop :=
  (s.setCounter (toInt made.counter)).blockNamed made.order =
    .ok (made.block, s.setCounter (toInt made.counter + 1))

theorem Made.By.of_setCounter {made : Made} {s : State} {v : Int}
    (own : made.By (s.setCounter v)) : made.By s := by
  simpa only [By, setCounter_setCounter] using own

/-- That the counter has gone on by `count` and by one for each block that was noted in between,
that the state is else unchanged, and that those blocks belong to the counters noted with them. -/
def Moved (count : Int) (x y : State × List Made) : Prop :=
  ∃ made, y = (x.1.setCounter (toInt x.1.counter + count + made.length), x.2 ++ made) ∧
    ∀ m ∈ made, m.By x.1

theorem Moved.refl (x : State × List Made) : Moved 0 x x := by
  refine ⟨[], ?_, nofun⟩
  simp

theorem moved_setCounter (x : State × List Made) (v : Int) :
    Moved (v - toInt x.1.counter) x (x.1.setCounter v, x.2) := by
  refine ⟨[], ?_, nofun⟩
  simp

theorem Moved.trans {m n : Int} {x y z : State × List Made} (first : Moved m x y)
    (rest : Moved n y z) : Moved (m + n) x z := by
  obtain ⟨front, rfl, made⟩ := first
  obtain ⟨back, rfl, later⟩ := rest
  refine ⟨front ++ back, ?_, fun made' member => ?_⟩
  · rw [setCounter_setCounter, toInt_counter_setCounter, List.append_assoc]
    refine congrArg (·, _) (setCounter_congr _ ?_)
    push_cast [List.length_append]
    omega
  · rcases List.mem_append.1 member with old | new
    · exact made made' old
    · exact (later made' new).of_setCounter

theorem moved_noteBlock (name : String) (x : State × List Made) :
    Moved 0 x ((noteBlock name).effect x).2 := by
  by_cases member : name ∈ ByteOrder.names
  · obtain ⟨order, known⟩ := ByteOrder.exists_ofName member
    rw [effect_noteBlock known]
    refine ⟨[⟨x.1.counter, name, (x.1.block order).1⟩], by simp [advance], ?_⟩
    rw [List.forall_mem_singleton, Made.By, setCounter_counter, blockNamed, known]
    rfl
  · rw [effect_noteBlock_of_not_mem member]
    exact .refl x

theorem keeps_noteBlocks (x : State × List Made) (name : String) (n : Nat) (buffer : Bytes) :
    Keeps (Moved 0 x) (noteBlocks name n buffer) := by
  induction n generalizing buffer with
  | zero => exact keeps_pure _
  | succ n ih =>
    exact Keeps.bind (fun y moved => moved.trans (moved_noteBlock name y)) fun _ => ih _

theorem moved_noteKeystream {machine : Machine} (count : Int) (buffer : Bytes) (name : String)
    (x : State × List Made) : Moved 0 x ((noteKeystream count buffer name).effect x).2 := by
  suffices Keeps (Moved 0 x) (noteKeystream count buffer name) from this x (.refl x)
  have made := keeps_noteBlocks x name count.toNat buffer
  refine keeps_ite (fun _ => (keeps_throw _).bind fun _ => ?_) fun _ => ?_
  all_goals exact keeps_ite (fun _ => (keeps_throw _).bind fun _ => made) fun _ => made

section

variable {machine : Machine}

theorem Call.moved_noted (call : Call) (x : State × List Made) :
    Moved (call.move x.1) x (call.noted.effect x).2 := by
  cases call with
  | block order =>
    rw [noted, effect_bind_pure]
    exact moved_noteBlock order x
  | keystream count buffer order =>
    rw [noted, effect_bind_pure]
    exact moved_noteKeystream count buffer order x
  | advance count =>
    have there : toInt x.1.counter + count - toInt x.1.counter = count := by omega
    have moved := moved_setCounter x (toInt x.1.counter + count)
    rwa [there] at moved
  | assign value => exact moved_setCounter x value

/-- What a whole history comes to: one move, of the sum of the advances if none of its calls
assigns the counter. -/
theorem moved_afterNoted (calls : List Call) (x : State × List Made) :
    ∃ count, Moved count x (afterNoted calls x) ∧
      ((∀ v, .assign v ∉ calls) → count = advances calls) := by
  induction calls generalizing x with
  | nil => exact ⟨0, .refl x, fun _ => rfl⟩
  | cons call calls ih =>
    obtain ⟨count, moved, sum⟩ := ih (call.noted.effect x).2
    refine ⟨call.move x.1 + count, (call.moved_noted x).trans moved, fun free => ?_⟩
    rw [sum fun v member => free v (List.mem_cons_of_mem _ member)]
    cases call with
    | assign v => exact absurd List.mem_cons_self (free v)
    | _ => rfl

theorem afterNoted_nil (calls : List Call) (s : State) :
    afterNoted calls (s, []) = (afterCalls calls s, madeBy calls s) :=
  Prod.ext (fst_afterNoted calls (s, [])) rfl

theorem exists_madeBy_since (before since : List Call) (v : Int) (s : State)
    (free : ∀ w, .assign w ∉ since) :
    ∃ made, madeBy (before ++ .assign v :: since) s = madeBy before s ++ made ∧
      toInt (afterCalls (before ++ .assign v :: since) s).counter =
        (v + advances since + made.length) % 0x100000000 := by
  have parts : afterNoted (before ++ .assign v :: since) (s, []) =
      afterNoted since ((afterCalls before s).setCounter v, madeBy before s) := by
    rw [afterNoted, List.foldl_append, List.foldl_cons]
    exact congrArg (afterNoted since)
      (congrArg (fun y => (y.1.setCounter v, y.2)) (afterNoted_nil before s))
  obtain ⟨count, ⟨made, moved, -⟩, sum⟩ :=
    moved_afterNoted since ((afterCalls before s).setCounter v, madeBy before s)
  rw [← parts, afterNoted_nil] at moved
  obtain ⟨state, notes⟩ := Prod.mk.inj moved
  refine ⟨made, notes, ?_⟩
  rw [state, toInt_counter_setCounter, toInt_counter_setCounter, sum free]
  omega

/-- Whatever is asked of a state, and whichever calls fail, only its counter moves: from its start,
or from where it was last put, by the sum of the advances and by one for each block made since. Each
block made is the first one of a fresh state that has the counter of that moment. -/
theorem only_position_moves (s : State) (calls : List Call) :
    (∀ i (inside : i < 16), i ≠ 12 → (afterCalls calls s).words[i] = s.words[i]) ∧
    (∀ w ∈ (afterCalls calls s).integers, 0 ≤ w ∧ w < 0x100000000) ∧
    ((∀ v, .assign v ∉ calls) →
      toInt (afterCalls calls s).counter =
        (toInt s.counter + advances calls + (madeBy calls s).length) % 0x100000000) ∧
    (∀ before v since, calls = before ++ .assign v :: since → (∀ w, .assign w ∉ since) →
      ∃ made, madeBy calls s = madeBy before s ++ made ∧
        toInt (afterCalls calls s).counter =
          (v + advances since + made.length) % 0x100000000) ∧
    (∀ made ∈ madeBy calls s, ∃ fresh,
      ofWords (s.integers.set 12 (toInt made.counter)) = .ok fresh ∧
        fresh.blockNamed made.order = .ok (made.block, fresh.advance 1)) ∧
    ∀ (call : Call) (notes : List Made),
      (call.noted.effect (s, notes)).1 = (call.perform.effect s).1 ∧
        (call.noted.effect (s, notes)).2.1 = (call.perform.effect s).2 := by
  obtain ⟨count, ⟨made, moved, own⟩, sum⟩ := moved_afterNoted calls (s, [])
  rw [afterNoted_nil] at moved
  obtain ⟨state, notes⟩ := Prod.mk.inj moved
  rw [List.nil_append] at notes
  subst notes
  refine ⟨fun i inside other => ?_, fun w member => ?_, fun free => ?_,
    fun before v since parts free => ?_, fun made member => ?_,
    fun call notes => call.erases_noted (s, notes)⟩
  · rw [state]
    exact words_setCounter s _ inside other
  · obtain ⟨v, -, rfl⟩ := List.mem_map.1 member
    exact toInt_mem_range v
  · rw [state, toInt_counter_setCounter, sum free]
  · subst parts
    exact exists_madeBy_since before since v s free
  · have word : toInt made.counter % 0x100000000 = toInt made.counter :=
      Int.emod_eq_of_lt (toInt_mem_range _).1 (toInt_mem_range _).2
    refine ⟨s.setCounter (toInt made.counter), ?_, ?_⟩
    · rw [← ofWords_integers, integers_setCounter, word]
    · rw [own made member, advance, setCounter_setCounter, toInt_counter_setCounter, word]

end

example :
    (madeBy [.block "big", .keystream 2 (List.replicate 64 0) "little", .block "middle"]
      (make (.replicate 32 1) (.replicate 12 9) 0xffffffff)).map (·.counter) =
      [0xffffffff, 0, 1] := by
  decide +kernel

/-- A history with calls that fail, advances back and far on, and an assignment past `2^64`. -/
theorem only_position_moves_past_failures :
    let s := make (.ofFn fun i => .ofNat i) (.replicate 12 9) 0xffffffff
    let zeros : Bytes := List.replicate 64 0
    let before := [Call.block "big", .keystream 2 zeros "native", .advance (-0x10000000000000001)]
    let since := [Call.keystream 2 zeros "little", .keystream (-1) zeros "big",
      .keystream 1 [] "big", .block "middle", .advance 5]
    (∀ v, .assign v ∉ before) ∧
      toInt (afterCalls before s).counter =
        (0xffffffff - 0x10000000000000001 + (madeBy before s).length) % 0x100000000 ∧
      ∃ made, madeBy (before ++ .assign 0x10000000000000007 :: since) s = madeBy before s ++ made ∧
        toInt (afterCalls (before ++ .assign 0x10000000000000007 :: since) s).counter =
          (0x10000000000000007 + 5 + made.length) % 0x100000000 := by
  intro s zeros before since
  have free : ∀ v, .assign v ∉ before := by simp [before]
  exact ⟨free, (only_position_moves s before).2.2.1 free,
    (only_position_moves s _).2.2.2.1 before _ since rfl (by simp [since])⟩

end Keystream.State
