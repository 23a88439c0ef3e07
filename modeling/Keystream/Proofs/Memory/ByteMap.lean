import Keystream.Proofs.Layout
import Keystream.Proofs.Memory.Isolation
/-!
Memory as a map of bytes. Every access comes to one move, which takes a range of bytes up or puts
bytes down there; so whatever accesses a memory has seen, each address holds the byte put there
last.
-/
namespace Keystream.Memory

open Keystream.Action

/-- What is asked of the bytes of a memory. -/
inductive Access where
  | read (addr : Int) (size : Nat)
  | write (addr : Int) (s : Bytes)
  | readWord (addr : Int)
  | writeWord (addr v : Int)
  | readValue (addr : Int) (layout : Layout)
  | writeValue (addr : Int) (layout : Layout) (value : Value)
  | fill (addr value size : Int)

inductive Answer where
  | done
  | bytes (s : Bytes)
  | word (w : Word)
  | value (v : Value)

/-- What an access comes to if it stays inside. -/
inductive Move where
  | take (addr : Int) (n : Nat)
  | put (addr : Int) (s : Bytes)

namespace Move

def addr : Move → Int
  | take addr _ | put addr _ => addr

def length : Move → Nat
  | take _ n => n
  | put _ s => s.length

def perform : Move → Action Memory Bytes
  | take addr n => Memory.read addr n
  | put addr s => do
    Memory.write addr s
    return []

def taken (m : Memory) : Move → Bytes
  | take addr n => m.stretch addr n
  | put .. => []

def after (m : Memory) : Move → Memory
  | take .. => m
  | put addr s => m.written addr s

variable {m : Memory} {move : Move}

theorem effect_perform_of_holds (inside : m.Holds move.addr move.length) :
    move.perform.effect m = (.ok (move.taken m), move.after m) := by
  cases move with
  | take addr n => exact effect_read_of_holds inside
  | put addr s => exact (effect_bind_of_ok (effect_write_of_holds inside) _).trans rfl

theorem effect_perform_of_not_holds (outside : ¬m.Holds move.addr move.length) :
    move.perform.effect m =
      (.error (.outside move.addr move.length m.base (m.base + m.size)), m) := by
  cases move with
  | take addr n => exact (effect_read ..).trans (congrArg (·, m) (bytesAt_of_not_holds outside))
  | put addr s =>
    have refused : m.put addr s = _ := put_of_not_holds outside
    refine effect_bind_of_error ((effect_write ..).trans ?_) _
    rw [refused]
    rfl

end Move

namespace Access

def perform [Machine] : Access → Action Memory Answer
  | read addr size => return .bytes (← Memory.read addr size)
  | write addr s => do
    Memory.write addr s
    return .done
  | readWord addr => return .word (← Memory.readWord addr)
  | writeWord addr v => do
    Memory.writeWord addr v
    return .done
  | readValue addr layout => return .value (← Memory.readValue addr layout)
  | writeValue addr layout value => do
    Memory.writeValue addr layout value
    return .done
  | fill addr value size => do
    Memory.fill addr value size
    return .done

/-- The move that an access makes, or what goes wrong before its range is looked at. -/
def move [Machine] : Access → Except Error Move
  | read addr size => return .take addr size
  | write addr s => return .put addr s
  | readWord addr => if addr % 4 = 0 then return .take addr 4 else throw .misaligned
  | writeWord addr v =>
    if addr % 4 = 0 then return .put addr (Word.bytes (Word.ofInt v)) else throw .misaligned
  | readValue addr layout => return .take addr layout.size
  | writeValue addr layout value => return .put addr (← layout.write value)
  | fill addr value size => do
    Machine.checkRoom size
    return .put addr (List.replicate size.toNat (.ofNat (value % 256).toNat))

def reading : Access → Bytes → Except Error Answer
  | read .., s => return .bytes s
  | readWord _, s =>
    match Word.unpack s with
    | w :: _ => return .word w
    | [] => throw .shortInput
  | readValue _ layout, s => return .value (← layout.read s)
  | write .., _ | writeWord .., _ | writeValue .., _ | fill .., _ => return .done

section

variable {machine : Machine} {m : Memory} {access : Access} {move : Move}

theorem effect_aligned (addr : Int) (m : Memory) :
    (aligned addr).effect m = (if addr % 4 = 0 then .ok () else .error .misaligned, m) := by
  rw [aligned]
  by_cases word : addr % 4 = 0
  · rw [if_neg (not_not_intro word), if_pos word]
    rfl
  · rw [if_pos word, if_neg word]
    rfl

theorem ite_misaligned_eq_ok {addr : Int} {here : Move} :
    (if addr % 4 = 0 then (pure here : Except Error Move) else throw .misaligned) = .ok move ↔
      addr % 4 = 0 ∧ move = here := by
  split
  · next word => exact ⟨fun same => ⟨word, (Except.ok.inj same).symm⟩, fun both => both.2 ▸ rfl⟩
  · next askew => exact ⟨fun same => (by cases same), fun both => absurd both.1 askew⟩

theorem move_readWord_eq_ok {addr : Int} :
    (readWord addr).move = .ok move ↔ addr % 4 = 0 ∧ move = .take addr 4 :=
  ite_misaligned_eq_ok

theorem move_writeWord_eq_ok {addr v : Int} :
    (writeWord addr v).move = .ok move ↔
      addr % 4 = 0 ∧ move = .put addr (Word.bytes (Word.ofInt v)) :=
  ite_misaligned_eq_ok

theorem effect_perform_of_error {e : Error} (failed : access.move = .error e) :
    access.perform.effect m = (.error e, m) := by
  cases access with
  | read | write | readValue => cases failed
  | readWord addr | writeWord addr v =>
    by_cases word : addr % 4 = 0
    · rw [Access.move, if_pos word] at failed
      cases failed
    · rw [Access.move, if_neg word] at failed
      cases failed
      refine effect_bind_of_error (effect_bind_of_error ?_ _) _
      rw [effect_aligned, if_neg word]
  | writeValue addr layout value =>
    rcases laid : layout.write value with e' | s
    · rw [Access.move, laid] at failed
      cases failed
      refine effect_bind_of_error (effect_bind_of_error ?_ _) _
      rw [effect_liftM, laid]
    · rw [Access.move, laid] at failed
      cases failed
  | fill addr value size =>
    rcases counted : Machine.checkRoom size with e' | _
    · rw [Access.move, counted] at failed
      cases failed
      refine effect_bind_of_error (effect_bind_of_error ?_ _) _
      rw [effect_liftM, counted]
    · rw [Access.move, counted] at failed
      cases failed

theorem effect_perform_of_ok (moves : access.move = .ok move) :
    access.perform.effect m = (do access.reading (← move.perform) : Action _ _).effect m := by
  cases access with
  | read addr size =>
    cases moves
    rfl
  | write addr s =>
    cases moves
    simp only [perform, Move.perform, bind_assoc, pure_bind]
    rfl
  | readWord addr =>
    obtain ⟨word, rfl⟩ := move_readWord_eq_ok.1 moves
    have passes : (aligned addr).effect m = (.ok (), m) := by rw [effect_aligned, if_pos word]
    simp only [perform, Memory.readWord, Move.perform, bind_assoc]
    rw [effect_bind_of_ok passes, effect_bind, effect_bind]
    rcases (Memory.read addr 4).effect m with ⟨_ | s, g⟩
    · rfl
    · simp only [reading]
      cases Word.unpack s <;> rfl
  | writeWord addr v =>
    obtain ⟨word, rfl⟩ := move_writeWord_eq_ok.1 moves
    have passes : (aligned addr).effect m = (.ok (), m) := by rw [effect_aligned, if_pos word]
    simp only [perform, Memory.writeWord, Move.perform, bind_assoc, pure_bind]
    rw [effect_bind_of_ok passes]
    rfl
  | readValue addr layout =>
    cases moves
    simp only [perform, Memory.readValue, Move.perform, bind_assoc]
    rw [effect_bind, effect_bind]
    rcases (Memory.read addr layout.size).effect m with ⟨_ | s, g⟩
    · rfl
    · simp only [reading]
      cases layout.read s <;> rfl
  | writeValue addr layout value =>
    obtain ⟨s, laid, same⟩ := bind_eq_ok.1 moves
    cases same
    simp only [perform, Memory.writeValue, Move.perform, bind_assoc, pure_bind]
    rw [laid]
    rfl
  | fill addr value size =>
    obtain ⟨_, counted, same⟩ := bind_eq_ok.1 moves
    cases same
    have length : max size 0 = (List.replicate size.toNat
        (UInt8.ofNat (value % 256).toNat)).length := by
      rw [List.length_replicate]
      omega
    simp only [perform, Memory.fill, Move.perform, bind_assoc, pure_bind, length]
    rw [effect_bind_of_ok ((effect_liftM ..).trans (congrArg (·, m) counted)), effect_get_bind]
    rw [effect_bind, effect_liftM]
    rcases placed : m.offset addr _ with e | first
    · refine (effect_bind_of_error ?_ _).symm
      rw [effect_write, put, placed]
      rfl
    · rfl

theorem effect_perform_of_holds (moves : access.move = .ok move)
    (inside : m.Holds move.addr move.length) :
    access.perform.effect m = (access.reading (move.taken m), move.after m) := by
  rw [effect_perform_of_ok moves, effect_bind_of_ok (Move.effect_perform_of_holds inside)]
  rfl

theorem effect_perform_of_not_holds (moves : access.move = .ok move)
    (outside : ¬m.Holds move.addr move.length) :
    access.perform.effect m =
      (.error (.outside move.addr move.length m.base (m.base + m.size)), m) := by
  rw [effect_perform_of_ok moves]
  exact effect_bind_of_error (Move.effect_perform_of_not_holds outside) _

end

def byte? [Machine] (m : Memory) (a : Int) (access : Access) : Option UInt8 :=
  match access.move with
  | .ok (.put addr s) =>
    if m.Holds addr s.length ∧ addr ≤ a then s[(a - addr).toNat]? else none
  | _ => none

end Access

def afterAccesses [Machine] (accesses : List Access) (m : Memory) : Memory :=
  accesses.foldl (fun m access => (access.perform.effect m).2) m

/-- The byte that was put down last at an address, zero if there was none. -/
def lastByte [Machine] (m : Memory) (accesses : List Access) (a : Int) : UInt8 :=
  (accesses.reverse.findSome? (·.byte? m a)).getD 0

theorem lastByte_concat [Machine] (m : Memory) (accesses : List Access) (access : Access)
    (a : Int) :
    lastByte m (accesses ++ [access]) a = (access.byte? m a).getD (lastByte m accesses a) := by
  rw [lastByte, List.reverse_append, List.reverse_singleton, List.singleton_append,
    List.findSome?_cons]
  cases access.byte? m a <;> rfl

/-- Whether memory lies where `m` does and holds there the bytes of a map. -/
structure Shows (m : Memory) (byte : Int → UInt8) (g : Memory) : Prop where
  base : g.base = m.base
  size : g.size = m.size
  byteAt? : ∀ a, g.byteAt? a = if m.base ≤ a ∧ a < m.base + m.size then some (byte a) else none

def row (byte : Int → UInt8) (addr : Int) (n : Nat) : Bytes :=
  (List.range n).map fun i : Nat => byte (addr + i)

section

variable {machine : Machine} {m g : Memory} {byte : Int → UInt8} {access : Access}

theorem Shows.holds_iff (shows : Shows m byte g) (addr : Int) (n : Nat) :
    g.Holds addr n ↔ m.Holds addr n := by
  rw [Holds, Holds, shows.base, shows.size]

theorem Shows.stretch_eq_row (shows : Shows m byte g) {addr : Int} {n : Nat}
    (inside : m.Holds addr n) : g.stretch addr n = row byte addr n := by
  obtain ⟨low, high⟩ := inside
  apply List.map_congr_left
  intro i member
  have := List.mem_range.1 member
  rw [shows.byteAt?, if_pos (by omega)]
  rfl

theorem Shows.perform_cases (shows : Shows m byte g) (access : Access) :
    (∃ addr s, access.move = .ok (.put addr s) ∧ m.Holds addr s.length ∧
      (access.perform.effect g).2 = g.written addr s) ∨
    (∀ a, access.byte? m a = none) ∧ (access.perform.effect g).2 = g := by
  rcases moves : access.move with e | move
  · refine .inr ⟨fun a => ?_, ?_⟩
    · rw [Access.byte?, moves]
    · rw [Access.effect_perform_of_error moves]
  by_cases inside : m.Holds move.addr move.length
  · have done := Access.effect_perform_of_holds moves ((shows.holds_iff ..).2 inside)
    cases move with
    | take addr n =>
      refine .inr ⟨fun a => ?_, ?_⟩
      · rw [Access.byte?, moves]
      · rw [done]
        rfl
    | put addr s =>
      refine .inl ⟨addr, s, rfl, inside, ?_⟩
      rw [done]
      rfl
  · refine .inr ⟨fun a => ?_, ?_⟩
    · rw [Access.byte?, moves]
      cases move with
      | take => rfl
      | put addr s => exact if_neg fun both => inside both.1
    · rw [Access.effect_perform_of_not_holds moves (mt (shows.holds_iff ..).1 inside)]

theorem Shows.byteAt?_perform (shows : Shows m byte g) (access : Access) (a : Int) :
    (access.perform.effect g).2.byteAt? a = (access.byte? m a).or (g.byteAt? a) := by
  rcases shows.perform_cases access with ⟨addr, s, moves, inside, left⟩ | ⟨none, left⟩
  · rw [left, byteAt?_written ((shows.holds_iff ..).2 inside), Access.byte?, moves]
    simp only [inside, true_and]
    by_cases low : addr ≤ a
    · rw [if_pos low]
      by_cases high : a < addr + s.length
      · rw [if_pos ⟨low, high⟩, List.getElem?_eq_getElem (by omega), Option.some_or]
      · rw [if_neg (by omega), List.getElem?_eq_none (by omega), Option.none_or]
    · rw [if_neg low, if_neg (by omega), Option.none_or]
  · rw [left, none, Option.none_or]

theorem Access.byte?_of_outside {a : Int} (outside : ¬(m.base ≤ a ∧ a < m.base + m.size)) :
    access.byte? m a = none := by
  unfold byte?
  split
  · next addr s _ =>
    split
    · next both =>
      obtain ⟨⟨low, high⟩, behind⟩ := both
      exact List.getElem?_eq_none (by omega)
    · rfl
  · rfl

theorem Shows.perform (shows : Shows m byte g) (access : Access) :
    Shows m (fun a => (access.byte? m a).getD (byte a)) (access.perform.effect g).2 := by
  have bytes (a : Int) : (access.perform.effect g).2.byteAt? a = _ :=
    shows.byteAt?_perform access a
  rcases shows.perform_cases access with ⟨addr, s, moves, inside, left⟩ | ⟨none, left⟩
  · refine ⟨?_, ?_, fun a => ?_⟩
    · rw [left]
      exact shows.base
    · rw [left, size_written]
      exact shows.size
    · rw [bytes, shows.byteAt?]
      by_cases within : m.base ≤ a ∧ a < m.base + m.size
      · rw [if_pos within, if_pos within]
        cases access.byte? m a <;> rfl
      · rw [if_neg within, if_neg within, Access.byte?_of_outside within]
        rfl
  · rw [left]
    simpa only [none, Option.getD_none] using shows

theorem shows_zeros (base : Int) (n : Nat) (heap : Heap) (traced : Bool) :
    let m : Memory := ⟨base, Array.replicate n 0, heap, traced⟩
    m.size = n ∧ Shows m (fun _ => 0) m := by
  intro m
  have size : m.size = n := Array.size_replicate
  refine ⟨size, rfl, rfl, fun a => ?_⟩
  rw [size]
  show m.byteAt? a = if base ≤ a ∧ a < base + n then some 0 else none
  by_cases low : base ≤ a
  · have shown : m.byteAt? a = if (a - base).toNat < n then some 0 else none :=
      (byteAt?_of_le low).trans Array.getElem?_replicate
    rw [shown]
    by_cases high : a < base + n
    · rw [if_pos (by omega), if_pos ⟨low, high⟩]
    · rw [if_neg (by omega), if_neg (by omega)]
  · rw [if_neg fun both => low both.1]
    exact byteAt?_of_lt low

theorem shows_of_create {size base : Int} {heapStart : Option Int} {traced : Bool}
    (created : create size base heapStart traced = .ok m) :
    m.base = base ∧ (m.size : Int) = size ∧ Shows m (fun _ => 0) m := by
  simp only [create, bind_eq_ok, check_eq_ok] at created
  obtain ⟨_, _, counted, heap, _, same⟩ := created
  cases same
  obtain ⟨length, shows⟩ := shows_zeros base size.toNat heap traced
  exact ⟨rfl, by omega, shows⟩

/-- Each access that memory sees keeps it to the bytes put down last, and so do many. -/
theorem Shows.afterAccesses {before : List Access} (shows : Shows m (lastByte m before) g)
    (accesses : List Access) :
    Shows m (lastByte m (before ++ accesses)) (afterAccesses accesses g) := by
  induction accesses generalizing before g with
  | nil => rwa [List.append_nil]
  | cons access accesses ih =>
    have next : Shows m (lastByte m (before ++ [access])) (access.perform.effect g).2 := by
      simpa only [← lastByte_concat] using shows.perform access
    rw [← List.singleton_append, ← List.append_assoc]
    exact ih next

namespace Access

/-- What is wrong with an access to memory such as `m`, if anything is. -/
def fault [Machine] (m : Memory) (access : Access) : Option Error :=
  match access.move with
  | .error e => some e
  | .ok move =>
    if m.Holds move.addr move.length then none
    else some (.outside move.addr move.length m.base (m.base + m.size))

/-- Whether an answer is what an access gives where memory holds the bytes of a map. -/
def Gives (byte : Int → UInt8) : Access → Answer → Prop
  | read addr size, answer => answer = .bytes (row byte addr size)
  | readWord addr, answer => ∃ w, answer = .word w ∧ Word.bytes w = row byte addr 4
  | readValue addr layout, answer =>
    ∃ v, answer = .value v ∧ layout.read (row byte addr layout.size) = .ok v
  | write .., answer | writeWord .., answer | writeValue .., answer | fill .., answer =>
    answer = .done

theorem exists_word {s : Bytes} (whole : s.length = 4) :
    ∃ w, Word.unpack s = [w] ∧ Word.bytes w = s := by
  match s, whole with
  | [a, b, c, d], _ => exact ⟨Word.ofBytes a b c d, rfl, Word.bytes_ofBytes a b c d⟩

theorem length_row (byte : Int → UInt8) (addr : Int) (n : Nat) : (row byte addr n).length = n := by
  rw [row, List.length_map, List.length_range]

theorem exists_answer {move : Move} (moves : access.move = .ok move) (shows : Shows m byte g)
    (inside : m.Holds move.addr move.length) :
    ∃ answer, access.reading (move.taken g) = .ok answer ∧ access.Gives byte answer := by
  cases access with
  | read addr size =>
    cases moves
    exact ⟨_, rfl, congrArg Answer.bytes (shows.stretch_eq_row inside)⟩
  | readWord addr =>
    obtain ⟨_, rfl⟩ := move_readWord_eq_ok.1 moves
    obtain ⟨w, spelled, bytes⟩ := exists_word (length_row byte addr 4)
    have taken : g.stretch addr 4 = row byte addr 4 := shows.stretch_eq_row inside
    refine ⟨.word w, ?_, w, rfl, bytes⟩
    show reading _ (g.stretch addr 4) = _
    rw [taken, reading, spelled]
    rfl
  | readValue addr layout =>
    cases moves
    obtain ⟨v, read⟩ := layout.exists_read (Nat.le_of_eq (length_row byte addr layout.size).symm)
    have taken : g.stretch addr layout.size = row byte addr layout.size :=
      shows.stretch_eq_row inside
    refine ⟨.value v, ?_, v, rfl, read⟩
    show reading _ (g.stretch addr layout.size) = _
    rw [taken, reading, read]
    rfl
  | write | writeWord | writeValue | fill => exact ⟨.done, rfl, rfl⟩

theorem fault_of_ok {move : Move} (moves : access.move = .ok move) :
    access.fault m =
      if m.Holds move.addr move.length then none
      else some (.outside move.addr move.length m.base (m.base + m.size)) := by
  rw [fault, moves]

theorem perform_of_fault {e : Error} (shows : Shows m byte g) (faulty : access.fault m = some e) :
    access.perform.effect g = (.error e, g) := by
  rcases moves : access.move with e' | move
  · rw [fault, moves] at faulty
    cases faulty
    exact effect_perform_of_error moves
  · rw [fault_of_ok moves] at faulty
    by_cases inside : m.Holds move.addr move.length
    · rw [if_pos inside] at faulty
      cases faulty
    · rw [if_neg inside] at faulty
      cases faulty
      rw [effect_perform_of_not_holds moves (mt (shows.holds_iff ..).1 inside), shows.base,
        shows.size]

theorem exists_move_of_sound (sound : access.fault m = none) :
    ∃ move, access.move = .ok move ∧ m.Holds move.addr move.length := by
  rcases moves : access.move with e | move
  · rw [fault, moves] at sound
    cases sound
  · rw [fault_of_ok moves] at sound
    by_cases inside : m.Holds move.addr move.length
    · exact ⟨move, rfl, inside⟩
    · rw [if_neg inside] at sound
      cases sound

theorem exists_perform (shows : Shows m byte g) (sound : access.fault m = none) :
    ∃ answer h, access.perform.effect g = (.ok answer, h) ∧ access.Gives byte answer := by
  obtain ⟨move, moves, inside⟩ := exists_move_of_sound sound
  obtain ⟨answer, read, gives⟩ := exists_answer moves shows inside
  refine ⟨answer, move.after g, ?_, gives⟩
  rw [effect_perform_of_holds moves ((shows.holds_iff ..).2 inside), read]

theorem perform_after_put {writer reader : Access} {addr : Int} {s : Bytes}
    (puts : writer.move = .ok (.put addr s)) (takes : reader.move = .ok (.take addr s.length))
    (inside : g.Holds addr s.length) :
    writer.perform.effect g = (writer.reading [], g.written addr s) ∧
      reader.perform.effect (g.written addr s) = (reader.reading s, g.written addr s) := by
  have wrote := effect_perform_of_holds (m := g) puts inside
  have read := effect_perform_of_holds (m := g.written addr s) takes
    ((holds_written ..).2 inside)
  refine ⟨wrote, read.trans ?_⟩
  show (reader.reading ((g.written addr s).stretch addr s.length), _) = _
  rw [stretch_written_self inside]
  rfl

end Access

/-- Memory is a map of bytes. After any accesses it has the addresses it was made with, each of
which holds the byte put down there last. The next access fails for its fault and changes nothing,
or else gives what it makes of these bytes and changes those alone that it puts down; and a word or
a value that is read where it was written is the same again. Of a record it is the fields that the
layout names, so all of it where it has no others. -/
theorem memory_is_a_byte_map {size base : Int} {heapStart : Option Int} {traced : Bool}
    (created : create size base heapStart traced = .ok m) (before : List Access) :
    let g := afterAccesses before m
    g.base = base ∧ (g.size : Int) = size ∧
    (∀ a, g.byteAt? a =
      if base ≤ a ∧ a < base + size then some (lastByte m before a) else none) ∧
    (∀ access : Access,
      (∀ e, access.fault m = some e → access.perform.effect g = (.error e, g)) ∧
      (access.fault m = none → ∃ answer h, access.perform.effect g = (.ok answer, h) ∧
        access.Gives (lastByte m before) answer ∧
        ∀ a, h.byteAt? a = (access.byte? m a).or (g.byteAt? a))) ∧
    (∀ addr v, (Access.writeWord addr v).fault m = none →
      ∃ h, (Access.writeWord addr v).perform.effect g = (.ok .done, h) ∧
        (Access.readWord addr).perform.effect h = (.ok (.word (Word.ofInt v)), h) ∧
        Word.toInt (Word.ofInt v) = v % 0x100000000) ∧
    ∀ addr layout value, (Access.writeValue addr layout value).fault m = none →
      ∃ h, (Access.writeValue addr layout value).perform.effect g = (.ok .done, h) ∧
        (Access.readValue addr layout).perform.effect h =
          (.ok (.value (layout.taken value)), h) ∧
        (layout.Covers value → (layout.taken value).Same value) ∧
        ∀ given, value = .record given → given.map Prod.fst = layout.names →
          layout.names.Nodup → layout.taken value = value := by
  intro g
  obtain ⟨rfl, rfl, zeros⟩ := shows_of_create created
  have fresh : Shows m (lastByte m []) m := zeros
  have shows : Shows m (lastByte m before) g := fresh.afterAccesses before
  refine ⟨shows.base, congrArg Nat.cast shows.size, shows.byteAt?, fun access => ⟨?_, ?_⟩, ?_, ?_⟩
  · exact fun e faulty => Access.perform_of_fault shows faulty
  · intro sound
    obtain ⟨answer, h, done, gives⟩ := Access.exists_perform shows sound
    refine ⟨answer, h, done, gives, fun a => ?_⟩
    have bytes : (access.perform.effect g).2.byteAt? a = _ := shows.byteAt?_perform access a
    rwa [done] at bytes
  · intro addr v sound
    obtain ⟨move, moves, inside⟩ := Access.exists_move_of_sound sound
    obtain ⟨word, rfl⟩ := Access.move_writeWord_eq_ok.1 moves
    have takes : (Access.readWord addr).move =
        .ok (.take addr (Word.bytes (Word.ofInt v)).length) :=
      Access.move_readWord_eq_ok.2 ⟨word, rfl⟩
    obtain ⟨wrote, read⟩ := Access.perform_after_put moves takes ((shows.holds_iff ..).2 inside)
    refine ⟨_, wrote, read.trans ?_, Word.toInt_ofInt v⟩
    rw [Access.reading, Word.ofBytes_bytes]
    rfl
  · intro addr layout value sound
    obtain ⟨move, moves, inside⟩ := Access.exists_move_of_sound sound
    obtain ⟨s, laid, same⟩ := bind_eq_ok.1 moves
    cases same
    have takes : (Access.readValue addr layout).move = .ok (.take addr s.length) := by
      rw [Access.move, Layout.length_of_write laid]
      rfl
    obtain ⟨wrote, read⟩ := Access.perform_after_put moves takes ((shows.holds_iff ..).2 inside)
    refine ⟨_, wrote, read.trans ?_, Layout.same_taken, fun given isRecord => ?_⟩
    · rw [Access.reading, Layout.read_of_write laid]
      rfl
    · subst isRecord
      exact Layout.taken_eq_self

end

/-- Writes that overlap, and others that fail; then a word out of three of them, a word that lies
askew, and a value up to the end. -/
theorem memory_is_a_byte_map_under_overlaps :
    let m : Memory := ⟨0x100, Array.replicate 16 0, ⟨0x100, 16, 1, [⟨1, false⟩], []⟩, false⟩
    let before : List Access := [.write 0x102 [1, 2, 3, 4], .writeWord 0x104 (-1),
      .writeWord 0x106 0, .fill 0x105 0x1ab 2, .fill 0x10f 7 2, .write 0xff [9]]
    let g := afterAccesses before m
    let value : Value := .list [.int 5, .int 6, .int 7]
    let fields : Value :=
      .record [("checksum", .int 1), ("value", .int 2), ("sig", .int 3), ("magic", .int 4)]
    create 16 0x100 none false = .ok m ∧
      g.byteAt? 0x103 = some 2 ∧ g.byteAt? 0x10f = some 0 ∧ g.byteAt? 0x110 = none ∧
      (∃ answer h, (Access.readWord 0x104).perform.effect g = (.ok answer, h) ∧
        ∃ w, answer = .word w ∧ Word.bytes w = [0xff, 0xab, 0xab, 0xff]) ∧
      (Access.writeWord 0x10e 5).perform.effect g = (.error .misaligned, g) ∧
      (∃ h, (Access.writeWord 0x10c (-2)).perform.effect g = (.ok .done, h) ∧
        (Access.readWord 0x10c).perform.effect h = (.ok (.word 0xfffffffe), h)) ∧
      (∃ h, (Access.writeValue 0x104 .nonce value).perform.effect g = (.ok .done, h) ∧
        (Access.readValue 0x104 .nonce).perform.effect h = (.ok (.value value), h)) ∧
      ∃ h shown, (Access.writeValue 0x100 .signalRequest fields).perform.effect g =
          (.ok .done, h) ∧
        (Access.readValue 0x100 .signalRequest).perform.effect h = (.ok (.value shown), h) ∧
        shown.Same fields := by
  intro m before g value fields
  have created : create 16 0x100 none false = .ok m := rfl
  obtain ⟨_, _, bytes, next, words, values⟩ := memory_is_a_byte_map created before
  have second : lastByte m before 0x103 = 2 := by decide +kernel
  have last : lastByte m before 0x10f = 0 := by decide +kernel
  have spelled : row (lastByte m before) 0x104 4 = [0xff, 0xab, 0xab, 0xff] := by decide +kernel
  have sound : (Access.readWord 0x104).fault m = none := by decide +kernel
  have sound' : (Access.writeWord 0x10c (-2)).fault m = none := by decide +kernel
  have askew : (Access.writeWord 0x10e 5).fault m = some .misaligned := by decide +kernel
  have fits : (Access.writeValue 0x104 .nonce value).fault m = none := by decide +kernel
  have fits' : (Access.writeValue 0x100 .signalRequest fields).fault m = none := by decide +kernel
  have covers : Layout.signalRequest.Covers fields := ⟨_, rfl, by decide⟩
  obtain ⟨answer, h, read, gives, _⟩ := (next (.readWord 0x104)).2 sound
  obtain ⟨w, isWord, shown⟩ := gives
  obtain ⟨h', wrote, reread, _⟩ := words 0x10c (-2) sound'
  obtain ⟨k, laid, relaid, _⟩ := values 0x104 .nonce value fits
  obtain ⟨k', laid', relaid', same, _⟩ := values 0x100 .signalRequest fields fits'
  refine ⟨created, ?_, ?_, ?_, ⟨answer, h, read, w, isWord, ?_⟩, ?_, ⟨h', wrote, reread⟩,
    ⟨k, laid, relaid⟩, k', _, laid', relaid', same covers⟩
  · rw [bytes, second]
    rfl
  · rw [bytes, last]
    rfl
  · exact bytes 0x110
  · exact shown.trans spelled
  · exact (next (.writeWord 0x10e 5)).1 .misaligned askew

/-- What is wrong with its size comes before what is wrong with its range, and a value that is
written may have fields that are not read again. -/
theorem fill_without_room_and_field_without_place :
    let m : Memory := ⟨0x100, Array.replicate 16 0, ⟨0x100, 16, 1, [⟨1, false⟩], []⟩, false⟩
    let given : Value := .record [("magic", .int 1), ("sig", .int 2), ("value", .int 3),
      ("checksum", .int 4), ("more", .int 5)]
    create 16 0x100 none false = .ok m ∧
      (Access.fill 0x100 0 0x8000000000000000).perform.effect m = (.error .sizeTooLarge, m) ∧
      Error.sizeTooLarge.kind ≠ .index ∧
      (Access.fill 0x100 0 0x4000000000000000).perform.effect m = (.error .noRoom, m) ∧
      Error.noRoom.kind ≠ .index ∧
      ∃ shown h, (Access.writeValue 0x100 .signalRequest given).perform.effect m =
          (.ok .done, h) ∧
        (Access.readValue 0x100 .signalRequest).perform.effect h = (.ok (.value shown), h) ∧
        shown ≠ given := by
  intro m given
  have uncounted : (Access.fill 0x100 0 0x8000000000000000).move = .error .sizeTooLarge := rfl
  have large : (Access.fill 0x100 0 0x4000000000000000).move = .error .noRoom := rfl
  have puts : (Access.writeValue 0x100 .signalRequest given).move =
      .ok (.put 0x100 [1, 0, 0, 0, 2, 0, 0, 0, 3, 0, 0, 0, 4, 0, 0, 0]) := rfl
  have takes : (Access.readValue 0x100 .signalRequest).move = .ok (.take 0x100 16) := rfl
  obtain ⟨wrote, read⟩ := Access.perform_after_put (g := m) puts takes (by decide)
  refine ⟨rfl, Access.effect_perform_of_error uncounted, by decide,
    Access.effect_perform_of_error large, by decide, _, _, wrote, read, fun same => ?_⟩
  exact absurd (congrArg Value.parts? same) (by decide)

end Keystream.Memory
