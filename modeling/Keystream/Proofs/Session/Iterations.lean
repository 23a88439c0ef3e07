import Keystream.Proofs.Serial.Transport
import Keystream.Proofs.Session.Serial
/-!
The number of blocks on its way from the host to the program. A reply has one word for it, and both
ends take any word for good; so what arrives is the number modulo `2^32`, which the program runs.
-/
namespace Keystream

open Keystream.Action Port

def iterationsAsked : Bytes := Frame.encode ⟨Word.ofInt Frame.signalMagic, 2, 0⟩

def iterationsTold (n : Nat) : Bytes :=
  Frame.encode ⟨Word.ofInt Frame.signalMagic, 0, Word.ofInt n⟩

/-- The reply of a host that cannot write down how many blocks there are to be. -/
def iterationsRefused : Bytes :=
  Frame.encode ⟨Word.ofInt Frame.signalMagic, Word.ofInt Frame.Status.invalid.code, 0⟩

section

variable {machine : Machine} {l : Link} {tail : Bytes} {n : Nat}

namespace HostEnd

variable {η : Type} (host : Host (Link × η)) {s : η}

theorem exists_effect_serveOne_iterations
    (answered : ∀ p : Link, (host.signal 2 0).effect (p, s) = (.ok (some (n : Int)), (p, s)))
    (stands : l.port.unread = iterationsAsked ++ tail) (hands : l.port.limit ≠ some 0) :
    ∃ q, (serveOne host).effect (l, s) = (.ok true, (q, s)) ∧
      q.port.sent = l.port.sent ++ iterationsTold n ∧ q.port.unread = tail := by
  let turn : Turn := { sig := .iterations, value := 0, response := n }
  have asks : turn.toHost = iterationsAsked := List.append_nil _
  have tells : turn.toProgram = iterationsTold n := List.nil_append _
  have here := view_of_unread stands
  rw [← asks] at here
  obtain ⟨q, served, view⟩ := exists_effect_ask host here hands rfl answered
  obtain ⟨unread, sent, _⟩ := View.mk.inj view
  exact ⟨q, served, tells ▸ sent, unread⟩

theorem exists_effect_serveOne_uncounted {e : Error} (invalid : e.kind = .value)
    (refused : ∀ p : Link, (host.signal 2 0).effect (p, s) = (.error e, (p, s)))
    (stands : l.port.unread = iterationsAsked ++ tail) (hands : l.port.limit ≠ some 0) :
    ∃ q, (serveOne host).effect (l, s) = (.error e, (q, s)) ∧
      q.port.sent = l.port.sent ++ iterationsRefused ∧ q.port.unread = tail := by
  let f : Frame := ⟨Word.ofInt Frame.signalMagic, 2, 0⟩
  have failed (p : Link) : (dispatch host (Word.toInt f.magic) f.encode).effect (p, s) =
      (.error e, (p, s)) := by
    rw [effect_dispatch, if_pos rfl]
    exact refused p
  obtain ⟨q, served, view⟩ := exists_effect_serveOne_failed ⟨_, Frame.bytes_signalMagic⟩
    (show l.port.view = ⟨[] ++ (f.encode ++ tail), _, _, _⟩ from view_of_unread stands) hands
    unmarked_nil Frame.signalMagic_ne_haltMagic fun p view => ⟨p, failed p, view⟩
  obtain ⟨unread, sent, _⟩ := View.mk.inj view
  rw [code_statusOf, invalid] at sent
  exact ⟨q, served, sent, unread⟩

end HostEnd

namespace ProgramEnd

variable {μ : Type} (mem : Option (MemoryAccess μ)) (x : μ)

theorem exists_effect_signal_iterations (stands : l.port.unread = iterationsTold n ++ tail)
    (hands : l.port.limit ≠ some 0) :
    ∃ q, ((channel mem).signal 2 0).effect (x, l) = (.ok ((n : Int) % 0x100000000), (x, q)) ∧
      q.port.sent = l.port.sent ++ iterationsAsked ∧ q.port.unread = tail := by
  obtain ⟨q, told, view⟩ := HostEnd.exists_effect_signal_replied mem x 2 0 (.ok (some (n : Int)))
    (view_of_unread stands) hands
  obtain ⟨unread, sent, _⟩ := View.mk.inj view
  rw [HostEnd.heard, Option.getD_some, Word.toInt_ofInt] at told
  exact ⟨q, told, sent, unread⟩

theorem exists_effect_signal_uncounted (stands : l.port.unread = iterationsRefused ++ tail)
    (hands : l.port.limit ≠ some 0) :
    ∃ q, ((channel mem).signal 2 0).effect (x, l) =
        (.error (.remote Frame.Status.invalid.code), (x, q)) ∧
      q.port.sent = l.port.sent ++ iterationsAsked ∧ q.port.unread = tail := by
  obtain ⟨q, told, view⟩ := HostEnd.exists_effect_signal_replied mem x 2 0
    (.error (.tooManyDigits 0 none)) (view_of_unread stands) hands
  obtain ⟨unread, sent, _⟩ := View.mk.inj view
  exact ⟨q, told, sent, unread⟩

end ProgramEnd

end

namespace Session

/-- Whether runs at the two ends of a line, each of which finds there what the other one writes,
come to `block` and halt. -/
def EndsGive [Machine] (m : Memory) (task : Task) (quest : Quest) (block : Bytes) : Prop :=
  ∃ toHost toProgram : Bytes,
    (∀ (line : Line) (device : Option String) (address : PortAddress),
      PortAddress.resolve line.environment device none = .ok address → line.limit ≠ some 0 →
      line.waiting = toProgram →
      ∃ port g, (runTarget device task).effect (line, m) =
          (.ok block, ({ line with opened := some (address, port) }, g)) ∧
        port.unread = [] ∧ port.sent = toHost) ∧
    ∀ (line : Line) (device : Option String) (address : PortAddress) (μ : Type) (x : μ),
      PortAddress.resolve line.environment device none = .ok address → line.limit ≠ some 0 →
      line.waiting = toHost →
      ∃ port o, (runHost device quest).effect (line, x) =
          (.ok o, ({ line with opened := some (address, port) }, x)) ∧
        port.unread = [] ∧ port.sent = toProgram ∧ o.halted = true ∧ o.output = some block

theorem ofInt_natCast_mod (n : Nat) :
    Word.ofInt ((n % 0x100000000 : Nat) : Int) = Word.ofInt n := by
  have same : ((n % 0x100000000 : Nat) : Int) % 0x100000000 = (n : Int) % 0x100000000 := by omega
  simp only [Word.ofInt, same]

section

variable (b : Buffers) (key : Vector UInt8 32) (nonce : Vector UInt8 12) (n : Nat) (block : Bytes)

theorem toProgram_mod : toProgram b key nonce (n % 0x100000000) block =
    toProgram b key nonce n block := by
  simp only [toProgram, turns, List.flatMap_cons, List.flatMap_nil, Turn.toProgram,
    ofInt_natCast_mod]

theorem toHost_mod : toHost b key nonce (n % 0x100000000) block = toHost b key nonce n block := by
  simp only [toHost, turns, List.flatMap_cons, List.flatMap_nil, Turn.toHost]

end

section

variable {machine : Machine}

theorem endsGive_lastBlock {m : Memory} (reachable : m.Reachable)
    (room : m.heap.HasRoom [32, 12, 64, 64]) (low : 0 ≤ m.heap.start)
    (high : m.base + m.size ≤ 0x100000000) (key : Vector UInt8 32) (nonce : Vector UInt8 12)
    {n : Nat} (spells : Machine.Spells n) (counter : Int) {name : String} {order : ByteOrder}
    (named : ByteOrder.ofName name = .ok order) (traced loud : Bool) :
    EndsGive m { counter := .ok counter, order := ByteOrder.ofName name, traced }
      { key := key.toList, nonce := nonce.toList, iterations := n, traced := loud }
      (Standard.lastBlock key nonce counter (n % 0x100000000) order) := by
  let task : Task := { counter := .ok counter, order := ByteOrder.ofName name, traced }
  obtain ⟨b, g, allocated, lent⟩ := Buffers.exists_lent reachable.wellFormed room
  have words (a) (member : a ∈ b.addresses) : Word.toInt (Word.ofInt a) = a := by
    obtain ⟨above, below⟩ := lent.bounds member
    exact Word.toInt_ofInt_of_lt (low.trans above) (below.trans_le high)
  have counted : Word.toInt (Word.ofInt (n % 0x100000000 : Nat)) = (n % 0x100000000 : Nat) :=
    Word.toInt_ofInt_of_lt (by omega) (by omega)
  have isCounter : task.counter = .ok counter := rfl
  let block := Standard.lastBlock key nonce counter (n % 0x100000000) order
  refine ⟨toHost b key nonce n block, toProgram b key nonce n block, ?_, ?_⟩
  · intro line device address opens hands waits
    rw [← toHost_mod]
    rw [← toProgram_mod] at waits
    exact exists_effect_runTarget lent allocated isCounter named words counted rfl opens hands
      waits
  · intro line device address μ x opens hands waits
    obtain ⟨port, ran, unread, sent⟩ :=
      exists_effect_runHost spells (Standard.length_lastBlock ..) words opens hands waits loud x
    exact ⟨port, _, ran, unread, sent, rfl, rfl⟩

/-- The number of blocks that a host asks for, if it can be written, crosses a line modulo `2^32`:
neither end objects, the program is told the remainder and makes so many blocks, and both ends halt.
In one place the program is told the number itself. So the two agree on all numbers that are words,
and on no others that can be written. A number that cannot be written the host refuses to tell, over
a line as in one place. -/
theorem iterations_cross_modulo_word (o : Oracle) (running : o.halted = false) :
    (Machine.Spells o.iterations →
      (∀ (l : Link) (tail : Bytes), l.port.unread = iterationsAsked ++ tail →
        l.port.limit ≠ some 0 →
        (∀ mem : MemoryAccess Link,
          ∃ q, (HostEnd.serveOne (Oracle.host mem)).effect (l, o) = (.ok true, (q, o)) ∧
            q.port.sent = l.port.sent ++ iterationsTold o.iterations ∧ q.port.unread = tail) ∧
        ∀ (μ : Type) (mem : MemoryAccess μ) (x : μ),
          ∃ q, (HostEnd.serveOne (Oracle.host mem).beside).effect (l, (x, o)) =
              (.ok true, (q, (x, o))) ∧
            q.port.sent = l.port.sent ++ iterationsTold o.iterations ∧ q.port.unread = tail) ∧
      (∀ (μ : Type) (mem : MemoryAccess μ) (x : μ) (traced : Bool),
        (((Oracle.host mem).loopback traced).signal 2 0).effect (x, o) =
          (.ok o.iterations, (x, o))) ∧
      ∀ (m : Memory) (counter : Int) (name : String) (order : ByteOrder) (traced loud : Bool),
        m.Reachable → m.heap.HasRoom [32, 12, 64, 64] → 0 ≤ m.heap.start →
        m.base + m.size ≤ 0x100000000 → ByteOrder.ofName name = .ok order →
        let task : Task := { counter := .ok counter, order := ByteOrder.ofName name, traced }
        let quest : Quest :=
          { key := o.key.toList, nonce := o.nonce.toList, iterations := o.iterations,
            traced := loud }
        EndsGive m task quest
            (Standard.lastBlock o.key o.nonce counter (o.iterations % 0x100000000) order) ∧
          ∃ o' g, (runLoopback task quest).effect m = (.ok o', g) ∧
            o'.output = some (Standard.lastBlock o.key o.nonce counter o.iterations order)) ∧
    (¬Machine.Spells o.iterations →
      (∀ (l : Link) (tail : Bytes), l.port.unread = iterationsAsked ++ tail →
        l.port.limit ≠ some 0 →
        (∀ mem : MemoryAccess Link,
          ∃ q, (HostEnd.serveOne (Oracle.host mem)).effect (l, o) =
              (.error (.tooManyDigits Machine.digits none), (q, o)) ∧
            q.port.sent = l.port.sent ++ iterationsRefused ∧ q.port.unread = tail) ∧
        ∀ (μ : Type) (mem : MemoryAccess μ) (x : μ),
          ∃ q, (HostEnd.serveOne (Oracle.host mem).beside).effect (l, (x, o)) =
              (.error (.tooManyDigits Machine.digits none), (q, (x, o))) ∧
            q.port.sent = l.port.sent ++ iterationsRefused ∧ q.port.unread = tail) ∧
      ∀ (μ : Type) (mem : MemoryAccess μ) (x : μ) (traced : Bool),
        (((Oracle.host mem).loopback traced).signal 2 0).effect (x, o) =
          (.error (.tooManyDigits Machine.digits none), (x, o))) ∧
    (∀ (l : Link) (tail : Bytes), l.port.limit ≠ some 0 →
      ∀ (μ : Type) (mem : Option (MemoryAccess μ)) (x : μ),
        (l.port.unread = iterationsTold o.iterations ++ tail →
          ∃ q, ((ProgramEnd.channel mem).signal 2 0).effect (x, l) =
              (.ok ((o.iterations : Int) % 0x100000000), (x, q)) ∧
            q.port.sent = l.port.sent ++ iterationsAsked ∧ q.port.unread = tail) ∧
        (l.port.unread = iterationsRefused ++ tail →
          ∃ q, ((ProgramEnd.channel mem).signal 2 0).effect (x, l) =
              (.error (.remote Frame.Status.invalid.code), (x, q)) ∧
            q.port.sent = l.port.sent ++ iterationsAsked ∧ q.port.unread = tail)) ∧
    ((o.iterations : Int) % 0x100000000 = o.iterations ↔ o.iterations < 0x100000000) := by
  refine ⟨fun spells => ?_, fun long => ?_,
    fun l tail hands μ mem x =>
      ⟨fun stands => ProgramEnd.exists_effect_signal_iterations mem x stands hands,
        fun stands => ProgramEnd.exists_effect_signal_uncounted mem x stands hands⟩,
    by omega⟩
  · have answered {μ : Type} (mem : MemoryAccess μ) (x : μ) :
        ((Oracle.host mem).signal 2 0).effect (x, o) =
          (.ok (some (o.iterations : Int)), (x, o)) :=
      Oracle.effect_signal (Oracle.effect_answer_iterations_of_spells running spells 0)
    refine ⟨fun l tail stands hands => ⟨fun mem => ?_, fun μ mem x => ?_⟩,
      fun μ mem x traced => ?_,
      fun m counter name order traced loud reachable room low high named => ⟨?_, ?_⟩⟩
    · exact HostEnd.exists_effect_serveOne_iterations _ (answered mem) stands hands
    · refine HostEnd.exists_effect_serveOne_iterations _ (fun p => ?_) stands hands
      rw [Host.beside, effect_onSecond, answered mem x]
    · exact Oracle.effect_loopback_answer .iterations traced
        (Oracle.effect_answer_iterations_of_spells running spells 0)
    · exact endsGive_lastBlock reachable room low high o.key o.nonce spells counter named traced
        loud
    · obtain ⟨b, g, allocated, lent⟩ := Buffers.exists_lent reachable.wellFormed room
      let task : Task := { counter := .ok counter, order := ByteOrder.ofName name, traced }
      have isCounter : task.counter = .ok counter := rfl
      obtain ⟨heap, ran⟩ :=
        exists_effect_runLoopback o.key o.nonce spells loud lent allocated isCounter named
      exact ⟨_, _, ran, rfl⟩
  · have refused {μ : Type} (mem : MemoryAccess μ) (x : μ) :
        (Oracle.answer mem 2 0).effect (x, o) =
          (.error (.tooManyDigits Machine.digits none), (x, o)) :=
      Oracle.effect_answer_iterations_of_not_spells running long 0
    refine ⟨fun l tail stands hands => ⟨fun mem => ?_, fun μ mem x => ?_⟩,
      fun μ mem x traced => Oracle.effect_loopback_refusal .iterations traced (refused mem x)⟩
    · exact HostEnd.exists_effect_serveOne_uncounted _ rfl
        (fun p => Oracle.effect_signal_of_error (refused mem p)) stands hands
    · refine HostEnd.exists_effect_serveOne_uncounted _ rfl (fun p => ?_) stands hands
      rw [Host.beside, effect_onSecond, Oracle.effect_signal_of_error (refused mem x)]

end

/-- A host that asks for `2^32` blocks. Over a line the program is told to make none, and both ends
come to a buffer of zeros; in one place the block is another one. -/
theorem iterations_cross_modulo_word_as_none :
    let o : Oracle :=
      { key := .replicate 32 1, nonce := .replicate 12 2, iterations := 0x100000000,
        traced := false }
    let m : Memory :=
      ⟨memoryBase, .replicate 256 0, ⟨memoryBase, 16, 16, [⟨16, false⟩], []⟩, false⟩
    let task : Task := { counter := .ok 1, order := ByteOrder.ofName "little" }
    let quest : Quest :=
      { key := o.key.toList, nonce := o.nonce.toList, iterations := 0x100000000 }
    let l : Link :=
      { port := { unread := iterationsTold 0x100000000 ++ [7], timeout := none }, traced := false }
    o.halted = false ∧ m.Reachable ∧ m.heap.HasRoom [32, 12, 64, 64] ∧
      (∃ q, ((ProgramEnd.channel (some (Memory.access memoryBase))).signal 2 0).effect (m, l) =
          (.ok 0, (m, q)) ∧ q.port.unread = [7]) ∧
      EndsGive m task quest (List.replicate 64 0) ∧
      ∃ o' g block, (runLoopback task quest).effect m = (.ok o', g) ∧ o'.output = some block ∧
        block ≠ List.replicate 64 0 := by
  intro o m task quest l
  have made : Memory.create 256 memoryBase none false = .ok m := rfl
  have reachable : m.Reachable := .created (le_refl memoryBase) made
  have room : m.heap.HasRoom [32, 12, 64, 64] :=
    ⟨_, _, rfl, _, _, rfl, _, _, rfl, _, _, rfl, trivial⟩
  have size : m.size = 256 := Array.size_replicate
  have high : m.base + m.size ≤ 0x100000000 := by
    rw [size]
    decide
  have other : Standard.lastBlock o.key o.nonce 1 0x100000000 .little ≠ List.replicate 64 0 := by
    decide +kernel
  have blank : Standard.lastBlock o.key o.nonce 1 (o.iterations % 0x100000000) .little =
      List.replicate 64 0 := if_pos (by decide)
  have none : (o.iterations : Int) % 0x100000000 = 0 := by decide
  have spells : Machine.Spells o.iterations :=
    Machine.spells_of_lt (k := 10) (by decide) (by decide)
  obtain ⟨crosses, _, told, _⟩ := iterations_cross_modulo_word o rfl
  obtain ⟨_, _, runs⟩ := crosses spells
  obtain ⟨q, zero, _, left⟩ :=
    (told l [7] (by decide) Memory (some (Memory.access memoryBase)) m).1 rfl
  obtain ⟨ends, o', g, ran, output⟩ :=
    runs m 1 "little" .little false false reachable room (by decide) high rfl
  rw [none] at zero
  rw [blank] at ends
  exact ⟨rfl, reachable, room, ⟨q, zero, left⟩, ends, o', g, _, ran, output, other⟩

end Session

end Keystream
