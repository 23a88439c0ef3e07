import Keystream.Proofs.Oracle
import Keystream.Proofs.Program.Run
import Keystream.Session
/-!
A run of the program in buffers that it is lent. What was live before keeps its bytes, and the
buffers are given back.
-/
namespace Keystream

open Keystream.Action

theorem Memory.WellFormed.byteAt?_written_of_live {m : Memory} (w : m.WellFormed) {addr : Int}
    {s : Bytes} (lives : (addr, (s.length : Int)) ∈ m.heap.sizes) {entry : Int × Int}
    (live : entry ∈ m.heap.sizes) (other : entry.1 ≠ addr) {a : Int} (low : entry.1 ≤ a)
    (high : a < entry.1 + entry.2) : (m.written addr s).byteAt? a = m.byteAt? a := by
  have clear := w.heap.clear live lives other
  simp only at clear
  exact byteAt?_written_of_apart (w.holds lives) (by omega)

namespace Buffers.Lent

variable {m g : Memory} {b : Buffers} (lent : Lent m b g)
include lent

theorem byteAt?_written {h : Memory} (w : h.WellFormed) (same : h.heap = g.heap) {addr : Int}
    {s : Bytes} (own : (addr, (s.length : Int)) ∈ b.entries) {entry : Int × Int}
    (live : entry ∈ m.heap.sizes) {a : Int} (low : entry.1 ≤ a) (high : a < entry.1 + entry.2) :
    (h.written addr s).byteAt? a = h.byteAt? a :=
  w.byteAt?_written_of_live (same ▸ (lent.live _).2 (.inl own))
    (same ▸ (lent.live entry).2 (.inr live))
    (lent.apart entry live addr (List.mem_map_of_mem own)) low high

theorem wellFormed_supplied (key : Vector UInt8 32) (nonce : Vector UInt8 12) :
    (b.supplied key nonce g).WellFormed :=
  (lent.wellFormed.written ..).written ..

theorem wellFormed_ended (key : Vector UInt8 32) (nonce : Vector UInt8 12) (counter : Int) (n : Nat)
    (order : ByteOrder) :
    (b.ended key nonce counter n order (b.supplied key nonce g)).WellFormed :=
  (((lent.wellFormed_supplied key nonce).written ..).written ..).written ..

end Buffers.Lent

/-- The oracle once a run is over, whose buffers it was told of and whose output was `block`. -/
def Oracle.finished (o : Oracle) (b : Buffers) (block : Bytes) : Oracle :=
  { o with
    keyAddress := some b.key
    nonceAddress := some b.nonce
    outputAddress := some b.output
    announcements := 2
    halted := true
    output := some block }

namespace Session

theorem oracle_eq [Machine] (key : Vector UInt8 32) (nonce : Vector UInt8 12) (n : Nat)
    (traced : Bool) :
    Quest.oracle { key := key.toList, nonce := nonce.toList, iterations := n, traced } =
      .ok { key, nonce, iterations := n, traced } := by
  simp only [Quest.oracle, Oracle.create, bind_eq_ok, check_eq_ok]
  exact ⟨key, State.checkedKey_toList key, nonce, State.checkedNonce_toList nonce, by omega, rfl⟩

variable {machine : Machine} {π : Type} {task : Task} {channel : Channel (Target π)}
  {m g last : Memory} {b : Buffers}

def Task.program (task : Task) (b : Buffers) : Program :=
  { buffers := b, counter := task.counter, order := task.order, traced := task.traced }

theorem effect_runProgram {h : Memory} {peer peer' : π} {result : Except Error Bytes} {p : Program}
    (allocated : Buffers.allocate.effect m = (.ok b, g))
    (ran : (Program.run channel).effect ((g, peer), task.program b) = (result, ((last, peer'), p)))
    (released : b.release.effect last = (.ok (), h)) :
    (runProgram task channel).effect (m, peer) = (result, (h, peer')) := by
  have taken : (Buffers.allocate.onFirst : Action (Target π) Buffers).effect (m, peer) =
      (.ok b, (g, peer)) := by
    rw [effect_onFirst, allocated]
  have body : (withLocal (task.program b) (Program.run channel)).effect (g, peer) =
      (result.map (·, p), (last, peer')) := by
    rw [effect_withLocal, ran]
  have ended : ((withLocal (task.program b) (Program.run channel)).ensuring
      b.release.onFirst).effect (g, peer) = (result.map (·, p), (h, peer')) := by
    rw [effect_ensuring, body]
    simp only [effect_onFirst, released]
  rw [runProgram, effect_bind_of_ok taken]
  cases result with
  | error e => exact effect_bind_of_error ended _
  | ok block => exact effect_bind_of_ok ended _

theorem exists_effect_runProgram {peer peer' : π} {result : Except Error Bytes} {p : Program}
    (lent : Buffers.Lent m b g) (allocated : Buffers.allocate.effect m = (.ok b, g))
    (w : last.WellFormed) (sameHeap : last.heap = g.heap)
    (ran : (Program.run channel).effect ((g, peer), task.program b) =
      (result, ((last, peer'), p))) :
    ∃ heap, (runProgram task channel).effect (m, peer) =
      (result, ({ last with heap }, peer')) := by
  obtain ⟨heap, released, _⟩ := Buffers.exists_release w lent.distinct fun entry member =>
    sameHeap ▸ (lent.live entry).2 (.inl member)
  exact ⟨heap, effect_runProgram allocated ran released⟩

end Session

end Keystream
