import Keystream.Proofs.Session.Program
/-!
The run of program and oracle on one memory: whatever the heap has been through, it gives the
standard's block and leaves the bytes of all that was live.
-/
namespace Keystream.Session

open Keystream.Action

section

variable {machine : Machine} {m g h : Memory} {b : Buffers} {task : Task} {counter : Int}
  {order : ByteOrder}

theorem effect_runLoopback {quest : Quest} {o o' : Oracle} {result : Except Error Bytes}
    (made : quest.oracle = .ok o)
    (ran : (runProgram task ((Oracle.host (Memory.access m.base)).loopback quest.traced)).effect
      (m, o) = (result, (h, o'))) :
    (runLoopback task quest).effect m = (result.map fun _ => o', h) := by
  have given : (liftM quest.oracle : Action Memory Oracle).effect m = (.ok o, m) := by
    rw [effect_liftM, made]
  rw [runLoopback]
  rw [effect_bind_of_ok given, effect_get_bind, effect_bind, effect_withLocal, ran]
  cases result <;> rfl

theorem effect_loopback_key {o : Oracle} (placed : b.Placed g) (running : o.halted = false)
    (base : Int) (loud : Bool) :
    (((Oracle.host (Memory.access base)).loopback loud).signal 0 b.key).effect (g, o) =
      (.ok 0, (g.written b.key o.key.toList, { o with keyAddress := some b.key })) :=
  Oracle.effect_loopback_answer .keyAddress loud <|
    Oracle.effect_answer_key running (Memory.effect_write_of_holds (placed.holdsKey o.key))

theorem effect_loopback_nonce {o : Oracle} (placed : b.Placed g) (running : o.halted = false)
    (key : Vector UInt8 32) (base : Int) (loud : Bool) :
    (((Oracle.host (Memory.access base)).loopback loud).signal 1 b.nonce).effect
        (g.written b.key key.toList, o) =
      (.ok 0, (b.supplied key o.nonce g, { o with nonceAddress := some b.nonce })) :=
  Oracle.effect_loopback_answer .nonceAddress loud <|
    Oracle.effect_answer_nonce running
      (Memory.effect_write_of_holds (placed.holdsNonce key o.nonce))

theorem exists_effect_runLoopback (key : Vector UInt8 32) (nonce : Vector UInt8 12) {n : Nat}
    (spells : Machine.Spells n) (loud : Bool) (lent : Buffers.Lent m b g)
    (allocated : Buffers.allocate.effect m = (.ok b, g)) (isCounter : task.counter = .ok counter)
    (isOrder : task.order = .ok order) :
    ∃ heap, (runLoopback task
        { key := key.toList, nonce := nonce.toList, iterations := n, traced := loud }).effect m =
      (.ok (Oracle.finished { key, nonce, iterations := n, traced := loud } b
          (Standard.lastBlock key nonce counter n order)),
        { b.ended key nonce counter n order (b.supplied key nonce g) with heap }) := by
  let o : Oracle := { key, nonce, iterations := n, traced := loud }
  let block := Standard.lastBlock key nonce counter n order
  let keyed : Oracle := { o with keyAddress := some b.key }
  let supplied : Oracle := { keyed with nonceAddress := some b.nonce }
  let watching : Oracle := { supplied with outputAddress := some b.output, announcements := 1 }
  let captured : Oracle := { watching with announcements := 2, output := some block }
  let channel : Channel (Target Oracle) := (Oracle.host (Memory.access m.base)).loopback loud
  have placed := lent.placed
  have shows := (placed.supplied key nonce).effect_read_output key nonce counter n order
  have ran := Program.effect_run channel (p := task.program b) spells rfl isCounter isOrder placed
    (effect_loopback_key (o := o) placed rfl _ loud)
    (effect_loopback_nonce (o := keyed) placed rfl key _ loud)
    (Oracle.effect_loopback_answer .iterations loud <|
      Oracle.effect_answer_iterations_of_spells (o := supplied) rfl spells 0)
    (Oracle.effect_loopback_answer .outputAddress loud <|
      Oracle.effect_answer_output (o := supplied) rfl (Oracle.effect_announce_first rfl b.output))
    (Oracle.effect_loopback_answer .outputAddress loud <|
      Oracle.effect_answer_output (o := watching) rfl (Oracle.effect_announce_second rfl shows))
    (Host.effect_loopback_halt loud <| Oracle.effect_finish (o := captured) rfl rfl)
  obtain ⟨heap, ran⟩ :=
    exists_effect_runProgram lent allocated (lent.wellFormed_ended ..) rfl ran
  exact ⟨heap, effect_runLoopback (oracle_eq key nonce n loud) ran⟩

end

end Keystream.Session
