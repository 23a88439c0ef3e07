import Keystream.Proofs.Oracle.History
import Keystream.Proofs.Program.Allocation
import Keystream.Proofs.Serial.Transport
import Keystream.Proofs.Session.Printed
import Keystream.Proofs.Session.Serial
/-!
What a run leaves behind. Whatever cuts it short, program and host change memory by reads and writes
alone; so the buffers that were lent for the run can be given back, and the heap is as it was.
-/
namespace Keystream

open Keystream.Action

namespace Memory

variable {m g : Memory} {before : Heap}

theorem owes_allocateAll [Machine] {sizes pending addrs : List Int} (o : before.Owes m.heap pending)
    (w : m.heap.WellFormed) (done : (allocateAll sizes).effect m = (.ok addrs, g)) :
    before.Owes g.heap (addrs.reverse ++ pending) ∧ m.Settled g := by
  induction sizes generalizing m pending addrs with
  | nil =>
    cases done
    exact ⟨o, .refl w⟩
  | cons size sizes ih =>
    have settled : m.Settled ((allocate size 4).effect m).2 :=
      keeps_settled_allocate size 4 m (.refl w)
    rw [allocateAll] at done
    obtain ⟨addr, f, taken, done⟩ := effect_bind_eq_ok.1 done
    obtain ⟨behind, g', rest, done⟩ := effect_bind_eq_ok.1 done
    cases done
    rw [taken] at settled
    rcases allocated : m.heap.allocate 4 size with e | ⟨a, heap⟩
    · rw [allocate_of_error allocated] at taken
      cases taken
    have lent := o.allocate w 4 size
    rw [effect_step, allocated] at lent
    obtain ⟨only, given⟩ := changedOnly_allocate allocated
    rw [taken] at only given
    obtain rfl := given addr rfl
    have same : f.heap = heap := only.heap
    subst same
    obtain ⟨owes, settled'⟩ := ih lent settled.heap rest
    refine ⟨?_, settled.trans settled'⟩
    rw [List.reverse_cons, List.append_assoc]
    exact owes

end Memory

namespace Buffers

variable {machine : Machine} {m g last : Memory} {b : Buffers}

theorem effect_release {heap : Heap} (given : m.heap.releaseAll b.addresses = .ok heap) :
    b.release.effect m = (.ok (), { m with heap }) := by
  have releases (h : Heap) {g : Heap} {addr : Int} (released : h.release addr = .ok g) :
      (Memory.release addr).effect { m with heap := h } = (.ok (), { m with heap := g }) := by
    rw [Memory.release, effect_step, released]
    rfl
  simp only [Heap.releaseAll, addresses, List.foldlM_cons, List.foldlM_nil, bind_eq_ok] at given
  obtain ⟨h1, first, h2, second, h3, third, h4, fourth, same⟩ := given
  cases same
  refine (effect_bind_of_ok (releases m.heap first) _).trans ?_
  refine (effect_bind_of_ok (releases h1 second) _).trans ?_
  exact (effect_bind_of_ok (releases h2 third) _).trans (releases h3 fourth)

theorem effect_release_of_lent (w : m.heap.WellFormed)
    (allocated : allocate.effect m = (.ok b, g)) (same : last.heap = g.heap) :
    b.release.effect last = (.ok (), { last with heap := m.heap }) ∧ g.size = m.size := by
  have lent : (Memory.allocateAll [32, 12, 64, 64]).effect m = (.ok b.addresses, g) := by
    rw [← addresses_allocate, effect_bind_pure, allocated]
    rfl
  have none : m.heap.Owes m.heap [] := ⟨List.nodup_nil, by simp, by simp⟩
  obtain ⟨owes, settled⟩ := Memory.owes_allocateAll none w lent
  refine ⟨effect_release ?_, settled.size⟩
  rw [same]
  exact owes.releaseAll w settled.heap settled.space (by simp)

end Buffers

abbrev Memory.Shaped (m : Memory) : Memory → Prop := m.ChangedOnly fun _ => True

section

variable [Machine] {π : Type} {m : Memory} {P : π → Prop} {channel : Channel (Target π)}
  (asks : ∀ (sig : Signal) value, Keeps (Beside m.Shaped P) (channel.signal sig.code value))
  (halts : Keeps (Beside m.Shaped P) channel.halt)
include asks halts

theorem Program.keeps_run (loud : Bool) : Keeps (Telling m.Shaped P loud) (run channel) := by
  refine (prints_run (fun addr size => ?_) (fun addr s => ?_) (fun text => ?_)
    (fun sig _ value => (asks sig value).prints) halts.prints).keeps
  · exact (Memory.keeps_changed_read addr size).prints
  · exact (Memory.keeps_changed_write fun _ _ _ => trivial).prints
  · exact (keeps_of_unchanged fun s => by rw [effect_note]).prints

end

namespace Session

/-- However a run ends, the heap is as it was, and what signals and halt keep of the channel's world
is kept. -/
theorem runProgram_restores [Machine] {π : Type} {m g : Memory} {b : Buffers} {P : π → Prop}
    {channel : Channel (Target π)} (w : m.heap.WellFormed)
    (allocated : Buffers.allocate.effect m = (.ok b, g))
    (asks : ∀ (sig : Signal) value, Keeps (Beside g.Shaped P) (channel.signal sig.code value))
    (halts : Keeps (Beside g.Shaped P) channel.halt) (task : Task) (peer : π) (holds : P peer) :
    let t := ((runProgram task channel).effect (m, peer)).2
    t.1.heap = m.heap ∧ t.1.size = m.size ∧ P t.2 := by
  intro t
  have kept := Program.keeps_run asks halts task.traced ((g, peer), task.program b)
    ⟨⟨.refl .., holds⟩, rfl⟩
  rcases ran : (Program.run channel).effect ((g, peer), task.program b) with
    ⟨result, ⟨last, peer'⟩, p⟩
  rw [ran] at kept
  obtain ⟨⟨only, holds⟩, _⟩ := kept
  obtain ⟨released, size⟩ := Buffers.effect_release_of_lent w allocated only.heap
  have ended := effect_runProgram allocated ran released
  have same : t = ({ last with heap := m.heap }, peer') := congrArg Prod.snd ended
  rw [same]
  exact ⟨rfl, only.size.trans size, holds⟩

end Session

namespace Oracle

variable {machine : Machine} {m : Memory}

theorem keeps_loopback_signal (base : Int) (loud : Bool) (sig : Signal) (value : Int) :
    Keeps (Beside m.Shaped fun _ => True)
      (((host (Memory.access base)).loopback loud).signal sig.code value) := by
  rintro ⟨n, o⟩ ⟨only, _⟩
  have told : n.Shaped
      ((Call.perform (Memory.access base) (.signal sig.code value)).effect (n, o)).2.1 :=
    (performed base n o (.signal sig.code value)).2.mono fun _ _ => trivial
  rw [effect_perform_signal] at told
  rw [Host.effect_loopback loud sig.spells_code]
  refine ⟨only.trans ?_, trivial⟩
  show n.Shaped ((answer (Memory.access base) sig.code value >>= fun r => Pure.pure (some r)).effect
    (n, o)).2.1
  rwa [effect_bind_pure]

theorem keeps_loopback_halt (base : Int) (loud : Bool) :
    Keeps (Beside m.Shaped fun _ => True) ((host (Memory.access base)).loopback loud).halt := by
  rintro ⟨n, o⟩ ⟨only, _⟩
  have told : n.Shaped ((Call.perform (Memory.access base) .halt).effect (n, o)).2.1 :=
    (performed base n o .halt).2.mono fun _ _ => trivial
  have same : ((host (Memory.access base)).loopback loud).halt.effect (n, o) =
      (Call.halt.perform (Memory.access base)).effect (n, o) := by
    cases loud <;> rfl
  rw [same]
  exact ⟨only.trans told, trivial⟩

end Oracle

namespace ProgramEnd

variable {machine : Machine} {m : Memory} {timeout : Option Seconds}

theorem timeout_awaitReply {μ : Type} (mem : Option (MemoryAccess μ)) (x : μ) (l : Link) :
    ((awaitReply mem).effect (x, l)).2.2.port.timeout = l.port.timeout := by
  let patient : Link := { l with port := { l.port with timeout := none } }
  rw [awaitReply, effect_get_bind]
  rw [effect_bind_of_ok (t := (x, patient)) rfl, effect_ensuring]
  rfl

theorem keeps_signal (base : Int) (sig : Signal) (value : Int) :
    Keeps (Beside m.Shaped fun l : Link => l.port.timeout = timeout)
      ((channel (some (Memory.access base))).signal sig.code value) := by
  rintro ⟨n, l⟩ ⟨only, same⟩
  obtain ⟨p, asked, view⟩ := exists_effect_signal_ask (l := l) (some (Memory.access base)) n
    (Word.ofInt sig.code) value rfl
  rw [Signal.toInt_code] at asked
  rw [asked]
  refine ⟨?_, (timeout_awaitReply _ n p).trans (((Port.View.mk.inj view).2.2.2).trans same)⟩
  refine (serves_memory ?_ ?_).awaitReply (n, p) only
  · rintro _ ⟨⟩ addr size
    exact Memory.keeps_changed_read addr size
  · rintro _ ⟨⟩ addr s
    exact Memory.keeps_changed_write fun _ _ _ => trivial

theorem keeps_halt (base : Int) :
    Keeps (Beside m.Shaped fun l : Link => l.port.timeout = timeout)
      (channel (some (Memory.access base))).halt := by
  rintro ⟨n, l⟩ ⟨only, same⟩
  obtain ⟨q, halted, view⟩ := exists_effect_halt (l := l) base n rfl
  rw [halted]
  exact ⟨only, (Port.View.mk.inj view).2.2.2.trans same⟩

end ProgramEnd

namespace Session

/-- A run gives its buffers back on every outcome. If they can be allocated, a run on one memory and
a run at the program's end of a line leave the heap and the size of memory as they were, whatever
their parameters and whatever stands on the line; and the timeout of the port is as it was. -/
theorem runs_restore_heap [Machine] {m : Memory} (attained : m.Attained)
    (allocates : ∃ b g, Buffers.allocate.effect m = (.ok b, g)) :
    (∀ task quest, let g := ((runLoopback task quest).effect m).2
      g.heap = m.heap ∧ g.size = m.size) ∧
    (∀ task base (l : Link),
      let t := ((runProgram task (ProgramEnd.channel (some (Memory.access base)))).effect (m, l)).2
      t.1.heap = m.heap ∧ t.1.size = m.size ∧ t.2.port.timeout = l.port.timeout) ∧
    ∀ device task (line : Line), let t := ((runTarget device task).effect (line, m)).2
      t.2.heap = m.heap ∧ t.2.size = m.size ∧
        match PortAddress.resolve line.environment device none with
        | .error _ => t.1 = line
        | .ok address => ∃ port, t.1 = { line with opened := some (address, port) } ∧
          port.timeout = some address.timeout := by
  obtain ⟨b, g, allocated⟩ := allocates
  have w := attained.heap
  have restores (task : Task) (base : Int) (l : Link) :
      let t := ((runProgram task (ProgramEnd.channel (some (Memory.access base)))).effect
        (m, l)).2
      t.1.heap = m.heap ∧ t.1.size = m.size ∧ t.2.port.timeout = l.port.timeout :=
    runProgram_restores w allocated (fun sig value => ProgramEnd.keeps_signal base sig value)
      (ProgramEnd.keeps_halt base) task l rfl
  refine ⟨fun task quest => ?_, restores, fun device task line => ?_⟩
  · rcases made : quest.oracle with e | o
    · rw [runLoopback, effect_bind, effect_liftM, made]
      exact ⟨rfl, rfl⟩
    · rw [effect_runLoopback made rfl]
      obtain ⟨heap, size, _⟩ := runProgram_restores w allocated
        (fun sig value => Oracle.keeps_loopback_signal m.base quest.traced sig value)
        (Oracle.keeps_loopback_halt m.base quest.traced) task o trivial
      exact ⟨heap, size⟩
  · rw [runTarget, effect_get_bind]
    rcases resolved : PortAddress.resolve line.environment device none with e | address
    · rw [Line.effect_connect_of_error resolved]
      exact ⟨rfl, rfl, rfl⟩
    · have kept := restores task m.base (line.fresh address task.traced)
      rcases ran : (runProgram task (ProgramEnd.channel (some (Memory.access m.base)))).effect
        (m, line.fresh address task.traced) with ⟨result, g, q⟩
      rw [ran] at kept
      obtain ⟨heap, size, timeout⟩ := kept
      rw [Line.effect_connect resolved ran]
      exact ⟨heap, size, q.port, rfl, timeout⟩

/-- A heap that begins below its memory, where a call has failed and left a block. Then a run whose
byte order there is not, and one over a line on which a write to memory is cut short. -/
theorem runs_restore_heap_below_memory :
    let low : Memory := ⟨256, .replicate 192 0, ⟨240, 16, 13, [⟨13, false⟩], []⟩, false⟩
    let m := ((Memory.Call.allocate 16 4).perform.run low).state
    let task : Task := { order := ByteOrder.ofName "middle" }
    let quest : Quest := { key := List.replicate 32 1, nonce := List.replicate 12 2 }
    let waiting := Frame.encode ⟨Word.ofInt Frame.writeMagic, 0x100, 8⟩ ++ [1, 2, 3]
    let line : Line := { environment := {}, waiting, limit := none }
    m.Attained ∧ m.heap.sizes = [(240, 16)] ∧ (∃ b g, Buffers.allocate.effect m = (.ok b, g)) ∧
      (∃ g, (runLoopback task quest).effect m = (.error (.unknownByteOrder "middle"), g) ∧
        g.heap = m.heap ∧ g.size = 192) ∧
      ∃ address port result g, (runTarget (some "tty") task).effect (line, m) =
          (result, ({ line with opened := some (address, port) }, g)) ∧
        g.heap = m.heap ∧ g.size = 192 ∧ port.timeout = some address.timeout := by
  intro low m task quest waiting line
  have made : Memory.create 192 256 (some 240) false = .ok low := rfl
  have attained : m.Attained := .after _ (.created made)
  have size : m.size = 192 := by decide +kernel
  have lends : (Buffers.allocate.effect m).1.map Buffers.addresses = .ok [256, 288, 304, 368] := by
    decide +kernel
  have allocates : ∃ b g, Buffers.allocate.effect m = (.ok b, g) := by
    rcases allocated : Buffers.allocate.effect m with ⟨_ | b, g⟩
    · rw [allocated] at lends
      cases lends
    · exact ⟨b, g, rfl⟩
  have fails : ((runLoopback task quest).effect m).1.map (fun _ => ()) =
      .error (.unknownByteOrder "middle") := by decide +kernel
  obtain ⟨loopback, _, target⟩ := runs_restore_heap attained allocates
  obtain ⟨heap, kept⟩ := loopback task quest
  obtain ⟨address, resolved⟩ := exists_resolve
  obtain ⟨heap', kept', timeout⟩ := target (some "tty") task line
  refine ⟨attained, by decide +kernel, allocates, ?_, address, ?_⟩
  · rcases ran : (runLoopback task quest).effect m with ⟨e | o, g⟩
    · rw [ran] at fails heap kept
      cases fails
      exact ⟨g, rfl, heap, kept.trans size⟩
    · rw [ran] at fails
      cases fails
  · rw [show line.environment = {} from rfl, resolved] at timeout
    obtain ⟨port, opened, timeout⟩ := timeout
    rcases ran : (runTarget (some "tty") task).effect (line, m) with ⟨result, line', g⟩
    rw [ran] at heap' kept' opened
    exact ⟨port, result, g, by rw [← opened], heap', kept'.trans size, timeout⟩

end Session

end Keystream
