import Keystream.Proofs.Serial.Turn
import Keystream.Proofs.Session.Loopback
/-!
A run over a line. What the two ends say to each other is written down as turns; each end, given
what the other says, says its own part, and both come to what the run in one place comes to.
-/
namespace Keystream

open Keystream.Action Port

namespace Line

def fresh (line : Line) (address : PortAddress) (traced : Bool) : Link :=
  { port := { unread := line.waiting, limit := line.limit, timeout := some address.timeout }
    traced }

theorem effect_connect [Machine] {line : Line} {device : Option String} {address : PortAddress}
    (opens : PortAddress.resolve line.environment device none = .ok address) {traced : Bool}
    {μ : Type} {x y : μ} {a : Action (μ × Link) α} {r : Except Error α} {q : Link}
    (done : a.effect (x, line.fresh address traced) = (r, (y, q))) :
    (connect device traced a).effect (line, x) =
      (r, ({ line with opened := some (address, q.port) }, y)) := by
  have result : (a (x, line.fresh address traced)).result = r := congrArg Prod.fst done
  have state : (a (x, line.fresh address traced)).state = (y, q) := congrArg Prod.snd done
  rw [fresh] at result state
  simp only [effect, run, connect, opens, result, state]

theorem effect_connect_of_error [Machine] {line : Line} {device : Option String} {e : Error}
    (fails : PortAddress.resolve line.environment device none = .error e) (traced : Bool)
    {μ : Type} (x : μ) (a : Action (μ × Link) α) :
    (connect device traced a).effect (line, x) = (.error e, (line, x)) := by
  simp only [effect, run, connect, fails]

end Line

namespace Session

section

variable (b : Buffers) (key : Vector UInt8 32) (nonce : Vector UInt8 12) (n : Nat) (block : Bytes)

def turns : List Turn := [
  .store .keyAddress b.key key (by decide), .store .nonceAddress b.nonce nonce (by decide),
  { sig := .iterations, value := 0, response := n }, { sig := .outputAddress, value := b.output },
  .load .outputAddress b.output block]

def toHost : Bytes :=
  (turns b key nonce n block).flatMap Turn.toHost ++
    Frame.encode ⟨Word.ofInt Frame.haltMagic, 0, 0⟩

def toProgram : Bytes := (turns b key nonce n block).flatMap Turn.toProgram

end

section

variable {machine : Machine} {m g : Memory} {b : Buffers} {task : Task} {key : Vector UInt8 32}
  {nonce : Vector UInt8 12} {n : Nat} {counter : Int} {order : ByteOrder} {block : Bytes}
  {l : Link} {limit : Option Nat} {timeout : Option Seconds}
  {device : Option String} {address : PortAddress} {line : Line}

theorem exists_effect_run (lent : Buffers.Lent m b g) (isCounter : task.counter = .ok counter)
    (isOrder : task.order = .ok order) (words : ∀ a ∈ b.addresses, Word.toInt (Word.ofInt a) = a)
    (counted : Word.toInt (Word.ofInt n) = n)
    (same : block = Standard.lastBlock key nonce counter n order)
    (here : l.port.view = ⟨toProgram b key nonce n block, [], limit, timeout⟩)
    (hands : limit ≠ some 0) :
    ∃ q p, (Program.run (ProgramEnd.channel (some (Memory.access m.base)))).effect
        ((g, l), task.program b) =
          (.ok block, ((b.ended key nonce counter n order (b.supplied key nonce g), q), p)) ∧
      q.port.view = ⟨[], toHost b key nonce n block, limit, timeout⟩ := by
  subst same
  let block := Standard.lastBlock key nonce counter n order
  have placed := lent.placed
  have spells : Machine.Spells n := counted ▸ Word.spells_toInt (Word.ofInt n)
  have isKey := words b.key (by simp [Buffers.addresses])
  have isNonce := words b.nonce (by simp [Buffers.addresses])
  have isOutput := words b.output (by simp [Buffers.addresses])
  simp only [toProgram, turns, List.flatMap_cons, List.flatMap_nil] at here
  let last := b.ended key nonce counter n order (b.supplied key nonce g)
  have supplied := placed.supplied key nonce
  have size : block.length = 64 := Standard.length_lastBlock ..
  have fits : block.length ≤ Frame.maxTransfer := by
    rw [size]
    decide
  have held : last.Holds b.output block.length :=
    size ▸ supplied.holds_ended key nonce counter n order
  have shows : last.stretch b.output block.length = block :=
    size ▸ supplied.stretch_output key nonce counter n order
  obtain ⟨l₁, keyed, view⟩ :=
    ProgramEnd.exists_effect_store m.base g isKey (placed.holdsKey key) here hands
  obtain ⟨l₂, noticed, view⟩ := ProgramEnd.exists_effect_store m.base (g.written b.key key.toList)
    isNonce (placed.holdsNonce key nonce) view hands
  obtain ⟨l₃, numbered, view⟩ := ProgramEnd.exists_effect_turn m.base (b.supplied key nonce g) _
    view hands rfl counted
  obtain ⟨l₄, announced, view⟩ := ProgramEnd.exists_effect_turn m.base
    (b.begun key nonce counter (b.supplied key nonce g)) _ view hands rfl rfl
  obtain ⟨l₅, announcedAgain, view⟩ :=
    ProgramEnd.exists_effect_load m.base last fits isOutput held shows view hands
  obtain ⟨l₆, halted, view⟩ := ProgramEnd.exists_effect_halt m.base last view
  have ran := Program.effect_run (ProgramEnd.channel (some (Memory.access m.base)))
    (p := task.program b) spells rfl isCounter isOrder placed keyed noticed numbered announced
    announcedAgain halted
  refine ⟨l₆, _, ran, ?_⟩
  rw [view, toHost, turns]
  simp only [List.flatMap_cons, List.flatMap_nil, List.append_assoc]
  rw [List.nil_append, List.nil_append]

theorem exists_effect_runTarget (lent : Buffers.Lent m b g)
    (allocated : Buffers.allocate.effect m = (.ok b, g)) (isCounter : task.counter = .ok counter)
    (isOrder : task.order = .ok order) (words : ∀ a ∈ b.addresses, Word.toInt (Word.ofInt a) = a)
    (counted : Word.toInt (Word.ofInt n) = n)
    (same : block = Standard.lastBlock key nonce counter n order)
    (opens : PortAddress.resolve line.environment device none = .ok address)
    (hands : line.limit ≠ some 0) (waits : line.waiting = toProgram b key nonce n block) :
    ∃ port h, (runTarget device task).effect (line, m) =
        (.ok block, ({ line with opened := some (address, port) }, h)) ∧
      port.unread = [] ∧ port.sent = toHost b key nonce n block := by
  have here : (line.fresh address task.traced).port.view =
      ⟨toProgram b key nonce n block, [], line.limit, some address.timeout⟩ :=
    waits ▸ rfl
  obtain ⟨q, p, ran, view⟩ :=
    exists_effect_run lent isCounter isOrder words counted same here hands
  obtain ⟨heap, ran⟩ :=
    exists_effect_runProgram lent allocated (lent.wellFormed_ended ..) rfl ran
  obtain ⟨unread, sent, _, _⟩ := View.mk.inj view
  refine ⟨q.port, { b.ended key nonce counter n order (b.supplied key nonce g) with heap }, ?_,
    unread, sent⟩
  rw [runTarget, effect_get_bind]
  exact Line.effect_connect opens ran

theorem six_le_length_toHost (block : Bytes) : 6 ≤ (toHost b key nonce n block).length := by
  simp only [toHost, turns, List.flatMap_cons, Turn.toHost, List.length_append, Frame.length_encode]
  omega

theorem exists_effect_serve (spells : Machine.Spells n) (size : block.length = 64)
    (words : ∀ a ∈ b.addresses, Word.toInt (Word.ofInt a) = a)
    (here : l.port.view = ⟨toHost b key nonce n block, [], limit, timeout⟩)
    (hands : limit ≠ some 0) (loud : Bool) :
    let o : Oracle := { key, nonce, iterations := n, traced := loud }
    ∃ q, (HostEnd.serve (Oracle.host (RemoteMemory.access memoryBase))).effect (l, o) =
        (.ok (), (q, o.finished b block)) ∧
      q.port.view = ⟨[], toProgram b key nonce n block, limit, timeout⟩ := by
  intro o
  let keyed : Oracle := { o with keyAddress := some b.key }
  let supplied : Oracle := { keyed with nonceAddress := some b.nonce }
  let watching : Oracle := { supplied with outputAddress := some b.output, announcements := 1 }
  let captured : Oracle := { watching with announcements := 2, output := some block }
  let host : Host (Link × Oracle) := Oracle.host (RemoteMemory.access memoryBase)
  have isKey := words b.key (by simp [Buffers.addresses])
  have isNonce := words b.nonce (by simp [Buffers.addresses])
  have isOutput := words b.output (by simp [Buffers.addresses])
  obtain ⟨spare, enough⟩ : ∃ spare, l.port.unread.length + 1 = spare + 6 := by
    have long : 6 ≤ (toHost b key nonce n block).length := six_le_length_toHost block
    rw [← (View.mk.inj here).1] at long
    exact ⟨_, (Nat.sub_add_cancel (Nat.le_succ_of_le long)).symm⟩
  simp only [toHost, turns, List.flatMap_cons, List.flatMap_nil, List.append_assoc] at here
  rw [List.nil_append, ← List.append_nil (Frame.encode ⟨Word.ofInt Frame.haltMagic, 0, 0⟩)] at here
  have nonempty : block ≠ [] := List.ne_nil_of_length_pos (by omega)
  have fits : block.length ≤ Frame.maxTransfer := by
    rw [size]
    decide
  obtain ⟨l₁, first, view⟩ := HostEnd.exists_effect_turn host _ here hands isKey fun p view => by
    obtain ⟨q, wrote, view⟩ := RemoteMemory.exists_effect_store isKey view hands
    exact ⟨q, Oracle.effect_signal (Oracle.effect_answer_key (o := o) rfl wrote), view⟩
  obtain ⟨l₂, second, view⟩ := HostEnd.exists_effect_turn host _ view hands isNonce fun p view => by
    obtain ⟨q, wrote, view⟩ := RemoteMemory.exists_effect_store isNonce view hands
    exact ⟨q, Oracle.effect_signal (Oracle.effect_answer_nonce (o := keyed) rfl wrote), view⟩
  obtain ⟨l₃, third, view⟩ := HostEnd.exists_effect_ask host view hands rfl fun _ =>
    Oracle.effect_signal (Oracle.effect_answer_iterations_of_spells (o := supplied) rfl spells 0)
  obtain ⟨l₄, fourth, view⟩ := HostEnd.exists_effect_ask host view hands isOutput fun _ =>
    Oracle.effect_signal (Oracle.effect_answer_output (o := supplied) rfl
      (Oracle.effect_announce_first rfl b.output))
  obtain ⟨l₅, fifth, view⟩ := HostEnd.exists_effect_turn host _ view hands isOutput fun p view => by
    obtain ⟨q, shown, view⟩ := RemoteMemory.exists_effect_load nonempty fits isOutput view hands
    exact ⟨q, Oracle.effect_signal (Oracle.effect_answer_output (o := watching) rfl
      (Oracle.effect_announce_second rfl (size ▸ shown))), view⟩
  have ended : ∀ p : Link, host.halt.effect (p, captured) =
      (.ok (), (p, { captured with halted := true })) := fun _ => Oracle.effect_finish rfl rfl
  obtain ⟨l₆, halted, view⟩ := HostEnd.exists_effect_serveOne_halt ⟨_, Frame.bytes_haltMagic⟩
    (show l₅.port.view = ⟨[] ++ (_ ++ _), _, _, _⟩ from view) hands unmarked_nil rfl ended
  refine ⟨l₆, ?_, ?_⟩
  · rw [HostEnd.serve, effect_get_bind, enough]
    refine (HostEnd.effect_serveUpTo_succ _ first).trans ?_
    refine (HostEnd.effect_serveUpTo_succ _ second).trans ?_
    refine (HostEnd.effect_serveUpTo_succ _ third).trans ?_
    refine (HostEnd.effect_serveUpTo_succ _ fourth).trans ?_
    refine (HostEnd.effect_serveUpTo_succ _ fifth).trans ?_
    exact HostEnd.effect_serveUpTo_halt _ halted
  · rw [view, toProgram, turns]
    simp only [List.flatMap_cons, List.flatMap_nil, List.append_assoc]
    rw [List.nil_append, List.append_nil]

theorem exists_effect_runHost (spells : Machine.Spells n) (size : block.length = 64)
    (words : ∀ a ∈ b.addresses, Word.toInt (Word.ofInt a) = a)
    (opens : PortAddress.resolve line.environment device none = .ok address)
    (hands : line.limit ≠ some 0) (waits : line.waiting = toHost b key nonce n block) (loud : Bool)
    {μ : Type} (x : μ) :
    ∃ port, (runHost device
        { key := key.toList, nonce := nonce.toList, iterations := n, traced := loud }).effect
          (line, x) =
        (.ok (Oracle.finished { key, nonce, iterations := n, traced := loud } b block),
          ({ line with opened := some (address, port) }, x)) ∧
      port.unread = [] ∧ port.sent = toProgram b key nonce n block := by
  let o : Oracle := { key, nonce, iterations := n, traced := loud }
  have here : (line.fresh address loud).port.view =
      ⟨toHost b key nonce n block, [], line.limit, some address.timeout⟩ :=
    waits ▸ rfl
  obtain ⟨q, served, view⟩ := exists_effect_serve spells size words here hands loud
  let quest : Quest := { key := key.toList, nonce := nonce.toList, iterations := n, traced := loud }
  have made : (liftM quest.oracle : Action Link Oracle).effect (line.fresh address loud) =
      (.ok o, line.fresh address loud) := by
    rw [effect_liftM, oracle_eq]
  have body : (withLocal o (HostEnd.serve (Oracle.host (RemoteMemory.access memoryBase)))).effect
      (line.fresh address loud) = (.ok ((), o.finished b block), q) := by
    rw [effect_withLocal, served]
    rfl
  obtain ⟨unread, sent, _, _⟩ := View.mk.inj view
  refine ⟨q.port, Line.effect_connect opens (q := q) ?_, unread, sent⟩
  rw [effect_onSecond, effect_bind_of_ok made, effect_bind_of_ok body]
  rfl

/-- Each end consumes exactly what the other one writes, whatever its line is and however few bytes
its port hands over at once, and the block is that of the run in one place. -/
theorem ends_agree_with_runLoopback (reachable : m.Reachable)
    (room : m.heap.HasRoom [32, 12, 64, 64]) (low : 0 ≤ m.heap.start)
    (high : m.base + m.size ≤ 0x100000000) (key : Vector UInt8 32) (nonce : Vector UInt8 12)
    (counted : n < 0x100000000) (counter : Int) {name : String}
    (named : ByteOrder.ofName name = .ok order) (traced loud : Bool) :
    let task : Task := { counter := .ok counter, order := ByteOrder.ofName name, traced }
    let quest : Quest :=
      { key := key.toList, nonce := nonce.toList, iterations := n, traced := loud }
    ∃ toHost toProgram block : Bytes,
      (∀ (line : Line) (device : Option String) (address : PortAddress),
        PortAddress.resolve line.environment device none = .ok address → line.limit ≠ some 0 →
        line.waiting = toProgram →
        ∃ port g, (runTarget device task).effect (line, m) =
            (.ok block, ({ line with opened := some (address, port) }, g)) ∧
          port.unread = [] ∧ port.sent = toHost) ∧
      (∀ (line : Line) (device : Option String) (address : PortAddress) (μ : Type) (x : μ),
        PortAddress.resolve line.environment device none = .ok address → line.limit ≠ some 0 →
        line.waiting = toHost →
        ∃ port o, (runHost device quest).effect (line, x) =
            (.ok o, ({ line with opened := some (address, port) }, x)) ∧
          port.unread = [] ∧ port.sent = toProgram ∧ o.halted = true ∧ o.output = some block) ∧
      ∃ o g, (runLoopback task quest).effect m = (.ok o, g) ∧ o.output = some block := by
  intro task quest
  obtain ⟨b, g, allocated, lent⟩ := Buffers.exists_lent reachable.wellFormed room
  have words (a) (member : a ∈ b.addresses) : Word.toInt (Word.ofInt a) = a := by
    obtain ⟨above, below⟩ := lent.bounds member
    exact Word.toInt_ofInt_of_lt (low.trans above) (below.trans_le high)
  have counted : Word.toInt (Word.ofInt n) = n := Word.toInt_ofInt_of_lt (by omega) (by omega)
  have spells : Machine.Spells n := counted ▸ Word.spells_toInt (Word.ofInt n)
  have isCounter : task.counter = .ok counter := rfl
  let block := Standard.lastBlock key nonce counter n order
  refine ⟨toHost b key nonce n block, toProgram b key nonce n block, block, ?_, ?_, ?_⟩
  · intro line device address opens hands waits
    exact exists_effect_runTarget lent allocated isCounter named words counted rfl opens hands
      waits
  · intro line device address μ x opens hands waits
    obtain ⟨port, ran, unread, sent⟩ :=
      exists_effect_runHost spells (Standard.length_lastBlock ..) words opens hands waits loud x
    exact ⟨port, _, ran, unread, sent, rfl, rfl⟩
  · obtain ⟨heap, ran⟩ :=
      exists_effect_runLoopback key nonce spells loud lent allocated isCounter named
    exact ⟨_, _, ran, rfl⟩

end

theorem exists_resolve [Machine] :
    ∃ address, PortAddress.resolve {} (some "tty") none = .ok address := by
  have readable : (Decimal.read? "3").isSome = true := by decide +kernel
  obtain ⟨seconds, read⟩ := Option.isSome_iff_exists.1 readable
  have waits : PortAddress.readSeconds "3" = .ok (.real seconds) := by
    rw [PortAddress.readSeconds, read]
    rfl
  exact ⟨⟨"tty", 115200, .real seconds⟩, bind_of_ok waits _⟩

/-- At the addresses of on-board memory, with a counter that passes zero. -/
theorem ends_agree_at_memoryBase :
    let m : Memory := ⟨memoryBase, .replicate 256 0, ⟨memoryBase, 16, 16, [⟨16, false⟩], []⟩, false⟩
    let task : Task := { counter := .ok (-1), order := ByteOrder.ofName "native" }
    let quest : Quest :=
      { key := List.replicate 32 1, nonce := List.replicate 12 2, iterations := 3 }
    m.Reachable ∧ m.heap.HasRoom [32, 12, 64, 64] ∧ 0 ≤ m.heap.start ∧
      m.base + m.size ≤ 0x100000000 ∧ ByteOrder.ofName "native" = .ok .little ∧
      (∃ address, PortAddress.resolve {} (some "tty") none = .ok address) ∧
      ∃ toHost toProgram block : Bytes,
        (∀ (line : Line) (device : Option String) (address : PortAddress),
          PortAddress.resolve line.environment device none = .ok address → line.limit ≠ some 0 →
          line.waiting = toProgram →
          ∃ port g, (runTarget device task).effect (line, m) =
              (.ok block, ({ line with opened := some (address, port) }, g)) ∧
            port.unread = [] ∧ port.sent = toHost) ∧
        (∀ (line : Line) (device : Option String) (address : PortAddress) (μ : Type) (x : μ),
          PortAddress.resolve line.environment device none = .ok address → line.limit ≠ some 0 →
          line.waiting = toHost →
          ∃ port o, (runHost device quest).effect (line, x) =
              (.ok o, ({ line with opened := some (address, port) }, x)) ∧
            port.unread = [] ∧ port.sent = toProgram ∧ o.halted = true ∧ o.output = some block) ∧
        ∃ o g, (runLoopback task quest).effect m = (.ok o, g) ∧ o.output = some block := by
  intro m task quest
  have made : Memory.create 256 memoryBase none false = .ok m := rfl
  have reachable : m.Reachable := .created (le_refl memoryBase) made
  have room : m.heap.HasRoom [32, 12, 64, 64] :=
    ⟨_, _, rfl, _, _, rfl, _, _, rfl, _, _, rfl, trivial⟩
  have low : 0 ≤ m.heap.start := by decide
  have size : m.size = 256 := Array.size_replicate
  have high : m.base + m.size ≤ 0x100000000 := by
    rw [size]
    decide
  exact ⟨reachable, room, low, high, rfl, exists_resolve,
    ends_agree_with_runLoopback (n := 3) reachable room low high (.replicate 32 1)
      (.replicate 12 2) (by decide) (-1) rfl false false⟩

end Session

end Keystream
