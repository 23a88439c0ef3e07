import Keystream.Memory
import Keystream.Proofs.Memory.Bytes
import Keystream.Proofs.Serial.Link
import Keystream.Serial.ProgramEnd
/-!
Requests to a program's memory: the bytes that spell one, what it does to memory, and the bytes that
answer it. The program's end serves each so.
-/
namespace Keystream

/-- What a host asks of the memory at the other end of a link. -/
inductive MemoryRequest where
  | read (addr size : Word)
  /-- Bytes to write, with whatever word is stated for their checksum. -/
  | write (addr : Word) (data : Bytes) (stated : Word) (fits : data.length ≤ Frame.maxTransfer)

namespace MemoryRequest

def magic : MemoryRequest → Word
  | read .. => Word.ofInt Frame.readMagic
  | write .. => Word.ofInt Frame.writeMagic

def frame (r : MemoryRequest) : Frame :=
  match r with
  | read addr size => ⟨r.magic, addr, size⟩
  | write addr data _ _ => ⟨r.magic, addr, .ofNat data.length⟩

def trailer : MemoryRequest → Bytes
  | read .. => []
  | write _ data stated _ => data ++ Word.bytes stated

def encode (r : MemoryRequest) : Bytes := r.frame.encode ++ r.trailer

theorem encode_ne_nil (r : MemoryRequest) : r.encode ≠ [] :=
  List.append_ne_nil_of_left_ne_nil r.frame.encode_ne_nil _

def status (m : Memory) : MemoryRequest → Frame.Status
  | read addr size =>
    if Word.toInt size ≤ Frame.maxTransfer ∧ m.Holds (Word.toInt addr) size.toNat then .ok
    else .invalid
  | write addr data stated _ =>
    if stated ≠ checksum data then .checksumFailed
    else if m.Holds (Word.toInt addr) data.length then .ok
    else .invalid

/-- The bytes that answer a request: a reply, and behind it the bytes read. -/
def answer (m : Memory) (r : MemoryRequest) : Bytes :=
  let reply (response : Word) : Bytes :=
    Frame.encode ⟨r.magic, Word.ofInt (r.status m).code, response⟩
  match r with
  | read addr size =>
    if r.status m = .ok then
      let s := m.stretch (Word.toInt addr) size.toNat
      reply (checksum s) ++ s
    else reply 0
  | write .. => reply 0

/-- Memory once a request is served. A write that is refused changes nothing. -/
def apply (m : Memory) (r : MemoryRequest) : Memory :=
  match r with
  | read .. => m
  | write addr data _ _ => if r.status m = .ok then m.written (Word.toInt addr) data else m

def writeBytes (addr : Word) (data : Bytes) (stated : Word) : Bytes :=
  Frame.encode ⟨Word.ofInt Frame.writeMagic, addr, .ofNat data.length⟩ ++
    (data ++ Word.bytes stated)

theorem lt_of_fits {n : Nat} (fits : n ≤ Frame.maxTransfer) : n < 0x100000000 := by
  unfold Frame.maxTransfer at fits
  omega

theorem toNat_of_fits {n : Nat} (fits : n ≤ Frame.maxTransfer) : (UInt32.ofNat n).toNat = n :=
  UInt32.toNat_ofNat_of_lt' (lt_of_fits fits)

section

variable {m : Memory} {r : MemoryRequest} (refused : r.status m ≠ .ok)
include refused

theorem apply_of_refused : r.apply m = m := by
  cases r with
  | read => rfl
  | write => exact if_neg refused

theorem answer_of_refused :
    r.answer m = Frame.encode ⟨r.magic, Word.ofInt (r.status m).code, 0⟩ := by
  cases r with
  | read => exact if_neg refused
  | write => rfl

end

section

variable {m : Memory} {addr : Word}

theorem status_write {data : Bytes} {fits : data.length ≤ Frame.maxTransfer}
    (held : m.Holds (Word.toInt addr) data.length) :
    (write addr data (checksum data) fits).status m = .ok :=
  (if_neg (not_not_intro rfl)).trans (if_pos held)

theorem apply_write {data : Bytes} {fits : data.length ≤ Frame.maxTransfer}
    (held : m.Holds (Word.toInt addr) data.length) :
    (write addr data (checksum data) fits).apply m = m.written (Word.toInt addr) data :=
  if_pos (status_write held)

theorem answer_write {data : Bytes} {fits : data.length ≤ Frame.maxTransfer}
    (held : m.Holds (Word.toInt addr) data.length) :
    (write addr data (checksum data) fits).answer m =
      Frame.encode ⟨Word.ofInt Frame.writeMagic, 0, 0⟩ := by
  show Frame.encode ⟨_, Word.ofInt (status m _).code, 0⟩ = _
  rw [status_write held]
  rfl

theorem answer_read {size : Word} (small : Word.toInt size ≤ Frame.maxTransfer)
    (held : m.Holds (Word.toInt addr) size.toNat) :
    (read addr size).answer m =
      Frame.encode
          ⟨Word.ofInt Frame.readMagic, 0, checksum (m.stretch (Word.toInt addr) size.toNat)⟩ ++
        m.stretch (Word.toInt addr) size.toNat := by
  have status : (read addr size).status m = .ok := if_pos ⟨small, held⟩
  refine (if_pos status).trans ?_
  rw [status]
  rfl

end

theorem marked_frame (r : MemoryRequest) : r.frame.Marked := by
  cases r with
  | read => exact ⟨_, Frame.bytes_readMagic⟩
  | write => exact ⟨_, Frame.bytes_writeMagic⟩

theorem magic_frame (r : MemoryRequest) : r.frame.magic = r.magic := by
  cases r <;> rfl

theorem request_write {n : Nat} (small : n < 0x100000000) (addr : Word) :
    Frame.request Frame.writeMagic (Word.toInt addr) n =
      .ok ⟨Word.ofInt Frame.writeMagic, addr, .ofNat n⟩ := by
  have size : Word.toInt (.ofNat n) = n := congrArg Nat.cast (UInt32.toNat_ofNat_of_lt' small)
  rw [← size, ← Frame.toInt_writeMagic, Frame.request_of_words, Frame.toInt_writeMagic]

theorem request_read (addr size : Word) :
    Frame.request Frame.readMagic (Word.toInt addr) (Word.toInt size) =
      .ok (read addr size).frame := by
  rw [← Frame.toInt_readMagic, Frame.request_of_words]
  rfl

end MemoryRequest

namespace ProgramEnd

open Keystream.Action Port

section

variable {σ : Type} {a : Action σ α} {s t : σ}

theorem effect_inside_of_ok {x : α} (done : a.effect s = (.ok x, t)) :
    (inside a).effect s = (.ok (some x), t) :=
  effect_bind_of_ok (x := Except.error (some x))
    (effect_tryCatch_of_ok (effect_bind_of_ok done _) _) _

theorem effect_inside_of_index {e : Error} (failed : a.effect s = (.error e, t))
    (outside : e.kind = .index) : (inside a).effect s = (.ok none, t) := by
  refine effect_bind_of_ok (x := Except.error none)
    ((effect_tryCatch_of_error (effect_bind_of_error failed _) _).trans ?_) _
  rw [if_pos outside]
  rfl

end

variable {machine : Machine} {m : Memory} {l : Link} {base : Int} {rest sent : Bytes}
  {limit : Option Nat} {timeout : Option Seconds}

theorem effect_inside_write_of_holds (addr : Int) {s : Bytes} (held : m.Holds addr s.length) :
    (inside ((Memory.access base).write addr s).onFirst).effect (m, l) =
      (.ok (some ()), (m.written addr s, l)) := by
  refine effect_inside_of_ok ?_
  rw [effect_onFirst, show (Memory.access base).write = Memory.write from rfl,
    Memory.effect_write_of_holds held]

theorem effect_inside_write_of_not_holds (addr : Int) {s : Bytes}
    (outside : ¬m.Holds addr s.length) :
    (inside ((Memory.access base).write addr s).onFirst).effect (m, l) = (.ok none, (m, l)) := by
  have failed : (((Memory.access base).write addr s).onFirst : Action (Memory × Link) Unit).effect
      (m, l) = (.error (.outside addr s.length m.base (m.base + m.size)), (m, l)) := by
    rw [effect_onFirst, show (Memory.access base).write = Memory.write from rfl,
      Memory.effect_write, Memory.put_of_not_holds outside]
  exact effect_inside_of_index failed rfl

theorem effect_inside_read_of_holds (addr : Int) {n : Nat} (held : m.Holds addr n) :
    (inside ((Memory.access base).read addr n).onFirst).effect (m, l) =
      (.ok (some (m.stretch addr n)), (m, l)) := by
  refine effect_inside_of_ok ?_
  rw [effect_onFirst, show (Memory.access base).read = Memory.read from rfl,
    Memory.effect_read_of_holds held]

theorem effect_inside_read_of_not_holds (addr : Int) {n : Nat} (outside : ¬m.Holds addr n) :
    (inside ((Memory.access base).read addr n).onFirst).effect (m, l) = (.ok none, (m, l)) := by
  have failed : (((Memory.access base).read addr n).onFirst : Action (Memory × Link) Bytes).effect
      (m, l) = (.error (.outside addr n m.base (m.base + m.size)), (m, l)) := by
    rw [effect_onFirst, show (Memory.access base).read = Memory.read from rfl,
      Memory.effect_read, Memory.bytesAt_of_not_holds outside]
  exact effect_inside_of_index failed rfl

theorem exists_effect_receive {μ : Type} (m : μ) {f : Frame} {noise : Bytes} (marked : f.Marked)
    (here : l.port.view = ⟨noise ++ (f.encode ++ rest), sent, limit, timeout⟩)
    (hands : limit ≠ some 0) (unmarked : Unmarked noise) :
    ∃ r, (Link.receive.onSecond : Action (μ × Link) Bytes).effect (m, l) =
        (.ok f.encode, (m, r)) ∧
      r.port.view = ⟨rest, sent, limit, timeout⟩ := by
  obtain ⟨r, received, view⟩ := Link.exists_effect_receive marked here hands unmarked
  exact ⟨r, by rw [effect_onSecond, received], view⟩

theorem exists_effect_reply (m : Memory) (here : l.port.view = ⟨rest, sent, limit, timeout⟩)
    (magic : Word) (status : Frame.Status) (response : Word) :
    ∃ r, ((Link.reply (Word.toInt magic) status.code (Word.toInt response)).onSecond :
        Action (Memory × Link) Unit).effect (m, l) = (.ok (), (m, r)) ∧
      r.port.view = ⟨rest, sent ++ Frame.encode ⟨magic, Word.ofInt status.code, response⟩, limit,
        timeout⟩ := by
  obtain ⟨r, done, view⟩ := Link.exists_effect_reply here magic status (Word.toInt response)
  exact ⟨r, by rw [effect_onSecond, done], by rw [view, Word.ofInt_toInt]⟩

theorem exists_effect_readFull (m : Memory) {s : Bytes}
    (here : l.port.view = ⟨s ++ rest, sent, limit, timeout⟩) (hands : limit ≠ some 0) :
    ∃ r, ((Link.readFull s.length).onSecond : Action (Memory × Link) Bytes).effect (m, l) =
        (.ok s, (m, r)) ∧
      r.port.view = ⟨rest, sent, limit, timeout⟩ := by
  obtain ⟨r, done, view⟩ := Link.exists_effect_readFull here hands
  exact ⟨r, by rw [effect_onSecond, done], view⟩

theorem exists_effect_serveWrite {addr : Word} {data : Bytes} {stated : Word}
    {fits : data.length ≤ Frame.maxTransfer} (hands : limit ≠ some 0) :
    let w := MemoryRequest.write addr data stated fits
    l.port.view = ⟨w.trailer ++ rest, sent, limit, timeout⟩ →
    ∃ r, (serveWrite (Memory.access base) (Word.toInt w.magic) w.frame).effect (m, l) =
        (.ok (), (w.apply m, r)) ∧
      r.port.view = ⟨rest, sent ++ w.answer m, limit, timeout⟩ := by
  intro w here
  have size : w.frame.second.toNat = data.length := MemoryRequest.toNat_of_fits fits
  have same : Word.bytes stated ≠ Word.bytes (checksum data) ↔ stated ≠ checksum data :=
    not_congr ⟨Word.bytes_inj, congrArg _⟩
  rw [show w.trailer = data ++ Word.bytes stated from rfl, List.append_assoc] at here
  obtain ⟨q, taken, view⟩ := exists_effect_readFull m here hands
  obtain ⟨q', summed, view⟩ := exists_effect_readFull m view hands
  have summed : ((Link.readFull 4).onSecond : Action (Memory × Link) Bytes).effect (m, q) =
      (.ok (Word.bytes stated), (m, q')) := summed
  have answered (t : Memory) : ∃ r,
      ((Link.reply (Word.toInt w.magic) (w.status m).code 0).onSecond :
        Action (Memory × Link) Unit).effect (t, q') = (.ok (), (t, r)) ∧
        r.port.view = ⟨rest, sent ++ w.answer m, limit, timeout⟩ :=
    exists_effect_reply t view w.magic (w.status m) 0
  rw [serveWrite, size, effect_bind_of_ok taken, effect_bind_of_ok summed, effect_ite]
  simp only [same]
  by_cases wrong : stated ≠ checksum data
  · have status : w.status m = .checksumFailed := if_pos wrong
    rw [status] at answered
    rw [if_pos wrong, w.apply_of_refused (by rw [status]; decide)]
    exact answered m
  rw [if_neg wrong]
  by_cases held : m.Holds (Word.toInt addr) data.length
  · have status : w.status m = .ok := (if_neg wrong).trans (if_pos held)
    rw [status] at answered
    rw [effect_bind_of_ok (effect_inside_write_of_holds (Word.toInt w.frame.first) held),
      show w.apply m = m.written (Word.toInt addr) data from if_pos status]
    exact answered _
  · have status : w.status m = .invalid := (if_neg wrong).trans (if_neg held)
    rw [status] at answered
    rw [effect_bind_of_ok (effect_inside_write_of_not_holds (Word.toInt w.frame.first) held),
      w.apply_of_refused (by rw [status]; decide)]
    exact answered m

theorem exists_effect_serveRead {addr size : Word} (small : Word.toInt size ≤ Frame.maxTransfer) :
    let r := MemoryRequest.read addr size
    l.port.view = ⟨rest, sent, limit, timeout⟩ →
    ∃ q, (serveRead (Memory.access base) (Word.toInt r.magic) r.frame).effect (m, l) =
        (.ok (), (m, q)) ∧
      q.port.view = ⟨rest, sent ++ r.answer m, limit, timeout⟩ := by
  intro r here
  rw [serveRead]
  by_cases held : m.Holds (Word.toInt addr) size.toNat
  · let s := m.stretch (Word.toInt addr) size.toNat
    obtain ⟨p, replied, view⟩ :=
      Link.exists_effect_reply here r.magic .ok (Word.toInt (checksum s))
    rw [Word.ofInt_toInt] at view
    obtain ⟨q, wrote, view⟩ := Link.exists_effect_write view s
    rw [List.append_assoc] at view
    rw [MemoryRequest.answer_read small held]
    refine ⟨q, ?_, view⟩
    refine (effect_bind_of_ok (effect_inside_read_of_holds _ held) _).trans ?_
    show (Action.onSecond (Link.reply _ _ _ >>= fun _ => Link.write s)).effect (m, l) = _
    rw [effect_onSecond, effect_bind_of_ok replied, wrote]
  · have status : r.status m = .invalid := if_neg fun both => held both.2
    have answer := MemoryRequest.answer_of_refused (m := m) (r := r) (by rw [status]; decide)
    obtain ⟨q, replied, view⟩ := exists_effect_reply m here r.magic .invalid 0
    rw [← status, ← answer] at view
    exact ⟨q, (effect_bind_of_ok (effect_inside_read_of_not_holds _ held) _).trans replied, view⟩

theorem exists_effect_serve_large (base : Int) (m : Memory) {magic addr size : Word}
    (large : Frame.maxTransfer < Word.toInt size)
    (here : l.port.view = ⟨rest, sent, limit, timeout⟩) :
    ∃ q, (serve (Memory.access base) (Word.toInt magic)
          (Frame.encode ⟨magic, addr, size⟩)).effect (m, l) = (.ok (), (m, q)) ∧
      q.port.view = ⟨rest,
        sent ++ Frame.encode ⟨magic, Word.ofInt Frame.Status.invalid.code, 0⟩, limit, timeout⟩ := by
  have decoded : (liftM (Frame.decode (Frame.encode ⟨magic, addr, size⟩)) :
      Action (Memory × Link) Frame).effect (m, l) = (.ok ⟨magic, addr, size⟩, (m, l)) := by
    rw [effect_liftM, Frame.decode_encode]
  obtain ⟨q, replied, view⟩ := exists_effect_reply m here magic .invalid 0
  refine ⟨q, ?_, view⟩
  rw [serve, effect_bind_of_ok decoded]
  exact (congrArg (effect · (m, l)) (if_pos large)).trans replied

theorem exists_effect_serve (base : Int) (m : Memory) (r : MemoryRequest)
    (here : l.port.view = ⟨r.trailer ++ rest, sent, limit, timeout⟩) (hands : limit ≠ some 0) :
    ∃ q, (serve (Memory.access base) (Word.toInt r.magic) r.frame.encode).effect (m, l) =
        (.ok (), (r.apply m, q)) ∧
      q.port.view = ⟨rest, sent ++ r.answer m, limit, timeout⟩ := by
  have decoded : (liftM (Frame.decode r.frame.encode) : Action (Memory × Link) Frame).effect
      (m, l) = (.ok r.frame, (m, l)) := by
    rw [effect_liftM, Frame.decode_encode]
  cases r with
  | read addr size =>
    let r := MemoryRequest.read addr size
    have other : Word.toInt r.magic ≠ Frame.writeMagic := Frame.toInt_readMagic ▸ by decide
    by_cases large : Frame.maxTransfer < Word.toInt size
    · have status : r.status m = .invalid := if_neg fun both => absurd both.1 (by omega)
      have answer := MemoryRequest.answer_of_refused (m := m) (r := r) (by rw [status]; decide)
      obtain ⟨q, served, view⟩ := exists_effect_serve_large base m large here
      exact ⟨q, served, by rw [answer, status]; exact view⟩
    · rw [serve, effect_bind_of_ok decoded]
      have small : Word.toInt size ≤ Frame.maxTransfer := by omega
      obtain ⟨q, served, view⟩ := exists_effect_serveRead small here
      refine ⟨q, (congrArg (effect · (m, l)) (if_neg large)).trans ?_, view⟩
      exact (congrArg (effect · (m, l)) (if_neg other)).trans served
  | write addr data stated fits =>
    let w := MemoryRequest.write addr data stated fits
    have own : Word.toInt w.magic = Frame.writeMagic := Frame.toInt_writeMagic
    have size : w.frame.second.toNat = data.length := MemoryRequest.toNat_of_fits fits
    have small : ¬Frame.maxTransfer < Word.toInt w.frame.second := by
      rw [Word.toInt, size]
      omega
    obtain ⟨q, served, view⟩ := exists_effect_serveWrite hands here
    rw [serve, effect_bind_of_ok decoded]
    refine ⟨q, (congrArg (effect · (m, l)) (if_neg small)).trans ?_, view⟩
    exact (congrArg (effect · (m, l)) (if_pos own)).trans served

end ProgramEnd

end Keystream
