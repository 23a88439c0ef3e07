import Keystream.Proofs.Serial.MemoryRequest
import Keystream.Serial.RemoteMemory
/-!
Memory at the other end of a link. What the host sends to reach it are the requests that the
program's end serves, and what the host takes for answers are the answers given there; so a call
over the link comes to what the same call comes to beside the memory.
-/
namespace Keystream

namespace ProgramEnd

open Keystream.Action Port

def serveNext [Machine] {μ : Type} (mem : MemoryAccess μ) : Action (μ × Link) Unit := do
  let s ← Link.receive.onSecond
  serve mem (Frame.magicOf s) s

variable {machine : Machine} {l : Link} {rest sent left wrote : Bytes} {limit : Option Nat}
  {timeout : Option Seconds}

theorem exists_effect_serveNext_served (base : Int) (m : Memory) {f : Frame} {t : Memory}
    (marked : f.Marked) (here : l.port.view = ⟨f.encode ++ rest, sent, limit, timeout⟩)
    (hands : limit ≠ some 0)
    (served : ∀ p : Link, p.port.view = ⟨rest, sent, limit, timeout⟩ →
      ∃ q, (serve (Memory.access base) (Word.toInt f.magic) f.encode).effect (m, p) =
          (.ok (), (t, q)) ∧
        q.port.view = ⟨left, wrote, limit, timeout⟩) :
    ∃ q, (serveNext (Memory.access base)).effect (m, l) = (.ok (), (t, q)) ∧
      q.port.view = ⟨left, wrote, limit, timeout⟩ := by
  have here : l.port.view = ⟨[] ++ (f.encode ++ rest), _, _, _⟩ := here
  obtain ⟨p, received, view⟩ := exists_effect_receive m marked here hands unmarked_nil
  obtain ⟨q, served, view⟩ := served p view
  refine ⟨q, ?_, view⟩
  rw [serveNext, effect_bind_of_ok received, Frame.magicOf_encode, served]

theorem exists_effect_serveNext (base : Int) (m : Memory) (r : MemoryRequest)
    (here : l.port.view = ⟨r.encode ++ rest, sent, limit, timeout⟩) (hands : limit ≠ some 0) :
    ∃ q, (serveNext (Memory.access base)).effect (m, l) = (.ok (), (r.apply m, q)) ∧
      q.port.view = ⟨rest, sent ++ r.answer m, limit, timeout⟩ := by
  rw [MemoryRequest.encode, List.append_assoc] at here
  refine exists_effect_serveNext_served base m r.marked_frame here hands fun p view => ?_
  rw [r.magic_frame]
  exact exists_effect_serve base m r view hands

end ProgramEnd

namespace RemoteMemory

open Keystream.Action Port

section

variable {machine : Machine} {l : Link} {rest sent : Bytes} {limit : Option Nat}
  {timeout : Option Seconds}

def awaitWritten [Machine] : Action Link Unit := do
  let answer ← Link.receive
  let _ ← Frame.response Frame.writeMagic (Frame.magicOf answer) answer

def awaitRead [Machine] (size : Int) : Action Link Bytes := do
  let answer ← Link.receive
  let stated ← Frame.response Frame.readMagic (Frame.magicOf answer) answer
  let s ← Link.readFull size
  let computed := Word.toInt (checksum s)
  if stated ≠ computed then throw (.dataChecksum stated computed)
  return s

theorem keeps_sent_awaitWritten : Keeps (Link.Sent sent) awaitWritten :=
  Link.keeps_sent_receive.bind fun _ => (keeps_liftM _).bind fun _ => keeps_pure _

theorem keeps_sent_awaitRead (size : Int) : Keeps (Link.Sent sent) (awaitRead size) := by
  refine Link.keeps_sent_receive.bind fun _ => (keeps_liftM _).bind fun _ =>
    (Link.keeps_sent_readFull size).bind fun _ => keeps_ite (fun _ => ?_) fun _ => keeps_pure _
  exact (keeps_throw _).bind fun _ => keeps_pure _

theorem exists_effect_write_ask {data : Bytes} (small : data.length < 0x100000000) (addr : Word)
    (here : l.port.view = ⟨rest, sent, limit, timeout⟩) :
    ∃ p, (write (Word.toInt addr) data).effect l = awaitWritten.effect p ∧
      p.port.view = ⟨rest, sent ++ MemoryRequest.writeBytes addr data (checksum data), limit,
        timeout⟩ := by
  let f : Frame := ⟨Word.ofInt Frame.writeMagic, addr, .ofNat data.length⟩
  have asked : (liftM (Frame.request Frame.writeMagic (Word.toInt addr) data.length) :
      Action Link Frame).effect l = (.ok f, l) := by
    rw [effect_liftM, MemoryRequest.request_write small]
  obtain ⟨q, went, view⟩ := Link.exists_effect_send here f
  obtain ⟨p, wrote, view⟩ := Link.exists_effect_write view (data ++ Word.bytes (checksum data))
  rw [List.append_assoc] at view
  refine ⟨p, ?_, view⟩
  rw [write, effect_bind_of_ok asked, effect_bind_of_ok went]
  exact effect_bind_of_ok wrote _

theorem exists_effect_read_ask (addr : Word) {size : Word} (wanted : Word.toInt size ≠ 0)
    (here : l.port.view = ⟨rest, sent, limit, timeout⟩) :
    ∃ p, (read (Word.toInt addr) (Word.toInt size)).effect l =
        (awaitRead (Word.toInt size)).effect p ∧
      p.port.view = ⟨rest, sent ++ (MemoryRequest.read addr size).encode, limit, timeout⟩ := by
  let r := MemoryRequest.read addr size
  have asked : (liftM (Frame.request Frame.readMagic (Word.toInt addr) (Word.toInt size)) :
      Action Link Frame).effect l = (.ok r.frame, l) := by
    rw [effect_liftM, MemoryRequest.request_read]
  obtain ⟨p, went, view⟩ := Link.exists_effect_send here r.frame
  rw [← List.append_nil (Frame.encode _)] at view
  refine ⟨p, ?_, view⟩
  rw [read, if_neg wanted, effect_bind_of_ok asked]
  exact effect_bind_of_ok went _

theorem exists_effect_write {data : Bytes} (fits : data.length ≤ Frame.maxTransfer) (addr : Word)
    {status : Word}
    (here : l.port.view = ⟨Frame.encode ⟨Word.ofInt Frame.writeMagic, status, 0⟩ ++ rest, sent,
      limit, timeout⟩) (hands : limit ≠ some 0) :
    ∃ q, (write (Word.toInt addr) data).effect l =
        (if status = 0 then .ok () else .error (.remote (Word.signed status)), q) ∧
      q.port.view = ⟨rest,
        sent ++ (MemoryRequest.write addr data (checksum data) fits).encode, limit, timeout⟩ := by
  obtain ⟨p, asked, view⟩ := exists_effect_write_ask (MemoryRequest.lt_of_fits fits) addr here
  obtain ⟨q, received, view⟩ :=
    Link.exists_effect_receive_next ⟨_, Frame.bytes_writeMagic⟩ view hands
  have told := Frame.response_encode (Word.ofInt Frame.writeMagic) status 0
  rw [Frame.toInt_writeMagic] at told
  refine ⟨q, ?_, view⟩
  rw [asked, awaitWritten, effect_bind_of_ok received, Frame.magicOf_encode, Frame.toInt_writeMagic,
    effect_bind_pure, effect_liftM, told]
  split <;> rfl

theorem exists_effect_read {s : Bytes} (nonempty : s ≠ []) (fits : s.length ≤ Frame.maxTransfer)
    (addr : Word) (here : l.port.view =
      ⟨Frame.encode ⟨Word.ofInt Frame.readMagic, 0, checksum s⟩ ++ (s ++ rest), sent, limit,
        timeout⟩) (hands : limit ≠ some 0) :
    ∃ q, (read (Word.toInt addr) s.length).effect l = (.ok s, q) ∧
      q.port.view = ⟨rest, sent ++ (MemoryRequest.read addr (.ofNat s.length)).encode, limit,
        timeout⟩ := by
  have size : Word.toInt (.ofNat s.length) = s.length :=
    congrArg Nat.cast (MemoryRequest.toNat_of_fits fits)
  have wanted : Word.toInt (.ofNat s.length) ≠ 0 := fun none =>
    nonempty (List.length_eq_zero_iff.1 (Int.natCast_eq_zero.1 (size ▸ none)))
  obtain ⟨p, asked, view⟩ := exists_effect_read_ask addr wanted here
  obtain ⟨p', received, view⟩ :=
    Link.exists_effect_receive_next ⟨_, Frame.bytes_readMagic⟩ view hands
  obtain ⟨q, taken, view⟩ := Link.exists_effect_readFull view hands
  have told := Frame.response_of_ok (Word.ofInt Frame.readMagic) (checksum s)
  rw [Frame.toInt_readMagic] at told
  rw [size] at asked
  refine ⟨q, ?_, view⟩
  rw [asked, awaitRead, effect_bind_of_ok received]
  refine (effect_bind_of_ok ((effect_liftM ..).trans (congrArg (·, p') told)) _).trans ?_
  rw [effect_bind_of_ok taken, if_neg (not_not_intro rfl)]
  rfl

theorem exists_effect_read_refused (addr : Word) {size status response : Word}
    (wanted : Word.toInt size ≠ 0) (refused : status ≠ 0)
    (here : l.port.view = ⟨Frame.encode ⟨Word.ofInt Frame.readMagic, status, response⟩ ++ rest,
      sent, limit, timeout⟩) (hands : limit ≠ some 0) :
    ∃ q, (read (Word.toInt addr) (Word.toInt size)).effect l =
        (.error (.remote (Word.signed status)), q) ∧
      q.port.view = ⟨rest, sent ++ (MemoryRequest.read addr size).encode, limit, timeout⟩ := by
  obtain ⟨p, asked, view⟩ := exists_effect_read_ask addr wanted here
  obtain ⟨q, received, view⟩ :=
    Link.exists_effect_receive_next ⟨_, Frame.bytes_readMagic⟩ view hands
  have told := Frame.response_encode (Word.ofInt Frame.readMagic) status response
  rw [Frame.toInt_readMagic, if_neg refused] at told
  refine ⟨q, ?_, view⟩
  rw [asked, awaitRead, effect_bind_of_ok received, Frame.magicOf_encode, Frame.toInt_readMagic]
  exact effect_bind_of_error ((effect_liftM ..).trans (congrArg (·, q) told)) _

theorem sent_write {data : Bytes} (small : data.length < 0x100000000) (addr : Word) (l : Link) :
    ((write (Word.toInt addr) data).effect l).2.port.sent =
      l.port.sent ++ MemoryRequest.writeBytes addr data (checksum data) := by
  obtain ⟨p, asked, view⟩ := exists_effect_write_ask (l := l) small addr rfl
  rw [asked]
  exact keeps_sent_awaitWritten p (View.mk.inj view).2.1

theorem sent_read (addr : Word) {size : Word} (wanted : Word.toInt size ≠ 0) (l : Link) :
    ((read (Word.toInt addr) (Word.toInt size)).effect l).2.port.sent =
      l.port.sent ++ (MemoryRequest.read addr size).encode := by
  obtain ⟨p, asked, view⟩ := exists_effect_read_ask (l := l) addr wanted rfl
  rw [asked]
  exact keeps_sent_awaitRead _ p (View.mk.inj view).2.1

/-- What a call at the other end of a link makes of what came of it there. -/
def relayed : Except Error α → Except Error α
  | .ok x => .ok x
  | .error _ => .error (.remote Frame.Status.invalid.code)

/-- Whether a call does to memory `m` at the other end of a link what `here` does beside it: one
turn there serves the bytes that it asks by, and it takes the bytes that answer them. -/
structure Conveys [Machine] (m : Memory) (here : Action Memory α) (remote : Action Link α)
    (asked answer : Bytes) : Prop where
  asks : ∀ l : Link, (remote.effect l).2.port.sent = l.port.sent ++ asked
  served : ∀ (l : Link) (tail : Bytes), l.port.unread = asked ++ tail → l.port.limit ≠ some 0 →
    ∃ q, (ProgramEnd.serveNext (Memory.access m.base)).effect (m, l) =
        (.ok (), ((here.effect m).2, q)) ∧
      q.port.sent = l.port.sent ++ answer ∧ q.port.unread = tail
  told : ∀ (l : Link) (tail : Bytes), l.port.unread = answer ++ tail → l.port.limit ≠ some 0 →
    ∃ q, remote.effect l = (relayed (here.effect m).1, q) ∧ q.port.unread = tail

variable {m : Memory} (addr : Word)

theorem conveys_write {data : Bytes} (fits : data.length ≤ Frame.maxTransfer) :
    let w := MemoryRequest.write addr data (checksum data) fits
    Conveys m (Memory.write (Word.toInt addr) data) (write (Word.toInt addr) data) w.encode
      (w.answer m) := by
  intro w
  have status : w.status m = if m.Holds (Word.toInt addr) data.length then .ok else .invalid :=
    if_neg (not_not_intro rfl)
  have same : ((Memory.write (Word.toInt addr) data).effect m).2 = w.apply m ∧
      relayed ((Memory.write (Word.toInt addr) data).effect m).1 =
        if w.status m = .ok then .ok () else .error (.remote (w.status m).code) := by
    by_cases held : m.Holds (Word.toInt addr) data.length
    · rw [if_pos held] at status
      rw [MemoryRequest.apply_write held, Memory.effect_write_of_holds held, status]
      exact ⟨rfl, rfl⟩
    · rw [if_neg held] at status
      rw [w.apply_of_refused (by rw [status]; decide), Memory.effect_write,
        Memory.put_of_not_holds held, status]
      exact ⟨rfl, rfl⟩
  refine ⟨sent_write (MemoryRequest.lt_of_fits fits) addr, fun l tail stands hands => ?_,
    fun l tail stands hands => ?_⟩
  all_goals have here := view_of_unread stands
  · obtain ⟨q, served, view⟩ := ProgramEnd.exists_effect_serveNext m.base m w here hands
    obtain ⟨unread, sent, _⟩ := View.mk.inj view
    rw [same.1]
    exact ⟨q, served, sent, unread⟩
  · obtain ⟨q, told, view⟩ := exists_effect_write fits addr here hands
    simp only [Frame.Status.ofInt_code_eq_zero_iff, Frame.Status.signed_code] at told
    rw [same.2]
    exact ⟨q, told, (View.mk.inj view).1⟩

theorem conveys_read {size : Word} (wanted : Word.toInt size ≠ 0)
    (small : Word.toInt size ≤ Frame.maxTransfer) :
    let r := MemoryRequest.read addr size
    Conveys m (Memory.read (Word.toInt addr) (Word.toInt size))
      (read (Word.toInt addr) (Word.toInt size)) r.encode (r.answer m) := by
  intro r
  refine ⟨sent_read addr wanted, fun l tail stands hands => ?_, fun l tail stands hands => ?_⟩
  all_goals have here := view_of_unread stands
  · obtain ⟨q, served, view⟩ := ProgramEnd.exists_effect_serveNext m.base m r here hands
    obtain ⟨unread, sent, _⟩ := View.mk.inj view
    rw [Memory.effect_read]
    exact ⟨q, served, sent, unread⟩
  · by_cases held : m.Holds (Word.toInt addr) size.toNat
    · let s := m.stretch (Word.toInt addr) size.toNat
      have length : s.length = size.toNat := Memory.length_stretch ..
      have counted : (s.length : Int) = Word.toInt size := congrArg Nat.cast length
      have nonempty : s ≠ [] := fun none => wanted (by rw [← counted, none]; rfl)
      rw [MemoryRequest.answer_read small held, List.append_assoc] at here
      obtain ⟨q, told, view⟩ := exists_effect_read nonempty (counted ▸ small) addr here hands
      rw [counted] at told
      refine ⟨q, told.trans ?_, (View.mk.inj view).1⟩
      rw [show Word.toInt size = (size.toNat : Int) from rfl, Memory.effect_read_of_holds held]
      rfl
    · have status : r.status m = .invalid := if_neg fun both => held both.2
      rw [r.answer_of_refused (by rw [status]; decide), status] at here
      obtain ⟨q, told, view⟩ := exists_effect_read_refused addr wanted (by decide) here hands
      rw [Frame.Status.signed_code] at told
      refine ⟨q, told.trans ?_, (View.mk.inj view).1⟩
      rw [show Word.toInt size = (size.toNat : Int) from rfl, Memory.effect_read,
        Memory.bytesAt_of_not_holds held]
      rfl

theorem kind_of_write_fails {a : Int} {data : Bytes} {e : Error}
    (failed : ((Memory.write a data).effect m).1 = .error e) :
    e.kind = .index ∧ ((Memory.write a data).effect m).2 = m := by
  by_cases held : m.Holds a data.length
  · rw [Memory.effect_write_of_holds held] at failed
    cases failed
  · rw [Memory.effect_write, Memory.put_of_not_holds held] at failed ⊢
    cases failed
    exact ⟨rfl, rfl⟩

theorem kind_of_read_fails {a : Int} {n : Nat} {e : Error}
    (failed : ((Memory.read a n).effect m).1 = .error e) : e.kind = .index := by
  by_cases held : m.Holds a n
  · rw [Memory.effect_read_of_holds held] at failed
    cases failed
  · rw [Memory.effect_read, Memory.bytesAt_of_not_holds held] at failed
    cases failed
    rfl

/-- Memory at the other end of a link is as good as memory beside. What is written there is written
and what is read is read, and what fails there for its range fails here for what the other end
says. -/
theorem remote_refines_local (m : Memory) (addr : Word) :
    let a := Word.toInt addr
    (∀ data : Bytes, data.length ≤ Frame.maxTransfer →
      (∃ asked answer, Conveys m (Memory.write a data) (write a data) asked answer) ∧
        ∀ e, ((Memory.write a data).effect m).1 = .error e →
          e.kind = .index ∧ ((Memory.write a data).effect m).2 = m) ∧
    ∀ size : Int, 0 < size → size ≤ Frame.maxTransfer →
      (∃ asked answer, Conveys m (Memory.read a size) (read a size) asked answer) ∧
        ((Memory.read a size).effect m).2 = m ∧
        ∀ e, ((Memory.read a size).effect m).1 = .error e → e.kind = .index := by
  intro a
  refine ⟨fun data fits => ⟨⟨_, _, conveys_write addr fits⟩, fun e => kind_of_write_fails⟩,
    fun size positive small => ?_⟩
  obtain ⟨n, rfl⟩ := Int.eq_ofNat_of_zero_le (Int.le_of_lt positive)
  have counted : Word.toInt (.ofNat n) = n := congrArg Nat.cast (MemoryRequest.toNat_of_fits small)
  have wanted : Word.toInt (.ofNat n) ≠ 0 := by omega
  have conveys : Conveys m _ _ _ _ := conveys_read addr wanted (counted ▸ small)
  rw [counted] at conveys
  exact ⟨⟨_, _, conveys⟩, by rw [Memory.effect_read], fun e => kind_of_read_fails⟩

end

/-- Bytes that spell a frame's beginning, up to the last byte of memory; and a read beyond it. -/
theorem remote_refines_local_at_the_end :
    let m : Memory := ⟨0x100, Array.replicate 16 7, ⟨0x100, 16, 1, [⟨1, false⟩], []⟩, false⟩
    let addr : Word := 0x10c
    let data : Bytes := [0xff, 0x55, 0xaa, 0x13]
    data.length ≤ Frame.maxTransfer ∧ (0 : Int) < 5 ∧ 5 ≤ Frame.maxTransfer ∧
      ((Memory.write (Word.toInt addr) data).effect m).1 = .ok () ∧
      ((Memory.read (Word.toInt addr) 5).effect m).1 = .error (.outside 0x10c 5 0x100 0x110) ∧
      (∃ asked answer, Conveys m (Memory.write (Word.toInt addr) data)
        (write (Word.toInt addr) data) asked answer) ∧
      ∃ asked answer, Conveys m (Memory.read (Word.toInt addr) 5) (read (Word.toInt addr) 5)
        asked answer := by
  intro m addr data
  have fits : data.length ≤ Frame.maxTransfer := by decide
  have small : 5 ≤ Frame.maxTransfer := by decide
  obtain ⟨writes, reads⟩ := remote_refines_local m addr
  exact ⟨fits, by decide, small, by decide +kernel, by decide +kernel, (writes data fits).1,
    (reads 5 (by decide) small).1⟩

end RemoteMemory

end Keystream
