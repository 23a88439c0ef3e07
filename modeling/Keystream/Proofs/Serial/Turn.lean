import Keystream.Proofs.Serial.HostEnd
import Keystream.Proofs.Serial.ProgramEnd
import Keystream.Proofs.Serial.RemoteMemory
/-!
Turns: one signal as it passes over a line, with all that is said between the two ends until it is
replied to. What each end writes in a turn is what the other end reads.
-/
namespace Keystream

theorem Signal.toInt_code (sig : Signal) : Word.toInt (Word.ofInt sig.code) = sig.code := by
  cases sig <;> decide

namespace MemoryRequest

theorem fits_of_short {s : Vector UInt8 k} (short : k ≤ 64) :
    s.toList.length ≤ Frame.maxTransfer := by
  rw [Vector.length_toList, Frame.maxTransfer]
  omega

def store (addr : Int) (s : Vector UInt8 k) (short : k ≤ 64) : MemoryRequest :=
  .write (Word.ofInt addr) s.toList (checksum s.toList) (fits_of_short short)

variable {m : Memory} {addr : Int} {s : Vector UInt8 k} {short : k ≤ 64}

theorem apply_store (isWord : Word.toInt (Word.ofInt addr) = addr)
    (held : m.Holds addr s.toList.length) :
    (store addr s short).apply m = m.written addr s.toList := by
  rw [store, apply_write (isWord.symm ▸ held), isWord]

theorem answer_store (isWord : Word.toInt (Word.ofInt addr) = addr)
    (held : m.Holds addr s.toList.length) :
    (store addr s short).answer m = Frame.encode ⟨Word.ofInt Frame.writeMagic, 0, 0⟩ :=
  answer_write (isWord.symm ▸ held)

end MemoryRequest

structure Turn where
  sig : Signal
  value : Int
  /-- What the host asks of memory before it replies. -/
  requests : List MemoryRequest := []
  /-- The bytes by which it is answered. -/
  answers : Bytes := []
  response : Int := 0

namespace Turn

def toHost (t : Turn) : Bytes :=
  Frame.encode ⟨Word.ofInt Frame.signalMagic, Word.ofInt t.sig.code, Word.ofInt t.value⟩ ++
    t.answers

def toProgram (t : Turn) : Bytes :=
  t.requests.flatMap MemoryRequest.encode ++
    Frame.encode ⟨Word.ofInt Frame.signalMagic, 0, Word.ofInt t.response⟩

def store (sig : Signal) (addr : Int) (s : Vector UInt8 k) (short : k ≤ 64) : Turn where
  sig
  value := addr
  requests := [.store addr s short]
  answers := Frame.encode ⟨Word.ofInt Frame.writeMagic, 0, 0⟩

def load (sig : Signal) (addr : Int) (s : Bytes) : Turn where
  sig
  value := addr
  requests := [.read (Word.ofInt addr) (.ofNat s.length)]
  answers := Frame.encode ⟨Word.ofInt Frame.readMagic, 0, checksum s⟩ ++ s

end Turn

open Keystream.Action Port

variable {machine : Machine} {l : Link} {rest sent : Bytes} {limit : Option Nat}
  {timeout : Option Seconds}

namespace ProgramEnd

variable (base : Int) (m : Memory)

theorem exists_effect_turn (t : Turn)
    (here : l.port.view = ⟨t.toProgram ++ rest, sent, limit, timeout⟩) (hands : limit ≠ some 0)
    (answered : MemoryRequest.answers m t.requests = t.answers)
    (isWord : Word.toInt (Word.ofInt t.response) = t.response) :
    ∃ q, ((channel (some (Memory.access base))).signal t.sig.code t.value).effect (m, l) =
        (.ok t.response, (t.requests.foldl MemoryRequest.apply m, q)) ∧
      q.port.view = ⟨rest, sent ++ t.toHost, limit, timeout⟩ := by
  let requests : List (Bytes × MemoryRequest) := t.requests.map fun r => ([], r)
  have quiet : requests.map Prod.snd = t.requests := by
    rw [List.map_map]
    exact List.map_id _
  have spelled : MemoryRequest.stream requests = t.requests.flatMap MemoryRequest.encode :=
    List.flatMap_map ..
  have unmarked : ∀ request ∈ requests, Unmarked request.1 := by
    intro request member
    obtain ⟨_, _, rfl⟩ := List.mem_map.1 member
    exact unmarked_nil
  rw [Turn.toProgram, ← spelled, List.append_assoc] at here
  obtain ⟨q, told, view⟩ := exists_effect_signal base m requests
    (show l.port.view = ⟨_ ++ ([] ++ _), _, _, _⟩ from here) hands unmarked unmarked_nil
    (Word.ofInt t.sig.code) t.value
  rw [quiet] at told view
  rw [if_pos rfl, isWord, t.sig.toInt_code] at told
  rw [answered, List.append_assoc] at view
  exact ⟨q, told, view⟩

theorem exists_effect_store {sig : Signal} {addr : Int} {s : Vector UInt8 k} {short : k ≤ 64}
    (isWord : Word.toInt (Word.ofInt addr) = addr) (held : m.Holds addr s.toList.length)
    (here : l.port.view =
      ⟨(Turn.store sig addr s short).toProgram ++ rest, sent, limit, timeout⟩)
    (hands : limit ≠ some 0) :
    ∃ q, ((channel (some (Memory.access base))).signal sig.code addr).effect (m, l) =
        (.ok 0, (m.written addr s.toList, q)) ∧
      q.port.view = ⟨rest, sent ++ (Turn.store sig addr s short).toHost, limit, timeout⟩ := by
  obtain ⟨q, told, view⟩ := exists_effect_turn base m (.store sig addr s short) here hands
    ((MemoryRequest.answers_singleton ..).trans (MemoryRequest.answer_store isWord held)) rfl
  have stored : [MemoryRequest.store addr s short].foldl MemoryRequest.apply m =
      m.written addr s.toList := MemoryRequest.apply_store isWord held
  exact ⟨q, stored ▸ told, view⟩

theorem exists_effect_load {sig : Signal} {addr : Int} {s : Bytes}
    (fits : s.length ≤ Frame.maxTransfer) (isWord : Word.toInt (Word.ofInt addr) = addr)
    (held : m.Holds addr s.length) (shows : m.stretch addr s.length = s)
    (here : l.port.view = ⟨(Turn.load sig addr s).toProgram ++ rest, sent, limit, timeout⟩)
    (hands : limit ≠ some 0) :
    ∃ q, ((channel (some (Memory.access base))).signal sig.code addr).effect (m, l) =
        (.ok 0, (m, q)) ∧
      q.port.view = ⟨rest, sent ++ (Turn.load sig addr s).toHost, limit, timeout⟩ := by
  have size := MemoryRequest.toNat_of_fits fits
  have answered : (MemoryRequest.read (Word.ofInt addr) (.ofNat s.length)).answer m =
      Frame.encode ⟨Word.ofInt Frame.readMagic, 0, checksum s⟩ ++ s := by
    rw [MemoryRequest.answer_read (by rwa [Word.toInt, size]) (by rwa [isWord, size]), isWord,
      size, shows]
  exact exists_effect_turn base m (.load sig addr s) here hands
    ((MemoryRequest.answers_singleton ..).trans answered) rfl

theorem exists_effect_halt (here : l.port.view = ⟨rest, sent, limit, timeout⟩) :
    ∃ q, (channel (some (Memory.access base))).halt.effect (m, l) = (.ok (), (m, q)) ∧
      q.port.view = ⟨rest, sent ++ Frame.encode ⟨Word.ofInt Frame.haltMagic, 0, 0⟩, limit,
        timeout⟩ := by
  obtain ⟨q, went, view⟩ := Link.exists_effect_send here ⟨Word.ofInt Frame.haltMagic, 0, 0⟩
  refine ⟨q, ?_, view⟩
  have asked : Frame.request Frame.haltMagic 0 0 = .ok ⟨Word.ofInt Frame.haltMagic, 0, 0⟩ := by
    have asked := Frame.request_of_words (Word.ofInt Frame.haltMagic) 0 0
    rwa [Frame.toInt_haltMagic] at asked
  show (Action.onSecond (liftM (Frame.request Frame.haltMagic 0 0) >>= Link.send)).effect (m, l) = _
  rw [effect_onSecond, asked, effect_bind_of_ok (effect_liftM ..), went]

end ProgramEnd

namespace RemoteMemory

theorem exists_effect_store {addr : Int} {s : Vector UInt8 k} {short : k ≤ 64}
    (isWord : Word.toInt (Word.ofInt addr) = addr)
    (here : l.port.view = ⟨Frame.encode ⟨Word.ofInt Frame.writeMagic, 0, 0⟩ ++ rest, sent, limit,
      timeout⟩) (hands : limit ≠ some 0) :
    ∃ q, (write addr s.toList).effect l = (.ok (), q) ∧
      q.port.view = ⟨rest, sent ++ [MemoryRequest.store addr s short].flatMap MemoryRequest.encode,
        limit, timeout⟩ := by
  obtain ⟨q, wrote, view⟩ :=
    exists_effect_write (MemoryRequest.fits_of_short short) (Word.ofInt addr) here hands
  rw [isWord, if_pos rfl] at wrote
  rw [List.flatMap_singleton]
  exact ⟨q, wrote, view⟩

theorem exists_effect_load {addr : Int} {s : Bytes} (nonempty : s ≠ [])
    (fits : s.length ≤ Frame.maxTransfer) (isWord : Word.toInt (Word.ofInt addr) = addr)
    (here : l.port.view =
      ⟨Frame.encode ⟨Word.ofInt Frame.readMagic, 0, checksum s⟩ ++ s ++ rest, sent, limit, timeout⟩)
    (hands : limit ≠ some 0) :
    ∃ q, (read addr s.length).effect l = (.ok s, q) ∧
      q.port.view = ⟨rest, sent ++ (Turn.load sig addr s).requests.flatMap MemoryRequest.encode,
        limit, timeout⟩ := by
  rw [List.append_assoc] at here
  obtain ⟨q, shown, view⟩ := exists_effect_read nonempty fits (Word.ofInt addr) here hands
  rw [isWord] at shown
  rw [Turn.load, List.flatMap_singleton]
  exact ⟨q, shown, view⟩

end RemoteMemory

namespace HostEnd

variable {η : Type} (host : Host (Link × η)) {o o' : η}

theorem exists_effect_turn (t : Turn)
    (here : l.port.view = ⟨t.toHost ++ rest, sent, limit, timeout⟩) (hands : limit ≠ some 0)
    (isWord : Word.toInt (Word.ofInt t.value) = t.value)
    (answered : ∀ p : Link, p.port.view = ⟨t.answers ++ rest, sent, limit, timeout⟩ →
      ∃ q, (host.signal t.sig.code t.value).effect (p, o) = (.ok (some t.response), (q, o')) ∧
        q.port.view = ⟨rest, sent ++ t.requests.flatMap MemoryRequest.encode, limit, timeout⟩) :
    ∃ q, (serveOne host).effect (l, o) = (.ok true, (q, o')) ∧
      q.port.view = ⟨rest, sent ++ t.toProgram, limit, timeout⟩ := by
  let asked : Frame := ⟨Word.ofInt Frame.signalMagic, Word.ofInt t.sig.code, Word.ofInt t.value⟩
  rw [Turn.toHost, List.append_assoc] at here
  rw [← isWord, ← t.sig.toInt_code] at answered
  have answered : ∀ p : Link, p.port.view = ⟨t.answers ++ rest, sent, limit, timeout⟩ →
      ∃ q, (dispatch host (Word.toInt asked.magic) asked.encode).effect (p, o) =
          (.ok (some t.response), (q, o')) ∧
        q.port.view = ⟨rest, sent ++ t.requests.flatMap MemoryRequest.encode, limit, timeout⟩ := by
    intro p view
    rw [effect_dispatch, if_pos rfl]
    exact answered p view
  obtain ⟨q, served, view⟩ := exists_effect_serveOne_answered ⟨_, Frame.bytes_signalMagic⟩
    (show l.port.view = ⟨[] ++ (asked.encode ++ _), _, _, _⟩ from here) hands unmarked_nil
    Frame.signalMagic_ne_haltMagic answered
  rw [List.append_assoc] at view
  exact ⟨q, served, view⟩

theorem exists_effect_ask {sig : Signal} {value response : Int}
    (here : l.port.view = ⟨Turn.toHost { sig, value, response } ++ rest, sent, limit, timeout⟩)
    (hands : limit ≠ some 0) (isWord : Word.toInt (Word.ofInt value) = value)
    (answered : ∀ p : Link,
      (host.signal sig.code value).effect (p, o) = (.ok (some response), (p, o'))) :
    ∃ q, (serveOne host).effect (l, o) = (.ok true, (q, o')) ∧
      q.port.view = ⟨rest, sent ++ Turn.toProgram { sig, value, response }, limit, timeout⟩ := by
  refine exists_effect_turn host { sig, value, response } here hands isWord fun p view => ?_
  refine ⟨p, answered p, ?_⟩
  rw [List.flatMap_nil, List.append_nil]
  exact view

end HostEnd

end Keystream
