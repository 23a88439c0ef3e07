import Keystream.Proofs.Serial.ProgramEnd
import Keystream.Proofs.Serial.RemoteMemory
/-!
Where a request to write ends. One for no more than may be moved at once is read to its end, however
it is answered. One for more is refused by its size alone: its bytes stay on the line, and the
program's end reads on among them.
-/
namespace Keystream.ProgramEnd

open Keystream.Action Port

section

variable {machine : Machine} {l : Link} {data rest sent tail : Bytes} {limit : Option Nat}
  {timeout : Option Seconds} {addr stated : Word}

theorem lt_toInt_ofNat {n : Nat} (small : n < 0x100000000) (large : Frame.maxTransfer < n) :
    Frame.maxTransfer < Word.toInt (.ofNat n) := by
  rwa [Word.toInt, UInt32.toNat_ofNat_of_lt' small]

theorem exists_effect_serve_largeWrite (base : Int) (m : Memory)
    (small : data.length < 0x100000000) (large : Frame.maxTransfer < data.length)
    (here : l.port.view = ⟨rest, sent, limit, timeout⟩) :
    ∃ q, (serve (Memory.access base) (Word.toInt (Word.ofInt Frame.writeMagic))
          (Frame.encode ⟨Word.ofInt Frame.writeMagic, addr, .ofNat data.length⟩)).effect (m, l) =
        (.ok (), (m, q)) ∧
      q.port.view = ⟨rest, sent ++ Frame.encode
        ⟨Word.ofInt Frame.writeMagic, Word.ofInt Frame.Status.invalid.code, 0⟩, limit, timeout⟩ :=
  exists_effect_serve_large base m (lt_toInt_ofNat small large) here

theorem exists_effect_serveNext_largeWrite (base : Int) (m : Memory)
    (small : data.length < 0x100000000) (large : Frame.maxTransfer < data.length)
    (here : l.port.view =
      ⟨MemoryRequest.writeBytes addr data stated ++ tail, sent, limit, timeout⟩)
    (hands : limit ≠ some 0) :
    ∃ q, (serveNext (Memory.access base)).effect (m, l) = (.ok (), (m, q)) ∧
      q.port.view = ⟨data ++ Word.bytes stated ++ tail, sent ++ Frame.encode
        ⟨Word.ofInt Frame.writeMagic, Word.ofInt Frame.Status.invalid.code, 0⟩, limit,
        timeout⟩ := by
  rw [MemoryRequest.writeBytes, List.append_assoc] at here
  exact exists_effect_serveNext_served base m ⟨_, Frame.bytes_writeMagic⟩ here hands
    fun _ view => exists_effect_serve_largeWrite base m small large view

section

variable {response : Word} {pad : Bytes}
  (forged : data = Frame.encode ⟨Word.ofInt Frame.signalMagic, 0, response⟩ ++ pad)
  (small : data.length < 0x100000000) (large : Frame.maxTransfer < data.length)
include forged small large

theorem exists_effect_await_largeWrite (base : Int) (m : Memory) (turns : Nat)
    (here : l.port.view =
      ⟨MemoryRequest.writeBytes addr data stated ++ tail, sent, limit, timeout⟩)
    (hands : limit ≠ some 0) :
    ∃ q, (await (some (Memory.access base)) Frame.signalMagic (turns + 2)).effect (m, l) =
        (.ok (Word.toInt response), (m, q)) ∧
      q.port.view = ⟨pad ++ (Word.bytes stated ++ tail), sent ++ Frame.encode
        ⟨Word.ofInt Frame.writeMagic, Word.ofInt Frame.Status.invalid.code, 0⟩, limit,
        timeout⟩ := by
  rw [MemoryRequest.writeBytes, List.append_assoc] at here
  obtain ⟨p, passed, view⟩ := exists_effect_await_served base m (turns + 1)
    ⟨_, Frame.bytes_writeMagic⟩ (.inr Frame.toInt_writeMagic)
    (show l.port.view = ⟨[] ++ _, _, _, _⟩ from here) hands unmarked_nil
    fun _ view => exists_effect_serve_largeWrite base m small large view
  rw [forged, List.append_assoc, List.append_assoc] at view
  obtain ⟨q, told, view⟩ := exists_effect_await_reply (some (Memory.access base)) m turns
    (show p.port.view = ⟨[] ++ _, _, _, _⟩ from view) hands unmarked_nil
  exact ⟨q, passed.trans told, view⟩

theorem exists_effect_signal_largeWrite (base : Int) (m : Memory)
    (here : l.port.view =
      ⟨MemoryRequest.writeBytes addr data stated ++ tail, sent, limit, timeout⟩)
    (hands : limit ≠ some 0) (sig : Word) (value : Int) :
    ∃ q, ((channel (some (Memory.access base))).signal (Word.toInt sig) value).effect (m, l) =
        (.ok (Word.toInt response), (m, q)) ∧
      q.port.unread = pad ++ (Word.bytes stated ++ tail) := by
  obtain ⟨p, asked, view⟩ :=
    exists_effect_signal_ask (some (Memory.access base)) m sig value here
  obtain ⟨turns, count⟩ : ∃ turns, (MemoryRequest.writeBytes addr data stated ++ tail).length =
      turns + 1 := by
    refine Nat.exists_eq_succ_of_ne_zero (Nat.ne_of_gt ?_)
    rw [MemoryRequest.writeBytes, List.length_append, List.length_append, Frame.length_encode]
    omega
  obtain ⟨q, told, view⟩ := exists_effect_awaitReply _ view fun _ view => by
    rw [count]
    exact exists_effect_await_largeWrite forged small large base m turns view hands
  exact ⟨q, asked.trans told, (View.mk.inj view).1⟩

end

/-- Where a request to write ends for the program's end: behind its checksum if no more is to be
written than may be moved at once, and else before its data, among which a signal then finds a
reply. -/
theorem write_request_ends (m : Memory) (hands : l.port.limit ≠ some 0)
    (small : data.length < 0x100000000) (addr : Word) :
    (∀ w : Link, ((RemoteMemory.write (Word.toInt addr) data).effect w).2.port.sent =
      w.port.sent ++ MemoryRequest.writeBytes addr data (checksum data)) ∧
    ∀ stated tail, l.port.unread = MemoryRequest.writeBytes addr data stated ++ tail →
      (∀ fits : data.length ≤ Frame.maxTransfer,
        let w := MemoryRequest.write addr data stated fits
        ∃ q, (serveNext (Memory.access m.base)).effect (m, l) = (.ok (), (w.apply m, q)) ∧
          q.port.sent = l.port.sent ++ w.answer m ∧ q.port.unread = tail) ∧
      (Frame.maxTransfer < data.length →
        (∃ q, (serveNext (Memory.access m.base)).effect (m, l) = (.ok (), (m, q)) ∧
          q.port.sent = l.port.sent ++ Frame.encode
            ⟨Word.ofInt Frame.writeMagic, Word.ofInt Frame.Status.invalid.code, 0⟩ ∧
          q.port.unread = data ++ Word.bytes stated ++ tail) ∧
        ∀ response pad, data = Frame.encode ⟨Word.ofInt Frame.signalMagic, 0, response⟩ ++ pad →
          ∀ sig value,
          ∃ q, ((channel (some (Memory.access m.base))).signal (Word.toInt sig) value).effect
              (m, l) = (.ok (Word.toInt response), (m, q)) ∧
            q.port.unread = pad ++ (Word.bytes stated ++ tail)) := by
  refine ⟨RemoteMemory.sent_write small addr, fun stated tail stands =>
    ⟨fun fits => ?_, fun large => ⟨?_, fun response pad forged sig value => ?_⟩⟩⟩
  all_goals have here := view_of_unread stands
  · obtain ⟨q, served, view⟩ :=
      exists_effect_serveNext m.base m (.write addr data stated fits) here hands
    exact ⟨q, served, (View.mk.inj view).2.1, (View.mk.inj view).1⟩
  · obtain ⟨q, served, view⟩ := exists_effect_serveNext_largeWrite m.base m small large here hands
    exact ⟨q, served, (View.mk.inj view).2.1, (View.mk.inj view).1⟩
  · exact exists_effect_signal_largeWrite forged small large m.base m here hands sig value

end

/-- One byte more than may be moved at once, the first of them a reply of seven. The reply of five
that the host sends behind them is never read. -/
theorem write_request_ends_in_its_data :
    let m : Memory := ⟨0x100, Array.replicate 16 0, ⟨0x100, 16, 1, [⟨1, false⟩], []⟩, false⟩
    let pad : Bytes := List.replicate 65521 0
    let data := Frame.encode ⟨Word.ofInt Frame.signalMagic, 0, 7⟩ ++ pad
    let tail := Frame.encode ⟨Word.ofInt Frame.signalMagic, 0, 5⟩
    let unread := MemoryRequest.writeBytes 0x100 data (checksum data) ++ tail
    let l : Link := { port := { unread, timeout := none }, traced := false }
    l.port.limit ≠ some 0 ∧ data.length < 0x100000000 ∧ Frame.maxTransfer < data.length ∧
      (∃ q, (serveNext (Memory.access m.base)).effect (m, l) = (.ok (), (m, q)) ∧
        q.port.unread ≠ tail) ∧
      ∃ q, ((channel (some (Memory.access m.base))).signal (Word.toInt 0) 0).effect (m, l) =
          (.ok 7, (m, q)) ∧
        q.port.unread = pad ++ (Word.bytes (checksum data) ++ tail) := by
  intro m pad data tail unread l
  have hands : l.port.limit ≠ some 0 := by decide
  have length : data.length = 65537 := by
    rw [List.length_append, Frame.length_encode, List.length_replicate]
  have small : data.length < 0x100000000 := by omega
  have large : Frame.maxTransfer < data.length := by rw [length]; decide
  obtain ⟨_, ends⟩ := write_request_ends m hands small 0x100
  obtain ⟨⟨q, served, _, left⟩, deceived⟩ := (ends (checksum data) tail rfl).2 large
  refine ⟨hands, small, large, ⟨q, served, fun same => ?_⟩, deceived 7 pad rfl 0 0⟩
  have counted := congrArg List.length (left.symm.trans same)
  rw [List.length_append, List.length_append, length] at counted
  rw [Word.length_bytes] at counted
  omega

end Keystream.ProgramEnd
