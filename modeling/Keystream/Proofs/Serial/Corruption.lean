import Keystream.Proofs.Serial.Checksum
import Keystream.Proofs.Serial.RemoteMemory
import Keystream.Proofs.Serial.Resync
/-!
What comes of bytes that changed on the line. A frame with one byte changed behind its mark is not
taken for a frame, and a write of other bytes than were sent is not carried out.
-/
namespace Keystream

namespace Frame

theorem statedChecksum_ne_of_set {body : Bytes} {i : Nat} {b : UInt8} (size : body.length = 12)
    (inside : i < 16) (changed : (withChecksum body)[i]? ≠ some b) :
    let s := (withChecksum body).set i b
    statedChecksum s ≠ checksum (s.take 12) := by
  intro s same
  have stated : Word.bytes (statedChecksum s) = s.drop 12 :=
    bytes_statedChecksum (by rw [List.length_set, length_withChecksum size])
  rw [same] at stated
  rcases Nat.lt_or_ge i 12 with front | back
  · have within : i < body.length := by omega
    have split : s = body.set i b ++ Word.bytes (checksum body) := List.set_append_left _ _ within
    have size : (body.set i b).length = 12 := by rw [List.length_set, size]
    rw [split, List.take_left' size, List.drop_left' size] at stated
    rw [withChecksum, List.getElem?_append_left within] at changed
    exact (differNearby_set within changed).checksum_ne (Word.bytes_inj stated)
  · have behind : body.length ≤ i := by omega
    have split : s = body ++ (Word.bytes (checksum body)).set (i - 12) b := by
      rw [← size]
      exact List.set_append_right _ _ behind
    rw [split, List.take_left' size, List.drop_left' size] at stated
    rw [withChecksum, List.getElem?_append_right behind, size, stated] at changed
    refine changed (List.getElem?_set_self ?_)
    rw [Word.length_bytes]
    omega

end Frame

namespace Link

open Port

variable {machine : Machine} {l : Link} {body noise tail : Bytes}

theorem exists_effect_receive_of_set {i : Nat} {a b : UInt8} (size : body.length = 12)
    (mark : body.take 4 = [0xff, 0x55, 0xaa, a]) (behind : 3 ≤ i) (inside : i < 16)
    (changed : (Frame.withChecksum body)[i]? ≠ some b) (hands : l.port.limit ≠ some 0)
    (unmarked : Unmarked noise)
    (stands : l.port.unread = noise ++ ((Frame.withChecksum body).set i b ++ tail)) :
    ∃ stated computed q, receive.effect l = (.error (.frameChecksum stated computed), q) ∧
      q.port.unread = tail := by
  have whole : ((Frame.withChecksum body).set i b).length = 16 := by
    rw [List.length_set, Frame.length_withChecksum size]
  have begins : ∃ c, ((Frame.withChecksum body).set i b).take 4 = [0xff, 0x55, 0xaa, c] := by
    have front : (Frame.withChecksum body).take 4 = [0xff, 0x55, 0xaa, a] := by
      rw [Frame.withChecksum, List.take_append_of_le_length (by omega), mark]
    rw [List.take_set, front]
    rcases behind.eq_or_lt with rfl | beyond
    · exact ⟨b, rfl⟩
    · exact ⟨a, List.set_eq_of_length_le beyond⟩
  obtain ⟨c, begins⟩ := begins
  obtain ⟨q, received, left⟩ :=
    exists_effect_receive_of_begins whole begins hands unmarked stands
  rw [if_neg (Frame.statedChecksum_ne_of_set size inside changed)] at received
  exact ⟨_, _, q, received, left⟩

end Link

namespace ProgramEnd

theorem exists_effect_serveNext_of_checksum_ne {machine : Machine} {l : Link}
    {data tail : Bytes} {stated : Word} (m : Memory) (addr : Word)
    (fits : data.length ≤ Frame.maxTransfer)
    (differs : stated ≠ checksum data) (hands : l.port.limit ≠ some 0)
    (stands : l.port.unread = MemoryRequest.writeBytes addr data stated ++ tail) :
    ∃ q, (serveNext (Memory.access m.base)).effect (m, l) = (.ok (), (m, q)) ∧
      q.port.sent = l.port.sent ++
        Frame.encode ⟨Word.ofInt Frame.writeMagic,
          Word.ofInt Frame.Status.checksumFailed.code, 0⟩ ∧
      q.port.unread = tail := by
  let w := MemoryRequest.write addr data stated fits
  have status : w.status m = .checksumFailed := if_pos differs
  have refused : w.status m ≠ .ok := by rw [status]; decide
  have stands : l.port.unread = w.encode ++ tail := stands
  obtain ⟨q, served, view⟩ :=
    exists_effect_serveNext m.base m w (Port.view_of_unread stands) hands
  rw [w.apply_of_refused refused] at served
  rw [w.answer_of_refused refused, status] at view
  obtain ⟨unread, sent, _⟩ := Port.View.mk.inj view
  exact ⟨q, served, sent, unread⟩

end ProgramEnd

/-- A checksum tells bytes from any that differ in one place or in two places side by side, and, as
far as one request moves, from any in which two of them changed places. So a frame with one byte
changed behind its mark is an error wherever it is read; and a write of bytes that changed so under
way, with the checksum that they had, is refused and leaves memory as it was. -/
theorem checksum_catches_changes [Machine] :
    (∀ s t : Bytes, DifferNearby s t → checksum s ≠ checksum t) ∧
    (∀ (s : Bytes) (i : Nat) (b : UInt8), i < s.length → s[i]? ≠ some b →
      checksum (s.set i b) ≠ checksum s) ∧
    (∀ (s t : Bytes) (a b : UInt8), a ≠ b →
      checksum (s ++ a :: b :: t) ≠ checksum (s ++ b :: a :: t)) ∧
    (∀ s t : Bytes, Exchanged s t → s.length ≤ Frame.maxTransfer → checksum s ≠ checksum t) ∧
    (∀ layout ∈ Layout.frames, ∀ fields : List (String × Value), ∀ magic ∈ Frame.magics,
      fields.lookup "magic" = some (.int magic) →
      ∀ w w' : Link, (Link.sendFields layout fields).effect w = (.ok (), w') →
      ∃ frame, w'.port.sent = w.port.sent ++ frame ∧ frame.length = 16 ∧
        ∀ (i : Nat) (b : UInt8), 3 ≤ i → i < 16 → frame[i]? ≠ some b →
        ∀ (l : Link) (noise tail : Bytes), l.port.limit ≠ some 0 → Port.Unmarked noise →
          l.port.unread = noise ++ (frame.set i b ++ tail) →
          ∃ stated computed q,
            Link.receive.effect l = (.error (.frameChecksum stated computed), q) ∧
            q.port.unread = tail) ∧
    ∀ (addr : Word) (data data' : Bytes), data.length ≤ Frame.maxTransfer →
      DifferNearby data data' ∨ Exchanged data data' →
      ∃ header : Bytes,
        (∀ w : Link, ((RemoteMemory.write (Word.toInt addr) data).effect w).2.port.sent =
          w.port.sent ++ (header ++ (data ++ Word.bytes (checksum data)))) ∧
        ∀ (m : Memory) (l : Link) (tail : Bytes), l.port.limit ≠ some 0 →
          l.port.unread = header ++ (data' ++ Word.bytes (checksum data)) ++ tail →
          ∃ q, (ProgramEnd.serveNext (Memory.access m.base)).effect (m, l) = (.ok (), (m, q)) ∧
            q.port.sent = l.port.sent ++
              Frame.encode ⟨Word.ofInt Frame.writeMagic,
                Word.ofInt Frame.Status.checksumFailed.code, 0⟩ ∧
            q.port.unread = tail := by
  refine ⟨fun s t d => d.checksum_ne,
    fun s i b inside changed => (differNearby_set inside changed).checksum_ne,
    fun s t a b unequal => (differNearby_swap unequal).checksum_ne,
    fun s t e fits => e.checksum_ne_of_fits fits, ?_, ?_⟩
  · intro layout member fields magic known named w w' sends
    obtain ⟨body, _, sent, size, begins, _⟩ := Link.exists_frame_of_sendFields member sends
    obtain ⟨_, a, mark⟩ := Frame.exists_bytes_of_mem_magics known
    exact ⟨_, sent, Frame.length_withChecksum size,
      fun i b behind inside changed l noise tail hands unmarked stands =>
        Link.exists_effect_receive_of_set size ((begins magic named).trans mark) behind inside
          changed hands unmarked stands⟩
  · intro addr data data' fits changed
    have length : data.length = data'.length := changed.elim (·.length) (·.length)
    have differs : checksum data ≠ checksum data' :=
      changed.elim (·.checksum_ne) (·.checksum_ne_of_fits fits)
    refine ⟨_, RemoteMemory.sent_write (MemoryRequest.lt_of_fits fits) addr,
      fun m l tail hands stands => ?_⟩
    refine ProgramEnd.exists_effect_serveNext_of_checksum_ne m addr (by omega) differs hands ?_
    rw [stands, MemoryRequest.writeBytes, length]

/-- A request for a signal that came as one to halt, and a write of which two bytes changed places,
up to the last byte of memory. -/
theorem checksum_catches_changes_under_way :
    let fields : List (String × Value) :=
      [("magic", .int Frame.signalMagic), ("sig", .int 2), ("value", .int 0)]
    let frame := Frame.withChecksum [0xff, 0x55, 0xaa, 0x10, 2, 0, 0, 0, 0, 0, 0, 0]
    let l : Link := { port := { unread := frame.set 3 0x11, timeout := none }, traced := false }
    let m : Memory := ⟨0x100, Array.replicate 16 7, ⟨0x100, 16, 1, [⟨1, false⟩], []⟩, false⟩
    let header := Frame.encode ⟨Word.ofInt Frame.writeMagic, 0x10d, 3⟩
    let data : Bytes := [1, 2, 3]
    let asked := header ++ ([3, 2, 1] ++ Word.bytes (checksum data))
    let p : Link := { port := { unread := asked, timeout := none }, traced := false }
    ((Link.sendFields .signalRequest fields).effect l).1 = .ok () ∧ frame[3]? ≠ some 0x11 ∧
      (∃ stated computed q,
        Link.receive.effect l = (.error (.frameChecksum stated computed), q) ∧
          q.port.unread = []) ∧
      Exchanged data [3, 2, 1] ∧
      ∃ q, (ProgramEnd.serveNext (Memory.access m.base)).effect (m, p) = (.ok (), (m, q)) ∧
        q.port.sent = Frame.encode ⟨Word.ofInt Frame.writeMagic,
          Word.ofInt Frame.Status.checksumFailed.code, 0⟩ ∧
        q.port.unread = [] := by
  intro fields frame l m header data asked p
  obtain ⟨_, _, _, _, frames, writes⟩ := checksum_catches_changes
  have sends : (Link.sendFields .signalRequest fields).effect l =
      (.ok (), ((Link.sendFields .signalRequest fields).effect l).2) := rfl
  obtain ⟨sent, went, _, refused⟩ := frames .signalRequest List.mem_cons_self fields
    Frame.signalMagic List.mem_cons_self rfl l _ sends
  obtain rfl : frame = sent := went
  have changed : frame[3]? ≠ some 0x11 := by decide
  have exchanged : Exchanged data [3, 2, 1] := ⟨0, 2, 1, 3, rfl, rfl, by decide, rfl⟩
  obtain ⟨begins, asks, unwritten⟩ := writes 0x10d data [3, 2, 1] (by decide) (.inr exchanged)
  have asks := asks l
  rw [RemoteMemory.sent_write (by decide)] at asks
  have asks : header ++ (data ++ Word.bytes (checksum data)) =
      begins ++ (data ++ Word.bytes (checksum data)) := List.append_cancel_left asks
  obtain rfl := List.append_cancel_right asks
  exact ⟨rfl, changed,
    refused 3 0x11 (by decide) (by decide) changed l [] [] (by decide) Port.unmarked_nil
      (List.append_nil _).symm,
    exchanged, unwritten m p [] (by decide) (List.append_nil _).symm⟩

end Keystream
