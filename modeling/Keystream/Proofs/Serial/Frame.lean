import Keystream.Proofs.Layout
import Keystream.Serial.Frame
/-!
Frames as they are sent and as they are taken apart again.
-/
namespace Keystream

theorem length_le_flatMap {α : Type} {spell : α → Bytes} (some : ∀ x, spell x ≠ [])
    (parts : List α) : parts.length ≤ (parts.flatMap spell).length := by
  induction parts with
  | nil => exact Nat.zero_le _
  | cons part rest ih =>
    have := List.length_pos_iff.2 (some part)
    rw [List.flatMap_cons, List.length_append, List.length_cons]
    omega

namespace Word

theorem unsigned_word (order : ByteOrder) (w : Word) :
    (Number.unsigned order).word (toInt w) = .ok w := by
  rw [Number.word, if_pos (fits_toInt order w), ofInt_toInt]
  rfl

theorem eq_ofInt_of_toInt {w : Word} {v : Int} (same : toInt w = v) : w = ofInt v := by
  rw [← same, ofInt_toInt]

theorem bytes_inj {v w : Word} (same : bytes v = bytes w) : v = w := by
  have spelled := congrArg unpack same
  rw [ofBytes_bytes, ofBytes_bytes] at spelled
  exact (List.cons.inj spelled).1

end Word

namespace Frame

def Marked (f : Frame) : Prop := ∃ b, Word.bytes f.magic = [0xff, 0x55, 0xaa, b]

theorem bytes_signalMagic : Word.bytes (Word.ofInt signalMagic) = [0xff, 0x55, 0xaa, 0x10] := by
  decide

theorem bytes_readMagic : Word.bytes (Word.ofInt readMagic) = [0xff, 0x55, 0xaa, 0x12] := by decide

theorem bytes_writeMagic : Word.bytes (Word.ofInt writeMagic) = [0xff, 0x55, 0xaa, 0x13] := by
  decide

theorem bytes_haltMagic : Word.bytes (Word.ofInt haltMagic) = [0xff, 0x55, 0xaa, 0x11] := by decide

theorem signalMagic_ne_haltMagic : Word.ofInt signalMagic ≠ Word.ofInt haltMagic := by decide

theorem toInt_haltMagic : Word.toInt (Word.ofInt haltMagic) = haltMagic := by decide

theorem toInt_signalMagic : Word.toInt (Word.ofInt signalMagic) = signalMagic := by decide

theorem toInt_readMagic : Word.toInt (Word.ofInt readMagic) = readMagic := by decide

theorem toInt_writeMagic : Word.toInt (Word.ofInt writeMagic) = writeMagic := by decide

theorem encode_eq_pack (f : Frame) :
    f.encode = Word.pack [f.magic, f.first, f.second, checksum f.body] := by
  simp [encode, withChecksum, body, Word.pack]

theorem encode_ne_nil (f : Frame) : f.encode ≠ [] :=
  List.ne_nil_of_length_pos (by rw [length_encode]; decide)

theorem take_encode (f : Frame) : f.encode.take 12 = f.body := by
  show (f.body ++ Word.bytes (checksum f.body)).take f.body.length = f.body
  exact List.take_left

theorem statedChecksum_encode (f : Frame) : statedChecksum f.encode = checksum f.body := by
  rw [statedChecksum, encode_eq_pack, Word.unpack_pack]
  rfl

theorem magicOf_encode (f : Frame) : magicOf f.encode = Word.toInt f.magic := by
  rw [magicOf, encode_eq_pack, Word.unpack_pack]
  rfl

theorem encode_of_marked {f : Frame} {b : UInt8}
    (marked : Word.bytes f.magic = [0xff, 0x55, 0xaa, b]) :
    f.encode = [0xff, 0x55, 0xaa, b] ++ Word.pack [f.first, f.second, checksum f.body] := by
  rw [encode_eq_pack, ← marked]
  rfl

theorem request_of_words (magic first second : Word) :
    request (Word.toInt magic) (Word.toInt first) (Word.toInt second) =
      .ok ⟨magic, first, second⟩ := by
  simp only [request, unsigned, Word.unsigned_word]
  rfl

theorem reply_of_status (magic : Word) (status : Status) (response : Int) :
    reply (Word.toInt magic) status.code response =
      .ok ⟨magic, Word.ofInt status.code, Word.ofInt response⟩ := by
  simp only [reply, unsigned, Word.unsigned_word]
  cases status <;> rfl

theorem response_encode (magic status response : Word) :
    Frame.response (Word.toInt magic) (Word.toInt magic) (encode ⟨magic, status, response⟩) =
      if status = 0 then .ok (Word.toInt response) else .error (.remote (Word.signed status)) := by
  have zero : Word.signed status = Status.ok.code ↔ status = 0 := by
    constructor
    · intro same
      rw [← Word.ofInt_signed status, same]
      rfl
    · rintro rfl
      decide
  have expected : ¬Word.toInt magic ≠ Word.toInt magic := not_not_intro rfl
  rw [Frame.response, if_neg expected]
  refine (bind_of_ok (decode_encode _) _).trans ?_
  by_cases ok : status = 0
  · rw [if_pos ok]
    exact if_neg (not_not_intro (zero.2 ok))
  · rw [if_neg ok]
    exact if_pos fun same => ok (zero.1 same)

theorem response_of_ok (magic response : Word) :
    Frame.response (Word.toInt magic) (magicOf (encode ⟨magic, 0, response⟩))
      (encode ⟨magic, 0, response⟩) = .ok (Word.toInt response) := by
  rw [magicOf_encode]
  exact (response_encode magic 0 response).trans (if_pos rfl)

namespace Status

theorem ofInt_code_eq_zero_iff (s : Status) : Word.ofInt s.code = 0 ↔ s = ok := by
  cases s <;> decide

theorem signed_code (s : Status) : Word.signed (Word.ofInt s.code) = s.code := by
  cases s <;> decide

end Status

end Frame

end Keystream
