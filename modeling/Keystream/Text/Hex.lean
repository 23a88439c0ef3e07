import Keystream.Error
import Keystream.Segments
import Keystream.Text.Character
import Keystream.Word
/-!
Bytes written as pairs of hex digits, and words as groups of eight. Reading lets blanks stand
anywhere, even between the digits of a pair, and takes digits of either case.
-/
namespace Keystream.Hex

def byteDigits (b : UInt8) : List Char :=
  [Nat.digitChar (b.toNat / 16), Nat.digitChar (b.toNat % 16)]

def wordDigits (w : Word) : List Char :=
  (Word.bytes w).reverse.flatMap byteDigits

def encodeChars (s : Bytes) (sep : List Char) : List Char :=
  sep.intercalate (s.map byteDigits)

def encode (s : Bytes) (sep : String) : String := String.ofList (encodeChars s sep.toList)

/-- The words of `s`, least significant byte first, whole words only. -/
def encodeWords (s : Bytes) (sep : String) : Except Error String :=
  if s.length % 4 = 0 then
    return String.ofList (sep.toList.intercalate ((Word.unpack s).map wordDigits))
  else throw .unevenWords

def digit? (c : Char) : Option Nat :=
  if '0' ≤ c ∧ c ≤ '9' then some (c.toNat - 0x30)
  else if 'a' ≤ c ∧ c ≤ 'f' then some (c.toNat - 0x61 + 10)
  else if 'A' ≤ c ∧ c ≤ 'F' then some (c.toNat - 0x41 + 10)
  else none

def decodePairs : List Char → Option Bytes
  | [] => some []
  | [_] => none
  | a :: b :: rest => do
    let high ← digit? a
    let low ← digit? b
    let bytes ← decodePairs rest
    return .ofNat (16 * high + low) :: bytes

/-- Where a text that is no row of pairs goes wrong: at its first character beyond ASCII, else at
the first that is no digit, else at its end, where half a pair is missing. -/
def faultPosition (s : List Char) : Nat :=
  let beyond := s.findIdx fun c => 0x80 ≤ c.toNat
  if beyond < s.length then beyond else s.findIdx fun c => (digit? c).isNone

def strip (s : String) : List Char := s.toList.filter fun c => !Text.isBlank c

def decode (s : String) : Except Error Bytes :=
  let digits := strip s
  match decodePairs digits with
  | some bytes => return bytes
  | none => throw (.notHex (faultPosition digits))

theorem digit?_digitChar : ∀ d : Fin 16, digit? (Nat.digitChar d) = some d.val := by decide

theorem decodePairs_append (b : UInt8) (rest : List Char) :
    decodePairs (byteDigits b ++ rest) = (decodePairs rest).map (b :: ·) := by
  have := b.toNat_lt
  have high := digit?_digitChar ⟨b.toNat / 16, by omega⟩
  have low := digit?_digitChar ⟨b.toNat % 16, by omega⟩
  have whole : UInt8.ofNat (16 * (b.toNat / 16) + b.toNat % 16) = b := by
    rw [Nat.div_add_mod]; simp
  simp only at high low
  simp only [byteDigits, List.cons_append, List.nil_append, decodePairs, high, low,
    Option.bind_eq_bind, Option.bind_some, whole]
  cases decodePairs rest <;> rfl

theorem encodeChars_nil (s : Bytes) : encodeChars s [] = s.flatMap byteDigits := by
  induction s with
  | nil => rfl
  | cons b s ih =>
    cases s with
    | nil => simp [encodeChars]
    | cons c s =>
      simp only [encodeChars, List.map_cons, List.intercalate_cons_cons, List.append_nil] at ih ⊢
      simp only [ih, List.flatMap_cons]

theorem decodePairs_encodeChars (s : Bytes) : decodePairs (encodeChars s []) = some s := by
  rw [encodeChars_nil]
  induction s with
  | nil => rfl
  | cons b s ih => rw [List.flatMap_cons, decodePairs_append, ih]; rfl

end Keystream.Hex
