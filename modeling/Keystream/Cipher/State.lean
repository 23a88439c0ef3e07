import Keystream.Error
import Keystream.Segments
import Keystream.Text.Hex
import Keystream.Word
/-!
The input block of ChaCha20: sixteen words, of which the first four are constant, then come eight of
the key, the block counter, and three of the nonce. Only the counter moves once a state is made.
-/
namespace Keystream

structure State where
  words : Vector Word 16
  deriving DecidableEq

namespace State

def sigma : List Word := [0x61707865, 0x3320646e, 0x79622d32, 0x6b206574]

def ofWords (ws : List Int) : Except Error State :=
  if h : ws.length = 16 then
    match ws.find? fun w => !(0 ≤ w && w < 0x100000000) with
    | some w => throw (.stateWord w)
    | none => return ⟨⟨(ws.map Word.ofInt).toArray, by simp [h]⟩⟩
  else throw (.stateLength ws.length)

/-- The state of a key, a nonce and a counter, which wraps. -/
def make (key : Vector UInt8 32) (nonce : Vector UInt8 12) (counter : Int) : State :=
  let words := sigma ++ Word.unpack key.toList ++ [Word.ofInt counter] ++ Word.unpack nonce.toList
  ⟨⟨words.toArray, by simp [words, sigma, Word.length_unpack]⟩⟩

def checkedKey (key : Bytes) : Except Error (Vector UInt8 32) :=
  if h : key.length = 32 then return ⟨key.toArray, by simp [h]⟩ else throw (.keyLength key.length)

def checkedNonce (nonce : Bytes) : Except Error (Vector UInt8 12) :=
  if h : nonce.length = 12 then return ⟨nonce.toArray, by simp [h]⟩
  else throw (.nonceLength nonce.length)

def ofKeyNonce (key nonce : Bytes) (counter : Int) : Except Error State := do
  let key ← checkedKey key
  let nonce ← checkedNonce nonce
  return make key nonce counter

def parse (s : Bytes) : Except Error State :=
  if h : 64 ≤ s.length then
    return ⟨⟨(Word.unpack (s.take 64)).toArray, by simp [Word.length_unpack]; omega⟩⟩
  else throw .shortInput

def build (s : State) : Bytes := Word.pack s.words.toList

def counter (s : State) : Word := s.words[12]

def setCounter (s : State) (v : Int) : State := ⟨s.words.set 12 (Word.ofInt v)⟩

def advance (s : State) (count : Int) : State := s.setCounter (Word.toInt s.counter + count)

def constants (s : State) : List Word := s.words.toList.take 4

def keyWords (s : State) : List Word := (s.words.toList.drop 4).take 8

def nonceWords (s : State) : List Word := s.words.toList.drop 13

def integers (s : State) : List Int := s.words.toList.map Word.toInt

def wordAt (s : State) (i : Int) : Except Error Word :=
  match (place? 16 i).bind (s.words[·]?) with
  | some w => return w
  | none => throw (if isNumbered i then .noSuchIndex else .indexTooLarge)

def describe (s : State) : String :=
  "CipherState(" ++ String.ofList ([' '].intercalate (s.words.toList.map Hex.wordDigits)) ++ ")"

@[simp] theorem length_build (s : State) : s.build.length = 64 := by
  simp [build]

theorem parse_build (s : State) : parse s.build = .ok s := by
  have whole : s.build.take 64 = s.build := List.take_of_length_le (by simp)
  simp only [parse, length_build, Nat.le_refl, dite_true, whole]
  simp only [build, Word.unpack_pack]
  rfl

end State

end Keystream
