import Keystream.Layout
/-!
Frames: sixteen bytes that spell a magic number, two words and a checksum. Every magic number begins
with the same three bytes on the line, so that a reader finds the next frame behind any noise.
-/
namespace Keystream

def checksumStep (sum : Word) (b : UInt8) : Word := sum * 31337 + (b ^^^ 0x5a).toUInt32

def checksum (s : Bytes) : Word := s.foldl checksumStep 0xDEADBEEF ^^^ 0xADDEDBAD

structure Frame where
  magic : Word
  first : Word
  second : Word
  deriving DecidableEq, Repr

namespace Frame

def signalMagic : Int := 0x10AA55FF
def haltMagic : Int := 0x11AA55FF
def readMagic : Int := 0x12AA55FF
def writeMagic : Int := 0x13AA55FF

/-- No more than this is moved by one memory request. -/
def maxTransfer : Int := 0x10000

inductive Status where
  | ok
  | badSignal
  | invalid
  | hostFailure
  | checksumFailed
  deriving DecidableEq, Repr

def Status.code : Status → Int
  | ok => 0
  | badSignal => -1
  | invalid => -2
  | hostFailure => -3
  | checksumFailed => -4

def unsigned : Number := .unsigned .little

def request (magic first second : Int) : Except Error Frame := do
  return ⟨← unsigned.word magic, ← unsigned.word first, ← unsigned.word second⟩

/-- A reply; the response is cut to a word. -/
def reply (magic status response : Int) : Except Error Frame := do
  return ⟨← unsigned.word magic, ← Number.signed.word status, Word.ofInt response⟩

def body (f : Frame) : Bytes := Word.pack [f.magic, f.first, f.second]

def withChecksum (body : Bytes) : Bytes := body ++ Word.bytes (checksum body)

def encode (f : Frame) : Bytes := withChecksum f.body

/-- Reads a frame off the front of some bytes, whatever its checksum. -/
def decode (s : Bytes) : Except Error Frame :=
  match Word.unpack s with
  | magic :: first :: second :: _ :: _ => return ⟨magic, first, second⟩
  | _ => throw .shortInput

def magicOf (s : Bytes) : Int := ((Word.unpack s).head?.map Word.toInt).getD 0

def statedChecksum (s : Bytes) : Word := (Word.unpack s)[3]?.getD 0

def response (expected magic : Int) (s : Bytes) : Except Error Int := do
  if magic ≠ expected then throw (.wrongCommand expected magic)
  let f ← decode s
  let status := Word.signed f.first
  if status ≠ Status.ok.code then throw (.remote status)
  return Word.toInt f.second

@[simp] theorem length_encode (f : Frame) : f.encode.length = 16 := by
  simp [encode, withChecksum, body]

theorem decode_encode (f : Frame) : decode f.encode = .ok f := by
  have : f.encode = Word.pack [f.magic, f.first, f.second, checksum f.body] := by
    simp [encode, withChecksum, body, Word.pack]
  rw [decode, this, Word.unpack_pack]
  rfl

end Frame

end Keystream
