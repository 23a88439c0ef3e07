import Keystream.Error
import Keystream.Word
/-!
The order in which the four bytes of a word are written.
-/
namespace Keystream

inductive ByteOrder where
  | little
  | big
  deriving DecidableEq, Repr

namespace ByteOrder

/-- The names an order is asked for by; machines that run this keep the least byte first. -/
def named : List (String × ByteOrder) := [("big", big), ("little", little), ("native", little)]

def names : List String := named.map Prod.fst

def ofName (name : String) : Except Error ByteOrder :=
  match named.lookup name with
  | some order => return order
  | none => throw (.unknownByteOrder name)

def bytes (order : ByteOrder) (w : Word) : Bytes :=
  match order with
  | little => Word.bytes w
  | big => (Word.bytes w).reverse

def ofBytes (order : ByteOrder) (a b c d : UInt8) : Word :=
  match order with
  | little => Word.ofBytes a b c d
  | big => Word.ofBytes d c b a

@[simp] theorem length_bytes (order : ByteOrder) (w : Word) : (order.bytes w).length = 4 := by
  cases order <;> rfl

end ByteOrder

end Keystream
