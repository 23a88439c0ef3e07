import Keystream.Decimal.Text
import Keystream.Word
/-!
A serial port: the bytes that wait to be read, the bytes that were sent, and the timeout set at each
read. A read never waits, and takes no more than the port hands over at once.
-/
namespace Keystream

/-- Lengths of time, whole or not. -/
inductive Seconds where
  | whole (n : Int)
  | real (x : Float)

namespace Seconds

def toFloat : Seconds → Float
  | whole n => .ofInt n
  | real x => x

instance : BEq Seconds where
  beq a b := a.toFloat == b.toFloat

def text : Seconds → String
  | whole n => toString n
  | real x => Decimal.write x

end Seconds

structure Port where
  unread : Bytes
  sent : Bytes := []
  /-- How many bytes the port hands over at once, any number if not given. -/
  limit : Option Nat := none
  /-- How many each of the next reads hands over instead, at least one. -/
  pieces : List Nat := []
  /-- How long a read may wait, for ever if not given. -/
  timeout : Option Seconds
  /-- The timeouts that reads found, each once for as long as it stood. -/
  noted : List (Option Seconds) := []

namespace Port

def noteTimeout (p : Port) : Port :=
  if p.noted.getLast? == some p.timeout then p else { p with noted := p.noted ++ [p.timeout] }

def ready (p : Port) (size : Nat) : Nat :=
  match p.pieces with
  | [] => min size (p.limit.getD size)
  | piece :: _ => min size (max piece 1)

def read (p : Port) (size : Nat) : Bytes × Port :=
  let count := p.ready size
  (p.unread.take count,
    { p.noteTimeout with unread := p.unread.drop count, pieces := p.pieces.tail })

def write (p : Port) (s : Bytes) : Port := { p with sent := p.sent ++ s }

theorem ready_le (p : Port) (size : Nat) : p.ready size ≤ size := by
  unfold ready
  split <;> exact Nat.min_le_left ..

theorem length_read_le (p : Port) (size : Nat) : (p.read size).1.length ≤ size := by
  have := p.ready_le size
  simp only [read, List.length_take]
  omega

theorem read_append (p : Port) (size : Nat) :
    (p.read size).1 ++ (p.read size).2.unread = p.unread :=
  List.take_append_drop ..

/-- Reads until `size` bytes are there or a read gives none. -/
def collect (p : Port) (size : Nat) : Bytes × Port :=
  if size = 0 then ([], p)
  else
    match p.read size with
    | ([], rest) => ([], rest)
    | (b :: s, rest) =>
      let more := collect rest (size - (s.length + 1))
      (b :: s ++ more.1, more.2)
termination_by size

theorem collect_append (p : Port) (size : Nat) :
    (p.collect size).1 ++ (p.collect size).2.unread = p.unread := by
  fun_induction collect p size with
  | case1 => rfl
  | case2 p size _ rest none => rw [← p.read_append size, none]
  | case3 p size _ b s rest got more ih =>
    rw [← p.read_append size, got, List.append_assoc, ih]

/-- How much of the mark that begins a frame the last bytes spell. -/
inductive Seen where
  | nothing
  | first
  | second
  | mark
  deriving DecidableEq, Repr

/-- What a byte makes of the ones before it: bytes that are no frame, of which the last may yet
begin one, or the four bytes of a frame's beginning. -/
inductive Sight where
  | noise (s : Bytes) (seen : Seen)
  | header (s : Bytes)
  deriving DecidableEq, Repr

namespace Seen

def afterNoise (b : UInt8) : Seen := if b = 0xff then first else nothing

def next (seen : Seen) (b : UInt8) : Sight :=
  match seen with
  | nothing => if b = 0xff then .noise [] first else .noise [b] nothing
  | first => if b = 0x55 then .noise [] second else .noise [0xff, b] (afterNoise b)
  | second => if b = 0xaa then .noise [] mark else .noise [0xff, 0x55, b] (afterNoise b)
  | mark => .header [0xff, 0x55, 0xaa, b]

end Seen

structure Hunt where
  /-- Bytes of no frame. A byte that ends a stretch of them and begins a mark is among them too. -/
  noise : Bytes
  /-- The beginning of the frame, if the bytes did not run out before. -/
  header : Option Bytes
  port : Port

/-- Reads one byte at a time up to the beginning of a frame. -/
def hunt (p : Port) (seen : Seen) : Hunt :=
  match _h : p.collect 1 with
  | ([], rest) => ⟨[], none, rest⟩
  | (b :: _, rest) =>
    match seen.next b with
    | .header s => ⟨[], some s, rest⟩
    | .noise s seen =>
      let found := hunt rest seen
      { found with noise := s ++ found.noise }
termination_by p.unread.length
decreasing_by
  have whole := p.collect_append 1
  rw [_h] at whole
  rw [← whole]
  simp only [List.cons_append, List.length_cons, List.length_append]
  omega

end Port

end Keystream
