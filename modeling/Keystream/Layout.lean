import Keystream.ByteOrder
/-!
Binary layouts: numbers of four bytes, rows of them, and records of named fields. A layout reads a
value off the front of some bytes, and writes a value if every number fits its place.
-/
namespace Keystream

/-- A value to be laid out, as it comes from outside; it need not fit any layout. -/
inductive Value where
  | int (n : Int)
  | list (elements : List Value)
  | record (fields : List (String × Value))
  | text (s : String)
  | nothing
  /-- Anything that is no number, has no elements and has no fields. -/
  | other

namespace Value

def parts? : Value → Option Nat
  | list elements => some elements.length
  | record fields => some fields.length
  | text s => some s.length
  | int _ | nothing | other => none

/-- Only what has no parts, or only characters, can be a name. -/
def isName : Value → Bool
  | list _ | record _ => false
  | int _ | text _ | nothing | other => true

def checkPair (value : Value) : Except Error Unit := do
  match value.parts? with
  | none => throw .wrongShape
  | some count =>
    if count < 2 then throw (.tooFewParts count)
    if 2 < count then throw .tooManyParts
    match value with
    | list (first :: _) => if !first.isName then throw .wrongShape
    | _ => return

/-- The fields of a record. Anything else is taken apart into pairs as far as that goes, but cannot
be asked for a field. -/
def fields : Value → Except Error (List (String × Value))
  | record given => return given
  | nothing => return []
  | list elements => do
    elements.forM checkPair
    throw .wrongShape
  | text s => if s.isEmpty then throw .wrongShape else throw (.tooFewParts 1)
  | int _ | other => throw .wrongShape

end Value

inductive Number where
  | unsigned (order : ByteOrder)
  | signed
  deriving DecidableEq, Repr

inductive Shape where
  | one (number : Number)
  | row (count : Nat) (number : Number)
  deriving DecidableEq, Repr

inductive Layout where
  | plain (shape : Shape)
  | record (fields : List (String × Shape))
  deriving DecidableEq, Repr

namespace Number

def fits (number : Number) (n : Int) : Bool :=
  match number with
  | unsigned _ => 0 ≤ n && n < 0x100000000
  | signed => -0x80000000 ≤ n && n < 0x80000000

def word (number : Number) (n : Int) : Except Error Word :=
  if number.fits n then return Word.ofInt n else throw .fieldRange

def order : Number → ByteOrder
  | unsigned order => order
  | signed => .little

def write (number : Number) (n : Int) : Except Error Bytes := do
  return number.order.bytes (← number.word n)

def read (number : Number) : Bytes → Except Error (Int × Bytes)
  | a :: b :: c :: d :: rest =>
    match number with
    | unsigned order => return (Word.toInt (order.ofBytes a b c d), rest)
    | signed => return (Word.signed (Word.ofBytes a b c d), rest)
  | _ => throw .shortInput

def writeValue (number : Number) : Value → Except Error Bytes
  | .int n => number.write n
  | _ => throw .fieldRange

def readMany (number : Number) : Nat → Bytes → Except Error (List Int × Bytes)
  | 0, s => return ([], s)
  | count + 1, s => do
    let (n, s) ← number.read s
    let (ns, s) ← number.readMany count s
    return (n :: ns, s)

end Number

namespace Shape

def size : Shape → Nat
  | one _ => 4
  | row count _ => 4 * count

/-- The length of a row is looked at before its elements. -/
def write (shape : Shape) (value : Value) : Except Error Bytes :=
  match shape with
  | one number => number.writeValue value
  | row count number =>
    match value with
    | .list elements =>
      if elements.length = count then return (← elements.mapM number.writeValue).flatten
      else throw .arrayLength
    | .record fields => if fields.length = count then throw .fieldRange else throw .arrayLength
    | .text s => if s.length = count then throw .fieldRange else throw .arrayLength
    | _ => throw .wrongShape

def read (shape : Shape) (s : Bytes) : Except Error (Value × Bytes) :=
  match shape with
  | one number => do
    let (n, s) ← number.read s
    return (.int n, s)
  | row count number => do
    let (ns, s) ← number.readMany count s
    return (.list (ns.map .int), s)

end Shape

namespace Layout

def fieldsSize : List (String × Shape) → Nat
  | [] => 0
  | (_, shape) :: rest => shape.size + fieldsSize rest

def size : Layout → Nat
  | plain shape => shape.size
  | record fields => fieldsSize fields

def writeFields (given : List (String × Value)) : List (String × Shape) → Except Error Bytes
  | [] => return []
  | (name, shape) :: rest =>
    match given.lookup name with
    | none => throw (.missingField name)
    | some value => return (← shape.write value) ++ (← writeFields given rest)

def write (layout : Layout) (value : Value) : Except Error Bytes :=
  match layout with
  | plain shape => shape.write value
  | record fields => do writeFields (← value.fields) fields

def readFields : List (String × Shape) → Bytes → Except Error (List (String × Value))
  | [], _ => return []
  | (name, shape) :: rest, s => do
    let (value, s) ← shape.read s
    return (name, value) :: (← readFields rest s)

/-- Bytes behind the value are let be. -/
def read (layout : Layout) (s : Bytes) : Except Error Value :=
  match layout with
  | plain shape => return (← shape.read s).1
  | record fields => return .record (← readFields fields s)

def word : Shape := .one (.unsigned .little)

def key : Layout := .plain (.row 8 (.unsigned .little))

def nonce : Layout := .plain (.row 3 (.unsigned .little))

def words (order : ByteOrder) : Layout := .plain (.row 16 (.unsigned order))

def state : Layout := .record [
  ("constants", .row 4 (.unsigned .little)), ("key", .row 8 (.unsigned .little)),
  ("counter", word), ("nonce", .row 3 (.unsigned .little))]

def signalRequest : Layout :=
  .record [("magic", word), ("sig", word), ("value", word), ("checksum", word)]

def memoryRequest : Layout :=
  .record [("magic", word), ("addr", word), ("size", word), ("checksum", word)]

def reply : Layout :=
  .record [("magic", word), ("status", .one .signed), ("response", word), ("checksum", word)]

end Layout

end Keystream
