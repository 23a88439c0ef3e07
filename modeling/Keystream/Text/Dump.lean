import Keystream.Text.Hex
import Keystream.Text.Written
/-!
Dumps of bytes: one line for each row with its offset, its hex columns and its characters. In a
short dump a row that repeats the one before it is left out, and a star marks where such a stretch
begins.
-/
namespace Keystream.Dump

structure Style where
  /-- Whether repeated rows are left out. -/
  short : Bool := true
  stride : Nat := 16
  indent : String := ""

def character (b : UInt8) : Char :=
  if 0x20 ≤ b.toNat ∧ b.toNat ≤ 0x7e then Char.ofNat b.toNat else '.'

/-- Groups of eight bytes, each filled to the width of a whole group. -/
def columns (stride : Nat) (row : Bytes) : List Char :=
  [' ', ' '].intercalate <| (List.range ((stride + 7) / 8)).map fun group =>
    Text.padRight 23 (Hex.encodeChars ((row.drop (8 * group)).take 8) [' '])

def rowLine (style : Style) (offset : Int) (row : Bytes) : String :=
  style.indent ++ Text.hexFilled 8 offset ++ "  " ++ String.ofList (columns style.stride row) ++
    "  |" ++ String.ofList (Text.padRight style.stride (row.map character)) ++ "|"

def starLine (style : Style) (offset : Int) : String :=
  style.indent ++ Text.hexFilled 8 offset ++ "  *"

/-- The lines of `rows`, which follow the row `previous`; `starred` if a star stands for that one.
-/
def rowLines (style : Style) (offset : Int) (previous : Option Bytes) (starred : Bool) :
    List Bytes → List String
  | [] => []
  | row :: rest =>
    let next := offset + style.stride
    if style.short && previous == some row then
      (if starred then [] else [starLine style offset]) ++ rowLines style next previous true rest
    else
      rowLine style offset row :: rowLines style next (some row) false rest

def lines (style : Style) (start : Int) (s : Bytes) : List String :=
  rowLines style start none false (segments style.stride s)

def plain (start : Int) (s : Bytes) : List String := lines {} start s

/-- A stride below zero makes no rows, and one of zero would never end. -/
def lines? (short : Bool) (stride : Int) (indent : String) (start : Int) (s : Bytes) :
    Except Error (List String) :=
  if stride = 0 then throw .zeroStride
  else return lines ⟨short, stride.toNat, indent⟩ start s

end Keystream.Dump
