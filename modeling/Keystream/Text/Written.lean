import Keystream.Text.Character
/-!
Integers and texts as messages have them. Integers stand in base sixteen, filled to a width in which
a sign counts; a text is quoted on one line, and whatever does not print is written by its number.
-/
namespace Keystream.Text

def hexDigits (v : Int) : List Char := Nat.toDigits 16 v.natAbs

def zeroFilled (width : Nat) (v : Int) (digits : List Char) : String :=
  let sign := if v < 0 then ['-'] else []
  String.ofList (sign ++ List.replicate (width - sign.length - digits.length) '0' ++ digits)

def hexFilled (width : Nat) (v : Int) : String := zeroFilled width v (hexDigits v)

def upperHexFilled (width : Nat) (v : Int) : String :=
  zeroFilled width v ((hexDigits v).map Char.toUpper)

def markedHex (v : Int) : String :=
  String.ofList ((if v < 0 then ['-'] else []) ++ ['0', 'x'] ++ hexDigits v)

def padLeft (width : Nat) (s : String) : String :=
  String.ofList (List.replicate (width - s.length) ' ') ++ s

def padRight (width : Nat) (s : List Char) : List Char :=
  s ++ List.replicate (width - s.length) ' '

def apostrophe : Char := '\x27'
def quotationMark : Char := '\x22'
def backslash : Char := '\x5c'

/-- A number as the escape of the least width that holds it. -/
def numericEscape (n : Nat) : List Char :=
  if n < 0x100 then [backslash, 'x'] ++ (hexFilled 2 n).toList
  else if n < 0x10000 then [backslash, 'u'] ++ (hexFilled 4 n).toList
  else [backslash, 'U'] ++ (hexFilled 8 n).toList

def escape (quote c : Char) : List Char :=
  if c = quote ∨ c = backslash then [backslash, c]
  else if c = '\n' then [backslash, 'n']
  else if c = '\r' then [backslash, 'r']
  else if c = '\t' then [backslash, 't']
  else if isPrintable c then [c]
  else numericEscape c.toNat

/-- Apostrophes go round the text, unless it holds one and no quotation mark. -/
def quoteFor (s : List Char) : Char :=
  if s.contains apostrophe && !s.contains quotationMark then quotationMark else apostrophe

def quoted (s : String) : String :=
  let quote := quoteFor s.toList
  String.ofList ([quote] ++ s.toList.flatMap (escape quote) ++ [quote])

end Keystream.Text
