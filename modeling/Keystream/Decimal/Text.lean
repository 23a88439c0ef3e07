import Keystream.Decimal.Shortest
import Keystream.Text.Character
/-!
Binary floating point numbers as text: written with the fewest digits that read back, read in every
form that people write them in.
-/
namespace Keystream.Decimal

open Text

def Binary.ofBits (bits : UInt64) : Binary :=
  let fraction : Nat := bits.toNat % 0x10000000000000
  let exponent : Nat := bits.toNat / 0x10000000000000 % 0x800
  if exponent = 0 then ⟨fraction, -1074, false⟩
  else ⟨0x10000000000000 + fraction, (exponent : Int) - 1075, fraction == 0 && exponent != 1⟩

def Scientific.normal (s : Scientific) : List Char × Int :=
  let all := Nat.toDigits 10 s.digits
  ((all.reverse.dropWhile (· == '0')).reverse, s.exponent + all.length - 1)

/-- Positional from `10^-4` up to below `10^16`, with an exponent of two digits or more outside. -/
def layOut (digits : List Char) (leading : Int) : List Char :=
  if -4 ≤ leading ∧ leading < 16 then
    if leading < 0 then
      ['0', '.'] ++ List.replicate (-leading - 1).toNat '0' ++ digits
    else
      let places := leading.toNat + 1
      let whole := digits.take places ++ List.replicate (places - digits.length) '0'
      let fraction := digits.drop places
      whole ++ ['.'] ++ (if fraction.isEmpty then ['0'] else fraction)
  else
    let power := Nat.toDigits 10 leading.natAbs
    digits.take 1 ++ (if digits.length > 1 then '.' :: digits.drop 1 else []) ++
      ['e', if leading < 0 then '-' else '+'] ++ List.replicate (2 - power.length) '0' ++ power

def write (x : Float) : String :=
  let bits := x.toBits
  if x.isNaN then "nan"
  else
    let magnitude :=
      if x.isInf then "inf".toList
      else if bits.toNat % 0x8000000000000000 = 0 then "0.0".toList
      else
        let (digits, leading) := (Binary.ofBits bits).shortest.normal
        layOut digits leading
    String.ofList ((if bits.toNat < 0x8000000000000000 then [] else ['-']) ++ magnitude)

def joinDigits (afterDigit : Bool) : List Char → Option (List Char)
  | [] => some []
  | '_' :: c :: rest =>
    if afterDigit && (digitValue? c).isSome then (joinDigits true rest).map (c :: ·) else none
  | c :: rest =>
    if c = '_' then none else (joinDigits (digitValue? c).isSome rest).map (c :: ·)

def digitsValue (s : List Char) : Nat :=
  s.foldl (fun n c => 10 * n + (digitValue? c).getD 0) 0

def exponent? : List Char → Option Int
  | [] => some 0
  | e :: rest =>
    if e = 'e' ∨ e = 'E' then
      let magnitude (s : List Char) : Option Nat :=
        if s.isEmpty || s.any fun c => (digitValue? c).isNone then none else some (digitsValue s)
      match rest with
      | '-' :: s => (magnitude s).map fun n => -(n : Int)
      | '+' :: s => (magnitude s).map Int.ofNat
      | s => (magnitude s).map Int.ofNat
    else none

/-- The number nearest to `m * 10^e`. Powers that leave the range of the format are cut short. -/
def nearest (m : Nat) (e : Int) : Float :=
  let size := e + (Nat.toDigits 10 m).length
  if m = 0 || size < -400 then 0
  else if size > 400 then 1 / 0
  else .ofScientific m (e < 0) e.natAbs

def readMagnitude (s : List Char) : Option Float :=
  let isDigit (c : Char) : Bool := (digitValue? c).isSome
  let lower := s.map Char.toLower
  if lower = "inf".toList ∨ lower = "infinity".toList then some (1 / 0)
  else if lower = "nan".toList then some (0 / 0)
  else
    let whole := s.takeWhile isDigit
    let rest := s.dropWhile isDigit
    let (fraction, rest) := match rest with
      | '.' :: after => (after.takeWhile isDigit, after.dropWhile isDigit)
      | _ => ([], rest)
    if whole.isEmpty && fraction.isEmpty then none
    else (exponent? rest).map fun e =>
      nearest (digitsValue (whole ++ fraction)) (e - fraction.length)

def read? (s : String) : Option Float := do
  match ← joinDigits false (trimMargins s.toList) with
  | '-' :: rest => (readMagnitude rest).map (-·)
  | '+' :: rest => readMagnitude rest
  | rest => readMagnitude rest

end Keystream.Decimal
