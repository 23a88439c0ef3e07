import Keystream.Machine
/-!
Integers as people type them: blanks round them, a sign, digits of any script, and single
underscores between digits. A marked numeral may name its base, as `0x1f`, `0o17` and `0b11` do.
-/
namespace Keystream.Numeral

open Text

inductive Flaw where
  | malformed
  | tooLong (digits : Nat)
  deriving DecidableEq, Repr

def digit? (base : Nat) (c : Char) : Option Nat :=
  let value :=
    if 'a' ≤ c ∧ c ≤ 'z' then some (c.toNat - 0x61 + 10)
    else if 'A' ≤ c ∧ c ≤ 'Z' then some (c.toNat - 0x41 + 10)
    else digitValue? c
  value.filter (· < base)

def digitsAfter (base value : Nat) : List Char → Option Nat
  | [] => some value
  | '_' :: c :: rest => do digitsAfter base (value * base + (← digit? base c)) rest
  | c :: rest => do digitsAfter base (value * base + (← digit? base c)) rest

def digits (base : Nat) : List Char → Option Nat
  | [] => none
  | c :: rest => do digitsAfter base (← digit? base c) rest

variable [Machine]

/-- A numeral that is too long is refused before what stands behind its digits is looked at. -/
def decimal (s : List Char) : Except Flaw Nat := do
  let front := s.takeWhile fun c => c == '_' || (digit? 10 c).isSome
  let some n := digits 10 front | throw .malformed
  let count := (front.filter (· != '_')).length
  if Machine.digits ≠ 0 ∧ Machine.digits < count then throw (.tooLong count)
  if front.length < s.length then throw .malformed
  return n

def signed (magnitude : List Char → Except Flaw Nat) : List Char → Except Flaw Int
  | '-' :: rest => (magnitude rest).map fun n : Nat => -(n : Int)
  | '+' :: rest => (magnitude rest).map Int.ofNat
  | s => (magnitude s).map Int.ofNat

def baseMark? (c : Char) : Option Nat :=
  if c = 'x' ∨ c = 'X' then some 16
  else if c = 'o' ∨ c = 'O' then some 8
  else if c = 'b' ∨ c = 'B' then some 2
  else none

/-- One underscore may follow the mark of the base. -/
def afterMark (base : Nat) : List Char → Option Nat
  | '_' :: rest => digits base rest
  | s => digits base s

/-- Without a mark the base is ten, and a leading zero is only a way to write zero. -/
def marked (s : List Char) : Except Flaw Nat :=
  match s with
  | zero :: mark :: rest =>
    if digitValue? zero = some 0 then
      match baseMark? mark with
      | some base => (afterMark base rest).elim (throw .malformed) pure
      | none => do
        let n ← decimal s
        if n ≠ 0 then throw .malformed
        return n
    else decimal s
  | _ => decimal s

def read (s : String) : Except Flaw Int := signed decimal (trimMargins s.toList)

def readMarked (s : String) : Except Flaw Int := signed marked (trimMargins s.toList)

end Keystream.Numeral
