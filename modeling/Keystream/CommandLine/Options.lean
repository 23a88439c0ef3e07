import Keystream.ByteOrder
import Keystream.Cipher.Standard
import Keystream.CommandLine.Grammar
import Keystream.Text.Hex
import Keystream.Text.Numeral
/-!
The options of the keystream oracle.
-/
namespace Keystream.CommandLine

/-- What was said of something that an option may set. -/
inductive Given (α : Type) where
  | absent
  /-- The option without the value it should have. -/
  | blank
  | value (x : α)
  deriving DecidableEq, Repr

namespace Given

variable {α : Type}

def isPresent : Given α → Bool
  | absent => false
  | blank | value _ => true

def orElse (default : α) : Given α → Except Error α
  | absent => return default
  | blank => throw .wrongShape
  | value x => return x

end Given

structure Settings where
  key : Bytes := Standard.exampleKey
  nonce : Bytes := Standard.exampleNonce
  iterations : Given Int := .absent
  counter : Given Int := .absent
  order : Given String := .absent
  expected : Option Bytes := none
  device : String := ""
  serve : String := ""
  traced : Bool := false
  deriving DecidableEq, Repr

variable [Machine]

def readBytes (size : Nat) (text : String) : Except String Bytes :=
  match Hex.decode text with
  | .error _ => throw s!"not a hex string: {Text.quoted text}"
  | .ok s =>
    if s.length = size then return s
    else throw s!"expected {size} bytes, got {s.length}"

def readInteger (text : String) : Except String Int :=
  match Numeral.read text with
  | .ok n => return n
  | .error _ => throw s!"invalid int value: {Text.quoted text}"

def readCounter (text : String) : Except String Int :=
  match Numeral.readMarked text with
  | .ok n => return n
  | .error _ => throw s!"invalid <lambda> value: {Text.quoted text}"

def readOrder (text : String) : Except String String :=
  if ByteOrder.names.contains text then return text
  else
    let choices := String.intercalate ", " (ByteOrder.names.map Text.quoted)
    throw s!"invalid choice: {Text.quoted text} (choose from {choices})"

/-- An option with a value, which leaves `blank` behind if its value is left out. -/
def setting (names : List String) (blank : β) (read : String → Except String β)
    (store : β → Settings → Settings) : Rule Settings :=
  ⟨names, .value fun text settings => do
    let x ← match text with
      | some text => read text
      | none => pure blank
    return store x settings⟩

def rules : List (Rule Settings) := [
  ⟨["-h", "--help"], .help⟩,
  setting ["-k", "--key"] [] (readBytes 32) fun x s => { s with key := x },
  setting ["-N", "--nonce"] [] (readBytes 12) fun x s => { s with nonce := x },
  setting ["-n", "--iterations"] .blank (fun text => .value <$> readInteger text) fun x s =>
    { s with iterations := x },
  setting ["-c", "--counter"] .blank (fun text => .value <$> readCounter text) fun x s =>
    { s with counter := x },
  setting ["-b", "--byteorder"] .blank (fun text => .value <$> readOrder text) fun x s =>
    { s with order := x },
  setting ["-e", "--expect"] [] (readBytes 64) fun x s => { s with expected := some x },
  setting ["--device"] "" pure fun x s => { s with device := x },
  setting ["--serve"] "" pure fun x s => { s with serve := x },
  ⟨["-d", "--debug"], .flag fun s => { s with traced := true }⟩]

def Settings.check (s : Settings) (iterations : Int) : Except UsageError Unit := do
  if iterations < 0 then throw (.refused "iteration count must not be negative")
  if s.device ≠ "" ∧ (s.counter.isPresent ∨ s.order.isPresent) then
    throw (.refused "--counter and --byteorder belong to the program end, not --device")

end Keystream.CommandLine
