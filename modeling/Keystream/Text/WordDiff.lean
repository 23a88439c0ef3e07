import Keystream.Text.Dump
/-!
The difference of two buffers of one length, word by word. Only rows that differ are shown; in a
word that differs the digits that changed stand out from the ones that did not.
-/
namespace Keystream.WordDiff

def green : List Char := "\x1b[32m".toList
def red : List Char := "\x1b[31;1;4m".toList
def reset : List Char := "\x1b[m".toList

/-- New digits beside old ones, with an escape wherever one that changed meets one that did not. -/
def highlight (changed : Bool) : List (Char × Char) → List Char
  | [] => []
  | (old, new) :: rest =>
    let differs := old != new
    (if changed == differs then [] else if differs then red else green) ++
      new :: highlight differs rest

def wordText (old new : Word) : List Char :=
  if old = new then Hex.wordDigits new
  else green ++ highlight false ((Hex.wordDigits old).zip (Hex.wordDigits new)) ++ reset

def rowText (offset : Nat) (ascii : Bool) (old new : Bytes) : List Char :=
  (Text.hexFilled 8 offset).toList ++ [' '] ++
    ((Word.unpack old).zip (Word.unpack new)).flatMap (fun (a, b) => wordText a b ++ [' ']) ++
    (if ascii then ['|', ' '] ++ new.map Dump.character else []) ++ ['\n']

def rowTexts (offset : Nat) (ascii : Bool) : List (Bytes × Bytes) → List Char
  | [] => []
  | (old, new) :: rest =>
    (if old = new then [] else rowText offset ascii old new) ++ rowTexts (offset + 32) ascii rest

def render (old new : Bytes) (ascii : Bool) : Except Error String :=
  if new.length % 4 = 0 ∧ old.length = new.length then
    return String.ofList (rowTexts 0 ascii ((segments 32 old).zip (segments 32 new)))
  else throw .unevenDiff

end Keystream.WordDiff
