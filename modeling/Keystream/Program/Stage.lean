/-!
The stages of a run, in the order in which a program passes through them.
-/
namespace Keystream

inductive Stage where
  | idle
  | keyPublished
  | noncePublished
  | iterationsKnown
  | looping
  | outputAnnounced
  | halted
  deriving DecidableEq, Repr

namespace Stage

def name : Stage → String
  | idle => "IDLE"
  | keyPublished => "KEY_PUBLISHED"
  | noncePublished => "NONCE_PUBLISHED"
  | iterationsKnown => "ITERATIONS_KNOWN"
  | looping => "LOOPING"
  | outputAnnounced => "OUTPUT_ANNOUNCED"
  | halted => "HALTED"

def rank : Stage → Nat
  | idle => 0
  | keyPublished => 1
  | noncePublished => 2
  | iterationsKnown => 3
  | looping => 4
  | outputAnnounced => 5
  | halted => 6

end Stage

end Keystream
