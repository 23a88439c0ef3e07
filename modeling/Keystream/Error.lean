import Keystream.Program.Stage
import Keystream.Text.Written
/-!
Everything that can go wrong, by its cause; what kind of mistake each cause is, which is all that
crosses the serial link; and the text that reports it.
-/
namespace Keystream

inductive Kind where
  | value
  | index
  | missingKey
  | division
  | alignment
  | exhausted
  | inconsistent
  | assertion
  | unevenWords
  | fieldRange
  | arrayLength
  | shortInput
  | oversize
  | absent
  | shape
  | timeout
  | checksum
  | command
  | remote
  | badSignal
  | oracle
  | verification
  | program
  | unconnected
  | named (label : String)
  deriving DecidableEq, Repr

inductive Error where
  -- the heap
  | heapStartUnaligned
  | heapEndUnaligned
  | heapEmpty
  | heapExhausted
  | heapInconsistent
  | notPowerOfTwo (alignment : Int)
  | freeUnaligned
  | freeBelow
  | freeBeyond
  | alreadyFree
  | notAllocated
  | unknownAddress (addr : Int)
  -- memory
  | negativeSize
  | sizeTooLarge
  | noRoom
  | noMemory
  | misaligned
  | outside (addr size low high : Int)
  -- integers and words
  | divisionByZero
  | negativeShift
  | noSuchIndex
  | noSuchSlot
  | indexTooLarge
  -- the cipher
  | stateLength (count : Nat)
  | stateWord (value : Int)
  | keyLength (count : Nat)
  | nonceLength (count : Nat)
  | bufferLength (count : Nat)
  | negativeIterations (count : Int)
  | unknownByteOrder (name : String)
  | noState
  -- layouts
  | fieldRange
  | arrayLength
  | shortInput
  | missingField (name : String)
  /-- A pair is wanted, and something has `count` parts. -/
  | tooFewParts (count : Nat)
  | tooManyParts
  | wrongShape
  -- text
  | notHex (position : Nat)
  | notInteger (text : String)
  /-- A number to read, of `count` digits, or one to write. -/
  | tooManyDigits (limit : Nat) (count : Option Nat)
  | notDecimal (text : String)
  | zeroStride
  | unevenWords
  | unevenDiff
  -- the serial link
  | timeout (wanted got : Nat)
  | frameChecksum (stated computed : Int)
  | dataChecksum (stated computed : Int)
  | wrongCommand (expected got : Int)
  | remote (status : Int)
  | unknownRequest (magic : Int)
  -- the oracle
  | unknownSignal (sig value : Int)
  | oracleHalted (sig : Int)
  | announcedTooOften
  | haltedTwice
  | haltedEarly
  | notHalted
  | noOutput
  | mismatch (diff : String)
  -- the program
  | wrongStage (expected actual : Stage)
  | programHalted (sig : Int)
  | unconnected
  /-- A failure of something outside: a handler, or the body of a guarded allocation. -/
  | reported (kind : Kind) (text : String)
  deriving DecidableEq, Repr

namespace Error

def kind : Error → Kind
  | heapStartUnaligned | heapEndUnaligned | heapEmpty | notPowerOfTwo _ | freeUnaligned | freeBelow
  | freeBeyond | alreadyFree | notAllocated | negativeSize | negativeShift | stateLength _
  | stateWord _ | keyLength _ | nonceLength _ | bufferLength _ | negativeIterations _
  | unknownByteOrder _ | tooFewParts _ | tooManyParts | notHex _ | notInteger _ | tooManyDigits ..
  | notDecimal _ | zeroStride => .value
  | outside .. | noSuchIndex | noSuchSlot | indexTooLarge => .index
  | unknownAddress _ | missingField _ => .missingKey
  | divisionByZero => .division
  | misaligned => .alignment
  | heapExhausted | noRoom => .exhausted
  | heapInconsistent => .inconsistent
  | unevenDiff => .assertion
  | unevenWords => .unevenWords
  | fieldRange => .fieldRange
  | arrayLength => .arrayLength
  | shortInput => .shortInput
  | sizeTooLarge => .oversize
  | noMemory | noState => .absent
  | wrongShape => .shape
  | timeout .. => .timeout
  | frameChecksum .. | dataChecksum .. => .checksum
  | wrongCommand .. => .command
  | remote _ => .remote
  | unknownRequest _ | unknownSignal .. => .badSignal
  | oracleHalted _ | announcedTooOften | haltedTwice | haltedEarly | notHalted | noOutput => .oracle
  | mismatch _ => .verification
  | wrongStage .. | programHalted _ => .program
  | unconnected => .unconnected
  | reported kind _ => kind

open Text

def statusText (status : Int) : String :=
  if status = -1 then "Bad signal"
  else if status = -2 then "Invalid argument"
  else if status = -3 then "Host failure"
  else if status = -4 then "Data checksum failed"
  else s!"Unknown error ({status})"

def message : Error → String
  | heapStartUnaligned => "heap start not aligned"
  | heapEndUnaligned => "heap end not aligned"
  | heapEmpty => "empty heap"
  | heapExhausted => "Out of memory"
  | heapInconsistent => "Total block size is inconsistent"
  | notPowerOfTwo alignment => s!"alignment {markedHex alignment} is not a power of two"
  | freeUnaligned => "free address not aligned"
  | freeBelow => "free address before heap"
  | freeBeyond => "free address after heap"
  | alreadyFree => "block already free"
  | notAllocated => "bad free address"
  | unknownAddress addr => toString addr
  | negativeSize => "negative count"
  | outside addr size low high =>
    s!"Access {markedHex addr}+{markedHex size} outside [{markedHex low}, {markedHex high})"
  | negativeShift => "negative shift count"
  | noSuchIndex => "list index out of range"
  | noSuchSlot => "list assignment index out of range"
  | indexTooLarge => "cannot fit 'int' into an index-sized integer"
  | stateLength count => s!"State needs 16 words, got {count}"
  | stateWord value => s!"State word out of range: {markedHex value}"
  | keyLength count => s!"Key must be 32 bytes, got {count}"
  | nonceLength count => s!"Nonce must be 12 bytes, got {count}"
  | bufferLength count => s!"Output buffer must be 64 bytes, got {count}"
  | negativeIterations count => s!"Iteration count must not be negative: {count}"
  | unknownByteOrder name => s!"Unknown byte order {quoted name}"
  | missingField name => quoted name
  | tooFewParts count => s!"not enough values to unpack (expected 2, got {count})"
  | tooManyParts => "too many values to unpack (expected 2)"
  | notHex position => s!"non-hexadecimal number found in fromhex() arg at position {position}"
  | notInteger text =>
    -- the quotation is cut so that the report stays readable
    s!"invalid literal for int() with base 10: {String.ofList ((quoted text).toList.take 200)}"
  | tooManyDigits limit count =>
    let length := (count.map fun count => s!": value has {count} digits").getD ""
    s!"Exceeds the limit ({limit} digits) for integer string conversion{length}; " ++
      "use sys.set_int_max_str_digits() to increase the limit"
  | notDecimal text => s!"could not convert string to float: {quoted text}"
  | zeroStride => "range() arg 3 must not be zero"
  | timeout wanted got => s!"Expected {wanted} bytes, got {got} bytes"
  | frameChecksum stated computed =>
    s!"Frame checksum error: Expected 0x{hexFilled 8 stated}, got 0x{hexFilled 8 computed}"
  | dataChecksum stated computed =>
    s!"Reply data checksum error: Expected 0x{hexFilled 8 stated}, got 0x{hexFilled 8 computed}"
  | wrongCommand expected got =>
    s!"Reply command mismatch: Expected 0x{hexFilled 8 expected}, got 0x{hexFilled 8 got}"
  | remote status => s!"Reply error: {statusText status}"
  | unknownRequest magic => s!"Unknown request 0x{hexFilled 8 magic}"
  | unknownSignal sig value => s!"unrecognized signal: [{sig}](0x{upperHexFilled 8 value})"
  | oracleHalted sig | programHalted sig => s!"Signal {sig} after halt"
  | announcedTooOften => "Output buffer announced more than twice"
  | haltedTwice => "Program halted twice"
  | haltedEarly => "Program halted before announcing its output"
  | notHalted => "Program main did not call halt"
  | noOutput => "No output captured"
  | mismatch diff => s!"Keystream mismatch:\n{diff}"
  | wrongStage expected actual => s!"Expected {expected.name}, program is {actual.name}"
  | reported .missingKey text => quoted text
  | reported _ text => text
  | sizeTooLarge | noRoom | noMemory | misaligned | divisionByZero | noState | fieldRange
  | arrayLength | shortInput | wrongShape | unevenWords | unevenDiff | unconnected => ""

end Error

end Keystream
