import Keystream.Main
import Keystream.Signal.Script
import Keystream.Proofs.Session.Serial
import Keystream.Proofs.Heap.Canonical
import Keystream.Proofs.Program.Calls
import Keystream.Proofs.Serial.Transport
import Keystream.Proofs.Oracle.History
import Keystream.Proofs.Serial.Resync
import Keystream.Proofs.Serial.LargeWrite
import Keystream.Proofs.Memory.ByteMap
import Keystream.Proofs.CommandLine.Verdict
import Keystream.Proofs.Heap.FirstFit
import Keystream.Proofs.Serial.Console
import Keystream.Proofs.Heap.Release
import Keystream.Proofs.Serial.Checksum
import Keystream.Proofs.Serial.Corruption
import Keystream.Proofs.Cipher.Jump
import Keystream.Proofs.Program.Allocation
import Keystream.Proofs.Session.Restored
import Keystream.Proofs.Session.Iterations
import Keystream.Proofs.Program.Display
import Keystream.Proofs.Oracle.Verify
import Keystream.Proofs.Cipher.Position
import Keystream.Proofs.Program.Snapshot
import Keystream.Proofs.Agreement
import Keystream.Proofs.Serial.Pieces
import Keystream.Proofs.Cipher.Codec
import Keystream.Proofs.Segments
import Keystream.Proofs.Text.Radix
import Keystream.Proofs.Text.WordDiff
import Keystream.Proofs.Text.Dump
import Keystream.Proofs.Cipher.Unreduced
import Keystream.Proofs.Memory.Stranded
import Keystream.Proofs.Rotation
import Keystream.Proofs.Text.Hex
