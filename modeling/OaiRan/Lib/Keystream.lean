import Mathlib.Data.Nat.Notation
import Mathlib.Tactic.Basic

/-!
# Ciphering with a keystream

A stream cipher XORs a keystream to the data, so that deciphering is ciphering once more.
-/

namespace Keystream

/-- XOR byte `i` of the keystream to byte `i` of the data. -/
def xorStream (keystream : ℕ → UInt8) (data : List UInt8) : List UInt8 :=
  data.mapIdx fun i b ↦ b ^^^ keystream i

@[simp] theorem length_xorStream (keystream : ℕ → UInt8) (data : List UInt8) :
    (xorStream keystream data).length = data.length := List.length_mapIdx

/-- **Ciphering twice gives the data back.** -/
@[simp] theorem xorStream_xorStream (keystream : ℕ → UInt8) (data : List UInt8) :
    xorStream keystream (xorStream keystream data) = data := by
  refine List.ext_getElem (by simp) fun i _ _ ↦ ?_
  simp only [xorStream, List.getElem_mapIdx]
  rw [UInt8.xor_assoc, UInt8.xor_self, UInt8.xor_zero]

end Keystream
