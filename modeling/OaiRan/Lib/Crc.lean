import Mathlib.Algebra.GroupWithZero.Nat
import Mathlib.Tactic.Basic

/-!
# Cyclic redundancy checks

The remainder of a message modulo a polynomial of degree at most 32, kept in the upper bits of a word,
most significant bit first. Eight shifts are linear in the word, so that a byte at a time with a table
of 256 words gives the same remainder (`byteStep_eq_table`).
-/

namespace Crc

variable (poly : BitVec 32)

/-- One shift of the remainder. -/
def shift (c : BitVec 32) : BitVec 32 := if c.msb then (c <<< 1) ^^^ poly else c <<< 1

/-- `n` shifts. -/
def shifts : ℕ → BitVec 32 → BitVec 32
  | 0, c => c
  | n + 1, c => shift poly (shifts n c)

/-- A byte in the upper bits. -/
def upper (b : UInt8) : BitVec 32 := b.toBitVec.setWidth 32 <<< 24

/-- The remainder after one more byte. -/
def byteStep (crc : BitVec 32) (b : UInt8) : BitVec 32 := shifts poly 8 (crc ^^^ upper b)

/-- The remainder of a sequence of bytes. -/
def remainder (bytes : List UInt8) : BitVec 32 := bytes.foldl (byteStep poly) 0

variable {poly}

theorem shift_eq (c : BitVec 32) : shift poly c = (c <<< 1) ^^^ if c.msb then poly else 0 := by
  rw [shift]
  split <;> simp

theorem shift_xor (x y : BitVec 32) : shift poly (x ^^^ y) = shift poly x ^^^ shift poly y := by
  have hpoly : (if (x ^^^ y).msb then poly else 0) =
      (if x.msb then poly else 0) ^^^ if y.msb then poly else 0 := by
    rw [BitVec.msb_xor]
    cases x.msb <;> cases y.msb <;> simp
  rw [shift_eq, shift_eq, shift_eq, hpoly, BitVec.shiftLeft_xor_distrib]
  ac_rfl

theorem shifts_xor (n : ℕ) (x y : BitVec 32) :
    shifts poly n (x ^^^ y) = shifts poly n x ^^^ shifts poly n y := by
  induction n with
  | zero => rfl
  | succ n ih => rw [shifts, ih, shift_xor, shifts, shifts]

/-- The first shift apart. -/
theorem shifts_succ_eq (n : ℕ) (c : BitVec 32) :
    shifts poly (n + 1) c = shifts poly n (shift poly c) := by
  induction n with
  | zero => rfl
  | succ n ih => rw [shifts, ih, shifts]

/-- A word without upper bits is only moved. -/
theorem shifts_of_lt {n : ℕ} {x : BitVec 32} (h : x.toNat * 2 ^ n < 2 ^ 32) :
    shifts poly n x = x <<< n := by
  induction n with
  | zero => rw [shifts, BitVec.shiftLeft_zero]
  | succ n ih =>
    have hn : x.toNat * 2 ^ n * 2 < 2 ^ 32 := by rwa [Nat.mul_assoc, ← Nat.pow_succ]
    have hlt : x.toNat * 2 ^ n < 2 ^ 32 := by omega
    have hmsb : (x <<< n).msb = false := by
      rw [BitVec.msb_eq_false_iff_two_mul_lt, BitVec.toNat_shiftLeft, Nat.shiftLeft_eq,
        Nat.mod_eq_of_lt hlt]
      omega
    rw [shifts, ih hlt, shift, hmsb, if_neg Bool.false_ne_true, ← BitVec.shiftLeft_add]

/-! ### A byte at a time -/

/-- The upper byte. -/
def top (c : BitVec 32) : UInt8 := .ofBitVec (c.extractLsb' 24 8)

theorem upper_xor (a b : UInt8) : upper (a ^^^ b) = upper a ^^^ upper b := by
  rw [upper, UInt8.toBitVec_xor, BitVec.setWidth_xor, BitVec.shiftLeft_xor_distrib]
  rfl

/-- The other three. -/
def low (c : BitVec 32) : BitVec 32 := (c.setWidth 24).setWidth 32

theorem upper_top_xor (c : BitVec 32) : upper (top c) ^^^ low c = c := by
  refine BitVec.eq_of_getLsbD_eq fun i hi ↦ ?_
  simp only [upper, top, low, UInt8.toBitVec_ofBitVec, BitVec.getLsbD_xor,
    BitVec.getLsbD_shiftLeft, BitVec.getLsbD_setWidth, BitVec.getLsbD_extractLsb']
  by_cases h : i < 24
  · simp [h, hi]
  · have hsub : 24 + (i - 24) = i := by omega
    have hlt : i - 24 < 8 := by omega
    simp [h, hsub, hi, hlt, show i - 24 < 32 by omega]

theorem shifts_low (c : BitVec 32) : shifts poly 8 (low c) = c <<< 8 := by
  have htoNat : (low c).toNat = c.toNat % 2 ^ 24 := by
    rw [low, BitVec.toNat_setWidth, BitVec.toNat_setWidth]
    omega
  have hlt : (low c).toNat * 2 ^ 8 < 2 ^ 32 := by omega
  rw [shifts_of_lt hlt]
  refine BitVec.eq_of_toNat_eq ?_
  rw [BitVec.toNat_shiftLeft, BitVec.toNat_shiftLeft, Nat.shiftLeft_eq, Nat.shiftLeft_eq, htoNat]
  omega

/-- **With a table**: the remainder after a byte is the table's word for the byte and the upper byte of
the old remainder, on top of the rest of it. -/
theorem byteStep_eq_table (crc : BitVec 32) (b : UInt8) :
    byteStep poly crc b = (crc <<< 8) ^^^ shifts poly 8 (upper (b ^^^ top crc)) := by
  have hsplit : crc ^^^ upper b = upper (b ^^^ top crc) ^^^ low crc := by
    rw [upper_xor, BitVec.xor_assoc, upper_top_xor, BitVec.xor_comm]
  rw [byteStep, hsplit, shifts_xor, shifts_low, BitVec.xor_comm]

end Crc
