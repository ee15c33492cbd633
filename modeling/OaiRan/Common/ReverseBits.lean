import Mathlib.Data.Nat.Bitwise

/-!
# Reversal of bits

`reverse_bits` reverses whole bytes by a table and the remaining bits one by one. It asserts that there
are at most 64 of them, the width of its `uint64_t`; no shift of the two loops then loses a bit, so
the model has natural numbers and only the assertion (`reverseBits`).

## Main results

* `testBit_reversedBits`: the bits come out in the opposite order. It rests on the table, which is
  checked entry by entry (`testBit_bitReverseTable256`), and on the loops setting bits that were not
  set before (`testBit_foldl_or`).
* `reverseBits_reverseBits`: reversing twice gives the lowest bits back.
-/

namespace OaiRan.Common

open Nat

def bitReverseTable256 : List ℕ :=
  [0x00, 0x80, 0x40, 0xC0, 0x20, 0xA0, 0x60, 0xE0, 0x10, 0x90, 0x50, 0xD0, 0x30, 0xB0, 0x70, 0xF0,
    0x08, 0x88, 0x48, 0xC8, 0x28, 0xA8, 0x68, 0xE8, 0x18, 0x98, 0x58, 0xD8, 0x38, 0xB8, 0x78, 0xF8,
    0x04, 0x84, 0x44, 0xC4, 0x24, 0xA4, 0x64, 0xE4, 0x14, 0x94, 0x54, 0xD4, 0x34, 0xB4, 0x74, 0xF4,
    0x0C, 0x8C, 0x4C, 0xCC, 0x2C, 0xAC, 0x6C, 0xEC, 0x1C, 0x9C, 0x5C, 0xDC, 0x3C, 0xBC, 0x7C, 0xFC,
    0x02, 0x82, 0x42, 0xC2, 0x22, 0xA2, 0x62, 0xE2, 0x12, 0x92, 0x52, 0xD2, 0x32, 0xB2, 0x72, 0xF2,
    0x0A, 0x8A, 0x4A, 0xCA, 0x2A, 0xAA, 0x6A, 0xEA, 0x1A, 0x9A, 0x5A, 0xDA, 0x3A, 0xBA, 0x7A, 0xFA,
    0x06, 0x86, 0x46, 0xC6, 0x26, 0xA6, 0x66, 0xE6, 0x16, 0x96, 0x56, 0xD6, 0x36, 0xB6, 0x76, 0xF6,
    0x0E, 0x8E, 0x4E, 0xCE, 0x2E, 0xAE, 0x6E, 0xEE, 0x1E, 0x9E, 0x5E, 0xDE, 0x3E, 0xBE, 0x7E, 0xFE,
    0x01, 0x81, 0x41, 0xC1, 0x21, 0xA1, 0x61, 0xE1, 0x11, 0x91, 0x51, 0xD1, 0x31, 0xB1, 0x71, 0xF1,
    0x09, 0x89, 0x49, 0xC9, 0x29, 0xA9, 0x69, 0xE9, 0x19, 0x99, 0x59, 0xD9, 0x39, 0xB9, 0x79, 0xF9,
    0x05, 0x85, 0x45, 0xC5, 0x25, 0xA5, 0x65, 0xE5, 0x15, 0x95, 0x55, 0xD5, 0x35, 0xB5, 0x75, 0xF5,
    0x0D, 0x8D, 0x4D, 0xCD, 0x2D, 0xAD, 0x6D, 0xED, 0x1D, 0x9D, 0x5D, 0xDD, 0x3D, 0xBD, 0x7D, 0xFD,
    0x03, 0x83, 0x43, 0xC3, 0x23, 0xA3, 0x63, 0xE3, 0x13, 0x93, 0x53, 0xD3, 0x33, 0xB3, 0x73, 0xF3,
    0x0B, 0x8B, 0x4B, 0xCB, 0x2B, 0xAB, 0x6B, 0xEB, 0x1B, 0x9B, 0x5B, 0xDB, 0x3B, 0xBB, 0x7B, 0xFB,
    0x07, 0x87, 0x47, 0xC7, 0x27, 0xA7, 0x67, 0xE7, 0x17, 0x97, 0x57, 0xD7, 0x37, 0xB7, 0x77, 0xF7,
    0x0F, 0x8F, 0x4F, 0xCF, 0x2F, 0xAF, 0x6F, 0xEF, 0x1F, 0x9F, 0x5F, 0xDF, 0x3F, 0xBF, 0x7F, 0xFF]

/-- `p[n]`. -/
def byteOf (bits n : ℕ) : ℕ := (bits >>> (8 * n)) % 256

/-- The bytes that are reversed by the table; `q` is empty before, so writing a byte sets its bits. -/
def reverseBytes (bits nBytes : ℕ) : ℕ :=
  (List.range nBytes).foldl (fun rev n ↦
    rev ||| (bitReverseTable256.getD (byteOf bits n) 0 <<< (8 * (nBytes - 1 - n)))) 0

/-- What `reverse_bits` returns once its assertion holds: the bytes, and then the bits that are left. -/
def reversedBits (bits nBits : ℕ) : ℕ :=
  let nBytes := nBits >>> 3
  (List.range' (nBytes * 8) (nBits - nBytes * 8)).foldl (fun rev i ↦
    rev ||| (((bits >>> i) &&& 1) <<< (nBits - i - 1))) (reverseBytes bits nBytes <<< (nBits % 8))

def reverseBits (bits nBits : ℕ) : Option ℕ :=
  if nBits ≤ 64 then some (reversedBits bits nBits) else none

theorem testBit_of_mem_bitReverseTable256 : ∀ p ∈ bitReverseTable256.zipIdx, p.1 < 256 ∧
    ∀ j < 8, p.1.testBit j = p.2.testBit (7 - j) := by
  decide +kernel

theorem length_bitReverseTable256 : bitReverseTable256.length = 256 := by decide +kernel

/-- The table. -/
theorem testBit_bitReverseTable256 (hb : b < 256) : bitReverseTable256.getD b 0 < 256 ∧
    ∀ j < 8, (bitReverseTable256.getD b 0).testBit j = b.testBit (7 - j) := by
  have hlt : b < bitReverseTable256.length := hb.trans_eq length_bitReverseTable256.symm
  rw [List.getD_eq_getElem _ _ hlt]
  exact testBit_of_mem_bitReverseTable256 (bitReverseTable256[b], b)
    (List.mk_mem_zipIdx_iff_getElem?.2 (List.getElem?_eq_getElem hlt))

/-- Bits that are set one after the other. -/
theorem testBit_foldl_or (f : ℕ → ℕ) (is : List ℕ) (a k : ℕ) :
    (is.foldl (fun rev i ↦ rev ||| f i) a).testBit k =
      (a.testBit k || is.any fun i ↦ (f i).testBit k) := by
  induction is generalizing a with
  | nil => simp
  | cons i is ih => rw [List.foldl_cons, ih, testBit_or, List.any_cons, Bool.or_assoc]

theorem testBit_reversedByte (bits n j : ℕ) :
    (bitReverseTable256.getD (byteOf bits n) 0).testBit j =
      (decide (j < 8) && bits.testBit (8 * n + (7 - j))) := by
  have hlt : byteOf bits n < 256 := mod_lt _ (by decide)
  obtain ⟨hbyte, hbit⟩ := testBit_bitReverseTable256 hlt
  rcases lt_or_ge j 8 with hj | hj
  · rw [hbit j hj, decide_eq_true hj, Bool.true_and, byteOf, show 256 = 2 ^ 8 from rfl,
      testBit_mod_two_pow, decide_eq_true (by omega), Bool.true_and, testBit_shiftRight]
  · rw [decide_eq_false (by omega), Bool.false_and]
    exact Nat.testBit_lt_two_pow (Nat.lt_of_lt_of_le hbyte (Nat.pow_le_pow_right (Nat.succ_pos 1) hj))

theorem testBit_reverseBytes (bits nBytes k : ℕ) :
    (reverseBytes bits nBytes).testBit k =
      (decide (k < 8 * nBytes) && bits.testBit (8 * nBytes - 1 - k)) := by
  rw [reverseBytes, testBit_foldl_or, zero_testBit, Bool.false_or, Bool.eq_iff_iff,
    List.any_eq_true]
  simp only [List.mem_range, testBit_shiftLeft, testBit_reversedByte, Bool.and_eq_true,
    decide_eq_true_eq]
  constructor
  · rintro ⟨n, hn, hge, hlt, hbit⟩
    refine ⟨by omega, ?_⟩
    rwa [show 8 * nBytes - 1 - k = 8 * n + (7 - (k - 8 * (nBytes - 1 - n))) by omega]
  · rintro ⟨hk, hbit⟩
    refine ⟨nBytes - 1 - k / 8, by omega, by omega, by omega, ?_⟩
    rwa [show 8 * (nBytes - 1 - k / 8) + (7 - (k - 8 * (nBytes - 1 - (nBytes - 1 - k / 8)))) =
      8 * nBytes - 1 - k by omega]

/-- **The bits come out in the opposite order.** -/
theorem testBit_reversedBits (bits nBits k : ℕ) :
    (reversedBits bits nBits).testBit k = (decide (k < nBits) && bits.testBit (nBits - 1 - k)) := by
  have hbytes : nBits >>> 3 = nBits / 8 := shiftRight_eq_div_pow nBits 3
  rw [reversedBits, hbytes, testBit_foldl_or, testBit_shiftLeft, testBit_reverseBytes, Bool.eq_iff_iff]
  simp only [Bool.or_eq_true, Bool.and_eq_true, decide_eq_true_eq, List.any_eq_true,
    List.mem_range'_1, testBit_shiftLeft, testBit_and, testBit_shiftRight]
  constructor
  · rintro (⟨hge, hlt, hbit⟩ | ⟨i, hi, hge, hbit, hone⟩)
    · refine ⟨by omega, ?_⟩
      rwa [show nBits - 1 - k = 8 * (nBits / 8) - 1 - (k - nBits % 8) by omega]
    · have hzero : k - (nBits - i - 1) = 0 := by
        by_contra hne
        rw [testBit_one_eq_true_iff_self_eq_zero.1 hone] at hne
        exact hne rfl
      rw [hzero, add_zero] at hbit
      refine ⟨by omega, ?_⟩
      rwa [show nBits - 1 - k = i by omega]
  · rintro ⟨hk, hbit⟩
    rcases lt_or_ge k (nBits % 8) with hlt | hge
    · refine .inr ⟨nBits - 1 - k, by omega, by omega, ?_, ?_⟩
      · rwa [show k - (nBits - (nBits - 1 - k) - 1) = 0 by omega, add_zero]
      · rw [show k - (nBits - (nBits - 1 - k) - 1) = 0 by omega]
        rfl
    · refine .inl ⟨hge, by omega, ?_⟩
      rwa [show 8 * (nBits / 8) - 1 - (k - nBits % 8) = nBits - 1 - k by omega]

/-- **Reversing twice gives the lowest bits back**, up to the 64 bits that the function asserts. -/
theorem reverseBits_reverseBits (bits nBits : ℕ) :
    (reverseBits bits nBits).bind (reverseBits · nBits) =
      if nBits ≤ 64 then some (bits % 2 ^ nBits) else none := by
  rw [reverseBits]
  split
  · rename_i hle
    rw [Option.bind_some, reverseBits, if_pos hle]
    refine congrArg some (eq_of_testBit_eq fun k ↦ ?_)
    rw [testBit_reversedBits, testBit_reversedBits, testBit_mod_two_pow]
    rcases lt_or_ge k nBits with hk | hk
    · rw [show nBits - 1 - (nBits - 1 - k) = k by omega]
      simp [hk, show nBits - 1 - k < nBits by omega]
    · simp [hk.not_gt]
  · rfl

end OaiRan.Common
