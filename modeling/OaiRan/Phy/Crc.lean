import OaiRan.Lib.Crc
import OaiRan.Lib.Memory

/-!
# The CRCs of the physical layer

`crcbit` computes a CRC bit by bit and fills the tables with which `crc24b` goes through its input
byte by byte (`crc_byte.c`). What it computes is the remainder modulo the generator polynomial
(`crc24b_eq_remainder`).

Only this variant of `crc24b` is modelled. Where `USE_INTEL_CRC` is set, `crc_byte.c` takes it for
lengths that are not whole bytes, and `crc32_calc_pclmulqdq`, which is left out, for the others.
-/

namespace OaiRan.Phy

/-- A buffer of bytes. -/
abbrev Buffer := Memory UInt8

def poly24b : BitVec 32 := 0x80006300#32

/-- The inner loop of `crcbit`, with `n` bits to go. -/
def crcbitLoop (poly : BitVec 32) : ℕ → BitVec 32 → BitVec 32 → BitVec 32
  | 0, crc, _ => crc
  | n + 1, crc, c =>
    crcbitLoop poly n (if (c ^^^ crc).msb then (crc <<< 1) ^^^ poly else crc <<< 1) (c <<< 1)

/-- `crcbit` of one byte, with which the tables are filled. -/
def crcbitByte (poly : BitVec 32) (b : UInt8) : BitVec 32 := crcbitLoop poly 8 0#32 (Crc.upper b)

def crc24bTable (b : UInt8) : BitVec 32 := crcbitByte poly24b b

/-- `crc24b`, with the bits that are left over behind the last whole byte. -/
def crc24b (inptr : Buffer) (bitlen : ℕ) : BitVec 32 :=
  let octetlen := bitlen / 8
  let resbit := bitlen % 8
  let crc := (inptr.slice 0 octetlen).foldl
    (fun (crc : BitVec 32) b ↦
      (crc <<< 8) ^^^ crc24bTable (b ^^^ .ofBitVec (crc.extractLsb' 24 8))) 0
  if resbit > 0 then
    (crc <<< resbit) ^^^ crc24bTable (.ofNat ((inptr octetlen).toNat >>> (8 - resbit)) ^^^
      .ofBitVec (crc.extractLsb' (32 - resbit) 8))
  else crc

/-- `check_crc` for `CRC24_B`. -/
def checkCrc24b (decodedBytes : Buffer) (n : ℕ) : Bool :=
  let oldcrc := ((decodedBytes (n / 8 - 3)).toNat <<< 16) |||
    ((decodedBytes (n / 8 - 2)).toNat <<< 8) ||| (decodedBytes (n / 8 - 1)).toNat
  ((crc24b decodedBytes (n - 24)) >>> 8).toNat = oldcrc

/-! ### The remainder -/

/-- The loop shifts the remainder and the input together. -/
theorem crcbitLoop_xor (poly : BitVec 32) (n : ℕ) (crc c : BitVec 32) :
    crcbitLoop poly n crc c ^^^ (c <<< n) = Crc.shifts poly n (crc ^^^ c) := by
  induction n generalizing crc c with
  | zero => rw [crcbitLoop, BitVec.shiftLeft_zero, Crc.shifts]
  | succ n ih =>
    have hstep : (if (c ^^^ crc).msb then (crc <<< 1) ^^^ poly else crc <<< 1) ^^^ (c <<< 1) =
        Crc.shift poly (crc ^^^ c) := by
      rw [Crc.shift, BitVec.xor_comm c, BitVec.shiftLeft_xor_distrib]
      split
      · ac_rfl
      · rfl
    rw [crcbitLoop, Nat.add_comm, BitVec.shiftLeft_add, ih, hstep, Nat.add_comm, Crc.shifts_succ_eq]

theorem crcbitByte_eq_shifts (poly : BitVec 32) (b : UInt8) :
    crcbitByte poly b = Crc.shifts poly 8 (Crc.upper b) := by
  have hloop := crcbitLoop_xor poly 8 0#32 (Crc.upper b)
  have hzero : Crc.upper b <<< 8 = 0#32 := by
    rw [Crc.upper, ← BitVec.shiftLeft_add]
    exact BitVec.shiftLeft_eq_zero (by decide)
  rw [hzero, BitVec.xor_zero, BitVec.zero_xor] at hloop
  rw [crcbitByte, hloop]

/-- **`crc24b` of whole bytes is the remainder modulo the generator polynomial.** -/
theorem crc24b_eq_remainder (inptr : Buffer) (h : bitlen % 8 = 0) :
    crc24b inptr bitlen = Crc.remainder poly24b (inptr.slice 0 (bitlen / 8)) := by
  have hstep : (fun (crc : BitVec 32) (b : UInt8) ↦
      (crc <<< 8) ^^^ crc24bTable (b ^^^ .ofBitVec (crc.extractLsb' 24 8))) =
        Crc.byteStep poly24b := by
    funext crc b
    rw [Crc.byteStep_eq_table, crc24bTable, crcbitByte_eq_shifts]
    rfl
  rw [crc24b, h, if_neg (Nat.lt_irrefl 0), hstep, Crc.remainder]

end OaiRan.Phy
