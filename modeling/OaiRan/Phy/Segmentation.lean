import OaiRan.Phy.Crc
import OaiRan.Mac.Tbs
import OaiRan.Lib.ByteOrder

/-!
# Code block segmentation

`nr_segmentation` cuts a transport block into code blocks, with a CRC behind each of several, and pads
them with filler bits to a length that the LDPC code has; `nr_ulsch_decoding` and `nr_postDecode` put
the decoded blocks together again. The sizes are compared with those of TS 38.212, clause 5.2.2
(`codeBlockCount`, `codeBlockInfo`, `codeBlockLength`).

**Filler bits are zeroed by whole bytes**, up to byte `K >> 3`, while `K` is in general not a multiple
of 8: what the last bits of the block were before decides whether they are zero
(`segmentation_correct_iff`).
-/

namespace OaiRan.Phy

open Function Memory List Nat

open Mac (tbsOfNInfo nrComputeTbs ceilIDiv tbsTableNr)

/-! ### The sizes -/

/-- What `nr_segmentation` computes before it touches a buffer. `kb` is what it returns. -/
structure SegmentationSizes where
  (l c kprime kb zout k f : ℕ)
  deriving DecidableEq, Repr

def kcb (bg : ℕ) : ℕ := if bg = 1 then 8448 else 3840

def kb (b bg : ℕ) : ℕ :=
  if bg = 1 then 22
  else if b > 640 then 10
  else if b > 560 then 9
  else if b > 192 then 8
  else 6

/-- `(Z >> n) << n`, and the step more if that is too small. -/
def roundUpShift (n z : ℕ) : ℕ :=
  let k := (z >>> n) <<< n
  if k < z then k + 2 ^ n else k

/-- The lifting size from `Z`, `none` for an illegal codeword size. -/
def liftZ (z : ℕ) : Option ℕ :=
  if z ≤ 2 then some 2
  else if z ≤ 16 then some z
  else if z ≤ 32 then some (roundUpShift 1 z)
  else if z ≤ 64 then some (roundUpShift 2 z)
  else if z ≤ 128 then some (roundUpShift 3 z)
  else if z ≤ 256 then some (roundUpShift 4 z)
  else if z ≤ 384 then some (roundUpShift 5 z)
  else none

/-- `nr_segmentation` without buffers. -/
def nrSegmentationSizes (b bg : ℕ) : Option SegmentationSizes :=
  let l := if b ≤ kcb bg then 0 else 24
  let c :=
    if b ≤ kcb bg then 1
    else if (kcb bg - l) * (b / (kcb bg - l)) < b then b / (kcb bg - l) + 1
    else b / (kcb bg - l)
  let bprime := if b ≤ kcb bg then b else b + c * l
  let kprime := bprime / c
  let kb := kb b bg
  let z := if kprime % kb > 0 then kprime / kb + 1 else kprime / kb
  (liftZ z).map fun zout ↦
    let k := if bg = 1 then zout * 22 else zout * 10
    { l, c, kprime, kb, zout, k, f := k - kprime }

/-! ### The blocks -/

/-- The CRC of a block, behind its data. -/
def appendCrc (q : SegmentationSizes) (out : Buffer) : Buffer :=
  let n := (q.kprime - q.l) >>> 3
  if q.c > 1 then
    let crc := (crc24b out (q.kprime - q.l) >>> 8).toNat
    -- the bytes of the word in memory, the least significant first
    let out := update out n (.ofNat (crc >>> 16))
    let out := update out (1 + n) (.ofNat (crc >>> 8))
    update out (2 + n) (.ofNat crc)
  else out

/-- The filler bits of a block. -/
def zeroFiller (q : SegmentationSizes) (out : Buffer) : Buffer :=
  if q.f > 0 then fillLoop 0 ((q.k >>> 3) - (q.kprime >>> 3)) (q.kprime >>> 3) out else out

/-- One block, of the input from `s` on. -/
def segmentBlock (q : SegmentationSizes) (inputBuffer : Buffer) (s : ℕ) (out : Buffer) : Buffer :=
  zeroFiller q (appendCrc q (copyLoop inputBuffer ((q.kprime - q.l) >>> 3) 0 s out))

/-- The loop over the blocks, with `n` of them to go. -/
def segmentBlocks (q : SegmentationSizes) (inputBuffer : Buffer) :
    ℕ → ℕ → ℕ → (ℕ → Buffer) → ℕ → Buffer
  | 0, _, _, outputBuffers => outputBuffers
  | n + 1, r, s, outputBuffers =>
    segmentBlocks q inputBuffer n (r + 1) (s + ((q.kprime - q.l) >>> 3))
      (update outputBuffers r (segmentBlock q inputBuffer s (outputBuffers r)))

/-- `nr_segmentation`, `none` for the return value -1. -/
def nrSegmentation (inputBuffer : Buffer) (outputBuffers : ℕ → Buffer) (b bg : ℕ) :
    Option (SegmentationSizes × (ℕ → Buffer)) :=
  (nrSegmentationSizes b bg).map fun q ↦ (q, segmentBlocks q inputBuffer q.c 0 0 outputBuffers)

/-- The bit of a block that `LDPCencoder` unpacks. -/
def unpackedBit (input : Buffer) (i : ℕ) : ℕ :=
  ((input (i / 8)).toNat &&& (128 >>> (i % 8))) >>> (7 - i % 8)

/-! ### The receiver -/

/-- The number of bytes of a decoded block that are kept. -/
def blockBytes (q : SegmentationSizes) : ℕ :=
  (q.k >>> 3) - (q.f >>> 3) - if q.c > 1 then 3 else 0

/-- `offset` in `nr_ulsch_decoding`, for block `r`. -/
def ulschOffset (q : SegmentationSizes) : ℕ → ℕ
  | 0 => 0
  | r + 1 => ulschOffset q r + blockBytes q

/-- `nr_postDecode` of block `r`, decoded successfully. -/
def nrPostDecode (q : SegmentationSizes) (c : ℕ → Buffer) (b : Buffer) (r : ℕ) : Buffer :=
  b.copy (ulschOffset q r) (c r) 0 (blockBytes q)

def lenWithCrc (nbSeg len : ℕ) : ℕ :=
  if nbSeg > 1 then (len + 24 + 24 * nbSeg) / nbSeg else len + if len > 3824 then 24 else 16

/-- `get_BG`, for a code rate in units of 1/10240. -/
def getBG (a r : ℕ) : ℕ :=
  if a ≤ 292 ∨ (a ≤ 3824 ∧ 10000 * r ≤ 6667 * 10240) ∨ 4 * r ≤ 10240 then 2 else 1

/-! ### TS 38.212 -/

/-- The lifting sizes of table 5.3.2-1 in ascending order: `a * 2 ^ j` up to 384, for `a` 2 or an odd
number from 3 to 15. -/
def liftingSizes : List ℕ :=
  [2, 3, 4, 5, 6, 7, 8, 9, 10, 11, 12, 13, 14, 15, 16, 18, 20, 22, 24, 26, 28, 30, 32, 36, 40, 44,
    48, 52, 56, 60, 64, 72, 80, 88, 96, 104, 112, 120, 128, 144, 160, 176, 192, 208, 224, 240, 256,
    288, 320, 352, 384]

/-- The number of code blocks. -/
def codeBlockCount (bg b : ℕ) : ℕ := if b ≤ kcb bg then 1 else ceilIDiv b (kcb bg - 24)

/-- The number of bits of a code block that are not filler bits. -/
def codeBlockInfo (bg b : ℕ) : ℕ := if b ≤ kcb bg then b else b / codeBlockCount bg b + 24

/-- The least lifting size with room for them. -/
def leastLiftingSize (bg b : ℕ) : ℕ :=
  (liftingSizes.find? fun z ↦ codeBlockInfo bg b ≤ kb b bg * z).getD 0

/-- The length of a code block. -/
def codeBlockLength (bg b : ℕ) : ℕ := (if bg = 1 then 22 else 10) * leastLiftingSize bg b

/-- A size that is cut into blocks of whole bytes. -/
structure Divides (bg b : ℕ) : Prop where
  pos : 0 < b
  dvd : 8 * codeBlockCount bg b ∣ b

/-! ### The sizes of transport blocks -/

/-- The blocks into which a size was rounded up are those into which it is cut. -/
theorem ceilIDiv_rounded (hx : 0 < x) (hm : 0 < m) :
    ceilIDiv (8 * ceilIDiv x (8 * m) * ceilIDiv x (8 * ceilIDiv x (8 * m))) (8 * m) =
      ceilIDiv x (8 * m) := by
  have hm8 : 0 < 8 * m := by omega
  generalize hc : ceilIDiv x (8 * m) = c
  have hcpos : 0 < 8 * c := by
    have := Mac.ceilIDiv_pos hx hm8
    omega
  have hxc : x ≤ 8 * m * c := (Mac.ceilIDiv_le_iff hm8).1 hc.le
  have hq : ceilIDiv x (8 * c) ≤ m := (Mac.ceilIDiv_le_iff hcpos).2 <| by
    rwa [mul_right_comm]
  refine le_antisymm ((Mac.ceilIDiv_le_iff hm8).2 ?_) ?_
  · calc 8 * c * ceilIDiv x (8 * c) ≤ 8 * c * m := mul_le_mul_left _ hq
      _ = 8 * m * c := mul_right_comm _ _ _
  · rw [← hc, Mac.ceilIDiv_le_iff hm8, hc]
    exact (Mac.le_mul_ceilIDiv hcpos).trans (Mac.le_mul_ceilIDiv hm8)

theorem divides_of_le (hpos : 0 < b) (hle : b ≤ kcb bg) (h8 : 8 ∣ b) : Divides bg b where
  pos := hpos
  dvd := by rwa [codeBlockCount, if_pos hle, mul_one]

/-- A size rounded up to blocks of `8 * m` bits. -/
theorem divides_rounded (hm : kcb bg - 24 = 8 * m) (hx : kcb bg < x) :
    Divides bg (8 * ceilIDiv x (8 * m) * ceilIDiv x (8 * ceilIDiv x (8 * m))) := by
  have hkcb : 3840 ≤ kcb bg := by
    rw [kcb]
    split <;> omega
  have hm8 : 0 < 8 * m := by omega
  have hcpos : 0 < 8 * ceilIDiv x (8 * m) := by
    have := @Mac.ceilIDiv_pos x _ (by omega) hm8
    omega
  have hle := @Mac.le_mul_ceilIDiv x _ hcpos
  refine ⟨by omega, ?_⟩
  rw [codeBlockCount, if_neg (by omega), hm, ceilIDiv_rounded (by omega) (by omega)]
  exact Nat.dvd_mul_right _ _

theorem getBG_of_le (h : r ≤ 2560) : getBG a r = 2 := if_pos (.inr (.inr (by omega)))

theorem getBG_of_lt (ha : 3824 < a) (h : 2560 < r) : getBG a r = 1 :=
  if_neg (by omega)

theorem tbsTableNr_bounds : ∀ a ∈ tbsTableNr, a ≤ 3824 ∧ 8 ∣ a := by
  decide

theorem kcb_ge (bg : ℕ) : 3840 ≤ kcb bg := by
  rw [kcb]
  split <;> omega

theorem lenWithCrc_one (a : ℕ) : lenWithCrc 1 a = a + if a > 3824 then 24 else 16 :=
  if_neg (lt_irrefl 1)

/-- **The sizes of the MAC layer are cut into blocks of whole bytes**, with the base graph for them. -/
theorem divides_tbsOfNInfo (r n : ℕ) :
    Divides (getBG (tbsOfNInfo r n) r) (lenWithCrc 1 (tbsOfNInfo r n)) := by
  rw [lenWithCrc_one]
  by_cases hn : n ≤ 3824
  · obtain ⟨hle, h8⟩ := tbsTableNr_bounds _ (Mac.tbsOfNInfo_mem (r := r) hn)
    have hkcb := kcb_ge (getBG (tbsOfNInfo r n) r)
    rw [if_neg (by omega)]
    exact divides_of_le (by omega) (by omega) (by omega)
  · have heq := Mac.tbsOfNInfo_eq_roundedTbs r (not_le.1 hn)
    have hnp := Mac.le_npInfoLarge n
    generalize Mac.npInfoLarge n = npInfo at heq hnp
    have hle := Mac.le_roundedTbs r npInfo
    rw [if_pos (by omega), heq]
    rw [Mac.roundedTbs]
    split
    · rw [getBG_of_le ‹_›, shiftLeft_eq, mul_comm _ (2 ^ 3)]
      exact divides_rounded (m := 477) rfl (by rw [kcb, if_neg (by decide)]; omega)
    · rw [getBG_of_lt (by omega) (not_le.1 ‹_›)]
      split
      · rw [shiftLeft_eq, mul_comm _ (2 ^ 3)]
        exact divides_rounded (m := 1053) rfl (by rw [kcb, if_pos rfl]; omega)
      · have hceil : ceilIDiv (npInfo + 24) 8 ≤ 1056 :=
          (Mac.ceilIDiv_le_iff (by decide)).2 (by omega)
        have hpos := @Mac.ceilIDiv_pos (npInfo + 24) 8 (by omega) (by decide)
        rw [shiftLeft_eq]
        exact divides_of_le (by omega) (by rw [kcb, if_pos rfl]; omega) (Nat.dvd_mul_left _ _)

/-! ### The sizes of code blocks -/

theorem ceil_le_iff (hd : 0 < d) : (if n % d > 0 then n / d + 1 else n / d) ≤ k ↔ n ≤ d * k := by
  have hdiv := div_add_mod n d
  split
  · have hne : n ≠ d * k := fun h ↦ by simp [h] at *
    rw [succ_le_iff, div_lt_iff_lt_mul hd, mul_comm k]
    omega
  · refine ⟨fun h ↦ ?_, fun h ↦ Nat.div_le_of_le_mul h⟩
    have := mul_le_mul_left d h
    omega

theorem ceilIDiv_eq (hm : 0 < m) :
    (if m * (b / m) < b then b / m + 1 else b / m) = ceilIDiv b m := by
  have hdiv := div_add_mod b m
  have hcond : m * (b / m) < b ↔ b % m > 0 := by omega
  refine eq_of_forall_ge_iff fun k ↦ ?_
  rw [Mac.ceilIDiv_le_iff hm, if_congr hcond rfl rfl, ceil_le_iff hm]

theorem le_of_mem_liftingSizes : ∀ z ∈ liftingSizes, z ≤ 384 := by
  decide

/-- **The lifting size is the least one** that is not below `Z`. -/
theorem liftZ_eq (z : ℕ) : liftZ z = liftingSizes.find? (z ≤ ·) := by
  by_cases hz : z ≤ 384
  · revert z
    decide +kernel
  · have hnone : liftingSizes.find? (z ≤ ·) = none := by
      rw [find?_eq_none]
      intro x hx
      have := le_of_mem_liftingSizes x hx
      simp only [decide_eq_true_eq]
      omega
    rw [hnone, liftZ]
    simp only [show ¬ z ≤ 2 by omega, show ¬ z ≤ 16 by omega, show ¬ z ≤ 32 by omega,
      show ¬ z ≤ 64 by omega, show ¬ z ≤ 128 by omega, show ¬ z ≤ 256 by omega, hz, if_false]

theorem kb_pos (b bg : ℕ) : 0 < kb b bg := by
  rw [kb]
  split_ifs <;> decide

theorem kb_le (b bg : ℕ) : kb b bg ≤ if bg = 1 then 22 else 10 := by
  rw [kb]
  split_ifs <;> decide

theorem kcb_le_of_lt (h : kcb bg < b) : kcb bg ≤ kb b bg * 384 := by
  rw [kb]
  rw [kcb] at *
  split at h
  · rw [if_pos ‹_›, if_pos ‹_›]
  · rw [if_neg ‹_›, if_neg ‹_›, if_pos (by omega)]

theorem le_kb_mul_of_le (h : b ≤ kcb bg) : b ≤ kb b bg * 384 := by
  rw [kcb] at h
  rw [kb]
  split_ifs at * <;> omega

theorem codeBlockInfo_le : codeBlockInfo bg b ≤ kb b bg * 384 := by
  rw [codeBlockInfo]
  split
  · exact le_kb_mul_of_le ‹_›
  · rename_i hb
    have hkcb := kcb_ge bg
    have hle : b / codeBlockCount bg b ≤ kcb bg - 24 := by
      refine Nat.div_le_of_le_mul ?_
      rw [codeBlockCount, if_neg hb, Nat.mul_comm]
      exact Mac.le_mul_ceilIDiv (by omega)
    exact (show _ ≤ kcb bg by omega).trans (kcb_le_of_lt (not_le.1 hb))

/-- The least lifting size is one, and has room for the bits. -/
theorem find?_liftingSizes (bg b : ℕ) :
    liftingSizes.find? (fun z ↦ codeBlockInfo bg b ≤ kb b bg * z) = some (leastLiftingSize bg b) ∧
    codeBlockInfo bg b ≤ kb b bg * leastLiftingSize bg b := by
  obtain ⟨z, hz⟩ : ∃ z, liftingSizes.find? (fun z ↦ codeBlockInfo bg b ≤ kb b bg * z) = some z := by
    rw [← Option.isSome_iff_exists, find?_isSome]
    exact ⟨384, by decide, decide_eq_true codeBlockInfo_le⟩
  have hle := find?_some hz
  rw [decide_eq_true_eq] at hle
  rw [leastLiftingSize, hz]
  exact ⟨rfl, hle⟩

theorem codeBlockInfo_le_length (bg b : ℕ) : codeBlockInfo bg b ≤ codeBlockLength bg b :=
  (find?_liftingSizes bg b).2.trans (mul_le_mul_right _ (kb_le b bg))

theorem one_lt_codeBlockCount : 1 < codeBlockCount bg b ↔ ¬ b ≤ kcb bg := by
  have hkcb := kcb_ge bg
  rw [codeBlockCount]
  split
  · omega
  · rw [← not_le, Mac.ceilIDiv_le_iff (by omega)]
    omega

/-- Blocks of `m` whole bytes of data. -/
structure SegmentationSizes.Whole (q : SegmentationSizes) (m : ℕ) : Prop where
  l_eq : q.l = if q.c > 1 then 24 else 0
  kprime_eq : q.kprime = 8 * m + q.l
  kprime_le : q.kprime ≤ q.k
  f_eq : q.f = q.k - q.kprime

/-- **The sizes are those of TS 38.212.** -/
theorem nrSegmentationSizes_eq (b bg : ℕ) :
    nrSegmentationSizes b bg = some
      { l := if b ≤ kcb bg then 0 else 24
        c := codeBlockCount bg b
        kprime := codeBlockInfo bg b
        kb := kb b bg
        zout := leastLiftingSize bg b
        k := codeBlockLength bg b
        f := codeBlockLength bg b - codeBlockInfo bg b } := by
  have hc : (if b ≤ kcb bg then 1
      else if (kcb bg - if b ≤ kcb bg then 0 else 24) * (b / (kcb bg - if b ≤ kcb bg then 0 else 24)) < b
      then b / (kcb bg - if b ≤ kcb bg then 0 else 24) + 1
      else b / (kcb bg - if b ≤ kcb bg then 0 else 24)) = codeBlockCount bg b := by
    have hkcb := kcb_ge bg
    rw [codeBlockCount]
    by_cases hb : b ≤ kcb bg
    · rw [if_pos hb, if_pos hb]
    · simp only [if_neg hb]
      exact ceilIDiv_eq (by omega)
  have hk : (if b ≤ kcb bg then b else b + codeBlockCount bg b * if b ≤ kcb bg then 0 else 24) /
      codeBlockCount bg b = codeBlockInfo bg b := by
    by_cases hb : b ≤ kcb bg
    · rw [codeBlockInfo, if_pos hb, if_pos hb, codeBlockCount, if_pos hb, Nat.div_one]
    · have hpos : 0 < codeBlockCount bg b := lt_of_succ_lt (one_lt_codeBlockCount.2 hb)
      rw [codeBlockInfo, if_neg hb, if_neg hb, if_neg hb, add_mul_div_left _ _ hpos]
  have hz : liftZ (if codeBlockInfo bg b % kb b bg > 0 then codeBlockInfo bg b / kb b bg + 1
      else codeBlockInfo bg b / kb b bg) = some (leastLiftingSize bg b) := by
    rw [liftZ_eq, ← (find?_liftingSizes bg b).1]
    simp only [ceil_le_iff (kb_pos b bg)]
  rw [nrSegmentationSizes]
  rw [hc, hk, hz, Option.map_some, codeBlockLength]
  simp only [ite_mul, mul_comm]

theorem whole_of_divides (h : Divides bg b)
    (hq : nrSegmentationSizes b bg = some q) : ∃ m, b = 8 * (q.c * m) ∧ q.Whole m := by
  rw [nrSegmentationSizes_eq, Option.some.injEq] at hq
  obtain ⟨m, hm⟩ := h.dvd
  have hpos : 0 < codeBlockCount bg b := by
    refine pos_of_ne_zero fun h0 ↦ ?_
    rw [h0, mul_zero, zero_mul] at hm
    exact h.pos.ne' hm
  subst hq
  refine ⟨m, hm.trans (mul_assoc _ _ _), ⟨?_, ?_, codeBlockInfo_le_length bg b, rfl⟩⟩
  · simp only [gt_iff_lt, one_lt_codeBlockCount, ite_not]
  · dsimp only
    rw [codeBlockInfo]
    by_cases hb : b ≤ kcb bg
    · rw [if_pos hb, if_pos hb, add_zero]
      rwa [codeBlockCount, if_pos hb, mul_one] at hm
    · rw [if_neg hb, if_neg hb]
      nth_rewrite 1 [hm]
      rw [Nat.mul_right_comm, Nat.mul_div_cancel _ hpos]

/-! ### One block -/

section Block

variable {q : SegmentationSizes} {m : ℕ} {input out : Buffer} {s i : ℕ}

namespace SegmentationSizes.Whole

theorem dataBytes (h : q.Whole m) : (q.kprime - q.l) >>> 3 = m := by
  rw [h.kprime_eq, Nat.add_sub_cancel, Nat.shiftRight_eq_div_pow]
  exact Nat.mul_div_cancel_left m (by decide)

theorem dataBits (h : q.Whole m) : q.kprime - q.l = 8 * m := by
  rw [h.kprime_eq, Nat.add_sub_cancel]

/-- The byte behind the data and the CRC. -/
theorem kprime_bytes (h : q.Whole m) : q.kprime / 8 = m + if q.c > 1 then 3 else 0 := by
  rw [h.kprime_eq, h.l_eq]
  split <;> omega

theorem kprime_mod (h : q.Whole m) : q.kprime % 8 = 0 := by
  rw [h.kprime_eq, h.l_eq]
  split <;> omega

end SegmentationSizes.Whole

theorem shiftRight_three (n : ℕ) : n >>> 3 = n / 8 := shiftRight_eq_div_pow n 3

/-- Zeroing leaves the bits before the filler bits alone. -/
theorem zeroFiller_of_lt (h : i < q.kprime / 8) : zeroFiller q out i = out i := by
  rw [zeroFiller, shiftRight_three, shiftRight_three]
  split
  · rw [fillLoop_eq_fill]
    exact fill_of_lt h
  · rfl

section

variable (hq : q.Whole m)
include hq

/-- Zeroing reaches the last whole byte. -/
theorem zeroFiller_of_mem (h : q.kprime / 8 ≤ i) (h' : i < q.k / 8) : zeroFiller q out i = 0 := by
  have hf : q.f > 0 := by
    have := hq.f_eq
    omega
  rw [zeroFiller, if_pos hf, fillLoop_eq_fill, shiftRight_three, shiftRight_three]
  exact fill_of_mem h (by omega)

/-- Zeroing leaves the byte with the last bits alone. -/
theorem zeroFiller_of_le (h : q.k / 8 ≤ i) : zeroFiller q out i = out i := by
  have hk := hq.kprime_le
  rw [zeroFiller, shiftRight_three, shiftRight_three]
  split
  · rw [fillLoop_eq_fill]
    exact fill_of_le (by omega)
  · rfl

theorem appendCrc_of_lt (h : i < m) : appendCrc q out i = out i := by
  rw [appendCrc]
  rw [hq.dataBytes]
  split
  · rw [update_of_ne (by omega), update_of_ne (by omega), update_of_ne (by omega)]
  · rfl

theorem appendCrc_of_le (h : q.kprime / 8 ≤ i) : appendCrc q out i = out i := by
  rw [hq.kprime_bytes] at h
  rw [appendCrc]
  rw [hq.dataBytes]
  split
  · rw [if_pos ‹_›] at h
    rw [update_of_ne (by omega), update_of_ne (by omega), update_of_ne (by omega)]
  · rfl

/-- The three bytes of the CRC, the most significant first. -/
theorem slice_appendCrc (hc : q.c > 1) :
    (appendCrc q out).slice m 3 =
      ByteOrder.beBytes 3 ((Crc.remainder poly24b (out.slice 0 m)).toNat / 2 ^ 8) := by
  have hcrc : (crc24b out (8 * m) >>> 8).toNat =
      (Crc.remainder poly24b (out.slice 0 m)).toNat / 2 ^ 8 := by
    rw [crc24b_eq_remainder out (Nat.mul_mod_right 8 m), Nat.mul_div_cancel_left m (by decide),
      BitVec.toNat_ushiftRight, shiftRight_eq_div_pow]
  rw [appendCrc]
  rw [if_pos hc, hq.dataBytes, hq.dataBits, hcrc]
  generalize (Crc.remainder poly24b (out.slice 0 m)).toNat / 2 ^ 8 = x
  have hdiv : x / 256 / 256 = x / 65536 := Nat.div_div_eq_div_mul _ _ _
  simp [slice, range_succ, update, ByteOrder.beBytes, shiftRight_eq_div_pow, add_comm m, hdiv]

/-- **The data of a block** is the input. -/
theorem segmentBlock_of_lt (h : i < m) : segmentBlock q input s out i = input (s + i) := by
  have hi : i < q.kprime / 8 := by
    rw [hq.kprime_bytes]
    exact Nat.lt_add_right _ h
  rw [segmentBlock, zeroFiller_of_lt hi, appendCrc_of_lt hq h, copyLoop_eq_copy,
    hq.dataBytes, copy_of_mem (Nat.zero_le i) (by omega), Nat.sub_zero]

/-- **The CRC of a block** is the remainder of its data. -/
theorem slice_segmentBlock_crc (hc : q.c > 1) :
    (segmentBlock q input s out).slice m 3 =
      ByteOrder.beBytes 3 ((Crc.remainder poly24b (input.slice s m)).toNat / 2 ^ 8) := by
  have hdata : (copyLoop input m 0 s out).slice 0 m = input.slice s m :=
    slice_congr fun k hk ↦ by
      rw [copyLoop_eq_copy, copy_of_mem (zero_le _) (by omega), zero_add, Nat.sub_zero]
  rw [← hdata, ← slice_appendCrc hq hc, segmentBlock, hq.dataBytes]
  refine slice_congr fun k hk ↦ zeroFiller_of_lt ?_
  rw [hq.kprime_bytes, if_pos hc]
  omega

/-- **The filler bits** of the whole bytes are zero. -/
theorem segmentBlock_of_filler (h : q.kprime / 8 ≤ i) (h' : i < q.k / 8) :
    segmentBlock q input s out i = 0 :=
  zeroFiller_of_mem hq h h'

/-- **The bits behind the last whole byte** are what they were. -/
theorem segmentBlock_of_le (h : q.k / 8 ≤ i) : segmentBlock q input s out i = out i := by
  have hk := Nat.div_le_div_right (c := 8) hq.kprime_le
  have hm := hq.kprime_bytes
  rw [segmentBlock, zeroFiller_of_le hq h, appendCrc_of_le hq (hk.trans h), hq.dataBytes,
    copyLoop_eq_copy, copy_of_le (by omega)]

end

end Block

/-! ### All blocks -/

theorem segmentBlocks_of_lt
    (outs : ℕ → Buffer) (h : j < r) : segmentBlocks q input n r s outs j = outs j := by
  induction n generalizing r s outs with
  | zero => rfl
  | succ n ih => rw [segmentBlocks, ih _ (lt_succ_of_lt h), update_of_ne h.ne]

theorem segmentBlocks_of_mem (outs : ℕ → Buffer) (h : r ≤ j) (h' : j < r + n) :
    segmentBlocks q input n r s outs j =
      segmentBlock q input (s + (j - r) * ((q.kprime - q.l) >>> 3)) (outs j) := by
  induction n generalizing r s outs with
  | zero => omega
  | succ n ih =>
    rw [segmentBlocks]
    rcases h.eq_or_lt with rfl | h
    · rw [segmentBlocks_of_lt _ (Nat.lt_succ_self r), update_self, Nat.sub_self, zero_mul, add_zero]
    · have hsub : j - r = j - (r + 1) + 1 := by omega
      rw [ih (r := r + 1) _ h (by omega), update_of_ne h.ne', hsub, succ_mul]
      congr 1
      omega

/-! ### Correctness -/

/-- What segmentation is for: `out` are the blocks of a transport block of `b` bits, `a` without CRC. -/
structure SegmentationCorrect (a b : ℕ) (input : Buffer) (q : SegmentationSizes)
    (out : ℕ → Buffer) : Prop where
  /-- **The data** of the blocks is the input. -/
  lossless : ((range q.c).flatMap fun r ↦ (out r).slice 0 ((q.kprime - q.l) / 8)) =
    input.slice 0 (b / 8)
  /-- **The CRC** behind it is that of the data, and is accepted. -/
  crc : q.c > 1 → ∀ r < q.c,
    (out r).slice ((q.kprime - q.l) / 8) 3 = ByteOrder.beBytes 3
      ((Crc.remainder poly24b ((out r).slice 0 ((q.kprime - q.l) / 8))).toNat / 2 ^ 8) ∧
    checkCrc24b (out r) (lenWithCrc q.c a) = true
  length : q.kprime + q.f = q.k
  /-- **The filler bits** are zero. -/
  filler : ∀ r < q.c, ∀ i, q.kprime ≤ i → i < q.k → unpackedBit (out r) i = 0
  /-- **The receiver** puts the blocks together again, in whichever order they are decoded. -/
  recovered : ∀ order : List ℕ, order.Perm (range q.c) →
    ∀ c : ℕ → Buffer, (∀ r < q.c, ∀ k < q.k / 8, c r k = out r k) →
    ∀ buf : Buffer, ∀ i < b / 8, order.foldl (nrPostDecode q c) buf i = input i

theorem unpackedBit_congr (h : buf (i / 8) = buf' (i / 8)) :
    unpackedBit buf i = unpackedBit buf' i := by
  rw [unpackedBit, unpackedBit, h]

theorem unpackedBit_of_zero (h : buf (i / 8) = 0) : unpackedBit buf i = 0 := by
  rw [unpackedBit, h]
  simp

/-- The three bytes that `check_crc` reads. -/
theorem checkCrc24b_of_slice (h : buf.slice m 3 =
      ByteOrder.beBytes 3 ((Crc.remainder poly24b (buf.slice 0 m)).toNat / 2 ^ 8)) :
    checkCrc24b buf (8 * m + 24) = true := by
  have hdiv : (8 * m + 24) / 8 = m + 3 := by omega
  have hlt : (Crc.remainder poly24b (buf.slice 0 m)).toNat / 2 ^ 8 < 2 ^ 24 := by omega
  rw [checkCrc24b, hdiv, Nat.add_sub_cancel, Nat.add_sub_cancel,
    crc24b_eq_remainder _ (Nat.mul_mod_right 8 m), Nat.mul_div_cancel_left m (by decide), BitVec.toNat_ushiftRight, Nat.shiftRight_eq_div_pow,
    decide_eq_true_eq]
  generalize (Crc.remainder poly24b (buf.slice 0 m)).toNat / 2 ^ 8 = x at h hlt ⊢
  simp only [slice, ByteOrder.beBytes, range_succ, range_zero, nil_append,
    map_cons, map_nil, cons_append, cons.injEq, Nat.add_zero, and_true] at h
  obtain ⟨h0, h1, h2⟩ := h
  have hlow : (x / 2 ^ 8 % 2 ^ 8) <<< 8 ||| x % 2 ^ 8 = x % 2 ^ 16 := by
    rw [← Nat.shiftLeft_add_eq_or_of_lt (Nat.mod_lt x (by decide)), Nat.shiftLeft_eq]
    omega
  rw [show m + 3 - 2 = m + 1 from rfl, show m + 3 - 1 = m + 2 from rfl, h0, h1, h2,
    UInt8.toNat_ofNat', UInt8.toNat_ofNat', UInt8.toNat_ofNat', Nat.or_assoc, hlow,
    ← Nat.shiftLeft_add_eq_or_of_lt (Nat.mod_lt x (by decide)), Nat.shiftLeft_eq]
  omega

section Correct

variable {q : SegmentationSizes} {m a b bg : ℕ} {input : Buffer} {outs : ℕ → Buffer}

section

variable (hq : q.Whole m)
include hq

/-- Block `r` is cut from its place in the input. -/
theorem segmentBlocks_eq (hr : r < q.c) :
    segmentBlocks q input q.c 0 0 outs r = segmentBlock q input (r * m) (outs r) := by
  rw [segmentBlocks_of_mem outs (Nat.zero_le r) (by omega), hq.dataBytes, Nat.zero_add, Nat.sub_zero]

theorem lossless_segmentBlocks :
    ((range q.c).flatMap fun r ↦ (segmentBlocks q input q.c 0 0 outs r).slice 0 m) =
      input.slice 0 (q.c * m) := by
  rw [← flatMap_slice]
  refine flatMap_congr fun r hr ↦ slice_congr fun k hk ↦ ?_
  rw [segmentBlocks_eq hq (mem_range.1 hr), zero_add, segmentBlock_of_lt hq hk]

theorem crc_segmentBlocks (hc : q.c > 1) (hr : r < q.c) (input : Buffer) (outs : ℕ → Buffer) :
    (segmentBlocks q input q.c 0 0 outs r).slice m 3 = ByteOrder.beBytes 3
      ((Crc.remainder poly24b
        ((segmentBlocks q input q.c 0 0 outs r).slice 0 m)).toNat / 2 ^ 8) := by
  have hdata : (segmentBlock q input (r * m) (outs r)).slice 0 m = input.slice (r * m) m :=
    slice_congr fun k hk ↦ by rw [zero_add, segmentBlock_of_lt hq hk]
  rw [segmentBlocks_eq hq hr, hdata, slice_segmentBlock_crc hq hc]

/-- **The filler bits are zero exactly if those behind the last whole byte were.** -/
theorem filler_segmentBlocks_iff (input : Buffer) (outs : ℕ → Buffer) :
    (∀ r < q.c, ∀ i, q.kprime ≤ i → i < q.k →
      unpackedBit (segmentBlocks q input q.c 0 0 outs r) i = 0) ↔
    ∀ r < q.c, ∀ i, 8 * (q.k / 8) ≤ i → i < q.k → unpackedBit (outs r) i = 0 := by
  have hmod := hq.kprime_mod
  have hle := hq.kprime_le
  refine forall₂_congr fun r hr ↦ forall_congr' fun i ↦ ?_
  rw [segmentBlocks_eq hq hr]
  by_cases hi : i / 8 < q.k / 8
  · constructor
    · omega
    · intro _ hk _
      exact unpackedBit_of_zero (segmentBlock_of_filler hq (by omega) hi)
  · rw [unpackedBit_congr (segmentBlock_of_le hq (not_lt.1 hi))]
    constructor
    · intro h h8 hk
      exact h (by omega) hk
    · intro h _ hk
      exact h (by omega) hk

theorem blockBytes_eq : blockBytes q = m := by
  have hk := hq.kprime_bytes
  have hmod := hq.kprime_mod
  have hle := hq.kprime_le
  rw [blockBytes, shiftRight_three, shiftRight_three, hq.f_eq]
  omega

end

theorem ulschOffset_eq (r : ℕ) : ulschOffset q r = r * blockBytes q := by
  induction r with
  | zero => rw [zero_mul, ulschOffset]
  | succ r ih => rw [ulschOffset, ih, succ_mul]

theorem foldl_nrPostDecode (hq : q.Whole m) (c : ℕ → Buffer) (order : List ℕ) (buf : Buffer) :
    order.foldl (nrPostDecode q c) buf = placeChunks m c order buf := by
  have hstep : nrPostDecode q c = fun buf r ↦ copy buf (r * m) (c r) 0 m := by
    funext buf r
    rw [nrPostDecode, ulschOffset_eq, blockBytes_eq hq]
  rw [hstep, placeChunks]

theorem recovered_segmentBlocks (hq : q.Whole m) {order : List ℕ} (horder : order.Perm (range q.c))
    (hdec : ∀ r < q.c, ∀ k < q.k / 8, c r k = segmentBlocks q input q.c 0 0 outs r k)
    (buf : Buffer) (hi : i < q.c * m) : order.foldl (nrPostDecode q c) buf i = input i := by
  have hm : 0 < m := pos_of_ne_zero fun h0 ↦ by
    rw [h0, mul_zero] at hi
    exact not_lt_zero i hi
  have hr : i / m < q.c := (div_lt_iff_lt_mul hm).2 hi
  have hmod : i % m < m := mod_lt i hm
  have hbytes : i % m < q.k / 8 := by
    have hle := Nat.div_le_div_right (c := 8) hq.kprime_le
    have hk := hq.kprime_bytes
    omega
  have hsplit : i / m * m + i % m = i := div_add_mod' i m
  have hmem : i / m ∈ order := horder.mem_iff.2 (mem_range.2 hr)
  calc order.foldl (nrPostDecode q c) buf i
      = placeChunks m c order buf (i / m * m + i % m) := by
        rw [foldl_nrPostDecode hq, hsplit]
    _ = c (i / m) (i % m) := placeChunks_of_mem hmod hmem buf
    _ = input (i / m * m + i % m) := by
        rw [hdec _ hr _ hbytes, segmentBlocks_eq hq hr, segmentBlock_of_lt hq hmod]
    _ = input i := by rw [hsplit]

/-- The length that the receiver checks is the sender's. -/
theorem lenWithCrc_eq (hb : b = lenWithCrc 1 a) (h : ¬ b ≤ kcb bg) :
    lenWithCrc (codeBlockCount bg b) a = codeBlockInfo bg b := by
  have hkcb := kcb_ge bg
  have hc := one_lt_codeBlockCount.2 h
  have hlen : a + 24 = b := by
    rw [lenWithCrc_one] at hb
    split at hb <;> omega
  rw [lenWithCrc, if_pos hc, hlen, codeBlockInfo, if_neg h,
    add_mul_div_right _ _ (lt_of_succ_lt hc)]

/-- With the filler bits, the blocks are correct. -/
theorem segmentBlocks_correct (hq : q.Whole m) (hb : b = 8 * (q.c * m))
    (hlen : q.c > 1 → lenWithCrc q.c a = q.kprime) (hfill : ∀ r < q.c, ∀ i, q.kprime ≤ i → i < q.k →
      unpackedBit (segmentBlocks q input q.c 0 0 outs r) i = 0) :
    SegmentationCorrect a b input q (segmentBlocks q input q.c 0 0 outs) := by
  have hm : (q.kprime - q.l) / 8 = m := by
    rw [← shiftRight_three, hq.dataBytes]
  have hbytes : b / 8 = q.c * m := by
    rw [hb, Nat.mul_div_cancel_left _ (by decide)]
  refine ⟨?_, ?_, ?_, hfill, ?_⟩
  · rw [hm, hbytes]
    exact lossless_segmentBlocks hq
  · intro hc r hr
    have hslice := crc_segmentBlocks hq hc hr input outs
    have hkprime : q.kprime = 8 * m + 24 := by
      rw [hq.kprime_eq, hq.l_eq, if_pos hc]
    rw [hm, hlen hc, hkprime]
    exact ⟨hslice, checkCrc24b_of_slice hslice⟩
  · rw [hq.f_eq, Nat.add_sub_cancel' hq.kprime_le]
  · intro order horder c hdec buf i hi
    exact recovered_segmentBlocks hq horder hdec buf (hbytes ▸ hi)

/-- Segmentation of a size that is cut into whole bytes. -/
theorem segmentationCorrect_iff (hb : b = lenWithCrc 1 a) (h : Divides bg b) :
    (∃ q out, nrSegmentation input outs b bg = some (q, out) ∧
      SegmentationCorrect a b input q out) ↔
    ∀ r < codeBlockCount bg b, ∀ i, 8 * (codeBlockLength bg b / 8) ≤ i →
      i < codeBlockLength bg b → unpackedBit (outs r) i = 0 := by
  obtain ⟨m, hbm, hq⟩ := whole_of_divides h (nrSegmentationSizes_eq b bg)
  have hfill := filler_segmentBlocks_iff hq input outs
  rw [nrSegmentation, nrSegmentationSizes_eq, Option.map_some]
  constructor
  · rintro ⟨q, out, heq, hcorrect⟩
    obtain ⟨rfl, rfl⟩ : _ = q ∧ _ = out := by
      simpa only [Option.some.injEq, Prod.mk.injEq] using heq
    exact hfill.1 hcorrect.filler
  · intro hzero
    refine ⟨_, _, rfl, segmentBlocks_correct hq hbm ?_ (hfill.2 hzero)⟩
    intro hc
    exact lenWithCrc_eq hb (one_lt_codeBlockCount.1 hc)

end Correct

/-! ### Transport blocks of the MAC layer -/

/-- What the MAC layer computes the size of a transport block from. -/
structure TransportFormat where
  (qm r nbRb nbSymbSch nbDmrsPrb nbRbOh tbScaling nl : ℕ)

namespace TransportFormat

variable (t : TransportFormat)

/-- The size of the transport block. -/
def a : ℕ :=
  nrComputeTbs t.qm t.r t.nbRb t.nbSymbSch t.nbDmrsPrb t.nbRbOh t.tbScaling t.nl

/-- The size with the CRC of the transport block. -/
def b : ℕ := lenWithCrc 1 t.a

/-- The base graph. -/
def bg : ℕ := getBG t.a t.r

theorem divides : Divides t.bg t.b := divides_tbsOfNInfo t.r _

end TransportFormat

/-- **Segmentation is correct exactly if the filler bits that it does not reach are zero before.** -/
theorem segmentation_correct_iff (t : TransportFormat) (inputBuffer : Buffer)
    (outputBuffers : ℕ → Buffer) :
    (∃ q out, nrSegmentation inputBuffer outputBuffers t.b t.bg = some (q, out) ∧
      SegmentationCorrect t.a t.b inputBuffer q out) ↔
    ∀ r < codeBlockCount t.bg t.b, ∀ i, 8 * (codeBlockLength t.bg t.b / 8) ≤ i →
      i < codeBlockLength t.bg t.b → unpackedBit (outputBuffers r) i = 0 :=
  segmentationCorrect_iff rfl t.divides

/-- 304 bits at rate 0.754 in one block of 330 bits. -/
def shortFormat : TransportFormat := ⟨6, 7720, 1, 6, 6, 0, 0, 1⟩

/-- **In cleared memory** it is correct. -/
theorem segmentation_cleared_correct : ∃ q out,
    nrSegmentation (fun _ ↦ 0) (fun _ _ ↦ 0) shortFormat.b shortFormat.bg = some (q, out) ∧
    SegmentationCorrect shortFormat.a shortFormat.b (fun _ ↦ 0) q out :=
  (segmentation_correct_iff shortFormat (fun _ ↦ 0) fun _ _ ↦ 0).2
    fun _ _ _ _ _ ↦ unpackedBit_of_zero rfl

/-- **In used memory** the last two filler bits of that block stay what they were. -/
theorem segmentation_used_not_correct :
    ¬ ∃ q out, nrSegmentation (fun _ ↦ 0) (fun _ _ ↦ 0xff) shortFormat.b shortFormat.bg =
      some (q, out) ∧ SegmentationCorrect shortFormat.a shortFormat.b (fun _ ↦ 0) q out := by
  intro hcorrect
  have h := (segmentationCorrect_iff (b := shortFormat.b) rfl shortFormat.divides).1 hcorrect
  exact absurd (h 0 (by decide) 328 (by decide) (by decide)) (by decide)

end OaiRan.Phy
