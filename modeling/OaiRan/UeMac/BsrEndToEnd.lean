import OaiRan.UeMac.BsrChoice
import Mathlib.Algebra.Ring.Int.Defs
import Mathlib.Data.Nat.BitIndices

/-!
# A buffer status report from end to end

The UE writes an index for the bytes of each logical channel group, and the gNB takes the next larger
index for it. For a group the estimate is never too small **in the numbers of the table**; but the
last of them, `4294967295`, is added up in an `int`, where it is -1. It is reached by every count above
81338368 bytes, because of the step to the next index. `neverUnderReports_iff` says what counts are
still reported with an estimate that is large enough.
-/

namespace OaiRan.UeMac

open CInt OaiRan.Mac List

variable {count g left n : ℕ}

/-! ### The long report -/

/-- `lcg_bsr` for so many bytes in each group. -/
def lcgBsrOf (counts : ℕ → ℕ) : List UInt8 :=
  (range 8).map fun g ↦ .ofNat (nrLocateBsrIndexByBufferSize nrLongBsrTable (counts g))

/-- The MAC CE of a long BSR behind its subheader. -/
def longBsrCe (counts : ℕ → ℕ) : List UInt8 :=
  (bsrBytes 11 (.long false (lcgBsrOf counts))).drop 2

/-- What `estimate_ul_buffer_long_bsr` returns: the sizes are added up in an `int`. -/
def estimSizeLong (payload : List UInt8) : ℤ := toInt32 (estimateUlBufferLongBsr payload)

/-- The octet of a short BSR behind its subheader. -/
def shortBsrOctet (lcgId count : ℕ) : UInt8 :=
  (bsrBytes 2 (.short false lcgId (nrLocateBsrIndexByBufferSize nrShortBsrTable count))).getD 1 0

/-- What `estimate_ul_buffer_short_bsr` returns. -/
def estimSizeShort (octet : UInt8) : ℤ := toInt32 (estimateUlBufferShortBsr octet)

/-- The size that the gNB takes for a count. -/
def longEstimate (count : ℕ) : ℕ :=
  estimateBsrIndex nrLongBsrTable (nrLocateBsrIndexByBufferSize nrLongBsrTable count)

theorem longEstimate_zero : longEstimate 0 = 0 := by decide +kernel

/-- The loop over the groups finds the entries in their order. -/
theorem estimateLcgs_eq (bitmap : UInt8) (p : ℕ → Bool) (index : ℕ → UInt8)
    (hbit : ∀ g ∈ range' n left, bitmap.toNat.testBit g = p g) :
    estimateLcgs bitmap left n (((range' n left).filter p).map index) =
      (((range' n left).filter p).map fun g ↦
        estimateBsrIndex nrLongBsrTable (index g).toNat).sum := by
  induction left generalizing n with
  | zero => rfl
  | succ left ih =>
    rw [range'_succ] at hbit ⊢
    have htail := ih fun g hg ↦ hbit g (mem_cons_of_mem _ hg)
    rw [estimateLcgs, hbit n (mem_cons_self ..), filter_cons]
    rcases p n with - | -
    · exact htail
    · show _ + estimateLcgs bitmap left (n + 1) (((range' (n + 1) left).filter p).map index) = _
      rw [htail]
      rfl

/-- The groups with an entry. -/
def withData (counts : ℕ → ℕ) : List ℕ := (range 8).filter fun g ↦ decide (counts g ≠ 0)

variable {counts : ℕ → ℕ}

/-- The bitmap and the indices of the groups that have data. -/
theorem longBsrCe_eq (h : ∀ g < 8, counts g < 2 ^ 32) :
    longBsrCe counts = .ofNat ((withData counts).map fun g ↦ 2 ^ g).sum ::
      (withData counts).map fun g ↦
        .ofNat (nrLocateBsrIndexByBufferSize nrLongBsrTable (counts g)) := by
  have hentries : lcgEntries ((range 8).zip (lcgBsrOf counts)) 8 =
      (withData counts).map fun g ↦
        (g, .ofNat (nrLocateBsrIndexByBufferSize nrLongBsrTable (counts g))) := by
    refine (lcgEntries_index h 8).trans (congrArg (map _) (take_of_length_le ?_))
    exact length_filter_le ..
  show UInt8.ofNat ((lcgEntries ((range 8).zip (lcgBsrOf counts)) 8).map fun e ↦
    2 ^ e.1).sum :: (lcgEntries ((range 8).zip (lcgBsrOf counts)) 8).map (·.2) = _
  rw [hentries, map_map, map_map]
  rfl

theorem testBit_bitmap (hg : g < 8) :
    (UInt8.ofNat ((withData counts).map fun g ↦ 2 ^ g).sum).toNat.testBit g =
      decide (counts g ≠ 0) := by
  have hsorted : (withData counts).SortedLT :=
    (pairwise_lt_range.filter _).sortedLT
  have hmem : ((withData counts).map fun g ↦ 2 ^ g).sum.testBit g ↔ counts g ≠ 0 := by
    rw [← Nat.mem_bitIndices, Nat.bitIndices_sum_map_two_pow hsorted, withData, mem_filter,
      mem_range, decide_eq_true_iff]
    exact and_iff_right hg
  rw [UInt8.toNat_ofNat', Nat.testBit_mod_two_pow, decide_eq_true hg, Bool.true_and]
  rw [Bool.eq_iff_iff, hmem, decide_eq_true_iff]

/-- **What the gNB adds up**: an estimate for each group. -/
theorem estimateUlBufferLongBsr_longBsrCe (h : ∀ g < 8, counts g < 2 ^ 32) :
    estimateUlBufferLongBsr (longBsrCe counts) =
      ((range 8).map fun g ↦ longEstimate (counts g)).sum := by
  have hrange : range 8 = range' 0 8 := range_eq_range'
  have hloop := estimateLcgs_eq (.ofNat ((withData counts).map fun g ↦ 2 ^ g).sum)
    (fun g ↦ decide (counts g ≠ 0))
    (fun g ↦ .ofNat (nrLocateBsrIndexByBufferSize nrLongBsrTable (counts g)))
    fun g hg ↦ testBit_bitmap (mem_range.1 (hrange ▸ hg))
  rw [← hrange] at hloop
  rw [longBsrCe_eq h]
  refine hloop.trans ?_
  -- A group without data adds nothing on either side.
  have hzero : ∀ gs : List ℕ, (∀ g ∈ gs, g < 8) →
      ((gs.filter fun g ↦ decide (counts g ≠ 0)).map fun g ↦ estimateBsrIndex nrLongBsrTable
        (UInt8.ofNat (nrLocateBsrIndexByBufferSize nrLongBsrTable (counts g))).toNat).sum =
        (gs.map fun g ↦ longEstimate (counts g)).sum := by
    intro gs hgs
    induction gs with
    | nil => rfl
    | cons g gs ih =>
      have htail := ih fun g hg ↦ hgs g (mem_cons_of_mem _ hg)
      have hlt := h g (hgs g (mem_cons_self ..))
      rw [filter_cons, map_cons, sum_cons, ← htail]
      split
      · rw [map_cons, sum_cons, toNat_index hlt]
        rfl
      · rename_i hg
        have hg' : counts g = 0 := by simpa using hg
        rw [hg', longEstimate_zero, Nat.zero_add]
  exact hzero _ fun g hg ↦ mem_range.1 hg

/-! ### The estimate of one group -/

/-- The size behind which the gNB takes the last index. -/
def lastCertain : ℕ := 81338368

theorem longEstimate_of_le (h : count ≤ lastCertain) :
    count ≤ longEstimate count ∧ longEstimate count ≤ 162676736 := by
  have hcount : count < 2 ^ 32 := by
    rw [lastCertain] at h
    omega
  obtain ⟨hin, hge, hleast⟩ := isSmallestIndex_count hcount
  rw [longEstimate]
  generalize nrLocateBsrIndexByBufferSize nrLongBsrTable count = index at *
  have hindex : index ≤ 253 := by
    by_contra hlarge
    have hlt := hleast 253 (by omega)
    have hvalue : nrLongBsrTable.getD 253 0 = lastCertain := by decide
    omega
  have hlength : nrLongBsrTable.length = 256 := by decide +kernel
  have hlast : nrLongBsrTable.getD 254 0 = 162676736 := by decide
  have hover : index ≤ overestimBsrIndex index ∧ overestimBsrIndex index ≤ 254 := by
    rw [overestimBsrIndex]
    split <;> omega
  rw [estimateBsrIndex, Nat.min_eq_left (by omega)]
  refine ⟨Nat.le_trans hge (ascending_nrLongBsrTable.le_of_le hover.1 (by omega)), ?_⟩
  rw [← hlast]
  exact ascending_nrLongBsrTable.le_of_le hover.2 (by omega)

theorem longEstimate_of_gt (h : lastCertain < count) (hcount : count < 2 ^ 32) :
    longEstimate count = 2 ^ 32 - 1 := by
  obtain ⟨hin, hge, -⟩ := isSmallestIndex_count hcount
  rw [longEstimate]
  generalize nrLocateBsrIndexByBufferSize nrLongBsrTable count = index at *
  have hlength : nrLongBsrTable.length = 256 := by decide +kernel
  have hindex : 253 < index := by
    by_contra hsmall
    have hle := ascending_nrLongBsrTable.le_of_le (Nat.le_of_not_lt hsmall) (by omega)
    have hvalue : nrLongBsrTable.getD 253 0 = lastCertain := by decide
    omega
  rw [estimateBsrIndex, overestimBsrIndex, if_pos (by omega), Nat.min_eq_right (by omega)]
  exact largestSize_nrLongBsrTable

/-! ### All groups -/

/-- The counts for which the gNB's number is -1, and 1 for each, are made up for by what the others are
overestimated by. -/
def MadeUpFor (counts : List ℕ) : Prop :=
  ((counts.filter fun c ↦ decide (lastCertain < c)).map (· + 1)).sum ≤
    ((counts.filter fun c ↦ decide (c ≤ lastCertain)).map fun c ↦ longEstimate c - c).sum

/-- What the gNB adds for a count, as an `int`. -/
def longEstimateInt (count : ℕ) : ℤ := if count ≤ lastCertain then longEstimate count else -1

theorem sum_longEstimate (cs : List ℕ) (h : ∀ c ∈ cs, c < 2 ^ 32) :
    ∃ k : ℕ, ((cs.map longEstimate).sum : ℤ) = (cs.map longEstimateInt).sum + 2 ^ 32 * k := by
  induction cs with
  | nil => exact ⟨0, rfl⟩
  | cons c cs ih =>
    obtain ⟨k, hk⟩ := ih fun c hc ↦ h c (mem_cons_of_mem _ hc)
    rw [map_cons, sum_cons, map_cons, sum_cons, longEstimateInt]
    split
    · exact ⟨k, by rw [Int.natCast_add]; omega⟩
    · rename_i hc
      have hgt := longEstimate_of_gt (Nat.lt_of_not_le hc) (h c (mem_cons_self ..))
      exact ⟨k + 1, by rw [Int.natCast_add]; omega⟩

theorem sum_longEstimateInt_mem (cs : List ℕ) :
    -(cs.length : ℤ) ≤ (cs.map longEstimateInt).sum ∧
      (cs.map longEstimateInt).sum ≤ 162676736 * cs.length := by
  induction cs with
  | nil => exact ⟨Int.le_refl 0, Int.le_refl 0⟩
  | cons c cs ih =>
    rw [map_cons, sum_cons, length_cons, longEstimateInt]
    split
    · rename_i hc
      have := longEstimate_of_le hc
      omega
    · push_cast
      omega

theorem sum_le_sum_longEstimateInt_iff (cs : List ℕ) :
    (cs.sum : ℤ) ≤ (cs.map longEstimateInt).sum ↔ MadeUpFor cs := by
  have hsum : (cs.map longEstimateInt).sum - cs.sum =
      (((cs.filter fun c ↦ decide (c ≤ lastCertain)).map fun c ↦ longEstimate c - c).sum : ℕ) -
        (((cs.filter fun c ↦ decide (lastCertain < c)).map (· + 1)).sum : ℕ) := by
    induction cs with
    | nil => rfl
    | cons c cs ih =>
      rw [map_cons, sum_cons, sum_cons, longEstimateInt]
      rcases Nat.lt_or_ge lastCertain c with hgt | hle
      · rw [filter_cons_of_neg (by simpa using hgt), filter_cons_of_pos (by simpa using hgt),
          if_neg (Nat.not_le.2 hgt), map_cons, sum_cons, Int.natCast_add, Int.natCast_add]
        omega
      · have hest := (longEstimate_of_le hle).1
        rw [filter_cons_of_pos (by simpa using hle), filter_cons_of_neg (by simpa using hle),
          if_pos hle, map_cons, sum_cons, Int.natCast_add, Int.natCast_add]
        omega
  rw [MadeUpFor]
  omega

/-- The bytes of each group are reported with an estimate that is large enough. -/
structure NeverUnderReports (counts : ℕ → ℕ) : Prop where
  long : (((range 8).map counts).sum : ℤ) ≤ estimSizeLong (longBsrCe counts)
  short : ∀ lcgId < 8, ∀ g < 8, counts g ≤ 300000 →
    (counts g : ℤ) ≤ estimSizeShort (shortBsrOctet lcgId (counts g))

theorem estimSizeLong_longBsrCe (h : ∀ g < 8, counts g < 2 ^ 32) :
    estimSizeLong (longBsrCe counts) =
      (((range 8).map counts).map longEstimateInt).sum := by
  obtain ⟨k, hk⟩ := sum_longEstimate ((range 8).map counts) (by
    intro c hc
    obtain ⟨g, hg, rfl⟩ := mem_map.1 hc
    exact h g (mem_range.1 hg))
  have hmem := sum_longEstimateInt_mem ((range 8).map counts)
  rw [length_map, length_range] at hmem
  have hmap : ((range 8).map counts).map longEstimate =
      (range 8).map fun g ↦ longEstimate (counts g) := map_map
  rw [estimSizeLong, estimateUlBufferLongBsr_longBsrCe h, ← hmap, hk, toInt32]
  omega

/-- A short report is always large enough. -/
theorem le_estimSizeShort (lcgId : ℕ) (hcount : count ≤ 300000) :
    (count : ℤ) ≤ estimSizeShort (shortBsrOctet lcgId count) := by
  have hlength : nrShortBsrTable.length = 32 := by decide
  have hle : count ≤ largestSize nrShortBsrTable := hcount.trans_eq largestSize_nrShortBsrTable.symm
  obtain ⟨hin, hge, -⟩ := ascending_nrShortBsrTable.isSmallestIndex_nrLocate hle
  rw [estimSizeShort, shortBsrOctet]
  generalize nrLocateBsrIndexByBufferSize nrShortBsrTable count = index at *
  have hoctet : ((bsrBytes 2 (.short false lcgId index)).getD 1 0).toNat % 32 = index := by
    show (UInt8.ofNat (index % 32 + lcgId % 8 * 32)).toNat % 32 = index
    rw [UInt8.toNat_ofNat_of_lt' (show _ < 256 by omega)]
    omega
  rw [estimateUlBufferShortBsr, hoctet, estimateBsrIndex]
  have hover : index ≤ min (overestimBsrIndex index) (nrShortBsrTable.length - 1) := by
    rw [overestimBsrIndex]
    split <;> omega
  have hin' : min (overestimBsrIndex index) (nrShortBsrTable.length - 1) < nrShortBsrTable.length := by
    omega
  have hle := ascending_nrShortBsrTable.le_of_le hover hin'
  have hlarge := ascending_nrShortBsrTable.le_largestSize hin'
  rw [largestSize_nrShortBsrTable] at hlarge
  rw [toInt32_of_mem (by omega) (by omega)]
  omega

/-- **When a report is large enough.** -/
theorem neverUnderReports_iff (h : ∀ g < 8, counts g < 2 ^ 32) :
    NeverUnderReports counts ↔ MadeUpFor ((range 8).map counts) := by
  rw [← sum_le_sum_longEstimateInt_iff, ← estimSizeLong_longBsrCe h]
  exact ⟨fun hn ↦ hn.long, fun hlong ↦ ⟨hlong, fun lcgId _ _ _ hle ↦ le_estimSizeShort lcgId hle⟩⟩

/-- Groups with at most 81338368 bytes each are. -/
theorem madeUpFor_of_le (h : ∀ c ∈ cs, c ≤ lastCertain) : MadeUpFor cs := by
  rw [MadeUpFor, filter_eq_nil_iff.2 fun c hc ↦ by simpa using h c hc]
  exact Nat.zero_le _

theorem thousand_each_reported : (∀ g < 8, (fun _ ↦ 1000 : ℕ → ℕ) g < 2 ^ 32) ∧
    NeverUnderReports fun _ ↦ 1000 :=
  ⟨by decide, (neverUnderReports_iff (by decide)).2 (madeUpFor_of_le (by decide))⟩

/-- **One group with 100000000 bytes** and the others empty: the estimate is -1. -/
theorem hundred_million_under_reported :
    estimSizeLong (longBsrCe fun g ↦ if g = 0 then 100000000 else 0) = -1 ∧
      ¬ NeverUnderReports fun g ↦ if g = 0 then 100000000 else 0 := by
  have hest : estimSizeLong (longBsrCe fun g ↦ if g = 0 then 100000000 else 0) = -1 := by
    decide +kernel
  refine ⟨hest, fun h ↦ ?_⟩
  have hlong := h.long
  rw [hest] at hlong
  exact absurd hlong (by decide)

end OaiRan.UeMac
