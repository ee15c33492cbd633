import OaiRan.Lib.RingIndex
import OaiRan.Mac.RbMap

/-!
# PDCCH candidates

A CORESET is a block of resource blocks over one to three symbols, cut into bundles of REGs; six
REGs make a CCE. `cce_to_reg_interleaving` says which bundle a bundle of a CCE is: with an
interleaver it writes the bundles into rows and reads the columns, and then turns the result by a
shift.

## The parts of `pdcch_no_collision`, and what each rests on

* **The blocks that are tested are those that are marked** (`candidateTaken_iff`,
  `cells_fillPdcchVrbMap`). `find_pdcch_candidate` and `fill_pdcch_vrb_map` go through the blocks of a
  candidate with loops of their own; each is stated against the same set (`candidateRbs`). This holds
  of any numbers.
* **The blocks lie in the CORESET** (`cceRbs_mem`): a CCE has `6 / L` whole bundles, and the bundles
  have all the blocks (`nBundles_mul`). It takes the divisibilities in `Coreset`.
* **No two CCEs share a block** (`disjoint_cceRbs`): a matrix of `R` by `C` bundles has each bundle
  once, so the interleaver is one to one (`cceToRegInterleaving_inj`). It takes `R * L` to divide the
  number of REGs.
* **A candidate that is found meets nothing that was there** (`findPdcchCandidate_spec`,
  `cells_fillAll`), of whichever CORESETs the earlier ones were.

## What is left out

The search spaces, from which the number of candidates and `y` come, and the limit on the blind
decodings of a UE.
-/

namespace OaiRan.Mac

open List Nat

def cceToRegInterleaving (r k nShift c l nRegs : ℕ) : ℕ :=
  if r = 0 then k else (k % r * c + k / r + nShift) % (nRegs / l)

/-- The part of `NR_sched_pdcch_t` that places a PDCCH. -/
structure NrSchedPdcch where
  (bwpStart startSymbolIndex durationSymbols nRb regBundleSize interleaverSize shiftIndex : ℕ)
  deriving DecidableEq

/-- The loops of `find_pdcch_candidate` over a candidate: whether one of its blocks is taken.
`duration` is that of the CORESET. -/
def candidateTaken (vrbMap : RbMap) (pdcch : NrSchedPdcch) (duration firstCce aggregation : ℕ) :
    Bool :=
  let nRegs := pdcch.nRb * duration
  let r := pdcch.interleaverSize
  let l := pdcch.regBundleSize
  let c := if r > 0 then nRegs / (l * r) else 0
  let bRb := l / duration
  (range' firstCce aggregation).any fun j ↦
    (range' (6 * j / l) (6 / l)).any fun k ↦
      let f := cceToRegInterleaving r k pdcch.shiftIndex c l nRegs
      (range bRb).any fun rb ↦
        vrbMap.busy (slToBitmap pdcch.startSymbolIndex duration) (pdcch.bwpStart + f * bRb + rb)

/-- The first CCE of candidate `m`; `y` is an `uint32_t`. -/
def candidateFirstCce (nCces aggregation nrOfCandidates y m : ℕ) : ℕ :=
  aggregation *
    ((y + m * nCces / (aggregation * nrOfCandidates)) % 2 ^ 32 % (nCces / aggregation))

/-- `find_pdcch_candidate`: `none` where it divides by zero, -1 if all candidates are taken. -/
def findPdcchCandidate (vrbMap : RbMap) (pdcch : NrSchedPdcch) (duration aggregation nrOfCandidates
    y : ℕ) : Option ℤ :=
  let nCces := pdcch.nRb * duration / 6
  if 0 < nrOfCandidates ∧ nCces / aggregation = 0 then none
  else
    some <|
      match (range nrOfCandidates).find? fun m ↦
        !candidateTaken vrbMap pdcch duration
          (candidateFirstCce nCces aggregation nrOfCandidates y m) aggregation with
      | some m => candidateFirstCce nCces aggregation nrOfCandidates y m
      | none => -1

def fillPdcchVrbMap (vrbMap : RbMap) (pdcch : NrSchedPdcch) (firstCce aggregation : ℕ) : RbMap :=
  let l := pdcch.regBundleSize
  let r := pdcch.interleaverSize
  let nSymb := pdcch.durationSymbols
  let nRegs := pdcch.nRb * nSymb
  let bRb := l / nSymb
  let c := if r > 0 then nRegs / (l * r) else 0
  vrbMap.setWords <| (range' firstCce aggregation).flatMap fun j ↦
    (range' (6 * j / l) (6 / l)).flatMap fun k ↦
      let f := cceToRegInterleaving r k pdcch.shiftIndex c l nRegs
      (range bRb).map fun rb ↦
        (pdcch.bwpStart + f * bRb + rb, slToBitmap pdcch.startSymbolIndex nSymb)

/-- **A CORESET**, with a bundle size and an interleaver that fit it. -/
structure Coreset extends NrSchedPdcch where
  six_dvd : 6 ∣ nRb
  duration_dvd : durationSymbols ∣ regBundleSize
  bundle_dvd : regBundleSize ∣ 6
  interleaver : interleaverSize = 0 ∨ interleaverSize * regBundleSize ∣ nRb * durationSymbols

namespace Coreset

variable (c : Coreset)

/-- The CCEs of the CORESET. -/
def nCces : ℕ := c.nRb * c.durationSymbols / 6

/-- The bundles of the CORESET. -/
def nBundles : ℕ := c.nRb * c.durationSymbols / c.regBundleSize

/-- The resource blocks of a bundle. -/
def bundleRbs : ℕ := c.regBundleSize / c.durationSymbols

/-- Which bundle of the CORESET is bundle `k` of the CCEs. -/
def bundle (k : ℕ) : ℕ :=
  cceToRegInterleaving c.interleaverSize k c.shiftIndex
    (if c.interleaverSize > 0 then
      c.nRb * c.durationSymbols / (c.regBundleSize * c.interleaverSize) else 0)
    c.regBundleSize (c.nRb * c.durationSymbols)

/-- The resource blocks of a CCE. -/
def cceRbs (j : ℕ) : Set ℕ :=
  {rb | ∃ k, 6 * j / c.regBundleSize ≤ k ∧ k < 6 * j / c.regBundleSize + 6 / c.regBundleSize ∧
    ∃ i < c.bundleRbs, rb = c.bwpStart + c.bundle k * c.bundleRbs + i}

/-- The resource blocks of a candidate. -/
def candidateRbs (firstCce aggregation : ℕ) : Set ℕ :=
  {rb | ∃ j, firstCce ≤ j ∧ j < firstCce + aggregation ∧ rb ∈ c.cceRbs j}

/-- The symbols of the CORESET. -/
def slbitmap : ℕ := slToBitmap c.startSymbolIndex c.durationSymbols

/-- The (resource block, symbol) pairs of a candidate. -/
def candidateCells (firstCce aggregation : ℕ) : Set (ℕ × ℕ) :=
  {x | x.1 ∈ c.candidateRbs firstCce aggregation ∧ c.slbitmap.testBit x.2 = true}

variable {c} {j j' k k' firstCce aggregation : ℕ}

/-! ### Bundles -/

theorem regBundleSize_pos : 0 < c.regBundleSize := pos_of_dvd_of_pos c.bundle_dvd (by decide)

theorem duration_pos : 0 < c.durationSymbols :=
  pos_of_dvd_of_pos c.duration_dvd c.regBundleSize_pos

theorem bundleRbs_mul : c.bundleRbs * c.durationSymbols = c.regBundleSize :=
  Nat.div_mul_cancel c.duration_dvd

/-- The bundles have all the blocks of the CORESET. -/
theorem nBundles_mul : c.nBundles * c.bundleRbs = c.nRb := by
  have hdvd : c.bundleRbs ∣ c.nRb :=
    (Dvd.intro _ c.bundleRbs_mul).trans (c.bundle_dvd.trans c.six_dvd)
  rw [nBundles, ← c.bundleRbs_mul, Nat.mul_div_mul_right _ _ c.duration_pos,
    Nat.div_mul_cancel hdvd]

/-- A CCE has `6 / L` bundles. -/
theorem firstBundle_eq (j : ℕ) : 6 * j / c.regBundleSize = 6 / c.regBundleSize * j := by
  rw [Nat.mul_comm 6, Nat.mul_div_assoc j c.bundle_dvd, Nat.mul_comm]

theorem nCces_mul : 6 / c.regBundleSize * c.nCces = c.nBundles := by
  have hregs : 6 ∣ c.nRb * c.durationSymbols := c.six_dvd.mul_right _
  rw [← firstBundle_eq, nCces, Nat.mul_div_cancel' hregs, nBundles]

/-- The bundles of a CCE are bundles of the CORESET. -/
theorem lt_nBundles (hj : j < c.nCces)
    (hk : k < 6 * j / c.regBundleSize + 6 / c.regBundleSize) : k < c.nBundles := by
  rw [firstBundle_eq, ← mul_succ] at hk
  exact hk.trans_le (c.nCces_mul ▸ mul_le_mul_left _ hj)

/-- An interleaver has `R` rows of `C` bundles. -/
theorem interleaver_mul (hr : c.interleaverSize ≠ 0) :
    c.interleaverSize *
      (c.nRb * c.durationSymbols / (c.regBundleSize * c.interleaverSize)) = c.nBundles := by
  have hdvd := c.interleaver.resolve_left hr
  obtain ⟨q, hq⟩ := hdvd
  have hpos := Nat.pos_of_ne_zero hr
  have hprod : 0 < c.regBundleSize * c.interleaverSize := Nat.mul_pos c.regBundleSize_pos hpos
  rw [nBundles, hq, Nat.mul_comm c.interleaverSize c.regBundleSize, Nat.mul_div_cancel_left q hprod,
    Nat.mul_assoc, Nat.mul_div_cancel_left _ c.regBundleSize_pos]

theorem bundle_lt (hk : k < c.nBundles) : c.bundle k < c.nBundles := by
  rw [bundle, cceToRegInterleaving]
  split
  · exact hk
  · exact mod_lt _ (zero_lt_of_lt hk)

/-- **The interleaver is one to one.** -/
theorem cceToRegInterleaving_inj (hk : k < c.nBundles) (hk' : k' < c.nBundles)
    (h : c.bundle k = c.bundle k') : k = k' := by
  rw [bundle, bundle, cceToRegInterleaving, cceToRegInterleaving] at h
  split at h
  · exact h
  · rename_i hr
    have hpos := pos_of_ne_zero hr
    have hmul := c.interleaver_mul hr
    rw [if_pos hpos] at h
    -- `k` is in row `k % R` and column `k / R` of the matrix
    generalize c.nRb * c.durationSymbols / (c.regBundleSize * c.interleaverSize) = cols at h hmul
    have hcol : ∀ {q}, q < c.nBundles → q / c.interleaverSize < cols := fun hq ↦
      Nat.div_lt_of_lt_mul (hmul.symm ▸ hq)
    have hcell : ∀ {q}, q < c.nBundles →
        q % c.interleaverSize * cols + q / c.interleaverSize < c.nBundles := by
      intro q hq
      have hrow := mul_le_mul_right cols (mod_lt q hpos)
      rw [succ_mul, hmul] at hrow
      have := hcol hq
      omega
    have hmodeq : (k % c.interleaverSize * cols + k / c.interleaverSize) ≡
        (k' % c.interleaverSize * cols + k' / c.interleaverSize) [MOD c.nBundles] :=
      Nat.ModEq.add_right_cancel' c.shiftIndex h
    have hsame := Nat.ModEq.eq_of_lt_of_lt hmodeq (hcell hk) (hcell hk')
    obtain ⟨hrow, hcols⟩ := (RingIndex.mul_add_inj (hcol hk) (hcol hk')).1 hsame
    rw [← div_add_mod k c.interleaverSize, ← div_add_mod k' c.interleaverSize, hrow, hcols]

/-! ### Blocks of a CCE -/

/-- The blocks of a CCE lie in the CORESET. -/
theorem cceRbs_mem (hj : j < c.nCces) (h : rb ∈ c.cceRbs j) :
    c.bwpStart ≤ rb ∧ rb < c.bwpStart + c.nRb := by
  obtain ⟨k, -, hk, i, hi, rfl⟩ := h
  have hmul := mul_le_mul_right c.bundleRbs (c.bundle_lt (c.lt_nBundles hj hk))
  rw [succ_mul, c.nBundles_mul] at hmul
  omega

/-- **Different CCEs have different blocks.** -/
theorem disjoint_cceRbs (hj : j < c.nCces) (hj' : j' < c.nCces) (hne : j ≠ j') :
    Disjoint (c.cceRbs j) (c.cceRbs j') := by
  rw [Set.disjoint_left]
  rintro rb ⟨k, hle, hlt, i, hi, rfl⟩ ⟨k', hle', hlt', i', hi', heq⟩
  rw [add_assoc, add_assoc, add_left_cancel_iff, RingIndex.mul_add_inj hi hi'] at heq
  obtain rfl := c.cceToRegInterleaving_inj (c.lt_nBundles hj hlt) (c.lt_nBundles hj' hlt') heq.1
  -- a bundle belongs to one CCE
  have hcce : ∀ {q}, 6 * q / c.regBundleSize ≤ k →
      k < 6 * q / c.regBundleSize + 6 / c.regBundleSize → k / (6 / c.regBundleSize) = q := by
    intro q h h'
    rw [firstBundle_eq] at h h'
    exact Nat.div_eq_of_lt_le (by rwa [Nat.mul_comm] at h)
      (by rwa [← mul_succ, mul_comm] at h')
  exact hne ((hcce hle hlt).symm.trans (hcce hle' hlt'))

/-! ### The two loops -/

/-- **The blocks that are tested** are those of the candidate. -/
theorem candidateTaken_iff (m : RbMap) (firstCce aggregation : ℕ) :
    candidateTaken m c.toNrSchedPdcch c.durationSymbols firstCce aggregation = true ↔
      ∃ rb ∈ c.candidateRbs firstCce aggregation, m.busy c.slbitmap rb = true := by
  simp only [candidateTaken, any_eq_true, mem_range'_1, mem_range]
  constructor
  · rintro ⟨j, hj, k, hk, rb, hrb, hbusy⟩
    exact ⟨_, ⟨j, hj.1, hj.2, k, hk.1, hk.2, rb, hrb, rfl⟩, hbusy⟩
  · rintro ⟨_, ⟨j, hj, hj', k, hk, hk', rb, hrb, rfl⟩, hbusy⟩
    exact ⟨j, ⟨hj, hj'⟩, k, ⟨hk, hk'⟩, rb, hrb, hbusy⟩

/-- **The blocks that are marked** are those of the candidate. -/
theorem cells_fillPdcchVrbMap (m : RbMap) (firstCce aggregation : ℕ) :
    (fillPdcchVrbMap m c.toNrSchedPdcch firstCce aggregation).cells =
      m.cells ∪ c.candidateCells firstCce aggregation := by
  ext x
  rw [fillPdcchVrbMap, RbMap.mem_cells_setWords, Set.mem_union]
  refine or_congr_right ?_
  simp only [mem_flatMap, mem_map, mem_range'_1, mem_range]
  constructor
  · rintro ⟨w, ⟨j, hj, k, hk, rb, hrb, rfl⟩, hx, hbit⟩
    exact ⟨⟨j, hj.1, hj.2, k, hk.1, hk.2, rb, hrb, hx.symm⟩, hbit⟩
  · rintro ⟨⟨j, hj, hj', k, hk, hk', rb, hrb, hx⟩, hsym⟩
    exact ⟨_, ⟨j, ⟨hj, hj'⟩, k, ⟨hk, hk'⟩, rb, hrb, rfl⟩, hx.symm, hsym⟩

/-- A candidate whose blocks are free does not meet what is taken. -/
theorem disjoint_of_not_taken
    (h : candidateTaken m c.toNrSchedPdcch c.durationSymbols firstCce aggregation = false) :
    Disjoint (c.candidateCells firstCce aggregation) m.cells := by
  rw [Set.disjoint_left]
  rintro ⟨rb, sym⟩ ⟨hrb, hsym⟩ hm
  have hbusy : m.busy c.slbitmap rb = false := by
    refine Bool.eq_false_iff.2 fun hbusy ↦ ?_
    rw [(c.candidateTaken_iff m firstCce aggregation).2 ⟨rb, hrb, hbusy⟩] at h
    exact Bool.false_ne_true h.symm
  have hbit := RbMap.not_testBit_of_not_busy hbusy hsym
  have hm : (m rb).testBit sym = true := hm
  rw [hbit] at hm
  exact Bool.false_ne_true hm

/-- What `find_pdcch_candidate` returns is a candidate inside the CORESET that is free. -/
theorem findPdcchCandidate_spec {nrOfCandidates y first : ℕ}
    (h : findPdcchCandidate m c.toNrSchedPdcch c.durationSymbols aggregation nrOfCandidates y =
      some (first : ℤ)) :
    first + aggregation ≤ c.nCces ∧
      candidateTaken m c.toNrSchedPdcch c.durationSymbols first aggregation = false := by
  rw [findPdcchCandidate] at h
  split at h
  · cases h
  · rename_i hdiv
    rw [Option.some.injEq] at h
    split at h
    · rename_i i hi
      obtain rfl : candidateFirstCce c.nCces aggregation nrOfCandidates y i = first :=
        Int.natCast_inj.1 h
      have hmem := mem_range.1 (mem_of_find?_eq_some hi)
      have hpos : 0 < c.nCces / aggregation := by
        refine pos_of_ne_zero fun hzero ↦ hdiv ⟨zero_lt_of_lt hmem, hzero⟩
      have hfree := find?_some hi
      rw [Bool.not_eq_true'] at hfree
      refine ⟨?_, hfree⟩
      exact (mul_le_mul_left _ (mod_lt _ hpos)).trans (mul_div_le _ _)
    · omega

end Coreset

/-! ### Candidates after earlier ones -/

/-- A PDCCH that has been placed. -/
structure PdcchFill where
  coreset : Coreset
  (firstCce aggregation : ℕ)

/-- The map after some PDCCHs have been placed. -/
def fillAll (m : RbMap) (fills : List PdcchFill) : RbMap :=
  fills.foldl (fun m f ↦ fillPdcchVrbMap m f.coreset.toNrSchedPdcch f.firstCce f.aggregation) m

theorem cells_fillAll (m : RbMap) (fills : List PdcchFill) :
    (fillAll m fills).cells =
      m.cells ∪ {x | ∃ f ∈ fills, x ∈ f.coreset.candidateCells f.firstCce f.aggregation} := by
  induction fills generalizing m with
  | nil =>
    ext x
    simp [fillAll]
  | cons f fills ih =>
    rw [fillAll, foldl_cons, ← fillAll, ih, f.coreset.cells_fillPdcchVrbMap, Set.union_assoc]
    congr 1
    ext x
    simp

/-- **PDCCH candidates do not collide.** The blocks that are marked for a candidate are those that
are tested for it, they lie inside the CORESET, those of different CCEs are disjoint, and a
candidate that is found after others have been placed shares no block and symbol with them. -/
structure NoCollision (c : Coreset) : Prop where
  tested : ∀ m firstCce aggregation,
    candidateTaken m c.toNrSchedPdcch c.durationSymbols firstCce aggregation = true ↔
      ∃ rb ∈ c.candidateRbs firstCce aggregation,
        m.busy c.slbitmap rb = true
  marked : ∀ m firstCce aggregation,
    (fillPdcchVrbMap m c.toNrSchedPdcch firstCce aggregation).cells =
      m.cells ∪ c.candidateCells firstCce aggregation
  inside : ∀ firstCce aggregation, firstCce + aggregation ≤ c.nCces →
    ∀ rb ∈ c.candidateRbs firstCce aggregation, c.bwpStart ≤ rb ∧ rb < c.bwpStart + c.nRb
  disjoint : ∀ j j', j < c.nCces → j' < c.nCces → j ≠ j' → Disjoint (c.cceRbs j) (c.cceRbs j')
  found : ∀ m fills aggregation nrOfCandidates y (first : ℕ),
    findPdcchCandidate (fillAll m fills) c.toNrSchedPdcch c.durationSymbols aggregation
        nrOfCandidates y = some (first : ℤ) →
      first + aggregation ≤ c.nCces ∧
      Disjoint (c.candidateCells first aggregation) m.cells ∧
      ∀ f ∈ fills, Disjoint (c.candidateCells first aggregation)
        (f.coreset.candidateCells f.firstCce f.aggregation)

theorem pdcch_no_collision (c : Coreset) : NoCollision c where
  tested := c.candidateTaken_iff
  marked := c.cells_fillPdcchVrbMap
  inside firstCce aggregation hle rb hrb := by
    obtain ⟨j, -, hj, hrb⟩ := hrb
    exact c.cceRbs_mem (hj.trans_le hle) hrb
  disjoint j j' hj hj' hne := c.disjoint_cceRbs hj hj' hne
  found m fills aggregation nrOfCandidates y first h := by
    obtain ⟨hle, hfree⟩ := c.findPdcchCandidate_spec h
    have hdisjoint := c.disjoint_of_not_taken hfree
    rw [cells_fillAll, Set.disjoint_union_right] at hdisjoint
    refine ⟨hle, hdisjoint.1, fun f hf ↦ hdisjoint.2.mono_right fun x hx ↦ ?_⟩
    exact ⟨f, hf, hx⟩

/-- 48 resource blocks in one symbol, whole CCEs as bundles, and an interleaver of two rows. -/
def coreset48 : Coreset where
  bwpStart := 0
  startSymbolIndex := 0
  durationSymbols := 1
  nRb := 48
  regBundleSize := 6
  interleaverSize := 2
  shiftIndex := 0
  six_dvd := by decide
  duration_dvd := by decide
  bundle_dvd := by decide
  interleaver := by decide

/-- With four CCEs placed, the second of two candidates is found, and it is free. -/
theorem coreset48_second_candidate :
    findPdcchCandidate (fillAll (fun _ ↦ 0) [⟨coreset48, 0, 4⟩]) coreset48.toNrSchedPdcch 1 4 2 0 =
        some 4 ∧
      Disjoint (coreset48.candidateCells 4 4) (coreset48.candidateCells 0 4) := by
  have hfound : findPdcchCandidate (fillAll (fun _ ↦ 0) [⟨coreset48, 0, 4⟩])
      coreset48.toNrSchedPdcch 1 4 2 0 = some 4 := by decide
  have hfree := (pdcch_no_collision coreset48).found _ _ _ _ _ _ hfound
  exact ⟨hfound, hfree.2.2 _ (mem_singleton_self _)⟩

end OaiRan.Mac
