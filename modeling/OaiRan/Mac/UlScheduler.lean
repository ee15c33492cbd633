import OaiRan.Lib.Loop
import OaiRan.Mac.RbMap

/-!
# The uplink scheduler's resource blocks

`pf_ul` goes over the UEs twice. The first loop places pending retransmissions
(`allocate_ul_retransmission`) and the small grants of UEs that ask to be scheduled without known
data, and collects the UEs with data; the second loop places these. All three search the slice of
`vrb_map_UL` for the slot and mark in it what they take.

As in the downlink, CCEs, time domain allocations, MCS and the order that `qsort` leaves are inputs;
so is, for each number of blocks, whether the transmit power would exceed the reported headroom.
-/

namespace OaiRan.Mac

/-- The part of `NR_sched_pusch_t` that the placement reads and sets. -/
structure SchedPusch where
  rbStart : ℕ := 0
  rbSize : ℕ := 0
  tbSize : ℕ := 0
  nrOfLayers : ℕ := 1
  qm : ℕ := 0
  r : ℕ := 0
  tdaInfo : TdaInfo
  timeDomainAllocation : ℕ := 0
  /-- `N_PRB_DMRS * num_dmrs_symb` of `dmrs_info`. -/
  nbDmrsPrb : ℕ := 0

/-- A UE as `pf_ul` sees it in a slot. -/
structure UlUe where
  rnti : ℕ
  msg4MsgBAcked : Bool := true
  ulFailure : Bool := false
  retransUlHarqHead : ℤ := -1
  availableUlHarqHead : ℤ := 0
  currentUlBwp : Bwp
  transformPrecoding : Bool := false
  /-- `sched_pusch` of the process at the head of the retransmission list. -/
  (retInfo schedPusch : SchedPusch)
  /-- The index and the entry that `get_ul_tda` and `get_ul_tda_info` give for this slot. -/
  tda : ℕ
  tdaInfo : TdaInfo
  /-- `get_ul_dmrs_params`, the number of DMRS resource elements for a number of layers. -/
  dmrs : ℕ → ℕ := fun _ ↦ 0
  /-- There is a CCE. -/
  cce : Bool := true
  /-- `estimated_ul_buffer - sched_ul_bytes`, or 0. -/
  bytes : ℕ := 0
  /-- `nr_UE_is_to_be_scheduled`. -/
  doSched : Bool := false
  /-- `transm_interrupt` is running. -/
  transmInterrupt : Bool := false
  /-- `srs_feedback.ul_ri + 1`. -/
  nrOfLayers : ℕ := 1
  /-- Whether the power for a number of blocks exceeds the headroom, once it has been reported. -/
  exceedsPh : Option (ℕ → Bool) := none

/-- `min_grant_prb`. -/
structure UlCell where
  minGrantPrb : ℕ

/-! ### Retransmissions -/

/-- `while (rbStart < bwpSize && (rballoc_mask[rbStart + bwpStart] & slbitmap)) rbStart++`, from 0. -/
def firstFreeRb (m : RbMap) (bwp : Bwp) (sl : ℕ) : ℕ :=
  m.skipBusy sl bwp.size bwp.start - bwp.start

/-- What `nr_find_nb_rb` needs for a retransmission with a new time domain allocation. -/
def UlUe.retTbsParams (ue : UlUe) : TbsParams where
  qm := ue.retInfo.qm
  r := ue.retInfo.r
  nrOfLayers := ue.retInfo.nrOfLayers
  nbSymbSch := ue.tdaInfo.nrOfSymbols
  nbDmrsPrb := ue.dmrs ue.retInfo.nrOfLayers

/-- `reuse_old_tda`. -/
def UlUe.reusesOldTda (ue : UlUe) : Bool :=
  ue.retInfo.tdaInfo.startSymbolIndex == ue.tdaInfo.startSymbolIndex &&
    decide (ue.retInfo.tdaInfo.nrOfSymbols ≤ ue.tdaInfo.nrOfSymbols)

/-- The placement of a retransmission: `none` where `nr_find_nb_rb` does not return, and no result
where there is no room. Only the first block is looked at when the old time domain allocation is
used again. -/
def UlUe.placement (ue : UlUe) (m : RbMap) : Option (Option SchedPusch) :=
  let bwp := ue.currentUlBwp
  if !ue.tdaInfo.validTda then some none
  else if ue.reusesOldTda then
    let rbStart := firstFreeRb m bwp ue.retInfo.tdaInfo.slbitmap
    if rbStart + ue.retInfo.rbSize > bwp.size then some none
    else some (some { ue.retInfo with rbStart })
  else
    let sl := ue.tdaInfo.slbitmap
    let rbStart := firstFreeRb m bwp sl
    let rbSize := m.freeRun sl (bwp.size - rbStart) (bwp.start + rbStart)
    (nrFindNbRb ue.retTbsParams.tbs ue.transformPrecoding ue.retInfo.tbSize 1 rbSize).map fun q ↦
      if q.success && q.tbs == ue.retInfo.tbSize then
        some { ue.retInfo with
          rbStart
          tbSize := q.tbs
          rbSize := q.nbRb
          timeDomainAllocation := ue.tda
          nbDmrsPrb := ue.dmrs ue.retInfo.nrOfLayers
          tdaInfo := ue.tdaInfo }
      else none

/-- The marking loop of all three placements. -/
def markPusch (m : RbMap) (bwp : Bwp) (p : SchedPusch) : RbMap :=
  m.mark bwp.start p.rbSize p.rbStart p.tdaInfo.slbitmap

/-- `allocate_ul_retransmission`: the new `sched_pusch` if it returns true. -/
def allocateUlRetransmission (ue : UlUe) (m : RbMap) : Option (Option SchedPusch) :=
  (ue.placement m).map fun p ↦ if ue.cce then p else none

/-! ### Grants without data and new data -/

/-- The grant of a UE without known data, of `min_rb` blocks from the first free one on. -/
def allocateUlNoData (cell : UlCell) (ue : UlUe) (m : RbMap) : Option SchedPusch :=
  let bwp := ue.currentUlBwp
  let rbStart := firstFreeRb m bwp ue.tdaInfo.slbitmap
  let q : TbsParams :=
    { qm := ue.schedPusch.qm
      r := ue.schedPusch.r
      nrOfLayers := ue.nrOfLayers
      nbSymbSch := ue.tdaInfo.nrOfSymbols
      nbDmrsPrb := ue.dmrs ue.nrOfLayers }
  if rbStart + cell.minGrantPrb ≥ bwp.size then none
  else some { ue.schedPusch with
    rbStart
    rbSize := cell.minGrantPrb
    tbSize := q.tbs cell.minGrantPrb
    nrOfLayers := ue.nrOfLayers
    tdaInfo := ue.tdaInfo
    timeDomainAllocation := ue.tda
    nbDmrsPrb := ue.dmrs ue.nrOfLayers }

/-- The loop of `nr_ue_max_mcs_min_rb` that takes blocks away. -/
def lowerRb (exceeds : ℕ → Bool) (minRb : ℕ) : ℕ → ℕ
  | 0 => 0
  | rb + 1 => if exceeds (rb + 1) && decide (rb + 1 > minRb) then lowerRb exceeds minRb rb else rb + 1

/-- `max_rbSize` after the power has been looked at. -/
def UlUe.limitRb (ue : UlUe) (minRb maxRbSize : ℕ) : ℕ :=
  match ue.exceedsPh with
  | none => maxRbSize
  | some exceeds => lowerRb exceeds minRb maxRbSize

/-- What `nr_find_nb_rb` needs for new data. -/
def UlUe.tbsParams (ue : UlUe) : TbsParams where
  qm := ue.schedPusch.qm
  r := ue.schedPusch.r
  nrOfLayers := ue.nrOfLayers
  nbSymbSch := ue.tdaInfo.nrOfSymbols
  nbDmrsPrb := ue.dmrs ue.nrOfLayers

/-- The grant for new data. -/
def allocateUlNewData (cell : UlCell) (ue : UlUe) (m : RbMap) : Option (Option SchedPusch) :=
  let bwp := ue.currentUlBwp
  let sl := ue.tdaInfo.slbitmap
  let rbStart := firstFreeRb m bwp sl
  let maxRbSize := 1 + m.freeRun sl (bwp.size - (rbStart + 1)) (bwp.start + (rbStart + 1))
  if rbStart + cell.minGrantPrb ≥ bwp.size ∨ maxRbSize < cell.minGrantPrb then some none
  else
    (nrFindNbRb ue.tbsParams.tbs ue.transformPrecoding ue.bytes cell.minGrantPrb
      (ue.limitRb cell.minGrantPrb maxRbSize)).map fun q ↦
      some { ue.schedPusch with
        rbStart
        rbSize := q.nbRb
        tbSize := q.tbs
        nrOfLayers := ue.nrOfLayers
        tdaInfo := ue.tdaInfo
        timeDomainAllocation := ue.tda
        nbDmrsPrb := ue.dmrs ue.nrOfLayers }

/-! ### The scheduler -/

/-- What a UE is given in the slot. -/
structure UlGrant where
  rnti : ℕ
  bwp : Bwp
  schedPusch : SchedPusch

/-- The blocks and symbols of a grant. -/
def UlGrant.rect (g : UlGrant) : Rect where
  rbFirst := g.bwp.start + g.schedPusch.rbStart
  rbSize := g.schedPusch.rbSize
  tda := g.schedPusch.tdaInfo

/-- The variables of `pf_ul`. -/
structure UlSlot where
  vrbMapUl : RbMap
  grants : List UlGrant
  remainUes : ℕ
  nRbSched : ℤ
  /-- `UE_sched`. -/
  ueSched : List UlUe

/-- A UE has been given something, which is marked; `used` is what is taken off `n_rb_sched`. -/
def UlSlot.take (s : UlSlot) (ue : UlUe) (p : SchedPusch) (used : ℕ) : UlSlot :=
  { s with
    vrbMapUl := markPusch s.vrbMapUl ue.currentUlBwp p
    grants := ⟨ue.rnti, ue.currentUlBwp, p⟩ :: s.grants
    remainUes := s.remainUes - 1
    nRbSched := s.nRbSched - used }

/-- One turn of the first or of the second loop of `pf_ul`. -/
inductive UlTurn
  | first (ue : UlUe)
  | second (ue : UlUe)

/-- The body of the first loop. `allocate_ul_retransmission` subtracts the blocks from its pointer
to `n_rb_sched`, so that the number itself stays. -/
def UlSlot.first (cell : UlCell) (s : UlSlot) (ue : UlUe) : Option UlSlot :=
  if !ue.msg4MsgBAcked || ue.ulFailure || s.remainUes == 0 then some s
  else if ue.retransUlHarqHead ≥ 0 then
    (allocateUlRetransmission ue s.vrbMapUl).map fun r ↦ r.elim s fun p ↦ s.take ue p 0
  else if ue.availableUlHarqHead < 0 then some s
  else if ue.bytes == 0 && !ue.doSched || ue.transmInterrupt then some s
  else if ue.bytes == 0 then
    if !ue.cce then some s
    else if !ue.tdaInfo.validTda then none
    else some ((allocateUlNoData cell ue s.vrbMapUl).elim s fun p ↦ s.take ue p p.rbSize)
  else some { s with ueSched := s.ueSched ++ [ue] }

/-- The second loop's condition and its body. -/
def UlSlot.second (cell : UlCell) (s : UlSlot) (ue : UlUe) : Option UlSlot :=
  if s.remainUes == 0 || decide (s.nRbSched < cell.minGrantPrb) then some s
  else if !ue.cce then some s
  else if !ue.tdaInfo.validTda then none
  else (allocateUlNewData cell ue s.vrbMapUl).map fun r ↦ r.elim s fun p ↦ s.take ue p p.rbSize

/-- One turn; `none` where the program stops at an assertion or does not return. -/
def ulTurn (cell : UlCell) (s : UlSlot) : UlTurn → Option UlSlot
  | .first ue => s.first cell ue
  | .second ue => s.second cell ue

/-- The variables of `pf_ul` on entry. -/
def UlSlot.init (vrbMapUl : RbMap) (maxNumUe : ℕ) (nRbSched : ℤ) : UlSlot :=
  { vrbMapUl, grants := [], remainUes := maxNumUe, nRbSched, ueSched := [] }

def pfUl (cell : UlCell) (qsort : List UlUe → List UlUe) (vrbMapUl : RbMap) (ueList : List UlUe)
    (maxNumUe : ℕ) (nRbSched : ℤ) : Option UlSlot := do
  let s ← (ueList.map UlTurn.first).foldlM (ulTurn cell) (.init vrbMapUl maxNumUe nRbSched)
  ((qsort s.ueSched).map UlTurn.second).foldlM (ulTurn cell) s

end OaiRan.Mac
