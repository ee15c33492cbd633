import OaiRan.Lib.Loop
import OaiRan.Mac.RbMap

/-!
# The downlink scheduler's resource blocks

`pf_dl` goes over the UEs twice: first it places pending retransmissions
(`allocate_dl_retransmission`) and collects the UEs with new data, then it places these in the order
of their coefficients. Both search `vrb_map` for free blocks and mark what they take.

What the scheduler asks of others is an input: whether there is a CCE (with the words that
`fill_pdcch_vrb_map` then sets) and a PUCCH occasion, the time domain allocation of the slot, the
MCS, and the order in which `qsort` leaves the UEs, for which it has a comparison that is no order.
-/

namespace OaiRan.Mac

/-- The part of `NR_sched_pdsch_t` that the placement reads and sets. -/
structure SchedPdsch where
  rbStart : ℕ := 0
  rbSize : ℕ := 0
  tbSize : ℕ := 0
  nrOfLayers : ℕ := 1
  pmIndex : ℕ := 0
  qm : ℕ := 0
  r : ℕ := 0
  tdaInfo : TdaInfo
  timeDomainAllocation : ℕ := 0
  /-- `N_PRB_DMRS * N_DMRS_SLOT` of `dmrs_parms`. -/
  nbDmrsPrb : ℕ := 0
  pucchAllocation : Option ℕ := none

/-- A UE as `pf_dl` sees it in a slot. -/
structure DlUe where
  rnti : ℕ
  msg4MsgBAcked : Bool := true
  ulFailure : Bool := false
  retransDlHarqHead : ℤ := -1
  availableDlHarqHead : ℤ := 0
  currentDlBwp : Bwp
  /-- The search space is a common one. -/
  commonSearchSpace : Bool := false
  /-- The DCI format is 1_0. -/
  dciFormat10 : Bool := false
  initialDlBwp : Bwp
  /-- `sched_pdsch` of the process at the head of the retransmission list. -/
  (retInfo schedPdsch : SchedPdsch)
  /-- The index and the entry that `get_dl_tda` and `get_dl_tda_info` give for this slot. -/
  tda : ℕ
  tdaInfo : TdaInfo
  /-- `get_dl_dmrs_params`, the number of DMRS resource elements for a number of layers. -/
  dmrs : ℕ → ℕ := fun _ ↦ 0
  /-- The words of the PDCCH, if there is a CCE. -/
  cce : Option (List (ℕ × ℕ))
  feedbackDisabled : Bool := false
  /-- The PUCCH occasion, if there is one. -/
  pucch : Option ℕ
  numTotalBytes : ℕ := 0
  /-- A timing advance command is due. -/
  taDue : Bool := false

/-- `cset0_bwp_start` and `cset0_bwp_size`. -/
structure DlCell where
  cset0Bwp : Bwp

def getBwpStartSize (cell : DlCell) (ue : DlUe) : Bwp :=
  if ue.commonSearchSpace && ue.dciFormat10 then
    if cell.cset0Bwp.size ≠ 0 then cell.cset0Bwp else ue.initialDlBwp
  else ue.currentDlBwp

/-! ### Retransmissions -/

/-- The search for `need` free blocks, which skips stretches that are too short; `rbEnd` is
`rbStop + 1`. -/
def searchRun (m : RbMap) (sl need rbEnd : ℕ) : ℕ → ℕ → Option ℕ
  | 0, _ => none
  | fuel + 1, rbStart =>
    let rbStart := m.skipBusy sl (rbEnd - 1 - rbStart) rbStart
    if rbEnd ≤ rbStart + 1 then none
    else
      let rbSize := m.freeRun sl (min need (rbEnd - rbStart)) rbStart
      if rbSize < need then searchRun m sl need rbEnd fuel (rbStart + rbSize) else some rbStart

/-- The placement with the old time domain allocation: the first block, and what is sent. -/
def placeWithOldTda (bwp : Bwp) (ue : DlUe) (m : RbMap) : Option (ℕ × SchedPdsch) :=
  if ue.retInfo.rbSize = 0 then some (bwp.start, ue.retInfo)
  else
    (searchRun m ue.retInfo.tdaInfo.slbitmap ue.retInfo.rbSize (bwp.start + bwp.size) bwp.size
      bwp.start).map fun rbStart ↦ (rbStart, ue.retInfo)

/-- What `nr_find_nb_rb` needs for a retransmission with a new time domain allocation. -/
def DlUe.retTbsParams (ue : DlUe) (layers : ℕ) : TbsParams where
  qm := ue.retInfo.qm
  r := ue.retInfo.r
  nrOfLayers := layers
  nbSymbSch := ue.tdaInfo.nrOfSymbols
  nbDmrsPrb := ue.dmrs layers

/-- The placement with a new time domain allocation, which must take the same transport block. -/
def placeWithNewTda (bwp : Bwp) (ue : DlUe) (layers pmIndex : ℕ) (m : RbMap) :
    Option (ℕ × SchedPdsch) :=
  let sl := ue.tdaInfo.slbitmap
  let rbEnd := bwp.start + bwp.size
  let rbStart := m.skipBusy sl (rbEnd - 1 - bwp.start) bwp.start
  let rbSize := m.freeRun sl (rbEnd - rbStart) rbStart
  let q := findNbRb (ue.retTbsParams layers).tbs false ue.retInfo.tbSize 1 rbSize
  if q.success && q.tbs == ue.retInfo.tbSize then
    some (rbStart, { ue.retInfo with
      tbSize := q.tbs
      rbSize := q.nbRb
      timeDomainAllocation := ue.tda
      nrOfLayers := layers
      pmIndex := pmIndex
      nbDmrsPrb := ue.dmrs layers
      tdaInfo := ue.tdaInfo })
  else none

/-- `layers`. -/
def DlUe.retLayers (ue : DlUe) : ℕ :=
  if ue.schedPdsch.nrOfLayers < ue.retInfo.nrOfLayers then ue.schedPdsch.nrOfLayers
  else ue.retInfo.nrOfLayers

/-- `pm_index`. -/
def DlUe.retPmIndex (ue : DlUe) : ℕ :=
  if ue.schedPdsch.nrOfLayers < ue.retInfo.nrOfLayers then ue.schedPdsch.pmIndex
  else ue.retInfo.pmIndex

/-- `reuse_old_tda`, and the number of layers is the same. -/
def DlUe.reusesOldTda (ue : DlUe) : Bool :=
  ue.retInfo.tdaInfo.startSymbolIndex == ue.tdaInfo.startSymbolIndex &&
    decide (ue.retInfo.tdaInfo.nrOfSymbols ≤ ue.tdaInfo.nrOfSymbols) &&
    ue.retLayers == ue.retInfo.nrOfLayers

/-- A CCE and, unless feedback is disabled, a PUCCH occasion: the words to set and the occasion. -/
def DlUe.controlChannels (ue : DlUe) : Option (List (ℕ × ℕ) × Option ℕ) :=
  match ue.cce with
  | none => none
  | some words =>
    if ue.feedbackDisabled then some (words, none) else ue.pucch.map fun p ↦ (words, some p)

/-- The first block of the retransmission, and what is sent. -/
def DlUe.placement (cell : DlCell) (ue : DlUe) (m : RbMap) : Option (ℕ × SchedPdsch) :=
  if !ue.tdaInfo.validTda then none
  else if ue.reusesOldTda then placeWithOldTda (getBwpStartSize cell ue) ue m
  else placeWithNewTda (getBwpStartSize cell ue) ue ue.retLayers ue.retPmIndex m

/-- `allocate_dl_retransmission`: the map and the new `sched_pdsch`, or `none` if it returns
false. -/
def allocateDlRetransmission (cell : DlCell) (ue : DlUe) (m : RbMap) :
    Option (RbMap × SchedPdsch) :=
  match ue.placement cell m, ue.controlChannels with
  | some (rbStart, retInfo), some (words, alloc) =>
    some ((m.setWords words).mark rbStart retInfo.rbSize 0 retInfo.tdaInfo.slbitmap,
      { retInfo with
        rbStart := rbStart - (getBwpStartSize cell ue).start
        pucchAllocation := alloc })
  | _, _ => none

/-! ### New data -/

def minRbSize : ℕ := 5

/-- What `nr_find_nb_rb` needs for new data. -/
def DlUe.tbsParams (ue : DlUe) : TbsParams where
  qm := ue.schedPdsch.qm
  r := ue.schedPdsch.r
  nrOfLayers := ue.schedPdsch.nrOfLayers
  nbSymbSch := ue.tdaInfo.nrOfSymbols
  nbDmrsPrb := ue.dmrs ue.schedPdsch.nrOfLayers

/-- The body of the second loop of `pf_dl`, `none` where it goes on with the next UE. -/
def allocateDlNewData (cell : DlCell) (ue : DlUe) (m : RbMap) : Option (RbMap × SchedPdsch) :=
  let bwp := getBwpStartSize cell ue
  let sl := ue.tdaInfo.slbitmap
  -- with respect to the start of the BWP
  let rbStart := m.skipBusy sl (bwp.size - 1) bwp.start - bwp.start
  let maxRbSize := 1 + m.freeRun sl (bwp.size - (rbStart + 1)) (bwp.start + (rbStart + 1))
  if maxRbSize < minRbSize then none
  else
    match ue.controlChannels with
    | none => none
    | some (words, alloc) =>
      let oh := 3 * 4 + if ue.taDue then 2 else 0
      let q := findNbRb ue.tbsParams.tbs false (ue.numTotalBytes + oh) minRbSize maxRbSize
      some ((m.setWords words).mark bwp.start q.nbRb rbStart sl,
        { ue.schedPdsch with
          rbStart := rbStart
          rbSize := q.nbRb
          tbSize := q.tbs
          tdaInfo := ue.tdaInfo
          timeDomainAllocation := ue.tda
          nbDmrsPrb := ue.dmrs ue.schedPdsch.nrOfLayers
          pucchAllocation := alloc })

/-! ### The scheduler -/

/-- What a UE is given in the slot. -/
structure DlGrant where
  (rnti bwpStart : ℕ)
  schedPdsch : SchedPdsch

/-- The blocks and symbols of a grant. -/
def DlGrant.rect (g : DlGrant) : Rect where
  rbFirst := g.bwpStart + g.schedPdsch.rbStart
  rbSize := g.schedPdsch.rbSize
  tda := g.schedPdsch.tdaInfo

/-- The variables of `pf_dl`. -/
structure DlSlot where
  vrbMap : RbMap
  grants : List DlGrant
  remainUes : ℕ
  nRbSched : ℤ
  /-- `UE_sched`. -/
  ueSched : List DlUe

/-- A UE has been given something. -/
def DlSlot.take (s : DlSlot) (cell : DlCell) (ue : DlUe) (r : RbMap × SchedPdsch) : DlSlot :=
  { s with
    vrbMap := r.1
    grants := ⟨ue.rnti, (getBwpStartSize cell ue).start, r.2⟩ :: s.grants
    remainUes := s.remainUes - 1
    nRbSched := s.nRbSched - r.2.rbSize }

/-- One turn of the first or of the second loop of `pf_dl`. -/
inductive DlTurn
  | first (ue : DlUe)
  | second (ue : DlUe)

/-- The body of the first loop. -/
def DlSlot.first (cell : DlCell) (s : DlSlot) (ue : DlUe) : DlSlot :=
  if !ue.msg4MsgBAcked || ue.ulFailure || s.remainUes == 0 then s
  else if ue.retransDlHarqHead ≥ 0 then
    match allocateDlRetransmission cell ue s.vrbMap with
    | none => s
    | some r => s.take cell ue r
  else if ue.availableDlHarqHead < 0 then s
  else if ue.numTotalBytes == 0 && !ue.taDue then s
  else { s with ueSched := s.ueSched ++ [ue] }

/-- The second loop's condition and its body; `none` where the assertion on the time domain
allocation fails. -/
def DlSlot.second (cell : DlCell) (s : DlSlot) (ue : DlUe) : Option DlSlot :=
  if s.remainUes == 0 || decide (s.nRbSched < minRbSize) then some s
  else if ue.availableDlHarqHead < 0 then some s
  else if !ue.tdaInfo.validTda then none
  else
    match allocateDlNewData cell ue s.vrbMap with
    | none => some s
    | some r => some (s.take cell ue r)

/-- One turn. -/
def dlTurn (cell : DlCell) (s : DlSlot) : DlTurn → Option DlSlot
  | .first ue => some (s.first cell ue)
  | .second ue => s.second cell ue

/-- The variables of `pf_dl` on entry. -/
def DlSlot.init (vrbMap : RbMap) (maxNumUe : ℕ) (nRbSched : ℤ) : DlSlot :=
  { vrbMap, grants := [], remainUes := maxNumUe, nRbSched, ueSched := [] }

def pfDl (cell : DlCell) (qsort : List DlUe → List DlUe) (vrbMap : RbMap) (ueList : List DlUe)
    (maxNumUe : ℕ) (nRbSched : ℤ) : Option DlSlot := do
  let s ← (ueList.map DlTurn.first).foldlM (dlTurn cell) (.init vrbMap maxNumUe nRbSched)
  ((qsort s.ueSched).map DlTurn.second).foldlM (dlTurn cell) s

end OaiRan.Mac
