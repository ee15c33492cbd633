import OaiRan.Lib.StepSystem
import OaiRan.Mac.NrList
import Mathlib.Data.UInt

/-!
# HARQ processes of a UE at the gNB

In each direction a UE has up to 32 HARQ processes. A process that is free is in the available list,
one that has been scheduled and waits for feedback in the feedback list, and one that is to be sent
again in the retransmission list. The scheduler takes a process out of the first or the last and
appends it to the second; feedback takes it from there.

The model has the part of the scheduling functions that moves processes; the preprocessor, which
decides whether and which process is scheduled, is the input of a step.
-/

namespace OaiRan.Mac

def nrMaxHarqProcesses : ℕ := 32

/-- `NR_UE_harq_t` and `NR_UE_ul_harq_t`. The downlink alone has `feedback_frame`; of the grant that
the uplink keeps for retransmissions, `sched_pusch.tb_size`. -/
structure HarqProcess where
  isWaiting : Bool := false
  ndi : ℕ := 0
  round : ℕ := 0
  feedbackFrame : UInt16 := 0
  feedbackSlot : UInt16 := 0
  tbSize : ℕ := 0

/-- The three lists and the processes of one direction. -/
structure HarqLists where
  (available feedback retrans : NrList)
  processes : ℕ → HarqProcess

/-- The part of `NR_UE_sched_ctrl_t` and of the UE's statistics that HARQ handling works on. -/
structure NrUeSchedCtrl where
  (dl ul : HarqLists)
  schedUlBytes : ℤ := 0
  dlErrors : ℕ := 0
  ulErrors : ℕ := 0
  msg4Acked : Bool := false

/-- The settings HARQ handling depends on. -/
structure HarqConfig where
  /-- `dl_bler.harq_round_max`, a `uint8_t`. -/
  dlHarqRoundMax : ℕ
  /-- `ul_bler.harq_round_max`, a `uint8_t`. -/
  ulHarqRoundMax : ℕ
  /-- `radio_config.disable_harq`. -/
  disableHarq : Bool
  dlHarqRoundMax_lt : dlHarqRoundMax < 2 ^ 8
  ulHarqRoundMax_lt : ulHarqRoundMax < 2 ^ 8

/-- The part of `NR_UE_ServingCell_Info_t` that gives the number of processes. -/
structure ServingCellInfo where
  nrofHarqProcessesForPdschV1700 : Bool
  nrofHarqProcessesForPdsch : Option (Fin 6)
  nrofHarqProcessesForPuschR17 : Bool

def getNrofHarqProcessesForPdsch (scInfo : Option ServingCellInfo) : ℕ :=
  match scInfo with
  | none => 8
  | some info =>
    if info.nrofHarqProcessesForPdschV1700 then 32
    else
      match info.nrofHarqProcessesForPdsch with
      | none => 8
      | some i => [2, 4, 6, 10, 12, 16].getD i 0

def getNrofHarqProcessesForPusch (scInfo : Option ServingCellInfo) : ℕ :=
  match scInfo with
  | none => 16
  | some info => if info.nrofHarqProcessesForPuschR17 then 32 else 16

namespace HarqLists

/-- An assignment to the fields of process `pid`. -/
def setProcess (h : HarqLists) (pid : ℕ) (p : HarqProcess) : HarqLists :=
  { h with processes := Function.update h.processes pid p }

/-- `add_tail_nr_list` for `harq` in `[first, last)`, as both list creations have it. -/
def addAvailable (h : HarqLists) (first last : ℕ) : HarqLists :=
  { h with available := (List.range' first (last - first)).foldl addTailNrList h.available }

/-- The lists of `nrofHarq` processes, all available: the first branch of `create_dl_harq_list` and
`create_ul_harq_list`. -/
def created (h : HarqLists) (nrofHarq : ℕ) : HarqLists :=
  let l := createNrList nrofHarq
  addAvailable { h with available := l, feedback := l, retrans := l } 0 nrofHarq

/-- The last branch of `create_dl_harq_list` and `create_ul_harq_list`. -/
def resized (h : HarqLists) (nrofHarq : ℕ) : Except Abort HarqLists := do
  let oldNrofHarq := h.available.len
  let available ← resizeNrList h.available nrofHarq
  let feedback ← resizeNrList h.feedback nrofHarq
  let retrans ← resizeNrList h.retrans nrofHarq
  return addAvailable { h with available, feedback, retrans } oldNrofHarq nrofHarq

/-- `create_ul_harq_list`, and `create_dl_harq_list` after its check. -/
def create (h : HarqLists) (nrofHarq : ℕ) : Except Abort HarqLists :=
  if h.available.len = 0 then .ok (h.created nrofHarq)
  else if h.available.len = nrofHarq then .ok h
  else if nrofHarq > h.available.len then h.resized nrofHarq
  else .error .cannotResizeSmaller

/-- `finish_nr_dl_harq`, `finish_nr_ul_harq`. -/
def finish (h : HarqLists) (pid : ℕ) : HarqLists :=
  let harq := h.processes pid
  let h := h.setProcess pid { harq with ndi := harq.ndi ^^^ 1, round := 0 }
  { h with available := addTailNrList h.available pid }

/-- What a NACK does before the last round. -/
def retransmit (h : HarqLists) (pid : ℕ) : HarqLists :=
  let harq := h.processes pid
  let h := h.setProcess pid { harq with round := (harq.round + 1) % 2 ^ 8 }
  { h with retrans := addTailNrList h.retrans pid }

/-- `remove_front_nr_list` on the feedback list. -/
def popFeedback (h : HarqLists) : Except Abort HarqLists := do
  let feedback ← removeFrontNrList h.feedback
  return { h with feedback }

/-- Take the process of the preprocessor's choice, or a new one when it has none: the beginning of
the scheduling of a UE in `nr_schedule_ue_spec` and `nr_schedule_ulsch`. -/
def takeProcess (h : HarqLists) (harqPid : ℤ) : Except Abort (HarqLists × ℕ) :=
  if harqPid < 0 then
    if h.available.head ≥ 0 then do
      let pid := h.available.head.toNat
      let available ← removeFrontNrList h.available
      return ({ h with available }, pid)
    else .error .noFreeHarq
  else if (h.processes harqPid.toNat).round = 0 then do
    let available ← removeNrList h.available harqPid.toNat
    return ({ h with available }, harqPid.toNat)
  else do
    let retrans ← removeNrList h.retrans harqPid.toNat
    return ({ h with retrans }, harqPid.toNat)

/-- Append the process to the feedback list. -/
def awaitFeedback (h : HarqLists) (pid : ℕ) (p : HarqProcess) : HarqLists :=
  let h := h.setProcess pid { p with isWaiting := true }
  { h with feedback := addTailNrList h.feedback pid }

/-- The first loop of a reset, and the second: move a list to the tail of the available one. -/
def drainTo (available : NrList) : ℕ → NrList → Except Abort (NrList × NrList)
  | 0, _ => .error .listLoops
  | fuel + 1, l =>
    if l.head ≥ 0 then do
      let l' ← removeFrontNrList l
      drainTo (addTailNrList available l.head.toNat) fuel l'
    else .ok (available, l)

/-- `reset_dl_harq_list`, `reset_ul_harq_list`. -/
def reset (h : HarqLists) : Except Abort HarqLists := do
  let (available, feedback) ← drainTo h.available (h.feedback.len + 1) h.feedback
  let (available, retrans) ← drainTo available (h.retrans.len + 1) h.retrans
  return { available, feedback, retrans, processes := fun i ↦
    if i < nrMaxHarqProcesses then
      { h.processes i with feedbackSlot := 0xffff, round := 0, isWaiting := false }
    else h.processes i }

end HarqLists

/-! ### Downlink -/

def createDlHarqList (s : NrUeSchedCtrl) (scInfo : Option ServingCellInfo) :
    Except Abort NrUeSchedCtrl :=
  if s.dl.available.len = s.dl.feedback.len ∧ s.dl.available.len = s.dl.retrans.len then do
    return { s with dl := ← s.dl.create (getNrofHarqProcessesForPdsch scInfo) }
  else .error .lengthsDiffer

def resetDlHarqList (s : NrUeSchedCtrl) : Except Abort NrUeSchedCtrl := do
  return { s with dl := ← s.dl.reset }

def finishNrDlHarq (s : NrUeSchedCtrl) (harqPid : ℕ) : NrUeSchedCtrl :=
  { s with dl := s.dl.finish harqPid }

def abortNrDlHarq (s : NrUeSchedCtrl) (harqPid : ℕ) : NrUeSchedCtrl :=
  { finishNrDlHarq s harqPid with dlErrors := s.dlErrors + 1 }

def handleDlHarq (s : NrUeSchedCtrl) (harqPid : ℕ) (success : Bool) (harqRoundMax : ℕ) :
    NrUeSchedCtrl :=
  let harq := { s.dl.processes harqPid with feedbackSlot := 0xffff, isWaiting := false }
  let s := { s with dl := s.dl.setProcess harqPid harq }
  if success then finishNrDlHarq s harqPid
  else if (harq.round : ℤ) ≥ harqRoundMax - 1 then abortNrDlHarq s harqPid
  else { s with dl := s.dl.retransmit harqPid }

/-- The feedback of the process was due before this slot. -/
def HarqProcess.isPast (harq : HarqProcess) (frame slot : UInt32) : Bool :=
  (harq.feedbackFrame.toUInt32 - frame + 1024) % 1024 > 512 ||
    (harq.feedbackFrame.toUInt32 == frame && harq.feedbackSlot.toUInt32 < slot)

/-- The feedback of the process is due after this slot. -/
def HarqProcess.isFuture (harq : HarqProcess) (frame slot : UInt32) : Bool :=
  (frame - harq.feedbackFrame.toUInt32 + 1024) % 1024 > 512 ||
    (harq.feedbackFrame.toUInt32 == frame && harq.feedbackSlot.toUInt32 > slot)

/-- The loop of `find_harq`: processes whose feedback was missed are handled as not acknowledged.
Each turn removes one from the feedback list. -/
def findHarqLoop (frame slot : UInt32) (harqRoundMax : ℕ) :
    ℕ → NrUeSchedCtrl → Except Abort (NrUeSchedCtrl × Option ℕ)
  | 0, _ => .error .listLoops
  | fuel + 1, s =>
    if s.dl.feedback.head < 0 then .ok (s, none)
    else
      let pid := s.dl.feedback.head.toNat
      if (s.dl.processes pid).isPast frame slot then do
        let dl ← s.dl.popFeedback
        findHarqLoop frame slot harqRoundMax fuel (handleDlHarq { s with dl } pid false harqRoundMax)
      else if (s.dl.processes pid).isFuture frame slot then .ok (s, none)
      else .ok (s, some pid)

def findHarq (s : NrUeSchedCtrl) (frame slot : UInt32) (harqRoundMax : ℕ) :
    Except Abort (NrUeSchedCtrl × Option ℕ) :=
  findHarqLoop frame slot harqRoundMax (s.dl.feedback.len + 1) s

/-- One received HARQ bit in `handle_nr_uci_pucch_0_1` and `handle_nr_uci_pucch_2_3_4`; without a
process that expects it, the loop over the bits ends (`none`). -/
def handleHarqBit (frame slot : UInt32) (harqRoundMax : ℕ) (s : NrUeSchedCtrl) (success : Bool) :
    Except Abort (NrUeSchedCtrl × Option Unit) := do
  let (s, found) ← findHarq s frame slot harqRoundMax
  match found with
  | none => return (s, none)
  | some harqPid =>
    if (s.dl.processes harqPid).isWaiting then
      let pid := s.dl.feedback.head.toNat
      let dl ← s.dl.popFeedback
      return (handleDlHarq { s with dl } pid success harqRoundMax, some ())
    else .error .notWaiting

/-- The loop over the `harq_value`s in `handle_nr_uci_pucch_0_1`. -/
def handleNrUciPucch01 (g : HarqConfig) (frame slot : UInt32) (harqConfidenceLevel : UInt8) :
    NrUeSchedCtrl → List UInt8 → Except Abort NrUeSchedCtrl
  | s, [] => .ok s
  | s, harqValue :: rest => do
    let success := harqValue == 0 && harqConfidenceLevel == 0
    let (s, found) ← handleHarqBit frame slot g.dlHarqRoundMax s success
    match found with
    | none => return s
    | some () =>
      handleNrUciPucch01 g frame slot harqConfidenceLevel
        { s with msg4Acked := s.msg4Acked || success } rest

/-- The loop over the bits in `handle_nr_uci_pucch_2_3_4`, from bit `harqBit` on, with `n` bits to
come. -/
def handleNrUciPucch234 (g : HarqConfig) (frame slot : UInt32) (harqCrc : UInt8)
    (harqPayload : List UInt8) : ℕ → ℕ → NrUeSchedCtrl → Except Abort NrUeSchedCtrl
  | 0, _, s => .ok s
  | n + 1, harqBit, s => do
    let acknack := ((harqPayload.getD (harqBit >>> 3) 0).toNat >>> harqBit) &&& 1
    let (s, found) ← handleHarqBit frame slot g.dlHarqRoundMax s (harqCrc != 1 && acknack != 0)
    match found with
    | none => return s
    | some () => handleNrUciPucch234 g frame slot harqCrc harqPayload n (harqBit + 1) s

/-- The HARQ part of `nr_schedule_ue_spec` for one UE: `dlHarqPid` is the preprocessor's choice, and
`pucch` the frame and slot of the feedback, without one if the process has feedback disabled. -/
def nrScheduleUeSpec (g : HarqConfig) (s : NrUeSchedCtrl) (dlHarqPid : ℤ)
    (pucch : Option (UInt16 × UInt16)) : Except Abort NrUeSchedCtrl := do
  let (dl, pid) ← s.dl.takeProcess dlHarqPid
  let s := { s with dl }
  let harq := s.dl.processes pid
  if harq.isWaiting then .error .stillWaiting
  else
    let s := match pucch with
      | none => finishNrDlHarq s pid
      | some (frame, slot) =>
        let harq := { harq with feedbackFrame := frame, feedbackSlot := slot }
        { s with dl := s.dl.awaitFeedback pid harq }
    if (s.dl.processes pid).round < g.dlHarqRoundMax then return s else .error .roundOutOfRange

/-! ### Uplink -/

def createUlHarqList (s : NrUeSchedCtrl) (scInfo : Option ServingCellInfo) :
    Except Abort NrUeSchedCtrl := do
  return { s with ul := ← s.ul.create (getNrofHarqProcessesForPusch scInfo) }

def resetUlHarqList (s : NrUeSchedCtrl) : Except Abort NrUeSchedCtrl := do
  return { s with ul := ← s.ul.reset }

def finishNrUlHarq (s : NrUeSchedCtrl) (harqPid : ℕ) : NrUeSchedCtrl :=
  { s with ul := s.ul.finish harqPid }

def abortNrUlHarq (s : NrUeSchedCtrl) (harqPid : ℕ) : NrUeSchedCtrl :=
  let s := { finishNrUlHarq s harqPid with ulErrors := s.ulErrors + 1 }
  { s with schedUlBytes := max 0 (s.schedUlBytes - (s.ul.processes harqPid).tbSize) }

/-- A process whose transport block was not received: sent again, or given up after the last
round. -/
def nackUlHarq (s : NrUeSchedCtrl) (harqPid : ℕ) (harqRoundMax : ℕ) : NrUeSchedCtrl :=
  if ((s.ul.processes harqPid).round : ℤ) ≥ harqRoundMax - 1 then abortNrUlHarq s harqPid
  else { s with ul := s.ul.retransmit harqPid }

/-- The loop of `handle_nr_ul_harq`: processes ahead of the one that `harqId` names are handled as
not received. -/
def skipUlHarq (harqRoundMax : ℕ) (harqId : UInt8) :
    ℕ → NrUeSchedCtrl → Except Abort (NrUeSchedCtrl × Option ℕ)
  | 0, _ => .error .listLoops
  | fuel + 1, s =>
    let harqPid := s.ul.feedback.head
    if harqPid < 0 then .ok (s, none)
    else if (harqId.toNat : ℤ) ≠ harqPid then do
      let ul ← s.ul.popFeedback
      let pid := harqPid.toNat
      let s := { s with ul := ul.setProcess pid { ul.processes pid with isWaiting := false } }
      skipUlHarq harqRoundMax harqId fuel (nackUlHarq s pid harqRoundMax)
    else .ok (s, some harqPid.toNat)

/-- `handle_nr_ul_harq` for a UE that is not in random access: the CRC PDU's `harq_id` and
`tb_crc_status`. -/
def handleNrUlHarq (g : HarqConfig) (s : NrUeSchedCtrl) (harqId : UInt8) (tbCrcStatus : Bool) :
    Except Abort NrUeSchedCtrl :=
  if g.disableHarq then .ok s
  else do
    let (s, found) ← skipUlHarq g.ulHarqRoundMax harqId (s.ul.feedback.len + 1) s
    match found with
    | none => return s
    | some pid =>
      let ul ← s.ul.popFeedback
      if (ul.processes pid).isWaiting then
        let harq := { ul.processes pid with feedbackSlot := 0xffff, isWaiting := false }
        let s := { s with ul := ul.setProcess pid harq }
        if tbCrcStatus then return nackUlHarq s pid g.ulHarqRoundMax
        else return finishNrUlHarq s pid
      else .error .notWaiting

/-- The statistics of `nr_schedule_ulsch`: a new transmission is kept for its retransmissions. -/
def saveSchedPusch (g : HarqConfig) (s : NrUeSchedCtrl) (pid tbSize : ℕ) :
    Except Abort NrUeSchedCtrl :=
  let harq := s.ul.processes pid
  if harq.round < g.ulHarqRoundMax then
    if harq.round = 0 then
      .ok { s with
        ul := s.ul.setProcess pid { harq with tbSize }
        schedUlBytes := s.schedUlBytes + tbSize }
    else .ok s
  else .error .roundOutOfRange

/-- The HARQ part of `nr_schedule_ulsch` for one UE: the preprocessor's choice of process, the slot
and the size of the transport block. -/
def nrScheduleUlsch (g : HarqConfig) (s : NrUeSchedCtrl) (ulHarqPid : ℤ) (slot : UInt16)
    (tbSize : ℕ) : Except Abort NrUeSchedCtrl := do
  let (ul, pid) ← s.ul.takeProcess ulHarqPid
  let s := { s with ul }
  let harq := s.ul.processes pid
  if harq.isWaiting then .error .stillWaiting
  else
    let s :=
      if g.disableHarq then finishNrUlHarq s pid
      else { s with ul := s.ul.awaitFeedback pid { harq with feedbackSlot := slot } }
    saveSchedPusch g s pid tbSize

/-! ### Runs -/

/-- The list whose head the preprocessor takes: a new transmission, or a retransmission. -/
inductive HarqPick
  | newData
  | retransmission
  deriving DecidableEq

/-- The process that the preprocessor picks, -1 if the list is empty. -/
def HarqLists.pick (h : HarqLists) : HarqPick → ℤ
  | .newData => h.available.head
  | .retransmission => h.retrans.head

/-- What happens to a UE's HARQ processes. -/
inductive HarqInput
  | configure (scInfo : Option ServingCellInfo)
  | scheduleDl (pick : HarqPick) (pucch : Option (UInt16 × UInt16))
  | uciPucch01 (frame slot : UInt32) (harqConfidenceLevel : UInt8) (harqList : List UInt8)
  | uciPucch234 (frame slot : UInt32) (harqCrc : UInt8) (harqPayload : List UInt8)
      (harqBitLen : ℕ)
  | resetDl
  | scheduleUl (pick : HarqPick) (slot : UInt16) (tbSize : ℕ)
  | crc (harqId : UInt8) (tbCrcStatus : Bool)
  | resetUl

/-- One input. -/
def harqStep (g : HarqConfig) (s : NrUeSchedCtrl) : HarqInput → Except Abort NrUeSchedCtrl
  | .configure scInfo => do createUlHarqList (← createDlHarqList s scInfo) scInfo
  | .scheduleDl pick pucch => nrScheduleUeSpec g s (s.dl.pick pick) pucch
  | .uciPucch01 frame slot conf bits => handleNrUciPucch01 g frame slot conf s bits
  | .uciPucch234 frame slot crc payload n => handleNrUciPucch234 g frame slot crc payload n 0 s
  | .resetDl => resetDlHarqList s
  | .scheduleUl pick slot tbSize => nrScheduleUlsch g s (s.ul.pick pick) slot tbSize
  | .crc harqId status => handleNrUlHarq g s harqId status
  | .resetUl => resetUlHarqList s

/-- The memory of a UE before its HARQ lists are created. -/
def NrUeSchedCtrl.zeroed : NrUeSchedCtrl :=
  let l : NrList := { head := 0, next := fun _ ↦ 0, tail := 0, len := 0 }
  let h : HarqLists := { available := l, feedback := l, retrans := l, processes := fun _ ↦ {} }
  { dl := h, ul := h }

/-- A new UE, all of its processes available. -/
def NrUeSchedCtrl.new (scInfo : Option ServingCellInfo) : NrUeSchedCtrl :=
  { dl := zeroed.dl.created (getNrofHarqProcessesForPdsch scInfo)
    ul := zeroed.ul.created (getNrofHarqProcessesForPusch scInfo) }

/-- The HARQ processes of a UE, from its creation on. -/
def harqSystem (g : HarqConfig) (scInfo : Option ServingCellInfo) :
    StepSystem NrUeSchedCtrl HarqInput where
  init := .new scInfo
  step s i := (harqStep g s i).toOption

end OaiRan.Mac
