import OaiRan.Lib.CInt
import OaiRan.Lib.Loop
import OaiRan.Mac.Bsr
import Mathlib.Data.List.Nodup

/-!
# The UE's uplink MAC PDU

`nr_ue_get_sdu` fills a transport block in three parts. `nr_ue_get_sdu_mac_ce_pre` sets room aside
for a power headroom report and a buffer status report. Then rounds over the logical channels take
SDUs from RLC (`fill_mac_sdu`), how many bytes being decided by `get_num_bytes_to_reqlc`; channels of
the same priority get equal shares. At the end `nr_ue_get_sdu_mac_ce_post` chooses and writes the
reports, and the rest is padding.

RLC is a parameter: what `mac_rlc_data_req` returns is at most what was asked for, and otherwise
arbitrary. Pointers are offsets into the transport block; their differences are converted as C
converts them. An assertion that fails is `none`, as is a loop that does not end. Of the timers and
the scheduling requests that a BSR resets, only the assertion on the channel that triggered it is
kept.
-/

namespace OaiRan.UeMac

open CInt OaiRan.Mac

/-! ### State -/

/-- The part of `nr_lcordered_info_t` that is used here; `pbr` is in bytes, `UINT_MAX` for infinity. -/
structure LcInfo where
  lcid : ℕ
  priority : ℤ
  pbr : ℕ
  deriving DecidableEq

/-- `NR_LC_SCHEDULING_INFO` without its timer. -/
structure LcSchedulingInfo where
  (lcidBufferRemain lcgId : ℕ)
  bj : ℤ
  deriving DecidableEq

def nrInvalidLcgId : ℕ := 8

/-- RLC as MAC sees it. -/
structure Rlc (ρ : Type) where
  /-- `mac_rlc_data_req`: the bytes for a logical channel, of which so many were asked for. -/
  dataReq : ρ → ℕ → ℤ → List UInt8 × ρ
  length_le : ∀ r lcid n, (dataReq r lcid n).1.length ≤ n.toNat

/-- RLC with enough data of one kind for every channel. -/
def fullRlc : Rlc Unit where
  dataReq _ lcid n := (List.replicate n.toNat (.ofNat lcid), ())
  length_le _ _ _ := by simp

/-- The part of `NR_UE_MAC_INST_t` that is used here. Logical channels have different identities. -/
structure MacInst where
  lcOrderedList : List LcInfo
  nodup : (lcOrderedList.map (·.lcid)).Nodup
  lcid_mem : ∀ lc ∈ lcOrderedList, 0 < lc.lcid ∧ lc.lcid ≤ 32
  /-- `lc_sched_info`, by LCID. -/
  lcSchedInfo : ℕ → LcSchedulingInfo
  /-- `BSR_reporting_active & NR_BSR_TRIGGER_REGULAR`. -/
  bsrTriggerRegular : Bool := false
  /-- `BSR_reporting_active & NR_BSR_TRIGGER_PERIODIC`. -/
  bsrTriggerPeriodic : Bool := false
  regularBsrTriggerLcid : ℕ := 0
  /-- The two octets of `nr_ue_fill_phr`, if a PHR is configured and to be reported. -/
  phr : Option (UInt8 × UInt8) := none

/-- The variables of `nr_ue_get_sdu`, with what MAC changes while it runs. `pdu` is what has been
written so far, up to `cur_ptr`. -/
structure Mux (ρ : Type) where
  pdu : List UInt8
  (endForTailer numSdus : ℕ)
  /-- `lcids_data_status`, by LCID. -/
  lcidsDataStatus : ℕ → Bool
  lcpAllocationCounter : ℕ
  lcSchedInfo : ℕ → LcSchedulingInfo
  lcgBytes : ℕ → ℕ
  (numLcidsSamePriority countSamePriorityLcids buflenEp : ℕ)
  /-- `remain` when `buflen_ep` was computed from it. -/
  remainEp : ℤ
  /-- `lcids_bytes_tot`, by LCID. -/
  lcidsBytesTot : ℕ → ℕ
  rlc : ρ
  /-- What RLC has returned, with its LCID; nothing is recorded when it returned nothing. -/
  taken : List (ℕ × List UInt8)

variable {ρ : Type}

/-- `end_for_tailer - cur_ptr`. -/
def Mux.room (s : Mux ρ) : ℤ := s.endForTailer - s.pdu.length

/-! ### Before the SDUs -/

/-- `LCG_bytes` after `nr_update_bsr`. -/
def MacInst.lcgBytes (mac : MacInst) : ℕ → ℕ :=
  mac.lcOrderedList.foldl (fun bytes lc ↦
    let info := mac.lcSchedInfo lc.lcid
    if info.lcgId ≠ nrInvalidLcgId then
      Function.update bytes info.lcgId ((bytes info.lcgId + info.lcidBufferRemain) % 2 ^ 32)
    else bytes) fun _ ↦ 0

/-- The channel for which `nr_update_bsr` triggers a regular BSR. -/
def MacInst.newTrigger (mac : MacInst) : Option ℕ :=
  if mac.bsrTriggerRegular then none
  else (mac.lcOrderedList.find? fun lc ↦ (mac.lcSchedInfo lc.lcid).lcgId ≠ nrInvalidLcgId).map (·.lcid)

/-- `regularBSR_trigger_lcid` after `nr_update_bsr`. -/
def MacInst.triggerLcid (mac : MacInst) : ℕ := mac.newTrigger.getD mac.regularBsrTriggerLcid

/-- `BSR_reporting_active` after `nr_update_bsr`. -/
def MacInst.bsrReportingActive (mac : MacInst) : Bool :=
  mac.bsrTriggerRegular || mac.bsrTriggerPeriodic || mac.newTrigger.isSome

/-- `bsr_len` in `nr_ue_get_sdu_mac_ce_pre`. -/
def MacInst.bsrLen (mac : MacInst) (buflen : ℕ) : ℕ :=
  if mac.bsrReportingActive then
    let numLcgIdWithData := (List.range 8).countP fun i ↦ mac.lcgBytes i ≠ 0
    let sizeForLong := numLcgIdWithData + 3
    let sizeForShort := 2
    if numLcgIdWithData > 1 ∧ buflen ≥ sizeForLong then sizeForLong
    else if numLcgIdWithData > 0 ∧ buflen ≥ sizeForShort ∨ mac.bsrTriggerPeriodic = true then
      sizeForShort
    else 0
  else 0

/-- The PHR that will be sent: there has to be room for it beside the BSR. -/
def MacInst.phrSent (mac : MacInst) (buflen : ℕ) : Option (UInt8 × UInt8) :=
  if buflen ≥ mac.bsrLen buflen + 3 then mac.phr else none

def MacInst.phrLen (mac : MacInst) (buflen : ℕ) : ℕ := if (mac.phrSent buflen).isSome then 3 else 0

/-- The state before the first round. -/
def MacInst.start (mac : MacInst) (buflen : ℕ) (rlc : ρ) : Mux ρ where
  pdu := []
  endForTailer := buflen - mac.bsrLen buflen - mac.phrLen buflen
  numSdus := 0
  lcidsDataStatus := fun _ ↦ true
  lcpAllocationCounter := 0
  lcSchedInfo := mac.lcSchedInfo
  lcgBytes := mac.lcgBytes
  numLcidsSamePriority := 0
  countSamePriorityLcids := 0
  buflenEp := 0
  remainEp := 0
  lcidsBytesTot := fun _ ↦ 0
  rlc := rlc
  taken := []

/-! ### One SDU -/

/-- `*target` of `get_num_bytes_to_reqlc`. -/
def reqlcTarget (pbr samePriorityCount buflenRemainEp : ℕ) : ℕ :=
  if samePriorityCount > 1 then min buflenRemainEp pbr else pbr

/-- `num_remaining_bytes` and `num_bytes_requested`. The former is signed in the initial round and
unsigned later; the round number has eight bits. -/
def reqlcSizes (pbr samePriorityCount buflenRemainEp : ℕ) (buflenRemain : ℤ) (roundId : ℕ)
    (lcidRemainBuffer bytesReadFromLc : ℕ) : ℤ × ℤ :=
  if roundId % 256 = 0 then
    let pduRemain := if samePriorityCount > 1 then buflenRemainEp else toUint32 buflenRemain
    let requested := if pduRemain < pbr then min pduRemain lcidRemainBuffer
      else min pbr lcidRemainBuffer
    let remaining : ℤ := reqlcTarget pbr samePriorityCount buflenRemainEp - bytesReadFromLc
    (remaining, min requested remaining)
  else if samePriorityCount > 1 then
    let requested := min buflenRemainEp lcidRemainBuffer
    let remaining := toUint32 (buflenRemainEp - bytesReadFromLc)
    (remaining, min requested remaining)
  else (0, min buflenRemain lcidRemainBuffer)

/-- `get_num_bytes_to_reqlc`: the bytes to ask for and `target`, `none` where its assertion fails. -/
def getNumBytesToReqlc (pbr samePriorityCount buflenRemainEp : ℕ) (buflenRemain : ℤ) (roundId : ℕ)
    (lcidRemainBuffer bytesReadFromLc : ℕ) : Option (ℤ × ℕ) :=
  let sizes := reqlcSizes pbr samePriorityCount buflenRemainEp buflenRemain roundId lcidRemainBuffer
    bytesReadFromLc
  if sizes.1 ≥ 0 ∧ sizes.2 ≤ buflenRemain then
    some (sizes.2, reqlcTarget pbr samePriorityCount buflenRemainEp)
  else none

/-- The size of a subheader for so many bytes. -/
def headerSize (bytes : ℤ) : ℕ := if bytes < 256 then 2 else 3

/-- `NR_MAC_SUBHEADER_SHORT` or `NR_MAC_SUBHEADER_LONG` of an SDU. -/
def sduHeader (size lcid sduLength : ℕ) : List UInt8 :=
  if size = 2 then [.ofNat (lcid % 64), .ofNat sduLength]
  else [.ofNat (lcid % 64 + 64), .ofNat (sduLength / 256), .ofNat sduLength]

/-- What `fill_mac_sdu` asks for. -/
def Mux.request (s : Mux ρ) (lc : LcInfo) : Option (ℤ × ℕ) :=
  let usable := toUint32 s.room
  getNumBytesToReqlc lc.pbr s.countSamePriorityLcids s.buflenEp
    (toInt32 (toUint32 (usable - headerSize usable))) s.lcpAllocationCounter
    (s.lcSchedInfo lc.lcid).lcidBufferRemain (s.lcidsBytesTot lc.lcid)

/-- RLC has been asked; `Bj` is lowered. -/
def Mux.take (s : Mux ρ) (lc : LcInfo) (sdu : List UInt8) (rlc : ρ) : Mux ρ :=
  { s with
    lcSchedInfo := Function.update s.lcSchedInfo lc.lcid
      { s.lcSchedInfo lc.lcid with bj := (s.lcSchedInfo lc.lcid).bj - (sdu.length % 2 ^ 16 : ℕ) }
    rlc
    taken := if sdu = [] then s.taken else s.taken ++ [(lc.lcid, sdu)] }

/-- RLC had nothing. -/
def Mux.noData (s : Mux ρ) (lc : LcInfo) : Mux ρ :=
  { s with
    lcidsDataStatus := Function.update s.lcidsDataStatus lc.lcid false
    numLcidsSamePriority := s.numLcidsSamePriority - 1 }

/-- The SDU is put behind its subheader, and the bookkeeping follows. -/
def Mux.put (s : Mux ρ) (lc : LcInfo) (headerSz : ℕ) (sdu : List UInt8) : Mux ρ :=
  let info := s.lcSchedInfo lc.lcid
  { s with
    pdu := s.pdu ++ (sduHeader headerSz lc.lcid sdu.length ++ sdu)
    numSdus := s.numSdus + 1
    lcSchedInfo := Function.update s.lcSchedInfo lc.lcid
      { info with lcidBufferRemain := info.lcidBufferRemain - sdu.length }
    lcgBytes := Function.update s.lcgBytes info.lcgId
      (toUint32 (s.lcgBytes info.lcgId - sdu.length))
    lcidsBytesTot := Function.update s.lcidsBytesTot lc.lcid
      (s.lcidsBytesTot lc.lcid + (sdu.length + if s.countSamePriorityLcids > 1 then 3 else 0)) }

/-- The channel has been served in this round. -/
def Mux.served (s : Mux ρ) (lc : LcInfo) (target : ℕ) : Bool :=
  s.lcpAllocationCounter == 0 && decide (s.lcidsBytesTot lc.lcid ≥ target) ||
    decide (s.countSamePriorityLcids > 1) && decide (s.lcidsBytesTot lc.lcid ≥ s.buflenEp)

/-- The rest of `fill_mac_sdu` after RLC has answered. `sdu_length` has 16 bits. -/
def Mux.answered (s : Mux ρ) (lc : LcInfo) (bytesRequested : ℤ) (target : ℕ) (sdu : List UInt8)
    (rlc : ρ) : Bool × Mux ρ :=
  let s := s.take lc sdu rlc
  let sdu := sdu.take (sdu.length % 2 ^ 16)
  if sdu.length > 0 then
    let s := s.put lc (headerSize bytesRequested) sdu
    if s.served lc target then
      (false, { s with numLcidsSamePriority := s.numLcidsSamePriority - 1 })
    else (true, s)
  else (false, s.noData lc)

/-- `fill_mac_sdu`: whether to go on with the channel, `none` where an assertion fails, and where an SDU
is counted in `LCG_bytes`, which has eight entries, for a channel without LCG. -/
def fillMacSdu (R : Rlc ρ) (lc : LcInfo) (s : Mux ρ) : Option (Bool × Mux ρ) :=
  if toUint64 s.room < 3 then some (false, s)
  else
    (s.request lc).bind fun (bytesRequested, target) ↦
      let (sdu, rlc) := R.dataReq s.rlc lc.lcid bytesRequested
      if bytesRequested ≥ (sdu.length % 2 ^ 16 : ℕ) ∧
          (sdu.length % 2 ^ 16 > 0 → (s.lcSchedInfo lc.lcid).lcgId < nrInvalidLcgId) then
        some (s.answered lc bytesRequested target sdu rlc)
      else none

/-! ### The rounds -/

/-- `buflen_ep` of each of `count` channels, computed in `size_t` and kept in `uint32_t`. -/
def equalShare (remain : ℤ) (count : ℕ) : ℕ := toUint64 (remain - count * 3) / count % 2 ^ 32

/-- The number of channels of one priority is set when no channel of the last ones is left. -/
def Mux.setCount (s : Mux ρ) (same : ℕ) : Mux ρ :=
  if s.numLcidsSamePriority = 0 then
    { s with numLcidsSamePriority := same, countSamePriorityLcids := same }
  else s

/-- Their share is set when none of them has been served. -/
def Mux.setShare (s : Mux ρ) : Mux ρ :=
  if s.numLcidsSamePriority = s.countSamePriorityLcids then
    { s with
      buflenEp := equalShare (toInt32 s.room) s.countSamePriorityLcids
      remainEp := toInt32 s.room }
  else s

/-- A turn of `while (end_for_tailer - cur_ptr > 0)`. -/
def fillTurn (R : Rlc ρ) (lc : LcInfo) (s : Mux ρ) : Option (Bool × Mux ρ) :=
  if s.room > 0 then fillMacSdu R lc s else some (false, s)

/-- The body of the loop over the channels; `same` is `get_count_lcids_same_priority`. -/
def visit (R : Rlc ρ) (s : Mux ρ) : LcInfo × ℕ → Option (Mux ρ)
  | (lc, same) =>
    if s.lcidsDataStatus lc.lcid then
      let s := (s.setCount same).setShare
      loopM (fillTurn R lc) (s.room.toNat + 1) s
    else some s

/-- The channels with the number of those from each one on that have its priority
(`get_count_lcids_same_priority`). -/
def visits : List LcInfo → List (LcInfo × ℕ)
  | [] => []
  | lc :: lcs => (lc, (lc :: lcs).countP fun l ↦ lc.priority == l.priority) :: visits lcs

def MacInst.selectLogicalChannels (mac : MacInst) : List LcInfo :=
  mac.lcOrderedList.filter fun lc ↦ (mac.lcSchedInfo lc.lcid).bj > 0

/-- The variables that each round starts anew. -/
def Mux.startRound (s : Mux ρ) : Mux ρ :=
  { s with numLcidsSamePriority := 0, countSamePriorityLcids := 0, lcidsBytesTot := fun _ ↦ 0 }

/-- The loop condition: room, and data (`get_dataavailability_buffers`). -/
def Mux.goesOn (s : Mux ρ) (active : List LcInfo) : Bool :=
  decide (toUint64 s.room > 3) && active.any fun lc ↦ s.lcidsDataStatus lc.lcid

/-- A turn of the `do … while` of `nr_ue_get_sdu`. -/
def lcpRound (R : Rlc ρ) (active : List LcInfo) (s : Mux ρ) : Option (Bool × Mux ρ) :=
  ((visits active).foldlM (visit R) s.startRound).map fun s ↦
    (s.goesOn active, { s with lcpAllocationCounter := s.lcpAllocationCounter + 1 })

/-- `nr_ue_get_sdu` up to `nr_ue_get_sdu_mac_ce_post`. -/
def multiplex (R : Rlc ρ) (mac : MacInst) (buflen : ℕ) (rlc : ρ) : Option (Mux ρ) :=
  let active := mac.selectLogicalChannels
  loopM (lcpRound R active) (buflen + active.length + 2) (mac.start buflen rlc)

/-! ### After the SDUs -/

/-- `type_bsr_t`. -/
inductive Bsr
  | none
  | short (trunc : Bool) (lcgId bufferSize : ℕ)
  | long (trunc : Bool) (lcgBsr : List UInt8)
  deriving DecidableEq

/-- `lcg_id_bsr_max`: the LCG of the first channel with data. -/
def Mux.lcgIdBsrMax (s : Mux ρ) (mac : MacInst) : ℕ :=
  match mac.lcOrderedList.find? fun lc ↦ (s.lcSchedInfo lc.lcid).lcidBufferRemain ≠ 0 with
  | some lc => (s.lcSchedInfo lc.lcid).lcgId
  | none => 0

/-- `lcg_bsr` of a long BSR. -/
def Mux.lcgBsr (s : Mux ρ) : List UInt8 :=
  (List.range 8).map fun lcgId ↦ .ofNat (nrLocateBsrIndexByBufferSize nrLongBsrTable (s.lcgBytes lcgId))

/-- The choice of the BSR. The count of LCGs with data compares the array `LCG_bytes` itself with 0,
and is always 8. -/
def Mux.chooseBsr (s : Mux ρ) (mac : MacInst) (paddingLen : ℕ) : Bsr :=
  let shortBsrSz := 2
  let numLcgIdWithData := 8
  let longBsrSz := numLcgIdWithData + 3
  let lcgId := s.lcgIdBsrMax mac
  let level := nrLocateBsrIndexByBufferSize nrShortBsrTable (s.lcgBytes lcgId)
  if numLcgIdWithData < 2 ∧ paddingLen ≥ shortBsrSz then .short false lcgId level
  else if paddingLen ≥ longBsrSz then .long false s.lcgBsr
  else if paddingLen = shortBsrSz then .short true lcgId level
  else if paddingLen ≥ 3 then .long true s.lcgBsr
  else .none

/-- The entries of a long BSR that are written: those that are not zero, as far as there is room. -/
def lcgEntries : List (ℕ × UInt8) → ℕ → List (ℕ × UInt8)
  | [], _ => []
  | e :: es, space =>
    if e.2 ≠ 0 ∧ 0 < space then e :: lcgEntries es (space - 1) else lcgEntries es space

/-- LCIDs of the uplink. -/
def ulSchLcidSingleEntryPhr : UInt8 := 0x39
def ulSchLcidSTruncatedBsr : UInt8 := 0x3B
def ulSchLcidLTruncatedBsr : UInt8 := 0x3C
def ulSchLcidSBsr : UInt8 := 0x3D
def ulSchLcidLBsr : UInt8 := 0x3E
def ulSchLcidPadding : UInt8 := 0x3F

/-- The PHR part of `nr_write_ce_ulsch_pdu`. -/
def phrBytes : Option (UInt8 × UInt8) → List UInt8
  | none => []
  | some (ph, pcmax) => [ulSchLcidSingleEntryPhr, ph, pcmax]

/-- The BSR part of `nr_write_ce_ulsch_pdu`, `space` being the room up to `mac_ce_end`. -/
def bsrBytes (space : ℕ) : Bsr → List UInt8
  | .none => []
  | .short trunc lcgId bufferSize =>
    [if trunc then ulSchLcidSTruncatedBsr else ulSchLcidSBsr,
      .ofNat (bufferSize % 32 + lcgId % 8 * 32)]
  | .long trunc lcgBsr =>
    let entries := lcgEntries ((List.range 8).zip lcgBsr) (space - 3)
    [if trunc then ulSchLcidLTruncatedBsr else ulSchLcidLBsr, .ofNat (1 + entries.length),
      .ofNat (entries.map fun e ↦ 2 ^ e.1).sum] ++ entries.map (·.2)

/-- What `nr_ue_get_sdu` leaves behind. -/
structure UlMacPdu where
  pdu : List UInt8
  bsrSent : Bool
  /-- The returned value: at least one SDU. -/
  success : Bool
  taken : List (ℕ × List UInt8)

/-- The bytes behind the SDUs. -/
def Mux.tail (s : Mux ρ) (mac : MacInst) (buflen : ℕ) : List UInt8 :=
  let paddingLen := toUint32 ((buflen : ℤ) - s.pdu.length - mac.phrLen buflen)
  let phr := phrBytes (mac.phrSent buflen)
  let bsr := bsrBytes (buflen - s.pdu.length - phr.length) (s.chooseBsr mac paddingLen)
  let remain := buflen - s.pdu.length - phr.length - bsr.length
  phr ++ bsr ++ if remain ≠ 0 then ulSchLcidPadding :: List.replicate (remain - 1) 0 else []

/-- `nr_ue_get_sdu_mac_ce_post` and the padding; `none` where the channel that triggered the BSR
does not exist any more. -/
def Mux.finish (s : Mux ρ) (mac : MacInst) (buflen : ℕ) : Option UlMacPdu :=
  let paddingLen := toUint32 ((buflen : ℤ) - s.pdu.length - mac.phrLen buflen)
  let bsrSent := s.chooseBsr mac paddingLen != .none
  if bsrSent && decide (mac.triggerLcid > 0) &&
      !mac.lcOrderedList.any fun lc ↦ lc.lcid == mac.triggerLcid then none
  else some
    { pdu := s.pdu ++ s.tail mac buflen
      bsrSent
      success := decide (s.numSdus > 0)
      taken := s.taken }

def nrUeGetSdu (R : Rlc ρ) (mac : MacInst) (buflen : ℕ) (rlc : ρ) : Option UlMacPdu :=
  (multiplex R mac buflen rlc).bind fun s ↦ s.finish mac buflen

end OaiRan.UeMac
