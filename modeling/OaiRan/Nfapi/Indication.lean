import OaiRan.Nfapi.Primitives

/-!
# The P7 indications

RX_DATA, CRC, UCI, SRS and RACH indications with their packers and unpackers (`nr_fapi_p7.c`). The
two are written independently of each other in the source, and so they are here; behind each pair
stands the lemma that **the packer carries the message to the unpacker**.

A list in dynamic memory has as many entries as its count says; a fixed array has room for more. A
payload has as many bytes as both sides compute from its number of bits. The parts of a UCI PDU are
there as its bitmap says.
-/

namespace OaiRan.Nfapi

open Codec Carries

/-! ### RX_DATA.indication -/

structure NrRxDataPdu where
  handle : UInt32
  rnti : UInt16
  harqId : UInt8
  pduLength : UInt32
  ulCqi : UInt8
  (timingAdvance rssi : UInt16)
  pdu : List.Vector UInt8 pduLength.toNat

structure NrRxDataIndication where
  (sfn slot numberOfPdus : UInt16)
  pduList : List.Vector NrRxDataPdu numberOfPdus.toNat

def packNrRxDataIndicationBody (value : NrRxDataPdu) : Put Unit := do
  push32 value.handle
  push16 value.rnti
  push8 value.harqId
  push32 value.pduLength
  push8 value.ulCqi
  push16 value.timingAdvance
  push16 value.rssi
  pusharray8 value.pdu value.pduLength.toNat

def packNrRxDataIndication (msg : NrRxDataIndication) : Put Unit := do
  push16 msg.sfn
  push16 msg.slot
  push16 msg.numberOfPdus
  pushVec packNrRxDataIndicationBody msg.pduList

def unpackNrRxDataIndicationBody : Get NrRxDataPdu := do
  let handle ← pull32
  let rnti ← pull16
  let harqId ← pull8
  let pduLength ← pull32
  pure {
    handle, rnti, harqId, pduLength
    ulCqi := ← pull8
    timingAdvance := ← pull16
    rssi := ← pull16
    pdu := ← pullarray8 pduLength.toNat pduLength.toNat }

def unpackNrRxDataIndication : Get NrRxDataIndication := do
  let sfn ← pull16
  let slot ← pull16
  let numberOfPdus ← pull16
  let pduList ← pullVec unpackNrRxDataIndicationBody numberOfPdus.toNat
  pure { sfn, slot, numberOfPdus, pduList }

theorem carries_packNrRxDataIndicationBody (value : NrRxDataPdu) :
    Carries (packNrRxDataIndicationBody value) unpackNrRxDataIndicationBody value :=
  .push32 <| .push16 <| .push8 <| .push32 <| .push8 <| .push16 <| .push16 <|
    (carries_pusharray8 _ _).map _

theorem carries_packNrRxDataIndication (msg : NrRxDataIndication) :
    Carries (packNrRxDataIndication msg) unpackNrRxDataIndication msg :=
  .push16 <| .push16 <| .push16 <|
    (vec_self _ fun _ _ ↦ carries_packNrRxDataIndicationBody _).map _

/-! ### CRC.indication -/

structure NrCrc where
  handle : UInt32
  rnti : UInt16
  (harqId tbCrcStatus : UInt8)
  numCb : UInt16
  cbCrcStatus : Optional (List.Vector UInt8 (numCb.toNat / 8 + 1)) (numCb != 0)
  ulCqi : UInt8
  (timingAdvance rssi : UInt16)

structure NrCrcIndication where
  (sfn slot numberCrcs : UInt16)
  crcList : List.Vector NrCrc numberCrcs.toNat

def packNrCrcIndicationBody (value : NrCrc) : Put Unit := do
  push32 value.handle
  push16 value.rnti
  push8 value.harqId
  push8 value.tbCrcStatus
  push16 value.numCb
  pushOptional (fun status ↦ pusharray8 status (value.numCb.toNat / 8 + 1)) value.cbCrcStatus
  push8 value.ulCqi
  push16 value.timingAdvance
  push16 value.rssi

def packNrCrcIndication (msg : NrCrcIndication) : Put Unit := do
  push16 msg.sfn
  push16 msg.slot
  push16 msg.numberCrcs
  pushVec packNrCrcIndicationBody msg.crcList

def unpackNrCrcIndicationBody : Get NrCrc := do
  let handle ← pull32
  let rnti ← pull16
  let harqId ← pull8
  let tbCrcStatus ← pull8
  let numCb ← pull16
  let cbLen := numCb.toNat / 8 + 1
  let cbCrcStatus ← pullOptional (pullarray8 cbLen cbLen) (numCb != 0)
  let ulCqi ← pull8
  let timingAdvance ← pull16
  let rssi ← pull16
  pure { handle, rnti, harqId, tbCrcStatus, numCb, cbCrcStatus, ulCqi, timingAdvance, rssi }

def unpackNrCrcIndication : Get NrCrcIndication := do
  let sfn ← pull16
  let slot ← pull16
  let numberCrcs ← pull16
  let crcList ← pullVec unpackNrCrcIndicationBody numberCrcs.toNat
  pure { sfn, slot, numberCrcs, crcList }

theorem carries_packNrCrcIndicationBody (value : NrCrc) :
    Carries (packNrCrcIndicationBody value) unpackNrCrcIndicationBody value :=
  .push32 <| .push16 <| .push8 <| .push8 <| .push16 <|
    (optional (fun status ↦ carries_pusharray8 status _) _).bind <| .push8 <| .push16 <|
    (carries_push16 _).map _

theorem carries_packNrCrcIndication (msg : NrCrcIndication) :
    Carries (packNrCrcIndication msg) unpackNrCrcIndication msg :=
  .push16 <| .push16 <| .push16 <|
    (vec_self _ fun _ _ ↦ carries_packNrCrcIndicationBody _).map _

/-! ### UCI.indication -/

/-- `nfapi_nr_harq_pdu_2_3_4_t`, `nfapi_nr_csi_part1_pdu_t` and `nfapi_nr_csi_part2_pdu_t`, which have
the same fields. -/
structure NrUciPayload where
  crc : UInt8
  bitLen : UInt16
  payload : List.Vector UInt8 (bitLen.toNat / 8 + 1)

structure NrSrPdu01 where
  (srIndication srConfidenceLevel : UInt8)

structure NrSrPdu234 where
  srBitLen : UInt16
  srPayload : List.Vector UInt8 (srBitLen.toNat / 8 + 1)

structure NrHarqPdu01 where
  (numHarq harqConfidenceLevel : UInt8)
  harqList : CArray 2 numHarq.toNat UInt8

structure NrUciPuschPdu where
  pduBitmap : UInt8
  handle : UInt32
  rnti : UInt16
  ulCqi : UInt8
  (timingAdvance rssi : UInt16)
  harq : Optional NrUciPayload (pduBitmap.toNat.testBit 1)
  csiPart1 : Optional NrUciPayload (pduBitmap.toNat.testBit 2)
  csiPart2 : Optional NrUciPayload (pduBitmap.toNat.testBit 3)

structure NrUciPucchPduFormat01 where
  pduBitmap : UInt8
  handle : UInt32
  rnti : UInt16
  (pucchFormat ulCqi : UInt8)
  (timingAdvance rssi : UInt16)
  sr : Optional NrSrPdu01 (pduBitmap.toNat.testBit 0)
  harq : Optional NrHarqPdu01 (pduBitmap.toNat.testBit 1)

structure NrUciPucchPduFormat234 where
  pduBitmap : UInt8
  handle : UInt32
  rnti : UInt16
  (pucchFormat ulCqi : UInt8)
  (timingAdvance rssi : UInt16)
  sr : Optional NrSrPdu234 (pduBitmap.toNat.testBit 0)
  harq : Optional NrUciPayload (pduBitmap.toNat.testBit 1)
  csiPart1 : Optional NrUciPayload (pduBitmap.toNat.testBit 2)
  csiPart2 : Optional NrUciPayload (pduBitmap.toNat.testBit 3)

/-- `nfapi_nr_uci_pdu_type_e`. -/
def nrUciPuschPduType : UInt16 := 0
def nrUciFormat01PduType : UInt16 := 1
def nrUciFormat234PduType : UInt16 := 2

/-- The union of `nfapi_nr_uci_t`, with the `pdu_type` that selects from it. -/
inductive NrUciPdu
  | pusch (pdu : NrUciPuschPdu)
  | pucch01 (pdu : NrUciPucchPduFormat01)
  | pucch234 (pdu : NrUciPucchPduFormat234)
  | unexpected (pduType : UInt16) (h : pduType ≠ nrUciPuschPduType ∧ pduType ≠ nrUciFormat01PduType ∧
      pduType ≠ nrUciFormat234PduType)

def NrUciPdu.pduType : NrUciPdu → UInt16
  | .pusch _ => nrUciPuschPduType
  | .pucch01 _ => nrUciFormat01PduType
  | .pucch234 _ => nrUciFormat234PduType
  | .unexpected pduType _ => pduType

structure NrUci where
  pduSize : UInt16
  pdu : NrUciPdu

structure NrUciIndication where
  (sfn slot numUcis : UInt16)
  uciList : List.Vector NrUci numUcis.toNat

/-- HARQ and CSI in `pack_nr_uci_pusch` and `pack_nr_uci_pucch_2_3_4`. -/
def packNrUciPayload (value : NrUciPayload) : Put Unit := do
  push8 value.crc
  push16 value.bitLen
  pusharray8 value.payload (value.bitLen.toNat / 8 + 1)

/-- HARQ and CSI in `unpack_nr_uci_pusch` and `unpack_nr_uci_pucch_2_3_4`. -/
def unpackNrUciPayload : Get NrUciPayload := do
  let crc ← pull8
  let bitLen ← pull16
  let len := bitLen.toNat / 8 + 1
  let payload ← pullarray8 len len
  pure { crc, bitLen, payload }

def packNrUciPusch (value : NrUciPuschPdu) : Put Unit := do
  push8 value.pduBitmap
  push32 value.handle
  push16 value.rnti
  push8 value.ulCqi
  push16 value.timingAdvance
  push16 value.rssi
  pushOptional packNrUciPayload value.harq
  pushOptional packNrUciPayload value.csiPart1
  pushOptional packNrUciPayload value.csiPart2

def packNrUciPucch01 (value : NrUciPucchPduFormat01) : Put Unit := do
  push8 value.pduBitmap
  push32 value.handle
  push16 value.rnti
  push8 value.pucchFormat
  push8 value.ulCqi
  push16 value.timingAdvance
  push16 value.rssi
  pushOptional (fun sr : NrSrPdu01 ↦ do
    push8 sr.srIndication
    push8 sr.srConfidenceLevel) value.sr
  pushOptional (fun harq : NrHarqPdu01 ↦ do
    push8 harq.numHarq
    push8 harq.harqConfidenceLevel
    pushVec push8 harq.harqList.entries) value.harq

def packNrUciPucch234 (value : NrUciPucchPduFormat234) : Put Unit := do
  push8 value.pduBitmap
  push32 value.handle
  push16 value.rnti
  push8 value.pucchFormat
  push8 value.ulCqi
  push16 value.timingAdvance
  push16 value.rssi
  pushOptional (fun sr : NrSrPdu234 ↦ do
    push16 sr.srBitLen
    pusharray8 sr.srPayload (sr.srBitLen.toNat / 8 + 1)) value.sr
  pushOptional packNrUciPayload value.harq
  pushOptional packNrUciPayload value.csiPart1
  pushOptional packNrUciPayload value.csiPart2

/-- The `switch` of `pack_nr_uci_indication_body`. -/
def packNrUciPdu : NrUciPdu → Put Unit
  | .pusch pdu => packNrUciPusch pdu
  | .pucch01 pdu => packNrUciPucch01 pdu
  | .pucch234 pdu => packNrUciPucch234 pdu
  | .unexpected _ _ => fail

def packNrUciIndicationBody (value : NrUci) : Put Unit := do
  push16 value.pdu.pduType
  push16 value.pduSize
  packNrUciPdu value.pdu

def packNrUciIndication (msg : NrUciIndication) : Put Unit := do
  push16 msg.sfn
  push16 msg.slot
  push16 msg.numUcis
  pushVec packNrUciIndicationBody msg.uciList

def unpackNrUciPusch : Get NrUciPuschPdu := do
  let pduBitmap ← pull8
  pure {
    pduBitmap
    handle := ← pull32
    rnti := ← pull16
    ulCqi := ← pull8
    timingAdvance := ← pull16
    rssi := ← pull16
    harq := ← pullOptional unpackNrUciPayload (pduBitmap.toNat.testBit 1)
    csiPart1 := ← pullOptional unpackNrUciPayload (pduBitmap.toNat.testBit 2)
    csiPart2 := ← pullOptional unpackNrUciPayload (pduBitmap.toNat.testBit 3) }

/-- The SR part of `unpack_nr_uci_pucch_0_1`. -/
def unpackNrSrPdu01 : Get NrSrPdu01 := do
  pure {
    srIndication := ← pull8
    srConfidenceLevel := ← pull8 }

/-- The HARQ part of `unpack_nr_uci_pucch_0_1`. -/
def unpackNrHarqPdu01 : Get NrHarqPdu01 := do
  let numHarq ← pull8
  pure {
    numHarq
    harqConfidenceLevel := ← pull8
    harqList := ← pullArray 2 pull8 numHarq.toNat }

def unpackNrUciPucch01 : Get NrUciPucchPduFormat01 := do
  let pduBitmap ← pull8
  pure {
    pduBitmap
    handle := ← pull32
    rnti := ← pull16
    pucchFormat := ← pull8
    ulCqi := ← pull8
    timingAdvance := ← pull16
    rssi := ← pull16
    sr := ← pullOptional unpackNrSrPdu01 (pduBitmap.toNat.testBit 0)
    harq := ← pullOptional unpackNrHarqPdu01 (pduBitmap.toNat.testBit 1) }

/-- The SR part of `unpack_nr_uci_pucch_2_3_4`. -/
def unpackNrSrPdu234 : Get NrSrPdu234 := do
  let srBitLen ← pull16
  let srLen := srBitLen.toNat / 8 + 1
  let srPayload ← pullarray8 srLen srLen
  pure { srBitLen, srPayload }

def unpackNrUciPucch234 : Get NrUciPucchPduFormat234 := do
  let pduBitmap ← pull8
  pure {
    pduBitmap
    handle := ← pull32
    rnti := ← pull16
    pucchFormat := ← pull8
    ulCqi := ← pull8
    timingAdvance := ← pull16
    rssi := ← pull16
    sr := ← pullOptional unpackNrSrPdu234 (pduBitmap.toNat.testBit 0)
    harq := ← pullOptional unpackNrUciPayload (pduBitmap.toNat.testBit 1)
    csiPart1 := ← pullOptional unpackNrUciPayload (pduBitmap.toNat.testBit 2)
    csiPart2 := ← pullOptional unpackNrUciPayload (pduBitmap.toNat.testBit 3) }

/-- The `switch` of `unpack_nr_uci_indication_body`; it only warns of an unexpected type. -/
def unpackNrUciPdu (pduType : UInt16) : Get NrUciPdu :=
  if h₀ : pduType = nrUciPuschPduType then do
    let pdu ← unpackNrUciPusch
    pure (.pusch pdu)
  else if h₁ : pduType = nrUciFormat01PduType then do
    let pdu ← unpackNrUciPucch01
    pure (.pucch01 pdu)
  else if h₂ : pduType = nrUciFormat234PduType then do
    let pdu ← unpackNrUciPucch234
    pure (.pucch234 pdu)
  else pure (.unexpected pduType ⟨h₀, h₁, h₂⟩)

def unpackNrUciIndicationBody : Get NrUci := do
  let pduType ← pull16
  let pduSize ← pull16
  let pdu ← unpackNrUciPdu pduType
  pure { pduSize, pdu }

def unpackNrUciIndication : Get NrUciIndication := do
  let sfn ← pull16
  let slot ← pull16
  let numUcis ← pull16
  let uciList ← pullVec unpackNrUciIndicationBody numUcis.toNat
  pure { sfn, slot, numUcis, uciList }

theorem carries_packNrUciPayload (value : NrUciPayload) :
    Carries (packNrUciPayload value) unpackNrUciPayload value :=
  .push8 <| .push16 <| (carries_pusharray8 _ _).map _

theorem carries_packNrUciPusch (value : NrUciPuschPdu) :
    Carries (packNrUciPusch value) unpackNrUciPusch value :=
  .push8 <| .push32 <| .push16 <| .push8 <| .push16 <| .push16 <|
    (optional carries_packNrUciPayload _).bind <|
    (optional carries_packNrUciPayload _).bind <|
    (optional carries_packNrUciPayload _).map _

theorem carries_packNrUciPucch01 (value : NrUciPucchPduFormat01) :
    Carries (packNrUciPucch01 value) unpackNrUciPucch01 value :=
  .push8 <| .push32 <| .push16 <| .push8 <| .push8 <| .push16 <| .push16 <|
    (optional (fun _ ↦ .push8 <| (carries_push8 _).map _) _).bind <|
    (optional (fun _ ↦ .push8 <| .push8 <|
    (array _ fun _ _ ↦ carries_push8 _).map _) _).map _

theorem carries_packNrUciPucch234 (value : NrUciPucchPduFormat234) :
    Carries (packNrUciPucch234 value) unpackNrUciPucch234 value :=
  .push8 <| .push32 <| .push16 <| .push8 <| .push8 <| .push16 <| .push16 <|
    (optional (fun _ ↦ .push16 <| (carries_pusharray8 _ _).map _) _).bind <|
    (optional carries_packNrUciPayload _).bind <|
    (optional carries_packNrUciPayload _).bind <|
    (optional carries_packNrUciPayload _).map _

theorem carries_packNrUciPdu (pdu : NrUciPdu) :
    Carries (packNrUciPdu pdu) (unpackNrUciPdu pdu.pduType) pdu := by
  cases pdu with
  | pusch pdu => exact (carries_packNrUciPusch pdu).map _
  | pucch01 pdu => exact (carries_packNrUciPucch01 pdu).map _
  | pucch234 pdu => exact (carries_packNrUciPucch234 pdu).map _
  | unexpected pduType h => exact .fail

theorem carries_packNrUciIndicationBody (value : NrUci) :
    Carries (packNrUciIndicationBody value) unpackNrUciIndicationBody value :=
  .push16 <| .push16 <| (carries_packNrUciPdu _).map _

theorem carries_packNrUciIndication (msg : NrUciIndication) :
    Carries (packNrUciIndication msg) unpackNrUciIndication msg :=
  .push16 <| .push16 <| .push16 <|
    (vec_self _ fun _ _ ↦ carries_packNrUciIndicationBody _).map _

/-! ### SRS.indication -/

/-- The number of 32-bit words for so many bytes, `(length + 3) / 4` in `uint32_t`. -/
def wordLen (length : UInt32) : ℕ := (length.toNat + 3) % 2 ^ 32 / 4

structure SrsReportTlv where
  tag : UInt16
  length : UInt32
  value : CArray 16384 (wordLen length) UInt32

structure NrSrsIndicationPdu where
  handle : UInt32
  (rnti timingAdvanceOffset : UInt16)
  timingAdvanceOffsetNsec : Int16
  (srsUsage reportType : UInt8)
  reportTlv : SrsReportTlv

structure NrSrsIndication where
  (sfn slot controlLength : UInt16)
  numberOfPdus : UInt8
  pduList : List.Vector NrSrsIndicationPdu numberOfPdus.toNat

def packNrSrsReportTlv (reportTlv : SrsReportTlv) : Put Unit := do
  push16 reportTlv.tag
  push32 reportTlv.length
  pushVec push32 reportTlv.value.entries

def packNrSrsIndicationBody (value : NrSrsIndicationPdu) : Put Unit := do
  push32 value.handle
  push16 value.rnti
  push16 value.timingAdvanceOffset
  pushs16 value.timingAdvanceOffsetNsec
  push8 value.srsUsage
  push8 value.reportType
  packNrSrsReportTlv value.reportTlv

def packNrSrsIndication (msg : NrSrsIndication) : Put Unit := do
  push16 msg.sfn
  push16 msg.slot
  push16 msg.controlLength
  push8 msg.numberOfPdus
  pushVec packNrSrsIndicationBody msg.pduList

def unpackNrSrsReportTlv : Get SrsReportTlv := do
  let tag ← pull16
  let length ← pull32
  let value ← pullArray 16384 pull32 (wordLen length)
  pure { tag, length, value }

def unpackNrSrsIndicationBody : Get NrSrsIndicationPdu := do
  pure {
    handle := ← pull32
    rnti := ← pull16
    timingAdvanceOffset := ← pull16
    timingAdvanceOffsetNsec := ← pulls16
    srsUsage := ← pull8
    reportType := ← pull8
    reportTlv := ← unpackNrSrsReportTlv }

def unpackNrSrsIndication : Get NrSrsIndication := do
  let sfn ← pull16
  let slot ← pull16
  let controlLength ← pull16
  let numberOfPdus ← pull8
  let pduList ← pullVec unpackNrSrsIndicationBody numberOfPdus.toNat
  pure { sfn, slot, controlLength, numberOfPdus, pduList }

theorem carries_packNrSrsReportTlv (reportTlv : SrsReportTlv) :
    Carries (packNrSrsReportTlv reportTlv) unpackNrSrsReportTlv reportTlv :=
  .push16 <| .push32 <| (array _ fun _ _ ↦ carries_push32 _).map _

theorem carries_packNrSrsIndicationBody (value : NrSrsIndicationPdu) :
    Carries (packNrSrsIndicationBody value) unpackNrSrsIndicationBody value :=
  .push32 <| .push16 <| .push16 <| (carries_pushs16 _).bind <| .push8 <| .push8 <|
    (carries_packNrSrsReportTlv _).map _

theorem carries_packNrSrsIndication (msg : NrSrsIndication) :
    Carries (packNrSrsIndication msg) unpackNrSrsIndication msg :=
  .push16 <| .push16 <| .push16 <| .push8 <|
    (vec_self _ fun _ _ ↦ carries_packNrSrsIndicationBody _).map _

/-! ### RACH.indication -/

structure NrPrachIndicationPreamble where
  preambleIndex : UInt8
  timingAdvance : UInt16
  preamblePwr : UInt32

structure NrPrachIndicationPdu where
  phyCellId : UInt16
  (symbolIndex slotIndex freqIndex avgRssi avgSnr numPreamble : UInt8)
  preambleList : CArray 64 numPreamble.toNat NrPrachIndicationPreamble

structure NrRachIndication where
  (sfn slot : UInt16)
  numberOfPdus : UInt8
  pduList : List.Vector NrPrachIndicationPdu numberOfPdus.toNat

/-- The body of the loop over the preambles in `pack_nr_rach_indication_body`. -/
def packNrPrachPreamble (preamble : NrPrachIndicationPreamble) : Put Unit := do
  push8 preamble.preambleIndex
  push16 preamble.timingAdvance
  push32 preamble.preamblePwr

def packNrRachIndicationBody (value : NrPrachIndicationPdu) : Put Unit := do
  push16 value.phyCellId
  push8 value.symbolIndex
  push8 value.slotIndex
  push8 value.freqIndex
  push8 value.avgRssi
  push8 value.avgSnr
  push8 value.numPreamble
  pushVec packNrPrachPreamble value.preambleList.entries

def packNrRachIndication (msg : NrRachIndication) : Put Unit := do
  push16 msg.sfn
  push16 msg.slot
  push8 msg.numberOfPdus
  pushVec packNrRachIndicationBody msg.pduList

/-- The body of the loop over the preambles in `unpack_nr_rach_indication_body`. -/
def unpackNrPrachPreamble : Get NrPrachIndicationPreamble := do
  pure {
    preambleIndex := ← pull8
    timingAdvance := ← pull16
    preamblePwr := ← pull32 }

def unpackNrRachIndicationBody : Get NrPrachIndicationPdu := do
  let phyCellId ← pull16
  let symbolIndex ← pull8
  let slotIndex ← pull8
  let freqIndex ← pull8
  let avgRssi ← pull8
  let avgSnr ← pull8
  let numPreamble ← pull8
  let preambleList ← pullArray 64 unpackNrPrachPreamble numPreamble.toNat
  pure { phyCellId, symbolIndex, slotIndex, freqIndex, avgRssi, avgSnr, numPreamble, preambleList }

def unpackNrRachIndication : Get NrRachIndication := do
  let sfn ← pull16
  let slot ← pull16
  let numberOfPdus ← pull8
  let pduList ← pullVec unpackNrRachIndicationBody numberOfPdus.toNat
  pure { sfn, slot, numberOfPdus, pduList }

theorem carries_packNrPrachPreamble (preamble : NrPrachIndicationPreamble) :
    Carries (packNrPrachPreamble preamble) unpackNrPrachPreamble preamble :=
  .push8 <| .push16 <| (carries_push32 _).map _

theorem carries_packNrRachIndicationBody (value : NrPrachIndicationPdu) :
    Carries (packNrRachIndicationBody value) unpackNrRachIndicationBody value :=
  .push16 <| .push8 <| .push8 <| .push8 <| .push8 <| .push8 <| .push8 <|
    (array _ fun _ _ ↦ carries_packNrPrachPreamble _).map _

theorem carries_packNrRachIndication (msg : NrRachIndication) :
    Carries (packNrRachIndication msg) unpackNrRachIndication msg :=
  .push16 <| .push16 <| .push8 <|
    (vec_self _ fun _ _ ↦ carries_packNrRachIndicationBody _).map _

end OaiRan.Nfapi
