import OaiRan.Nfapi.Primitives
import Mathlib.Algebra.Order.BigOperators.Group.List
import Mathlib.Algebra.Order.Group.Nat

/-!
# DL_TTI.request and UL_DCI.request

The packers and unpackers of the downlink requests (`nr_fapi_p7.c`). A DL_TTI.request is a list of
PDCCH, PDSCH, CSI-RS and SSB PDUs, each with its size, and a list of UE groups; a UL_DCI.request is a
list of PDCCH PDUs.

Two things do not arrive as they were sent. Of `bchPayload` in an SSB PDU only 24 bits are sent, and
`ssbRsrp` is not (`NrDlTtiSsbPdu.received`). The PDU indices of **a UE group are written with 32 bits
and read with 8**: a request with a group that is not empty is not read back
(`unpackDlTtiRequest_packDlTtiRequest`).
-/

namespace OaiRan.Nfapi

open Codec Carries Option List

/-! ### Beamforming -/

/-- `nfapi_nr_tx_precoding_and_beamforming_number_of_prgs_t`. The number of interfaces is common to all
PRGs. -/
structure NrTxPrg (digBfInterfaces : ℕ) where
  pmIdx : UInt16
  digBfInterfaceList : CArray 1 digBfInterfaces UInt16

structure NrTxPrecodingAndBeamforming where
  (numPrgs prgSize : UInt16)
  digBfInterfaces : UInt8
  prgsList : CArray 1 numPrgs.toNat (NrTxPrg digBfInterfaces.toNat)

/-- The body of the loop over the PRGs in `pack_nr_tx_beamforming_pdu`. -/
def packNrTxPrg {digBfInterfaces : ℕ} (value : NrTxPrg digBfInterfaces) : Put Unit := do
  push16 value.pmIdx
  pushVec push16 value.digBfInterfaceList.entries

def packNrTxBeamformingPdu (value : NrTxPrecodingAndBeamforming) : Put Unit := do
  push16 value.numPrgs
  push16 value.prgSize
  push8 value.digBfInterfaces
  pushVec packNrTxPrg value.prgsList.entries

/-- The body of the loop over the PRGs in `unpack_nr_tx_beamforming_pdu`. -/
def unpackNrTxPrg (digBfInterfaces : ℕ) : Get (NrTxPrg digBfInterfaces) := do
  pure {
    pmIdx := ← pull16
    digBfInterfaceList := ← pullArray 1 pull16 digBfInterfaces }

def unpackNrTxBeamformingPdu : Get NrTxPrecodingAndBeamforming := do
  let numPrgs ← pull16
  let prgSize ← pull16
  let digBfInterfaces ← pull8
  let prgsList ← pullArray 1 (unpackNrTxPrg digBfInterfaces.toNat) numPrgs.toNat
  pure { numPrgs, prgSize, digBfInterfaces, prgsList }

theorem carries_packNrTxPrg (value : NrTxPrg digBfInterfaces) :
    Carries (packNrTxPrg value) (unpackNrTxPrg digBfInterfaces) value :=
  .push16 <| (array _ fun _ _ ↦ carries_push16 _).map _

theorem carries_packNrTxBeamformingPdu (value : NrTxPrecodingAndBeamforming) :
    Carries (packNrTxBeamformingPdu value) unpackNrTxBeamformingPdu value :=
  .push16 <| .push16 <| .push8 <| (array _ fun _ _ ↦ carries_packNrTxPrg _).map _

/-! ### PDCCH -/

/-- `dci_byte_len`, which has eight bits. -/
def dciByteLen (payloadSizeBits : UInt16) : ℕ := (payloadSizeBits.toNat + 7) / 8 % 2 ^ 8

/-- `nfapi_nr_dl_dci_pdu_t`; of `Payload`, the bytes that `PayloadSizeBits` says are there. -/
structure NrDlDciPdu where
  (rnti scramblingId scramblingRnti : UInt16)
  (cceIndex aggregationLevel : UInt8)
  precodingAndBeamforming : NrTxPrecodingAndBeamforming
  (betaPdcch10 powerControlOffsetSs : UInt8)
  payloadSizeBits : UInt16
  payload : List.Vector UInt8 (dciByteLen payloadSizeBits)

/-- `nfapi_nr_dl_tti_pdcch_pdu_rel15_t`. -/
structure NrDlTtiPdcchPdu where
  (bwpSize bwpStart : UInt16)
  (subcarrierSpacing cyclicPrefix startSymbolIndex durationSymbols : UInt8)
  freqDomainResource : List.Vector UInt8 6
  (cceRegMappingType regBundleSize interleaverSize coreSetType : UInt8)
  shiftIndex : UInt16
  precoderGranularity : UInt8
  numDlDci : UInt16
  dciPdu : CArray 8 numDlDci.toNat NrDlDciPdu

def packDciPayload {n : ℕ} (payload : List.Vector UInt8 n) : Put Unit := pusharray8 payload 8

def unpackDciPayload (payloadSizeBits : UInt16) :
    Get (List.Vector UInt8 (dciByteLen payloadSizeBits)) :=
  pullarray8 8 (dciByteLen payloadSizeBits)

/-- The body of the loop over the DCIs in `pack_dl_tti_pdcch_pdu_rel15_value`. -/
def packNrDlDciPdu (value : NrDlDciPdu) : Put Unit := do
  push16 value.rnti
  push16 value.scramblingId
  push16 value.scramblingRnti
  push8 value.cceIndex
  push8 value.aggregationLevel
  packNrTxBeamformingPdu value.precodingAndBeamforming
  push8 value.betaPdcch10
  push8 value.powerControlOffsetSs
  push16 value.payloadSizeBits
  packDciPayload value.payload

def packDlTtiPdcchPduRel15Value (value : NrDlTtiPdcchPdu) : Put Unit := do
  push16 value.bwpSize
  push16 value.bwpStart
  push8 value.subcarrierSpacing
  push8 value.cyclicPrefix
  push8 value.startSymbolIndex
  push8 value.durationSymbols
  pusharray8 value.freqDomainResource 6
  push8 value.cceRegMappingType
  push8 value.regBundleSize
  push8 value.interleaverSize
  push8 value.coreSetType
  push16 value.shiftIndex
  push8 value.precoderGranularity
  push16 value.numDlDci
  pushVec packNrDlDciPdu value.dciPdu.entries

/-- The body of the loop over the DCIs in `unpack_dl_tti_pdcch_pdu_rel15_value`. -/
def unpackNrDlDciPdu : Get NrDlDciPdu := do
  let rnti ← pull16
  let scramblingId ← pull16
  let scramblingRnti ← pull16
  let cceIndex ← pull8
  let aggregationLevel ← pull8
  let precodingAndBeamforming ← unpackNrTxBeamformingPdu
  let betaPdcch10 ← pull8
  let powerControlOffsetSs ← pull8
  let payloadSizeBits ← pull16
  let payload ← unpackDciPayload payloadSizeBits
  pure
    { rnti, scramblingId, scramblingRnti, cceIndex, aggregationLevel, precodingAndBeamforming
      betaPdcch10, powerControlOffsetSs, payloadSizeBits, payload }

def unpackDlTtiPdcchPduRel15Value : Get NrDlTtiPdcchPdu := do
  let bwpSize ← pull16
  let bwpStart ← pull16
  let subcarrierSpacing ← pull8
  let cyclicPrefix ← pull8
  let startSymbolIndex ← pull8
  let durationSymbols ← pull8
  let freqDomainResource ← pullarray8 6 6
  let cceRegMappingType ← pull8
  let regBundleSize ← pull8
  let interleaverSize ← pull8
  let coreSetType ← pull8
  let shiftIndex ← pull16
  let precoderGranularity ← pull8
  let numDlDci ← pull16
  let dciPdu ← pullArray 8 unpackNrDlDciPdu numDlDci.toNat
  pure
    { bwpSize, bwpStart, subcarrierSpacing, cyclicPrefix, startSymbolIndex, durationSymbols
      freqDomainResource, cceRegMappingType, regBundleSize, interleaverSize, coreSetType
      shiftIndex, precoderGranularity, numDlDci, dciPdu }

theorem carries_packDciPayload (payload : List.Vector UInt8 (dciByteLen payloadSizeBits)) :
    Carries (packDciPayload payload) (unpackDciPayload payloadSizeBits) payload :=
  carries_pusharray8 payload 8

theorem carries_packNrDlDciPdu (value : NrDlDciPdu) :
    Carries (packNrDlDciPdu value) unpackNrDlDciPdu value :=
  .push16 <| .push16 <| .push16 <| .push8 <| .push8 <| (carries_packNrTxBeamformingPdu _).bind <|
    .push8 <| .push8 <| .push16 <| (carries_packDciPayload _).map _

theorem carries_packDlTtiPdcchPduRel15Value (value : NrDlTtiPdcchPdu) :
    Carries (packDlTtiPdcchPduRel15Value value) unpackDlTtiPdcchPduRel15Value value :=
  .push16 <| .push16 <| .push8 <| .push8 <| .push8 <| .push8 <| (carries_pusharray8 _ _).bind <|
    .push8 <| .push8 <| .push8 <| .push8 <| .push16 <| .push8 <| .push16 <|
    (array _ fun _ _ ↦ carries_packNrDlDciPdu _).map _

/-! ### PDSCH -/

/-- The fields that a PDSCH PDU has for each codeword. -/
structure NrPdschCodeword where
  targetCodeRate : UInt16
  (qamModOrder mcsIndex mcsTable rvIndex : UInt8)
  tbSize : UInt32

/-- The PTRS fields of a PDSCH PDU. -/
structure NrPdschPtrs where
  (ptrsPortIndex ptrsTimeDensity ptrsFreqDensity ptrsReOffset nEpreRatioOfPdschToPtrs : UInt8)

/-- The CBG fields of a PDSCH PDU. -/
structure NrPdschCbg where
  (isLastCbPresent isInlineTbCrc : UInt8)
  dlTbCrc : UInt32

/-- `nfapi_v3_pdsch_maintenance_parameters_t`. -/
structure PdschMaintenanceParameters where
  ldpcBaseGraph : UInt8
  tbSizeLbrmBytes : UInt32

/-- `nfapi_nr_dl_tti_pdsch_pdu_rel15_t`. -/
structure NrDlTtiPdschPdu where
  (pduBitmap rnti pduIndex bwpSize bwpStart : UInt16)
  (subcarrierSpacing cyclicPrefix nrOfCodewords : UInt8)
  codewords : CArray 2 nrOfCodewords.toNat NrPdschCodeword
  dataScramblingId : UInt16
  (nrOfLayers transmissionScheme refPoint : UInt8)
  dlDmrsSymbPos : UInt16
  dmrsConfigType : UInt8
  dlDmrsScramblingId : UInt16
  (scid numDmrsCdmGrpsNoData : UInt8)
  dmrsPorts : UInt16
  resourceAlloc : UInt8
  rbBitmap : List.Vector UInt8 36
  (rbStart rbSize : UInt16)
  (vrbToPrbMapping startSymbolIndex nrOfSymbols : UInt8)
  ptrs : Optional NrPdschPtrs (pduBitmap.toNat.testBit 0)
  precodingAndBeamforming : NrTxPrecodingAndBeamforming
  (powerControlOffset powerControlOffsetSs : UInt8)
  cbg : Optional NrPdschCbg (pduBitmap.toNat.testBit 1)
  maintenanceParmsV3 : PdschMaintenanceParameters

/-- The codewords in `pack_dl_tti_pdsch_pdu_rel15_value`. -/
def packNrPdschCodeword (value : NrPdschCodeword) : Put Unit := do
  push16 value.targetCodeRate
  push8 value.qamModOrder
  push8 value.mcsIndex
  push8 value.mcsTable
  push8 value.rvIndex
  push32 value.tbSize

/-- PTRS in `pack_dl_tti_pdsch_pdu_rel15_value`. -/
def packNrPdschPtrs (value : NrPdschPtrs) : Put Unit := do
  push8 value.ptrsPortIndex
  push8 value.ptrsTimeDensity
  push8 value.ptrsFreqDensity
  push8 value.ptrsReOffset
  push8 value.nEpreRatioOfPdschToPtrs

/-- CBG in `pack_dl_tti_pdsch_pdu_rel15_value`. -/
def packNrPdschCbg (value : NrPdschCbg) : Put Unit := do
  push8 value.isLastCbPresent
  push8 value.isInlineTbCrc
  push32 value.dlTbCrc

/-- The end of `pack_dl_tti_pdsch_pdu_rel15_value`. -/
def packMaintenanceParms (value : PdschMaintenanceParameters) : Put Unit := do
  push8 value.ldpcBaseGraph
  push32 value.tbSizeLbrmBytes

def packDlTtiPdschPduRel15Value (value : NrDlTtiPdschPdu) : Put Unit := do
  push16 value.pduBitmap
  push16 value.rnti
  push16 value.pduIndex
  push16 value.bwpSize
  push16 value.bwpStart
  push8 value.subcarrierSpacing
  push8 value.cyclicPrefix
  push8 value.nrOfCodewords
  pushVec packNrPdschCodeword value.codewords.entries
  push16 value.dataScramblingId
  push8 value.nrOfLayers
  push8 value.transmissionScheme
  push8 value.refPoint
  push16 value.dlDmrsSymbPos
  push8 value.dmrsConfigType
  push16 value.dlDmrsScramblingId
  push8 value.scid
  push8 value.numDmrsCdmGrpsNoData
  push16 value.dmrsPorts
  push8 value.resourceAlloc
  pusharray8 value.rbBitmap 36
  push16 value.rbStart
  push16 value.rbSize
  push8 value.vrbToPrbMapping
  push8 value.startSymbolIndex
  push8 value.nrOfSymbols
  pushOptional packNrPdschPtrs value.ptrs
  packNrTxBeamformingPdu value.precodingAndBeamforming
  push8 value.powerControlOffset
  push8 value.powerControlOffsetSs
  pushOptional packNrPdschCbg value.cbg
  packMaintenanceParms value.maintenanceParmsV3

/-- The codewords in `unpack_dl_tti_pdsch_pdu_rel15_value`. -/
def unpackNrPdschCodeword : Get NrPdschCodeword := do
  pure {
    targetCodeRate := ← pull16
    qamModOrder := ← pull8
    mcsIndex := ← pull8
    mcsTable := ← pull8
    rvIndex := ← pull8
    tbSize := ← pull32 }

/-- PTRS in `unpack_dl_tti_pdsch_pdu_rel15_value`. -/
def unpackNrPdschPtrs : Get NrPdschPtrs := do
  pure {
    ptrsPortIndex := ← pull8
    ptrsTimeDensity := ← pull8
    ptrsFreqDensity := ← pull8
    ptrsReOffset := ← pull8
    nEpreRatioOfPdschToPtrs := ← pull8 }

/-- CBG in `unpack_dl_tti_pdsch_pdu_rel15_value`. -/
def unpackNrPdschCbg : Get NrPdschCbg := do
  pure {
    isLastCbPresent := ← pull8
    isInlineTbCrc := ← pull8
    dlTbCrc := ← pull32 }

/-- The end of `unpack_dl_tti_pdsch_pdu_rel15_value`. -/
def unpackMaintenanceParms : Get PdschMaintenanceParameters := do
  pure {
    ldpcBaseGraph := ← pull8
    tbSizeLbrmBytes := ← pull32 }

def unpackDlTtiPdschPduRel15Value : Get NrDlTtiPdschPdu := do
  let pduBitmap ← pull16
  let rnti ← pull16
  let pduIndex ← pull16
  let bwpSize ← pull16
  let bwpStart ← pull16
  let subcarrierSpacing ← pull8
  let cyclicPrefix ← pull8
  let nrOfCodewords ← pull8
  pure {
    pduBitmap, rnti, pduIndex, bwpSize, bwpStart, subcarrierSpacing, cyclicPrefix, nrOfCodewords
    codewords := ← pullArray 2 unpackNrPdschCodeword nrOfCodewords.toNat
    dataScramblingId := ← pull16
    nrOfLayers := ← pull8
    transmissionScheme := ← pull8
    refPoint := ← pull8
    dlDmrsSymbPos := ← pull16
    dmrsConfigType := ← pull8
    dlDmrsScramblingId := ← pull16
    scid := ← pull8
    numDmrsCdmGrpsNoData := ← pull8
    dmrsPorts := ← pull16
    resourceAlloc := ← pull8
    rbBitmap := ← pullarray8 36 36
    rbStart := ← pull16
    rbSize := ← pull16
    vrbToPrbMapping := ← pull8
    startSymbolIndex := ← pull8
    nrOfSymbols := ← pull8
    ptrs := ← pullOptional unpackNrPdschPtrs (pduBitmap.toNat.testBit 0)
    precodingAndBeamforming := ← unpackNrTxBeamformingPdu
    powerControlOffset := ← pull8
    powerControlOffsetSs := ← pull8
    cbg := ← pullOptional unpackNrPdschCbg (pduBitmap.toNat.testBit 1)
    maintenanceParmsV3 := ← unpackMaintenanceParms }

theorem carries_packNrPdschCodeword (value : NrPdschCodeword) :
    Carries (packNrPdschCodeword value) unpackNrPdschCodeword value :=
  .push16 <| .push8 <| .push8 <| .push8 <| .push8 <| (carries_push32 _).map _

theorem carries_packNrPdschPtrs (value : NrPdschPtrs) :
    Carries (packNrPdschPtrs value) unpackNrPdschPtrs value :=
  .push8 <| .push8 <| .push8 <| .push8 <| (carries_push8 _).map _

theorem carries_packNrPdschCbg (value : NrPdschCbg) :
    Carries (packNrPdschCbg value) unpackNrPdschCbg value :=
  .push8 <| .push8 <| (carries_push32 _).map _

theorem carries_packMaintenanceParms (value : PdschMaintenanceParameters) :
    Carries (packMaintenanceParms value) unpackMaintenanceParms value :=
  .push8 <| (carries_push32 _).map _

theorem carries_packDlTtiPdschPduRel15Value (value : NrDlTtiPdschPdu) :
    Carries (packDlTtiPdschPduRel15Value value) unpackDlTtiPdschPduRel15Value value :=
  .push16 <| .push16 <| .push16 <| .push16 <| .push16 <| .push8 <| .push8 <| .push8 <|
    (array _ fun _ _ ↦ carries_packNrPdschCodeword _).bind <| .push16 <| .push8 <| .push8 <|
    .push8 <| .push16 <| .push8 <| .push16 <| .push8 <| .push8 <| .push16 <| .push8 <|
    (carries_pusharray8 _ _).bind <| .push16 <| .push16 <| .push8 <| .push8 <| .push8 <|
    (optional carries_packNrPdschPtrs _).bind <| (carries_packNrTxBeamformingPdu _).bind <|
    .push8 <| .push8 <| (optional carries_packNrPdschCbg _).bind <|
    (carries_packMaintenanceParms _).map _

/-! ### CSI-RS -/

/-- `nfapi_nr_dl_tti_csi_rs_pdu_rel15_t`. -/
structure NrDlTtiCsiRsPdu where
  (bwpSize bwpStart : UInt16)
  (subcarrierSpacing cyclicPrefix : UInt8)
  (startRb nrOfRbs : UInt16)
  (csiType row : UInt8)
  freqDomain : UInt16
  (symbL0 symbL1 cdmType freqDensity : UInt8)
  scrambId : UInt16
  (powerControlOffset powerControlOffsetSs : UInt8)
  precodingAndBeamforming : NrTxPrecodingAndBeamforming

def packDlTtiCsiRsPduRel15Value (value : NrDlTtiCsiRsPdu) : Put Unit := do
  push16 value.bwpSize
  push16 value.bwpStart
  push8 value.subcarrierSpacing
  push8 value.cyclicPrefix
  push16 value.startRb
  push16 value.nrOfRbs
  push8 value.csiType
  push8 value.row
  push16 value.freqDomain
  push8 value.symbL0
  push8 value.symbL1
  push8 value.cdmType
  push8 value.freqDensity
  push16 value.scrambId
  push8 value.powerControlOffset
  push8 value.powerControlOffsetSs
  packNrTxBeamformingPdu value.precodingAndBeamforming

def unpackDlTtiCsiRsPduRel15Value : Get NrDlTtiCsiRsPdu := do
  pure {
    bwpSize := ← pull16
    bwpStart := ← pull16
    subcarrierSpacing := ← pull8
    cyclicPrefix := ← pull8
    startRb := ← pull16
    nrOfRbs := ← pull16
    csiType := ← pull8
    row := ← pull8
    freqDomain := ← pull16
    symbL0 := ← pull8
    symbL1 := ← pull8
    cdmType := ← pull8
    freqDensity := ← pull8
    scrambId := ← pull16
    powerControlOffset := ← pull8
    powerControlOffsetSs := ← pull8
    precodingAndBeamforming := ← unpackNrTxBeamformingPdu }

theorem carries_packDlTtiCsiRsPduRel15Value (value : NrDlTtiCsiRsPdu) :
    Carries (packDlTtiCsiRsPduRel15Value value) unpackDlTtiCsiRsPduRel15Value value :=
  .push16 <| .push16 <| .push8 <| .push8 <| .push16 <| .push16 <| .push8 <| .push8 <| .push16 <|
    .push8 <| .push8 <| .push8 <| .push8 <| .push16 <| .push8 <| .push8 <|
    (carries_packNrTxBeamformingPdu _).map _

/-! ### SSB -/

/-- `nfapi_nr_dl_tti_ssb_pdu_rel15_t`. -/
structure NrDlTtiSsbPdu where
  physCellId : UInt16
  (betaPss ssbBlockIndex ssbSubcarrierOffset : UInt8)
  ssbOffsetPointA : UInt16
  bchPayloadFlag : UInt8
  bchPayload : UInt32
  ssbRsrp : UInt8
  precodingAndBeamforming : NrTxPrecodingAndBeamforming

def packDlTtiSsbPduRel15Value (value : NrDlTtiSsbPdu) : Put Unit := do
  push16 value.physCellId
  push8 value.betaPss
  push8 value.ssbBlockIndex
  push8 value.ssbSubcarrierOffset
  push16 value.ssbOffsetPointA
  push8 value.bchPayloadFlag
  push8 (.ofNat (value.bchPayload.toNat / 2 ^ 16))
  push8 (.ofNat (value.bchPayload.toNat / 2 ^ 8))
  push8 (.ofNat value.bchPayload.toNat)
  push8 0
  packNrTxBeamformingPdu value.precodingAndBeamforming

/-- The message is unpacked into zeroed memory, and `ssbRsrp` is not touched. -/
def unpackDlTtiSsbPduRel15Value : Get NrDlTtiSsbPdu := do
  let physCellId ← pull16
  let betaPss ← pull8
  let ssbBlockIndex ← pull8
  let ssbSubcarrierOffset ← pull8
  let ssbOffsetPointA ← pull16
  let bchPayloadFlag ← pull8
  let byte3 ← pull8
  let byte2 ← pull8
  let byte1 ← pull8
  let _byte0 ← pull8
  let precodingAndBeamforming ← unpackNrTxBeamformingPdu
  pure
    { physCellId, betaPss, ssbBlockIndex, ssbSubcarrierOffset, ssbOffsetPointA, bchPayloadFlag
      bchPayload := .ofNat (byte3.toNat * 2 ^ 16 + byte2.toNat * 2 ^ 8 + byte1.toNat)
      ssbRsrp := 0
      precodingAndBeamforming }

/-- What arrives of an SSB PDU. -/
def NrDlTtiSsbPdu.received (value : NrDlTtiSsbPdu) : NrDlTtiSsbPdu :=
  { value with bchPayload := .ofNat (value.bchPayload.toNat % 2 ^ 24), ssbRsrp := 0 }

theorem carries_packDlTtiSsbPduRel15Value (value : NrDlTtiSsbPdu) :
    Carries (packDlTtiSsbPduRel15Value value) unpackDlTtiSsbPduRel15Value value.received := by
  have hpayload : value.received.bchPayload =
      .ofNat ((UInt8.ofNat (value.bchPayload.toNat / 2 ^ 16)).toNat * 2 ^ 16 +
        (UInt8.ofNat (value.bchPayload.toNat / 2 ^ 8)).toNat * 2 ^ 8 +
        (UInt8.ofNat value.bchPayload.toNat).toNat) := by
    rw [NrDlTtiSsbPdu.received]
    simp only [UInt8.toNat_ofNat']
    congr 1
    omega
  have heq : value.received = { value with bchPayload := value.received.bchPayload, ssbRsrp := 0 } :=
    rfl
  rw [heq, hpayload]
  exact .push16 <| .push8 <| .push8 <| .push8 <| .push16 <| .push8 <| .push8 <| .push8 <| .push8 <|
    .push8 <| (carries_packNrTxBeamformingPdu _).map _

theorem NrDlTtiSsbPdu.received_eq_iff (value : NrDlTtiSsbPdu) :
    value.received = value ↔ value.bchPayload.toNat < 2 ^ 24 ∧ value.ssbRsrp = 0 := by
  constructor
  · intro h
    have hpayload := congrArg (fun v ↦ v.bchPayload.toNat) h
    simp only [NrDlTtiSsbPdu.received, UInt32.toNat_ofNat'] at hpayload
    exact ⟨by omega, (congrArg NrDlTtiSsbPdu.ssbRsrp h).symm⟩
  · rintro ⟨hpayload, hrsrp⟩
    rw [NrDlTtiSsbPdu.received, Nat.mod_eq_of_lt hpayload, UInt32.ofNat_toNat, ← hrsrp]


/-! ### DL_TTI.request -/

/-- `nfapi_nr_dl_tti_pdu_type_e`. -/
def nrDlTtiPdcchPduType : UInt16 := 0
def nrDlTtiPdschPduType : UInt16 := 1
def nrDlTtiCsiRsPduType : UInt16 := 2
def nrDlTtiSsbPduType : UInt16 := 3

/-- The union of `nfapi_nr_dl_tti_request_pdu_t`, with the `PDUType` that selects from it. -/
inductive NrDlTtiPdu
  | pdcch (pdu : NrDlTtiPdcchPdu)
  | pdsch (pdu : NrDlTtiPdschPdu)
  | csiRs (pdu : NrDlTtiCsiRsPdu)
  | ssb (pdu : NrDlTtiSsbPdu)
  | invalid (pduType : UInt16) (h : pduType ≠ nrDlTtiPdcchPduType ∧ pduType ≠ nrDlTtiPdschPduType ∧
      pduType ≠ nrDlTtiCsiRsPduType ∧ pduType ≠ nrDlTtiSsbPduType)

def NrDlTtiPdu.pduType : NrDlTtiPdu → UInt16
  | .pdcch _ => nrDlTtiPdcchPduType
  | .pdsch _ => nrDlTtiPdschPduType
  | .csiRs _ => nrDlTtiCsiRsPduType
  | .ssb _ => nrDlTtiSsbPduType
  | .invalid pduType _ => pduType

structure NrDlTtiRequestPdu where
  pduSize : UInt32
  pdu : NrDlTtiPdu

/-- An entry of `nUe` and `PduIdx`. -/
structure NrDlTtiGroup where
  nUe : UInt8
  pduIdx : CArray 12 nUe.toNat UInt8

/-- `nfapi_nr_dl_tti_request_t` with its body. -/
structure NrDlTtiRequest where
  (sfn slot : UInt16)
  (nPdus nGroup : UInt8)
  dlTtiPduList : CArray 32 nPdus.toNat NrDlTtiRequestPdu
  groups : CArray 256 nGroup.toNat NrDlTtiGroup

/-- The `switch` of `pack_dl_tti_request_body_value`; it only reports an invalid type. -/
def packDlTtiPdu : NrDlTtiPdu → Put Unit
  | .pdcch pdu => packDlTtiPdcchPduRel15Value pdu
  | .pdsch pdu => packDlTtiPdschPduRel15Value pdu
  | .csiRs pdu => packDlTtiCsiRsPduRel15Value pdu
  | .ssb pdu => packDlTtiSsbPduRel15Value pdu
  | .invalid _ _ => pure ()

/-- `PDUSize` has 32 bits in the message, and 16 on the wire. -/
def packDlTtiRequestBodyValue (value : NrDlTtiRequestPdu) : Put NrDlTtiRequestPdu := do
  let packedMsgLen ← packSizedPdu value.pdu.pduType value.pduSize.toUInt16 (packDlTtiPdu value.pdu)
  pure { value with pduSize := packedMsgLen.toUInt32 }

/-- The body of the loop over the groups in `pack_dl_tti_request`. -/
def packDlTtiGroup (group : NrDlTtiGroup) : Put Unit := do
  push8 group.nUe
  pushVec (fun pduIdx ↦ push32 pduIdx.toUInt32) group.pduIdx.entries

/-- `pack_dl_tti_request` up to the groups. -/
def packDlTtiPdus (msg : NrDlTtiRequest) : Put (CArray 32 msg.nPdus.toNat NrDlTtiRequestPdu) := do
  push16 msg.sfn
  push16 msg.slot
  push8 msg.nPdus
  push8 msg.nGroup
  mapArray packDlTtiRequestBodyValue msg.dlTtiPduList

/-- The message is returned as the packer leaves it, with the sizes of its PDUs filled in. -/
def packDlTtiRequest (msg : NrDlTtiRequest) : Put NrDlTtiRequest := do
  let dlTtiPduList ← packDlTtiPdus msg
  pushVec packDlTtiGroup msg.groups.entries
  pure { msg with dlTtiPduList }

/-- The `switch` of `unpack_dl_tti_request_body_value`. -/
def unpackDlTtiPdu (pduType : UInt16) : Get NrDlTtiPdu :=
  if h₀ : pduType = nrDlTtiPdcchPduType then do
    let pdu ← unpackDlTtiPdcchPduRel15Value
    pure (.pdcch pdu)
  else if h₁ : pduType = nrDlTtiPdschPduType then do
    let pdu ← unpackDlTtiPdschPduRel15Value
    pure (.pdsch pdu)
  else if h₂ : pduType = nrDlTtiCsiRsPduType then do
    let pdu ← unpackDlTtiCsiRsPduRel15Value
    pure (.csiRs pdu)
  else if h₃ : pduType = nrDlTtiSsbPduType then do
    let pdu ← unpackDlTtiSsbPduRel15Value
    pure (.ssb pdu)
  else pure (.invalid pduType ⟨h₀, h₁, h₂, h₃⟩)

def unpackDlTtiRequestBodyValue : Get NrDlTtiRequestPdu := do
  let pduType ← pull16
  let pduSize ← pull16
  let pdu ← unpackDlTtiPdu pduType
  pure { pduSize := pduSize.toUInt32, pdu }

/-- The body of the loop over the groups in `unpack_dl_tti_request`. -/
def unpackDlTtiGroup : Get NrDlTtiGroup := do
  let nUe ← pull8
  let pduIdx ← pullArray 12 pull8 nUe.toNat
  pure { nUe, pduIdx }

def unpackDlTtiRequest : Get NrDlTtiRequest := do
  let sfn ← pull16
  let slot ← pull16
  let nPdus ← pull8
  let nGroup ← pull8
  pure {
    sfn, slot, nPdus, nGroup
    dlTtiPduList := ← pullArray 32 unpackDlTtiRequestBodyValue nPdus.toNat
    groups := ← pullArray 256 unpackDlTtiGroup nGroup.toNat }

/-- What arrives of a PDU. -/
def NrDlTtiPdu.received : NrDlTtiPdu → NrDlTtiPdu
  | .ssb pdu => .ssb pdu.received
  | pdu => pdu

/-- A PDU of which everything arrives. -/
def NrDlTtiPdu.Carried : NrDlTtiPdu → Prop
  | .ssb pdu => pdu.bchPayload.toNat < 2 ^ 24 ∧ pdu.ssbRsrp = 0
  | _ => True

theorem NrDlTtiPdu.received_eq_iff (pdu : NrDlTtiPdu) : pdu.received = pdu ↔ pdu.Carried := by
  cases pdu with
  | ssb pdu =>
    rw [NrDlTtiPdu.received, NrDlTtiPdu.ssb.injEq]
    exact pdu.received_eq_iff
  | _ => exact ⟨fun _ ↦ trivial, fun _ ↦ rfl⟩

theorem carries_packDlTtiPdu (pdu : NrDlTtiPdu) :
    Carries (packDlTtiPdu pdu) (unpackDlTtiPdu pdu.pduType) pdu.received := by
  cases pdu with
  | pdcch pdu => exact (carries_packDlTtiPdcchPduRel15Value pdu).map _
  | pdsch pdu => exact (carries_packDlTtiPdschPduRel15Value pdu).map _
  | csiRs pdu => exact (carries_packDlTtiCsiRsPduRel15Value pdu).map _
  | ssb pdu => exact (carries_packDlTtiSsbPduRel15Value pdu).map _
  | invalid pduType h =>
    rw [NrDlTtiPdu.pduType, unpackDlTtiPdu, dif_neg h.1, dif_neg h.2.1, dif_neg h.2.2.1,
      dif_neg h.2.2.2]
    exact .pure _

def NrDlTtiRequestPdu.received (value : NrDlTtiRequestPdu) : NrDlTtiRequestPdu :=
  { value with pdu := value.pdu.received }

theorem NrDlTtiRequestPdu.received_eq_iff (value : NrDlTtiRequestPdu) :
    value.received = value ↔ value.pdu.Carried := by
  rw [← NrDlTtiPdu.received_eq_iff]
  exact ⟨fun h ↦ congrArg NrDlTtiRequestPdu.pdu h, fun h ↦ by rw [NrDlTtiRequestPdu.received, h]⟩

theorem faithful_packDlTtiRequestBodyValue (value : NrDlTtiRequestPdu) :
    Faithful (packDlTtiRequestBodyValue value) unpackDlTtiRequestBodyValue
      NrDlTtiRequestPdu.received :=
  faithful_packSizedPdu _ (carries_packDlTtiPdu value.pdu) fun _ ↦ rfl

/-- A request of which everything arrives. -/
structure NrDlTtiRequest.Carried (msg : NrDlTtiRequest) : Prop where
  pdus : ∀ value ∈ msg.dlTtiPduList.entries.toList, value.pdu.Carried
  groups : ∀ group ∈ msg.groups.entries.toList, group.nUe = 0

/-- The PDUs are read as they arrive, and then it is the groups' turn. -/
theorem leads_packDlTtiPdus (msg : NrDlTtiRequest) :
    Leads (packDlTtiPdus msg) unpackDlTtiRequest fun pdus ↦
      pullArray 256 unpackDlTtiGroup msg.nGroup.toNat >>= fun groups ↦ pure
        { msg with dlTtiPduList := pdus.map NrDlTtiRequestPdu.received, groups } :=
  (carries_push16 _).bind_leads <| (carries_push16 _).bind_leads <| (carries_push8 _).bind_leads <|
    (carries_push8 _).bind_leads <| (Faithful.array faithful_packDlTtiRequestBodyValue _).leads _

variable {b b' : Buffer} {msg msg' : NrDlTtiRequest}

theorem packDlTtiRequestBodyValue_pdu {value value' : NrDlTtiRequestPdu}
    (h : packDlTtiRequestBodyValue value b = some (value', b')) : value'.pdu = value.pdu := by
  obtain ⟨n, u, -, h⟩ := bind_eq_some h
  cases h
  rfl

/-- The packer only fills in the sizes. -/
theorem packDlTtiPdus_pdus (h : packDlTtiPdus msg b = some (pdus, b')) :
    pdus.map (·.pdu) = msg.dlTtiPduList.map (·.pdu) := by
  iterate 4 obtain ⟨_, _, -, h⟩ := bind_eq_some h
  exact mapArray_keeps (fun _ _ _ _ ↦ packDlTtiRequestBodyValue_pdu) h

/-- A group takes four bytes for each UE. -/
theorem writes_packDlTtiGroup (group : NrDlTtiGroup) :
    Writes (packDlTtiGroup group) (1 + 4 * group.nUe.toNat) := by
  have hidx : Writes (pushVec (fun pduIdx : UInt8 ↦ push32 pduIdx.toUInt32) group.pduIdx.entries)
      (group.pduIdx.entries.toList.map fun _ ↦ 4).sum :=
    Writes.vec (fun _ ↦ Writes.push _) _
  rw [map_const', sum_replicate_nat, List.Vector.toList_length, Nat.mul_comm] at hidx
  exact (Writes.push [group.nUe]).bind hidx

/-- One byte for each UE is read. -/
theorem takes_unpackDlTtiGroup : Takes unpackDlTtiGroup fun group ↦ 1 + group.nUe.toNat := by
  intro l group r h
  obtain ⟨nUe, l₁, h₁, h⟩ := bind_eq_some h
  obtain ⟨pduIdx, l₂, h₂, h⟩ := bind_eq_some h
  cases h
  have htake : Takes pull8 fun _ ↦ 1 := by
    intro l a r h
    rcases l with - | ⟨x, l⟩
    · simp [pull8] at h
    · cases h
      exact Nat.add_comm _ _
  have hhead := htake h₁
  have hidx := Takes.array htake _ h₂
  simp only [map_const', sum_replicate_nat, List.Vector.toList_length] at hidx
  dsimp only at hhead ⊢
  omega

theorem carries_packDlTtiGroup (h : group.nUe = 0) :
    Carries (packDlTtiGroup group) unpackDlTtiGroup group := by
  obtain ⟨nUe, pduIdx⟩ := group
  subst h
  have hnil : pduIdx.entries.toList = [] := congrArg List.Vector.toList pduIdx.entries.eq_nil
  refine (carries_push8 0).bind ((array pduIdx fun idx hidx ↦ ?_).map _)
  rw [hnil] at hidx
  exact absurd hidx not_mem_nil

theorem packDlTtiRequest_appends (h : packDlTtiRequest msg b = some (msg', b')) :
    ∃ bs, b'.bytes = b.bytes ++ bs := by
  obtain ⟨pdus, c, hpdus, h⟩ := bind_eq_some h
  obtain ⟨_, d, hgroups, h⟩ := bind_eq_some h
  cases h
  obtain ⟨bs, hbs, -⟩ := leads_packDlTtiPdus msg hpdus
  obtain ⟨gs, hgs, -⟩ := Writes.vec writes_packDlTtiGroup _ hgroups
  exact ⟨bs ++ gs, by rw [hgs, hbs, append_assoc]⟩

/-- The message without what the packer fills in. -/
def NrDlTtiRequest.input (msg : NrDlTtiRequest) : NrDlTtiRequest :=
  { msg with dlTtiPduList := msg.dlTtiPduList.map fun value ↦ { value with pduSize := 0 } }

theorem packDlTtiRequest_input (h : packDlTtiRequest msg b = some (msg', b')) :
    msg'.input = msg.input := by
  obtain ⟨pdus, c, hpdus, h⟩ := bind_eq_some h
  obtain ⟨_, d, -, h⟩ := bind_eq_some h
  cases h
  have hcontent := congrArg (CArray.map fun pdu ↦ (⟨0, pdu⟩ : NrDlTtiRequestPdu))
    (packDlTtiPdus_pdus hpdus)
  simp only [CArray.map_map] at hcontent
  rw [NrDlTtiRequest.input, NrDlTtiRequest.input]
  rw [hcontent]

/-- **A DL_TTI.request is read back exactly if all of it is carried**: 24 bits are enough for every
`bchPayload`, no `ssbRsrp` is set, and no group has a UE. -/
theorem unpackDlTtiRequest_packDlTtiRequest (h : packDlTtiRequest msg b = some (msg', b')) :
    unpackDlTtiRequest (b'.bytes.drop b.bytes.length) = some (msg', []) ↔ msg.Carried := by
  obtain ⟨pdus, c, hpdus, h⟩ := bind_eq_some h
  obtain ⟨_, d, hgroups, h⟩ := bind_eq_some h
  cases h
  obtain ⟨bs, hbs, hread⟩ := leads_packDlTtiPdus msg hpdus
  obtain ⟨gs, hgs, hlen⟩ := Writes.vec writes_packDlTtiGroup _ hgroups
  have hcontent := congrArg (fun v ↦ v.entries.toList) (packDlTtiPdus_pdus hpdus)
  simp only [CArray.map, List.Vector.toList_map] at hcontent
  have hcarried : pdus.map NrDlTtiRequestPdu.received = pdus ↔
      ∀ value ∈ msg.dlTtiPduList.entries.toList, value.pdu.Carried := by
    rw [CArray.map_eq_self_iff, ← forall_mem_map (P := NrDlTtiPdu.Carried), ← hcontent,
      List.forall_mem_map]
    exact forall₂_congr fun value _ ↦ value.received_eq_iff
  rw [hgs, hbs, append_assoc, drop_left, hread]
  dsimp only
  constructor
  · intro h
    obtain ⟨groups, r, hr, h⟩ := bind_eq_some h
    obtain ⟨hmsg, rfl⟩ := Prod.mk.inj (some.inj h)
    simp only [NrDlTtiRequest.mk.injEq, heq_eq_eq, true_and] at hmsg
    obtain ⟨hpdu, rfl⟩ := hmsg
    refine ⟨hcarried.1 hpdu, fun group hgroup ↦ ?_⟩
    have htaken := Takes.array takes_unpackDlTtiGroup _ hr
    by_contra hne
    have hpos : 0 < group.nUe.toNat := Nat.pos_of_ne_zero fun h ↦ hne (UInt8.toNat_inj.1 h)
    have hlt := sum_lt_sum (l := msg.groups.entries.toList) (fun group ↦ 1 + group.nUe.toNat)
      (fun group ↦ 1 + 4 * group.nUe.toNat) (fun _ _ ↦ by omega) ⟨group, hgroup, by omega⟩
    dsimp only at htaken
    rw [length_nil] at htaken
    omega
  · intro h
    obtain ⟨cs, hcs, hreads⟩ := array msg.groups
      (fun group hgroup ↦ carries_packDlTtiGroup (h.groups group hgroup)) hgroups
    obtain rfl : gs = cs := append_cancel_left (hgs.symm.trans hcs)
    have hgroups' := hreads []
    rw [append_nil] at hgroups'
    rw [bind_of_eq_some _ hgroups', hcarried.2 h.pdus]
    rfl

/-! ### UL_DCI.request -/

/-- `nfapi_nr_ul_dci_request_pdus_t`. -/
structure NrUlDciRequestPdu where
  (pduType pduSize : UInt16)
  pdcchPdu : NrDlTtiPdcchPdu

structure NrUlDciRequest where
  (sfn slot : UInt16)
  numPdus : UInt8
  ulDciPduList : CArray 12 numPdus.toNat NrUlDciRequestPdu

/-- The fields of the PDCCH PDU are written out in the source; they are those of
`pack_dl_tti_pdcch_pdu_rel15_value`. -/
def packUlDciPduListValue (value : NrUlDciRequestPdu) : Put NrUlDciRequestPdu := do
  let packedMsgLen ← packSizedPdu value.pduType value.pduSize
    (packDlTtiPdcchPduRel15Value value.pdcchPdu)
  pure { value with pduSize := packedMsgLen }

/-- The message is returned as the packer leaves it. -/
def packUlDciRequest (msg : NrUlDciRequest) : Put NrUlDciRequest := do
  push16 msg.sfn
  push16 msg.slot
  push8 msg.numPdus
  let ulDciPduList ← mapArray packUlDciPduListValue msg.ulDciPduList
  pure { msg with ulDciPduList }

def unpackUlDciPduListValue : Get NrUlDciRequestPdu := do
  pure {
    pduType := ← pull16
    pduSize := ← pull16
    pdcchPdu := ← unpackDlTtiPdcchPduRel15Value }

def unpackUlDciRequest : Get NrUlDciRequest := do
  let sfn ← pull16
  let slot ← pull16
  let numPdus ← pull8
  let ulDciPduList ← pullArray 12 unpackUlDciPduListValue numPdus.toNat
  pure { sfn, slot, numPdus, ulDciPduList }

theorem faithful_packUlDciPduListValue (value : NrUlDciRequestPdu) :
    Faithful (packUlDciPduListValue value) unpackUlDciPduListValue id :=
  faithful_packSizedPdu _ (carries_packDlTtiPdcchPduRel15Value value.pdcchPdu) fun _ ↦ rfl

/-- The message without what the packer fills in. -/
def NrUlDciRequest.input (msg : NrUlDciRequest) : NrUlDciRequest :=
  { msg with ulDciPduList := msg.ulDciPduList.map fun value ↦ { value with pduSize := 0 } }

theorem packUlDciRequest_input {msg msg' : NrUlDciRequest}
    (h : packUlDciRequest msg b = some (msg', b')) : msg'.input = msg.input := by
  iterate 3 obtain ⟨_, _, -, h⟩ := bind_eq_some h
  obtain ⟨pdus, c, hpdus, h⟩ := bind_eq_some h
  cases h
  rw [NrUlDciRequest.input, NrUlDciRequest.input]
  rw [mapArray_keeps (fun value b value' b' hvalue ↦ ?_) hpdus]
  obtain ⟨n, u, -, hvalue⟩ := bind_eq_some hvalue
  cases hvalue
  rfl

/-- **A UL_DCI.request is read back as the packer leaves it.** -/
theorem faithful_packUlDciRequest (msg : NrUlDciRequest) :
    Faithful (packUlDciRequest msg) unpackUlDciRequest id :=
  (carries_push16 _).bind_faithful <| (carries_push16 _).bind_faithful <|
    (carries_push8 _).bind_faithful <|
      (Faithful.array_self faithful_packUlDciPduListValue _).map fun _ ↦ rfl

end OaiRan.Nfapi
