import OaiRan.Nfapi.Primitives

/-!
# UL_TTI.request

The packer and the unpacker of the uplink request (`nr_fapi_p7.c`): a list of PRACH, PUSCH, PUCCH and
SRS PDUs, each with its size, and a list of UE groups. The packer counts the PUSCH and PUCCH PDUs
itself. **Everything that is sent arrives** (`faithful_packUlTtiRequest`).
-/

namespace OaiRan.Nfapi

open Codec Carries

/-! ### Beamforming -/

/-- `nfapi_nr_ul_beamforming_t`; a PRG is the list of its beams. -/
structure NrUlBeamforming where
  trpScheme : UInt8
  (numPrgs prgSize : UInt16)
  digBfInterface : UInt8
  prgsList : CArray 1 numPrgs.toNat (CArray 1 digBfInterface.toNat UInt16)

def packNrRxBeamformingPdu (value : NrUlBeamforming) : Put Unit := do
  push8 value.trpScheme
  push16 value.numPrgs
  push16 value.prgSize
  push8 value.digBfInterface
  pushVec (fun prg ↦ pushVec push16 prg.entries) value.prgsList.entries

def unpackNrRxBeamformingPdu : Get NrUlBeamforming := do
  let trpScheme ← pull8
  let numPrgs ← pull16
  let prgSize ← pull16
  let digBfInterface ← pull8
  let prgsList ← pullArray 1 (pullArray 1 pull16 digBfInterface.toNat) numPrgs.toNat
  pure { trpScheme, numPrgs, prgSize, digBfInterface, prgsList }

theorem carries_packNrRxBeamformingPdu (value : NrUlBeamforming) :
    Carries (packNrRxBeamformingPdu value) unpackNrRxBeamformingPdu value :=
  .push8 <| .push16 <| .push16 <| .push8 <|
    (array _ fun prg _ ↦ .array prg fun _ _ ↦ carries_push16 _).map _

/-! ### PRACH -/

structure NrPrachPdu where
  physCellId : UInt16
  (numPrachOcas prachFormat numRa prachStartSymbol : UInt8)
  numCs : UInt16
  beamforming : NrUlBeamforming

def packUlTtiRequestPrachPdu (value : NrPrachPdu) : Put Unit := do
  push16 value.physCellId
  push8 value.numPrachOcas
  push8 value.prachFormat
  push8 value.numRa
  push8 value.prachStartSymbol
  push16 value.numCs
  packNrRxBeamformingPdu value.beamforming

def unpackUlTtiRequestPrachPdu : Get NrPrachPdu := do
  pure {
    physCellId := ← pull16
    numPrachOcas := ← pull8
    prachFormat := ← pull8
    numRa := ← pull8
    prachStartSymbol := ← pull8
    numCs := ← pull16
    beamforming := ← unpackNrRxBeamformingPdu }

theorem carries_packUlTtiRequestPrachPdu (value : NrPrachPdu) :
    Carries (packUlTtiRequestPrachPdu value) unpackUlTtiRequestPrachPdu value :=
  .push16 <| .push8 <| .push8 <| .push8 <| .push8 <| .push16 <|
    (carries_packNrRxBeamformingPdu _).map _

/-! ### PUSCH -/

structure NrPuschData where
  (rvIndex harqProcessId newDataIndicator : UInt8)
  tbSize : UInt32
  numCb : UInt16
  cbPresentAndPosition : CArray 1 ((numCb.toNat + 7) / 8) UInt8

structure NrPuschUci where
  (harqAckBitLength csiPart1BitLength csiPart2BitLength : UInt16)
  (alphaScaling betaOffsetHarqAck betaOffsetCsi1 betaOffsetCsi2 : UInt8)

structure NrPtrsPorts where
  ptrsPortIndex : UInt16
  (ptrsDmrsPort ptrsReOffset : UInt8)

structure NrPuschPtrs where
  numPtrsPorts : UInt8
  ptrsPortsList : List.Vector NrPtrsPorts numPtrsPorts.toNat
  (ptrsTimeDensity ptrsFreqDensity ulPtrsPower : UInt8)

structure NrDftsOfdm where
  lowPaprGroupNumber : UInt8
  lowPaprSequenceNumber : UInt16
  (ulPtrsSampleDensity ulPtrsTimeDensityTransformPrecoding : UInt8)

/-- `nfapi_nr_pusch_pdu_t`, the last two fields being its `maintenance_parms_v3`. -/
structure NrPuschPdu where
  (pduBitMap rnti : UInt16)
  handle : UInt32
  (bwpSize bwpStart : UInt16)
  (subcarrierSpacing cyclicPrefix : UInt8)
  targetCodeRate : UInt16
  (qamModOrder mcsIndex mcsTable transformPrecoding : UInt8)
  dataScramblingId : UInt16
  nrOfLayers : UInt8
  ulDmrsSymbPos : UInt16
  dmrsConfigType : UInt8
  (ulDmrsScramblingId puschIdentity : UInt16)
  (scid numDmrsCdmGrpsNoData : UInt8)
  dmrsPorts : UInt16
  resourceAlloc : UInt8
  rbBitmap : List.Vector UInt8 36
  (rbStart rbSize : UInt16)
  (vrbToPrbMapping frequencyHopping : UInt8)
  txDirectCurrentLocation : UInt16
  (uplinkFrequencyShift7p5khz startSymbolIndex nrOfSymbols : UInt8)
  puschData : Optional NrPuschData (pduBitMap.toNat.testBit 0)
  puschUci : Optional NrPuschUci (pduBitMap.toNat.testBit 1)
  puschPtrs : Optional NrPuschPtrs (pduBitMap.toNat.testBit 2)
  dftsOfdm : Optional NrDftsOfdm (pduBitMap.toNat.testBit 3)
  beamforming : NrUlBeamforming
  ldpcBaseGraph : UInt8
  tbSizeLbrmBytes : UInt32

/-- The part of `pack_ul_tti_request_pusch_pdu` for `PUSCH_PDU_BITMAP_PUSCH_DATA`. -/
def packNrPuschData (value : NrPuschData) : Put Unit := do
  push8 value.rvIndex
  push8 value.harqProcessId
  push8 value.newDataIndicator
  push32 value.tbSize
  push16 value.numCb
  pusharray8 value.cbPresentAndPosition.entries ((value.numCb.toNat + 7) / 8)

/-- The part of `pack_ul_tti_request_pusch_pdu` for `PUSCH_PDU_BITMAP_PUSCH_UCI`. -/
def packNrPuschUci (value : NrPuschUci) : Put Unit := do
  push16 value.harqAckBitLength
  push16 value.csiPart1BitLength
  push16 value.csiPart2BitLength
  push8 value.alphaScaling
  push8 value.betaOffsetHarqAck
  push8 value.betaOffsetCsi1
  push8 value.betaOffsetCsi2

/-- The part of `pack_ul_tti_request_pusch_pdu` for the PTRS ports. -/
def packNrPtrsPorts (value : NrPtrsPorts) : Put Unit := do
  push16 value.ptrsPortIndex
  push8 value.ptrsDmrsPort
  push8 value.ptrsReOffset

/-- The part of `pack_ul_tti_request_pusch_pdu` for `PUSCH_PDU_BITMAP_PUSCH_PTRS`. -/
def packNrPuschPtrs (value : NrPuschPtrs) : Put Unit := do
  push8 value.numPtrsPorts
  pushVec packNrPtrsPorts value.ptrsPortsList
  push8 value.ptrsTimeDensity
  push8 value.ptrsFreqDensity
  push8 value.ulPtrsPower

/-- The part of `pack_ul_tti_request_pusch_pdu` for `PUSCH_PDU_BITMAP_DFTS_OFDM`. -/
def packNrDftsOfdm (value : NrDftsOfdm) : Put Unit := do
  push8 value.lowPaprGroupNumber
  push16 value.lowPaprSequenceNumber
  push8 value.ulPtrsSampleDensity
  push8 value.ulPtrsTimeDensityTransformPrecoding

def packUlTtiRequestPuschPdu (value : NrPuschPdu) : Put Unit := do
  push16 value.pduBitMap
  push16 value.rnti
  push32 value.handle
  push16 value.bwpSize
  push16 value.bwpStart
  push8 value.subcarrierSpacing
  push8 value.cyclicPrefix
  push16 value.targetCodeRate
  push8 value.qamModOrder
  push8 value.mcsIndex
  push8 value.mcsTable
  push8 value.transformPrecoding
  push16 value.dataScramblingId
  push8 value.nrOfLayers
  push16 value.ulDmrsSymbPos
  push8 value.dmrsConfigType
  push16 value.ulDmrsScramblingId
  push16 value.puschIdentity
  push8 value.scid
  push8 value.numDmrsCdmGrpsNoData
  push16 value.dmrsPorts
  push8 value.resourceAlloc
  pusharray8 value.rbBitmap 36
  push16 value.rbStart
  push16 value.rbSize
  push8 value.vrbToPrbMapping
  push8 value.frequencyHopping
  push16 value.txDirectCurrentLocation
  push8 value.uplinkFrequencyShift7p5khz
  push8 value.startSymbolIndex
  push8 value.nrOfSymbols
  pushOptional packNrPuschData value.puschData
  pushOptional packNrPuschUci value.puschUci
  pushOptional packNrPuschPtrs value.puschPtrs
  pushOptional packNrDftsOfdm value.dftsOfdm
  packNrRxBeamformingPdu value.beamforming
  push8 value.ldpcBaseGraph
  push32 value.tbSizeLbrmBytes

/-- `cb_len` has only eight bits here; that makes no difference to an array of one byte. -/
def unpackCbPresentAndPosition (numCb : UInt16) : Get (CArray 1 ((numCb.toNat + 7) / 8) UInt8) :=
  let cbLen := (numCb.toNat + 7) / 8
  if h : cbLen ≤ 1 then do
    let entries ← pullarray8 cbLen cbLen
    pure ⟨entries, h⟩
  else fail

/-- The part of `unpack_ul_tti_request_pusch_pdu` for `PUSCH_PDU_BITMAP_PUSCH_DATA`. -/
def unpackNrPuschData : Get NrPuschData := do
  let rvIndex ← pull8
  let harqProcessId ← pull8
  let newDataIndicator ← pull8
  let tbSize ← pull32
  let numCb ← pull16
  let cbPresentAndPosition ← unpackCbPresentAndPosition numCb
  pure { rvIndex, harqProcessId, newDataIndicator, tbSize, numCb, cbPresentAndPosition }

/-- The part of `unpack_ul_tti_request_pusch_pdu` for `PUSCH_PDU_BITMAP_PUSCH_UCI`. -/
def unpackNrPuschUci : Get NrPuschUci := do
  pure {
    harqAckBitLength := ← pull16
    csiPart1BitLength := ← pull16
    csiPart2BitLength := ← pull16
    alphaScaling := ← pull8
    betaOffsetHarqAck := ← pull8
    betaOffsetCsi1 := ← pull8
    betaOffsetCsi2 := ← pull8 }

/-- The part of `unpack_ul_tti_request_pusch_pdu` for the PTRS ports. -/
def unpackNrPtrsPorts : Get NrPtrsPorts := do
  pure {
    ptrsPortIndex := ← pull16
    ptrsDmrsPort := ← pull8
    ptrsReOffset := ← pull8 }

/-- The part of `unpack_ul_tti_request_pusch_pdu` for `PUSCH_PDU_BITMAP_PUSCH_PTRS`. -/
def unpackNrPuschPtrs : Get NrPuschPtrs := do
  let numPtrsPorts ← pull8
  pure {
    numPtrsPorts
    ptrsPortsList := ← pullVec unpackNrPtrsPorts numPtrsPorts.toNat
    ptrsTimeDensity := ← pull8
    ptrsFreqDensity := ← pull8
    ulPtrsPower := ← pull8 }

/-- The part of `unpack_ul_tti_request_pusch_pdu` for `PUSCH_PDU_BITMAP_DFTS_OFDM`. -/
def unpackNrDftsOfdm : Get NrDftsOfdm := do
  pure {
    lowPaprGroupNumber := ← pull8
    lowPaprSequenceNumber := ← pull16
    ulPtrsSampleDensity := ← pull8
    ulPtrsTimeDensityTransformPrecoding := ← pull8 }

def unpackUlTtiRequestPuschPdu : Get NrPuschPdu := do
  let pduBitMap ← pull16
  pure {
    pduBitMap
    rnti := ← pull16
    handle := ← pull32
    bwpSize := ← pull16
    bwpStart := ← pull16
    subcarrierSpacing := ← pull8
    cyclicPrefix := ← pull8
    targetCodeRate := ← pull16
    qamModOrder := ← pull8
    mcsIndex := ← pull8
    mcsTable := ← pull8
    transformPrecoding := ← pull8
    dataScramblingId := ← pull16
    nrOfLayers := ← pull8
    ulDmrsSymbPos := ← pull16
    dmrsConfigType := ← pull8
    ulDmrsScramblingId := ← pull16
    puschIdentity := ← pull16
    scid := ← pull8
    numDmrsCdmGrpsNoData := ← pull8
    dmrsPorts := ← pull16
    resourceAlloc := ← pull8
    rbBitmap := ← pullarray8 36 36
    rbStart := ← pull16
    rbSize := ← pull16
    vrbToPrbMapping := ← pull8
    frequencyHopping := ← pull8
    txDirectCurrentLocation := ← pull16
    uplinkFrequencyShift7p5khz := ← pull8
    startSymbolIndex := ← pull8
    nrOfSymbols := ← pull8
    puschData := ← pullOptional unpackNrPuschData (pduBitMap.toNat.testBit 0)
    puschUci := ← pullOptional unpackNrPuschUci (pduBitMap.toNat.testBit 1)
    puschPtrs := ← pullOptional unpackNrPuschPtrs (pduBitMap.toNat.testBit 2)
    dftsOfdm := ← pullOptional unpackNrDftsOfdm (pduBitMap.toNat.testBit 3)
    beamforming := ← unpackNrRxBeamformingPdu
    ldpcBaseGraph := ← pull8
    tbSizeLbrmBytes := ← pull32 }

theorem carries_cbPresentAndPosition (value : CArray 1 ((numCb.toNat + 7) / 8) UInt8) :
    Carries (pusharray8 value.entries ((numCb.toNat + 7) / 8)) (unpackCbPresentAndPosition numCb)
      value := by
  rw [unpackCbPresentAndPosition]
  rw [dif_pos value.le_cap]
  exact (carries_pusharray8 value.entries _).map _

theorem carries_packNrPuschData (value : NrPuschData) :
    Carries (packNrPuschData value) unpackNrPuschData value :=
  .push8 <| .push8 <| .push8 <| .push32 <| .push16 <| (carries_cbPresentAndPosition _).map _

theorem carries_packNrPuschUci (value : NrPuschUci) :
    Carries (packNrPuschUci value) unpackNrPuschUci value :=
  .push16 <| .push16 <| .push16 <| .push8 <| .push8 <| .push8 <| (carries_push8 _).map _

theorem carries_packNrPtrsPorts (value : NrPtrsPorts) :
    Carries (packNrPtrsPorts value) unpackNrPtrsPorts value :=
  .push16 <| .push8 <| (carries_push8 _).map _

theorem carries_packNrPuschPtrs (value : NrPuschPtrs) :
    Carries (packNrPuschPtrs value) unpackNrPuschPtrs value :=
  .push8 <| (vec_self _ fun _ _ ↦ carries_packNrPtrsPorts _).bind <| .push8 <| .push8 <|
    (carries_push8 _).map _

theorem carries_packNrDftsOfdm (value : NrDftsOfdm) :
    Carries (packNrDftsOfdm value) unpackNrDftsOfdm value :=
  .push8 <| .push16 <| .push8 <| (carries_push8 _).map _

theorem carries_packUlTtiRequestPuschPdu (value : NrPuschPdu) :
    Carries (packUlTtiRequestPuschPdu value) unpackUlTtiRequestPuschPdu value :=
  .push16 <| .push16 <| .push32 <| .push16 <| .push16 <| .push8 <| .push8 <| .push16 <| .push8 <|
    .push8 <| .push8 <| .push8 <| .push16 <| .push8 <| .push16 <| .push8 <| .push16 <| .push16 <|
    .push8 <| .push8 <| .push16 <| .push8 <| (carries_pusharray8 _ _).bind <| .push16 <| .push16 <|
    .push8 <| .push8 <| .push16 <| .push8 <| .push8 <| .push8 <|
    (optional carries_packNrPuschData _).bind <|
    (optional carries_packNrPuschUci _).bind <|
    (optional carries_packNrPuschPtrs _).bind <|
    (optional carries_packNrDftsOfdm _).bind <| (carries_packNrRxBeamformingPdu _).bind <|
    .push8 <| (carries_push32 _).map _

/-! ### PUCCH -/

structure NrPucchPdu where
  rnti : UInt16
  handle : UInt32
  (bwpSize bwpStart : UInt16)
  (subcarrierSpacing cyclicPrefix formatType multiSlotTxIndicator pi2bpsk : UInt8)
  (prbStart prbSize : UInt16)
  (startSymbolIndex nrOfSymbols freqHopFlag : UInt8)
  secondHopPrb : UInt16
  (groupHopFlag sequenceHopFlag : UInt8)
  (hoppingId initialCyclicShift dataScramblingId : UInt16)
  (timeDomainOccIdx preDftOccIdx preDftOccLen addDmrsFlag : UInt8)
  dmrsScramblingId : UInt16
  (dmrsCyclicShift srFlag : UInt8)
  (bitLenHarq bitLenCsiPart1 bitLenCsiPart2 : UInt16)
  beamforming : NrUlBeamforming

def packUlTtiRequestPucchPdu (value : NrPucchPdu) : Put Unit := do
  push16 value.rnti
  push32 value.handle
  push16 value.bwpSize
  push16 value.bwpStart
  push8 value.subcarrierSpacing
  push8 value.cyclicPrefix
  push8 value.formatType
  push8 value.multiSlotTxIndicator
  push8 value.pi2bpsk
  push16 value.prbStart
  push16 value.prbSize
  push8 value.startSymbolIndex
  push8 value.nrOfSymbols
  push8 value.freqHopFlag
  push16 value.secondHopPrb
  push8 value.groupHopFlag
  push8 value.sequenceHopFlag
  push16 value.hoppingId
  push16 value.initialCyclicShift
  push16 value.dataScramblingId
  push8 value.timeDomainOccIdx
  push8 value.preDftOccIdx
  push8 value.preDftOccLen
  push8 value.addDmrsFlag
  push16 value.dmrsScramblingId
  push8 value.dmrsCyclicShift
  push8 value.srFlag
  push16 value.bitLenHarq
  push16 value.bitLenCsiPart1
  push16 value.bitLenCsiPart2
  packNrRxBeamformingPdu value.beamforming

def unpackUlTtiRequestPucchPdu : Get NrPucchPdu := do
  pure {
    rnti := ← pull16
    handle := ← pull32
    bwpSize := ← pull16
    bwpStart := ← pull16
    subcarrierSpacing := ← pull8
    cyclicPrefix := ← pull8
    formatType := ← pull8
    multiSlotTxIndicator := ← pull8
    pi2bpsk := ← pull8
    prbStart := ← pull16
    prbSize := ← pull16
    startSymbolIndex := ← pull8
    nrOfSymbols := ← pull8
    freqHopFlag := ← pull8
    secondHopPrb := ← pull16
    groupHopFlag := ← pull8
    sequenceHopFlag := ← pull8
    hoppingId := ← pull16
    initialCyclicShift := ← pull16
    dataScramblingId := ← pull16
    timeDomainOccIdx := ← pull8
    preDftOccIdx := ← pull8
    preDftOccLen := ← pull8
    addDmrsFlag := ← pull8
    dmrsScramblingId := ← pull16
    dmrsCyclicShift := ← pull8
    srFlag := ← pull8
    bitLenHarq := ← pull16
    bitLenCsiPart1 := ← pull16
    bitLenCsiPart2 := ← pull16
    beamforming := ← unpackNrRxBeamformingPdu }

theorem carries_packUlTtiRequestPucchPdu (value : NrPucchPdu) :
    Carries (packUlTtiRequestPucchPdu value) unpackUlTtiRequestPucchPdu value :=
  .push16 <| .push32 <| .push16 <| .push16 <| .push8 <| .push8 <| .push8 <| .push8 <| .push8 <|
    .push16 <| .push16 <| .push8 <| .push8 <| .push8 <| .push16 <| .push8 <| .push8 <| .push16 <|
    .push16 <| .push16 <| .push8 <| .push8 <| .push8 <| .push8 <| .push16 <| .push8 <| .push8 <|
    .push16 <| .push16 <| .push16 <| (carries_packNrRxBeamformingPdu _).map _

/-! ### SRS -/

/-- `nfapi_v4_srs_parameters_symbols_t`. -/
structure SrsParametersSymbols where
  srsBandwidthStart : UInt16
  (sequenceGroup sequenceNumber : UInt8)

/-- `__builtin_popcount`. -/
def popcount (x : UInt32) : ℕ := (List.range 32).countP fun i ↦ x.toNat.testBit i

/-- `nfapi_v4_srs_parameters_t`, with as many symbols as the SRS PDU says. -/
structure SrsParametersV4 (numSymbols : ℕ) where
  srsBandwidthSize : UInt16
  symbolList : CArray 4 numSymbols SrsParametersSymbols
  usage : UInt32
  reportType : List.Vector UInt8 (popcount usage)
  (singularValueRepresentation iqRepresentation : UInt8)
  prgSize : UInt16
  numTotalUeAntennas : UInt8
  (ueAntennasInThisSrsResourceSet sampledUeAntennas : UInt32)
  (reportScope numUlSpatialStreamsPorts : UInt8)
  ulSpatialStreamPorts : List.Vector UInt8 numUlSpatialStreamsPorts.toNat

/-- `nfapi_nr_srs_pdu_t`; `1 << num_symbols` is passed on with eight bits. -/
structure NrSrsPdu where
  rnti : UInt16
  handle : UInt32
  (bwpSize bwpStart : UInt16)
  (subcarrierSpacing cyclicPrefix numAntPorts numSymbols numRepetitions timeStartPosition : UInt8)
  configIndex : UInt8
  sequenceId : UInt16
  (bandwidthIndex combSize combOffset cyclicShift frequencyPosition : UInt8)
  frequencyShift : UInt16
  (frequencyHopping groupOrSequenceHopping resourceType : UInt8)
  (tSrs tOffset : UInt16)
  beamforming : NrUlBeamforming
  srsParametersV4 : SrsParametersV4 (2 ^ numSymbols.toNat % 2 ^ 8)

/-- The body of the loop over the symbols in `pack_ul_tti_request_srs_parameters_v4`. -/
def packSrsParametersSymbols (value : SrsParametersSymbols) : Put Unit := do
  push16 value.srsBandwidthStart
  push8 value.sequenceGroup
  push8 value.sequenceNumber

def packUlTtiRequestSrsParametersV4 {numSymbols : ℕ} (value : SrsParametersV4 numSymbols) :
    Put Unit := do
  push16 value.srsBandwidthSize
  pushVec packSrsParametersSymbols value.symbolList.entries
  push32 value.usage
  pusharray8 value.reportType 4
  push8 value.singularValueRepresentation
  push8 value.iqRepresentation
  push16 value.prgSize
  push8 value.numTotalUeAntennas
  push32 value.ueAntennasInThisSrsResourceSet
  push32 value.sampledUeAntennas
  push8 value.reportScope
  push8 value.numUlSpatialStreamsPorts
  pusharray8 value.ulSpatialStreamPorts 256

def packUlTtiRequestSrsPdu (value : NrSrsPdu) : Put Unit := do
  push16 value.rnti
  push32 value.handle
  push16 value.bwpSize
  push16 value.bwpStart
  push8 value.subcarrierSpacing
  push8 value.cyclicPrefix
  push8 value.numAntPorts
  push8 value.numSymbols
  push8 value.numRepetitions
  push8 value.timeStartPosition
  push8 value.configIndex
  push16 value.sequenceId
  push8 value.bandwidthIndex
  push8 value.combSize
  push8 value.combOffset
  push8 value.cyclicShift
  push8 value.frequencyPosition
  push16 value.frequencyShift
  push8 value.frequencyHopping
  push8 value.groupOrSequenceHopping
  push8 value.resourceType
  push16 value.tSrs
  push16 value.tOffset
  packNrRxBeamformingPdu value.beamforming
  packUlTtiRequestSrsParametersV4 value.srsParametersV4

/-- The body of the loop over the symbols in `unpack_ul_tti_request_srs_parameters_v4`. -/
def unpackSrsParametersSymbols : Get SrsParametersSymbols := do
  pure {
    srsBandwidthStart := ← pull16
    sequenceGroup := ← pull8
    sequenceNumber := ← pull8 }

def unpackUlTtiRequestSrsParametersV4 (numSymbols : ℕ) : Get (SrsParametersV4 numSymbols) := do
  let srsBandwidthSize ← pull16
  let symbolList ← pullArray 4 unpackSrsParametersSymbols numSymbols
  let usage ← pull32
  let reportType ← pullarray8 4 (popcount usage)
  let singularValueRepresentation ← pull8
  let iqRepresentation ← pull8
  let prgSize ← pull16
  let numTotalUeAntennas ← pull8
  let ueAntennasInThisSrsResourceSet ← pull32
  let sampledUeAntennas ← pull32
  let reportScope ← pull8
  let numUlSpatialStreamsPorts ← pull8
  let ulSpatialStreamPorts ← pullarray8 256 numUlSpatialStreamsPorts.toNat
  pure
    { srsBandwidthSize, symbolList, usage, reportType, singularValueRepresentation
      iqRepresentation, prgSize, numTotalUeAntennas, ueAntennasInThisSrsResourceSet
      sampledUeAntennas, reportScope, numUlSpatialStreamsPorts, ulSpatialStreamPorts }

def unpackUlTtiRequestSrsPdu : Get NrSrsPdu := do
  let rnti ← pull16
  let handle ← pull32
  let bwpSize ← pull16
  let bwpStart ← pull16
  let subcarrierSpacing ← pull8
  let cyclicPrefix ← pull8
  let numAntPorts ← pull8
  let numSymbols ← pull8
  pure {
    rnti, handle, bwpSize, bwpStart, subcarrierSpacing, cyclicPrefix, numAntPorts, numSymbols
    numRepetitions := ← pull8
    timeStartPosition := ← pull8
    configIndex := ← pull8
    sequenceId := ← pull16
    bandwidthIndex := ← pull8
    combSize := ← pull8
    combOffset := ← pull8
    cyclicShift := ← pull8
    frequencyPosition := ← pull8
    frequencyShift := ← pull16
    frequencyHopping := ← pull8
    groupOrSequenceHopping := ← pull8
    resourceType := ← pull8
    tSrs := ← pull16
    tOffset := ← pull16
    beamforming := ← unpackNrRxBeamformingPdu
    srsParametersV4 := ← unpackUlTtiRequestSrsParametersV4 (2 ^ numSymbols.toNat % 2 ^ 8) }

theorem carries_packSrsParametersSymbols (value : SrsParametersSymbols) :
    Carries (packSrsParametersSymbols value) unpackSrsParametersSymbols value :=
  .push16 <| .push8 <| (carries_push8 _).map _

theorem carries_packUlTtiRequestSrsParametersV4 (value : SrsParametersV4 numSymbols) :
    Carries (packUlTtiRequestSrsParametersV4 value) (unpackUlTtiRequestSrsParametersV4 numSymbols)
      value :=
  .push16 <| (array _ fun _ _ ↦ carries_packSrsParametersSymbols _).bind <| .push32 <|
    (carries_pusharray8 _ _).bind <| .push8 <| .push8 <| .push16 <| .push8 <| .push32 <| .push32 <|
    .push8 <| .push8 <| (carries_pusharray8 _ _).map _

theorem carries_packUlTtiRequestSrsPdu (value : NrSrsPdu) :
    Carries (packUlTtiRequestSrsPdu value) unpackUlTtiRequestSrsPdu value :=
  .push16 <| .push32 <| .push16 <| .push16 <| .push8 <| .push8 <| .push8 <| .push8 <| .push8 <|
    .push8 <| .push8 <| .push16 <| .push8 <| .push8 <| .push8 <| .push8 <| .push8 <| .push16 <|
    .push8 <| .push8 <| .push8 <| .push16 <| .push16 <| (carries_packNrRxBeamformingPdu _).bind <|
    (carries_packUlTtiRequestSrsParametersV4 _).map _

/-! ### The request -/

/-- `nfapi_nr_ul_config_pdu_type_e`. -/
def nrUlConfigPrachPduType : UInt16 := 0
def nrUlConfigPuschPduType : UInt16 := 1
def nrUlConfigPucchPduType : UInt16 := 2
def nrUlConfigSrsPduType : UInt16 := 3

/-- The union of `nfapi_nr_ul_tti_request_number_of_pdus_t`, with the `pdu_type` that selects from
it. -/
inductive NrUlTtiPdu
  | prach (pdu : NrPrachPdu)
  | pusch (pdu : NrPuschPdu)
  | pucch (pdu : NrPucchPdu)
  | srs (pdu : NrSrsPdu)
  | invalid (pduType : UInt16) (h : pduType ≠ nrUlConfigPrachPduType ∧
      pduType ≠ nrUlConfigPuschPduType ∧ pduType ≠ nrUlConfigPucchPduType ∧
      pduType ≠ nrUlConfigSrsPduType)

def NrUlTtiPdu.pduType : NrUlTtiPdu → UInt16
  | .prach _ => nrUlConfigPrachPduType
  | .pusch _ => nrUlConfigPuschPduType
  | .pucch _ => nrUlConfigPucchPduType
  | .srs _ => nrUlConfigSrsPduType
  | .invalid pduType _ => pduType

/-- `nfapi_nr_ul_tti_request_number_of_pdus_t`. -/
structure NrUlTtiRequestPdu where
  pduSize : UInt16
  pdu : NrUlTtiPdu

/-- `nfapi_nr_ul_tti_request_number_of_groups_t`. -/
structure NrUlTtiGroup where
  nUe : UInt8
  ueList : CArray 6 nUe.toNat UInt8

structure NrUlTtiRequest where
  (sfn slot : UInt16)
  (nPdus rachPresent nUlsch nUlcch nGroup : UInt8)
  pdusList : CArray 255 nPdus.toNat NrUlTtiRequestPdu
  groupsList : CArray 8 nGroup.toNat NrUlTtiGroup

/-- The `switch` of `pack_ul_tti_pdu_list_value`; it only reports an invalid type. -/
def packUlTtiPdu : NrUlTtiPdu → Put Unit
  | .prach pdu => packUlTtiRequestPrachPdu pdu
  | .pusch pdu => packUlTtiRequestPuschPdu pdu
  | .pucch pdu => packUlTtiRequestPucchPdu pdu
  | .srs pdu => packUlTtiRequestSrsPdu pdu
  | .invalid _ _ => pure ()

def packUlTtiPduListValue (value : NrUlTtiRequestPdu) : Put NrUlTtiRequestPdu := do
  let packedMsgLen ← packSizedPdu value.pdu.pduType value.pduSize (packUlTtiPdu value.pdu)
  pure { value with pduSize := packedMsgLen }

def packUlTtiGroupsListValue (value : NrUlTtiGroup) : Put Unit := do
  push8 value.nUe
  pushVec push8 value.ueList.entries

/-- The number of PDUs of one type, counted with eight bits. -/
def NrUlTtiRequest.count (msg : NrUlTtiRequest) (pduType : UInt16) : UInt8 :=
  .ofNat (msg.pdusList.entries.toList.countP fun value ↦ value.pdu.pduType == pduType)

/-- The message is returned as the packer leaves it, with its counts and the sizes of its PDUs
filled in. -/
def packUlTtiRequest (msg : NrUlTtiRequest) : Put NrUlTtiRequest := do
  push16 msg.sfn
  push16 msg.slot
  push8 msg.nPdus
  push8 msg.rachPresent
  push8 (msg.count nrUlConfigPuschPduType)
  push8 (msg.count nrUlConfigPucchPduType)
  push8 msg.nGroup
  let pdusList ← mapArray packUlTtiPduListValue msg.pdusList
  pushVec packUlTtiGroupsListValue msg.groupsList.entries
  pure
    { msg with
      nUlsch := msg.count nrUlConfigPuschPduType
      nUlcch := msg.count nrUlConfigPucchPduType
      pdusList }

/-- The `switch` of `unpack_ul_tti_pdu_list_value`. -/
def unpackUlTtiPdu (pduType : UInt16) : Get NrUlTtiPdu :=
  if h₀ : pduType = nrUlConfigPrachPduType then do
    let pdu ← unpackUlTtiRequestPrachPdu
    pure (.prach pdu)
  else if h₁ : pduType = nrUlConfigPuschPduType then do
    let pdu ← unpackUlTtiRequestPuschPdu
    pure (.pusch pdu)
  else if h₂ : pduType = nrUlConfigPucchPduType then do
    let pdu ← unpackUlTtiRequestPucchPdu
    pure (.pucch pdu)
  else if h₃ : pduType = nrUlConfigSrsPduType then do
    let pdu ← unpackUlTtiRequestSrsPdu
    pure (.srs pdu)
  else pure (.invalid pduType ⟨h₀, h₁, h₂, h₃⟩)

def unpackUlTtiPduListValue : Get NrUlTtiRequestPdu := do
  let pduType ← pull16
  let pduSize ← pull16
  let pdu ← unpackUlTtiPdu pduType
  pure { pduSize, pdu }

def unpackUlTtiGroupsListValue : Get NrUlTtiGroup := do
  let nUe ← pull8
  let ueList ← pullArray 6 pull8 nUe.toNat
  pure { nUe, ueList }

def unpackUlTtiRequest : Get NrUlTtiRequest := do
  let sfn ← pull16
  let slot ← pull16
  let nPdus ← pull8
  let rachPresent ← pull8
  let nUlsch ← pull8
  let nUlcch ← pull8
  let nGroup ← pull8
  pure {
    sfn, slot, nPdus, rachPresent, nUlsch, nUlcch, nGroup
    pdusList := ← pullArray 255 unpackUlTtiPduListValue nPdus.toNat
    groupsList := ← pullArray 8 unpackUlTtiGroupsListValue nGroup.toNat }

theorem carries_packUlTtiPdu (pdu : NrUlTtiPdu) :
    Carries (packUlTtiPdu pdu) (unpackUlTtiPdu pdu.pduType) pdu := by
  cases pdu with
  | prach pdu => exact (carries_packUlTtiRequestPrachPdu pdu).map _
  | pusch pdu => exact (carries_packUlTtiRequestPuschPdu pdu).map _
  | pucch pdu => exact (carries_packUlTtiRequestPucchPdu pdu).map _
  | srs pdu => exact (carries_packUlTtiRequestSrsPdu pdu).map _
  | invalid pduType h =>
    rw [NrUlTtiPdu.pduType, unpackUlTtiPdu, dif_neg h.1, dif_neg h.2.1, dif_neg h.2.2.1,
      dif_neg h.2.2.2]
    exact .pure _

theorem faithful_packUlTtiPduListValue (value : NrUlTtiRequestPdu) :
    Faithful (packUlTtiPduListValue value) unpackUlTtiPduListValue id :=
  faithful_packSizedPdu _ (carries_packUlTtiPdu value.pdu) fun _ ↦ rfl

theorem carries_packUlTtiGroupsListValue (value : NrUlTtiGroup) :
    Carries (packUlTtiGroupsListValue value) unpackUlTtiGroupsListValue value :=
  .push8 <| (array _ fun _ _ ↦ carries_push8 _).map _

/-- The message without what the packer fills in. -/
def NrUlTtiRequest.input (msg : NrUlTtiRequest) : NrUlTtiRequest :=
  { msg with
    nUlsch := 0
    nUlcch := 0
    pdusList := msg.pdusList.map fun value ↦ { value with pduSize := 0 } }

theorem packUlTtiRequest_input
    (h : packUlTtiRequest msg b = some (msg', b')) : msg'.input = msg.input := by
  iterate 7 obtain ⟨_, _, -, h⟩ := bind_eq_some h
  obtain ⟨pdus, c, hpdus, h⟩ := bind_eq_some h
  obtain ⟨_, _, -, h⟩ := bind_eq_some h
  cases h
  rw [NrUlTtiRequest.input, NrUlTtiRequest.input]
  rw [mapArray_keeps (fun value b value' b' hvalue ↦ ?_) hpdus]
  obtain ⟨n, u, -, hvalue⟩ := bind_eq_some hvalue
  cases hvalue
  rfl

/-- **A UL_TTI.request is read back as the packer leaves it.** -/
theorem faithful_packUlTtiRequest (msg : NrUlTtiRequest) :
    Faithful (packUlTtiRequest msg) unpackUlTtiRequest id :=
  (carries_push16 _).bind_faithful <| (carries_push16 _).bind_faithful <|
    (carries_push8 _).bind_faithful <| (carries_push8 _).bind_faithful <|
      (carries_push8 _).bind_faithful <| (carries_push8 _).bind_faithful <|
        (carries_push8 _).bind_faithful <|
          (Faithful.array_self faithful_packUlTtiPduListValue _).bind fun _ ↦
            (array _ fun _ _ ↦ carries_packUlTtiGroupsListValue _).returns rfl

end OaiRan.Nfapi
