import OaiRan.Lib.Lossless
import OaiRan.F1ap.Message

/-!
# The F1AP interface management codec

The functions of `f1ap_interface_management.c` that build and read the PDUs of F1 Setup and of the
gNB-DU Configuration Update. An encoder is `none` where an `AssertFatal` ends the program. A decoder
writes into a message that its caller has zeroed; it is `none` where it returns `false`, where an
assertion ends the program, and where it would read through a null pointer, behind the end of a string
or another member of a union than the one that is present.

The two functions of the ASN.1 runtime that convert an `INTEGER` are not part of the repository; they
are a parameter (`IntegerRuntime`) of which only the round trip of a gNB-DU ID is known.
-/

namespace OaiRan.F1ap

open Asn1

/-! ### Served cells -/

def nrbLut : List ℕ :=
  [11, 18, 24, 25, 31, 32, 38, 51, 52, 65, 66, 78, 79, 93, 106, 107, 121, 132, 133, 135, 160, 162, 189,
    216, 217, 245, 264, 270, 273]

def toNRNRB (nrb : ℕ) : Option ℕ := nrbLut.findIdx? (· = nrb)

def readSliceInfo (plmn : ServedPlmnItem) (maxNssai : ℕ) : Option (List Nssai) :=
  match plmn.iEExtensions with
  | none => some []
  | some [] => some []
  | some (splmn :: _) =>
    match splmn.id, splmn.value with
    | .taiSliceSupportList, .sliceSupportList ssl =>
      if ssl.length ≤ maxNssai then
        ssl.mapM fun sl ↦ do
          let sst ← octetStringToInt8 sl.sST
          let sd ← (sl.sD.map octetStringToInt24).getD (some 0xffffff)
          pure { sst, sd }
      else none
    | _, _ => none

def encodeFrequencyInfo (info : NrFrequencyInfo) : NrFreqInfo where
  nRARFCN := info.arfcn
  freqBandListNr := [{ freqBandIndicatorNr := info.band }]

def encodeTxBandwidth (info : TransmissionBandwidth) : Option TxBandwidth := do
  let nRNRB ← toNRNRB info.nrb
  pure { nRSCS := info.scs, nRNRB }

/-- The NR mode in `encode_served_cell_info`. -/
def encodeMode : DuplexMode → Option NrModeInfo
  | .fdd ulFreqinfo dlFreqinfo ulTbw dlTbw => do
    let uLTbw ← encodeTxBandwidth ulTbw
    let dLTbw ← encodeTxBandwidth dlTbw
    pure (.fDD (encodeFrequencyInfo ulFreqinfo) (encodeFrequencyInfo dlFreqinfo) uLTbw dLTbw)
  | .tdd freqinfo tbw => do
    let tb ← encodeTxBandwidth tbw
    pure (.tDD (encodeFrequencyInfo freqinfo) tb)

/-- `MCC_MNC_TO_PLMNID` and `NR_CELL_ID_TO_BIT_STRING`. -/
def encodeNrCgi (plmn : Plmn) (nrCellid : ℕ) : NrCgi where
  pLMNIdentity := mccMncToPlmnid plmn
  nRCellIdentity := nrCellIdToBitString nrCellid

/-- `encode_served_cell_info`. The slices are not written. -/
def encodeServedCellInfo (c : ServedCellInfo) : Option ServedCellInformation := do
  let nRModeInfo ← encodeMode c.mode
  pure
    { nRCGI := encodeNrCgi c.plmn c.nrCellid
      nRPCI := c.nrPci
      fiveGSTAC := c.tac.map int24ToOctetString
      servedPLMNs := [{ pLMNIdentity := mccMncToPlmnid c.plmn }]
      nRModeInfo
      measurementTimingConfiguration := c.measurementTimingConfig }

/-- The frequency of one band without supplementary uplink. -/
def decodeFrequencyInfo (info : NrFreqInfo) : Option NrFrequencyInfo :=
  match info.freqBandListNr with
  | [item] =>
    if item.supportedSULBandList.length = 0 then
      some { arfcn := info.nRARFCN, band := item.freqBandIndicatorNr }
    else none
  | _ => none

/-- The bandwidth, from the table. -/
def decodeTxBandwidth (tb : TxBandwidth) : Option TransmissionBandwidth := do
  let nrb ← nrbLut[tb.nRNRB]?
  pure { scs := tb.nRSCS, nrb }

/-- The NR mode in `decode_served_cell_info`. -/
def decodeMode : NrModeInfo → Option DuplexMode
  | .fDD uLNRFreqInfo dLNRFreqInfo uLTbw dLTbw => do
    let ulFreqinfo ← decodeFrequencyInfo uLNRFreqInfo
    let dlFreqinfo ← decodeFrequencyInfo dLNRFreqInfo
    let ulTbw ← decodeTxBandwidth uLTbw
    let dlTbw ← decodeTxBandwidth dLTbw
    pure (.fdd ulFreqinfo dlFreqinfo ulTbw dlTbw)
  | .tDD nRFreqInfo tb => do
    let freqinfo ← decodeFrequencyInfo nRFreqInfo
    let tbw ← decodeTxBandwidth tb
    pure (.tdd freqinfo tbw)
  | .other => none

/-- The tracking area code, into `tac`. -/
def decodeTac (tac : Option ℕ) : Option (List UInt8) → Option (Option ℕ)
  | some os => (octetStringToInt24 os).map some
  | none => some tac

/-- The slices of the one served PLMN. -/
def decodeServedPlmns : List ServedPlmnItem → Option (List Nssai)
  | [item] => readSliceInfo item 16
  | _ => none

/-- `decode_served_cell_info`, into `info`. -/
def decodeServedCellInfo (info : ServedCellInfo) (inp : ServedCellInformation) :
    Option ServedCellInfo := do
  let tac ← decodeTac info.tac inp.fiveGSTAC
  let plmn ← tbcdToMccMnc inp.nRCGI.pLMNIdentity
  let nrCellid ← bitStringToNrCellIdentity inp.nRCGI.nRCellIdentity
  let nssai ← decodeServedPlmns inp.servedPLMNs
  let mode ← decodeMode inp.nRModeInfo
  if inp.measurementTimingConfiguration.length > 0 then
    some
      { plmn, nrCellid, nrPci := inp.nRPCI, tac, nssai, mode
        measurementTimingConfig := inp.measurementTimingConfiguration }
  else none

def encodeSystemInfo (sysInfo : DuSystemInfo) : DuSystemInformation where
  mIBMessage := sysInfo.mib
  sIB1Message := sysInfo.sib1

/-- `decode_system_info` if there is system information, into `sysInfo`. -/
def decodeSystemInfo (sysInfo : Option DuSystemInfo) : Option DuSystemInformation → Option DuSystemInfo
  | some dUsi => some { mib := dUsi.mIBMessage, sib1 := dUsi.sIB1Message }
  | none => sysInfo

/-- An item of a list of served cells. -/
def encodeServedCell (id : IeId) (cell : ServedCell) : Option (ProtocolIE IeId ServedCellsItem) := do
  let servedCellInformation ← encodeServedCellInfo cell.info
  pure
    { id, criticality := .reject
      value :=
        { servedCellInformation, gNBDUSystemInformation := cell.sysInfo.map encodeSystemInfo } }

/-- Into `cell`. -/
def decodeServedCell (cell : ServedCell) (item : ProtocolIE IeId ServedCellsItem) :
    Option ServedCell := do
  let info ← decodeServedCellInfo cell.info item.value.servedCellInformation
  pure { info, sysInfo := decodeSystemInfo cell.sysInfo item.value.gNBDUSystemInformation }

/-! ### The RRC version -/

/-- One bit for each byte that is not 0, and the bytes in an extension. -/
def encodeRrcVersion (rrcVer : UInt8 × UInt8 × UInt8) : RrcVersion :=
  let bit (b : UInt8) : ℕ := if b ≠ 0 then 1 else 0
  { latestRRCVersion :=
      { buf := [.ofNat (bit rrcVer.1 ||| (bit rrcVer.2.1 <<< 1) ||| (bit rrcVer.2.2 <<< 2))]
        bitsUnused := 5 }
    iEExtensions := some
      [{ id := .latestRRCVersionEnhanced, criticality := .ignore
         value := [rrcVer.1, rrcVer.2.1, rrcVer.2.2] }] }

/-- Only the extension is read. The octet string has three bytes by its type. -/
def decodeRrcVersion (out : UInt8 × UInt8 × UInt8) (version : RrcVersion) :
    Option (UInt8 × UInt8 × UInt8) :=
  match version.iEExtensions with
  | some (rrcext :: _) =>
    match rrcext.value with
    | [b₀, b₁, b₂] => some (b₀, b₁, b₂)
    | _ => none
  | _ => some out

/-! ### F1 Setup Request -/

/-- **The conversions of the ASN.1 runtime**: a gNB-DU ID in its range comes back as it was. -/
structure IntegerRuntime where
  asnInt642Integer : UInt64 → ℤ
  /-- Into a variable that is left alone where the number does not fit. -/
  asnInteger2ulong : UInt64 → ℤ → UInt64
  round_trip : ∀ {x : UInt64}, x.toNat < 2 ^ 36 →
    ∀ out, asnInteger2ulong out (asnInt642Integer x) = x

section Runtime

variable (rt : IntegerRuntime)

/-- The elements of a F1 Setup Request with these cells. -/
def setupRequestIes (msg : F1apSetupReq) (cells : List (ProtocolIE IeId ServedCellsItem)) :
    List (ProtocolIE IeId F1SetupRequestIe) :=
  [⟨.transactionID, .reject, .transactionID msg.transactionId.toInt64⟩,
    ⟨.gNBDUID, .reject, .gNBDUID (rt.asnInt642Integer msg.gNBDuId)⟩] ++
  (msg.gNBDuName.map fun name ↦ ⟨.gNBDUName, .ignore, .gNBDUName name.bytes⟩).toList ++
  [⟨.gNBDUServedCellsList, .reject, .gNBDUServedCellsList cells⟩,
    ⟨.gNBDURRCVersion, .reject, .rrcVersion (encodeRrcVersion msg.rrcVer)⟩]

def encodeF1apSetupRequest (msg : F1apSetupReq) : Option F1apPdu := do
  let cells ← msg.cell.mapM (encodeServedCell .gNBDUServedCellsItem)
  pure (.initiatingMessage .f1Setup .reject (.f1SetupRequest (setupRequestIes rt msg cells)))

/-- A `f1ap_setup_req_t` while it is filled in: a count and an array of cells. -/
structure SetupReqOut where
  transactionId : UInt64 := 0
  gNBDuId : UInt64 := 0
  gNBDuName : Option CString := none
  rrcVer : UInt8 × UInt8 × UInt8 := (0, 0, 0)
  numCellsAvailable : ℕ := 0
  cell : ℕ → ServedCell := fun _ ↦ {}

def SetupReqOut.toMsg (out : SetupReqOut) : F1apSetupReq where
  transactionId := out.transactionId
  gNBDuId := out.gNBDuId
  gNBDuName := out.gNBDuName
  rrcVer := out.rrcVer
  cell := (List.range out.numCellsAvailable).map out.cell

/-- A turn of the loop of `decode_f1ap_setup_request`. -/
def decodeSetupRequestIe (out : SetupReqOut) (ie : ProtocolIE IeId F1SetupRequestIe) :
    Option SetupReqOut :=
  match ie.id, ie.value with
  | .transactionID, .transactionID value =>
    if value = -1 then none else some { out with transactionId := value.toUInt64 }
  | .gNBDUID, .gNBDUID value => some { out with gNBDuId := rt.asnInteger2ulong out.gNBDuId value }
  | .gNBDUName, .gNBDUName value => some { out with gNBDuName := some (.strncpy value) }
  | .gNBDUServedCellsList, .gNBDUServedCellsList list =>
    if list.length > 0 then do
      let cell ← fillSlots decodeServedCell 0 list out.cell
      pure { out with numCellsAvailable := list.length, cell }
    else none
  | .gNBDURRCVersion, .rrcVersion value => do
    let rrcVer ← decodeRrcVersion out.rrcVer value
    pure { out with rrcVer }
  | _, _ => none

def decodeF1apSetupRequest : F1apPdu → Option F1apSetupReq
  | .initiatingMessage .f1Setup _ (.f1SetupRequest ies) =>
    if findIes ies [.transactionID, .gNBDUID, .gNBDURRCVersion] then
      (ies.foldlM (decodeSetupRequestIe rt) {}).map SetupReqOut.toMsg
    else none
  | _ => none

end Runtime

/-! ### F1 Setup Response -/

/-- The item of `gNB_CUSystemInformation` for a message, if its type is one that the CU sends. -/
def encodeSibMsg (msg : SibMsg) : List SibtypetobeupdatedListItem :=
  match msg.siContainer with
  | some container =>
    if msg.siType > 6 ∧ msg.siType ≠ 9 then [{ sIBtype := msg.siType, sIBmessage := container }]
    else []
  | none => []

/-- `encode_cells_to_activate`. Every turn of the loop over the system information allocates the
extension container anew. -/
def encodeCellsToActivate (cell : ServedCellToActivate) :
    ProtocolIE IeId CellsToBeActivatedListItem where
  id := .cellsToBeActivatedListItem
  criticality := .reject
  value :=
    { nRCGI := encodeNrCgi cell.plmn cell.nrCellid
      nRPCI := some cell.nrpci
      iEExtensions := cell.siMsg.foldl
        (fun _ msg ↦ some [⟨.gNBCUSystemInformation, .reject,
          .gNBCUSystemInformation (encodeSibMsg msg)⟩]) none }

/-- `decode_cells_to_activate`, into `out`. -/
def decodeCellsToActivate (out : ServedCellToActivate)
    (inp : ProtocolIE IeId CellsToBeActivatedListItem) : Option ServedCellToActivate :=
  if inp.id = .cellsToBeActivatedListItem then do
    let plmn ← tbcdToMccMnc inp.value.nRCGI.pLMNIdentity
    let nrCellid ← bitStringToNrCellIdentity inp.value.nRCGI.nRCellIdentity
    let nrpci := inp.value.nRPCI.getD out.nrpci
    match inp.value.iEExtensions with
    | none => some { out with plmn, nrCellid, nrpci }
    | some [] => some { out with plmn, nrCellid, nrpci }
    | some [ext] =>
      match ext.id, ext.value with
      | .gNBCUSystemInformation, .gNBCUSystemInformation list =>
        some
          { plmn, nrCellid, nrpci := inp.value.nRPCI.getD 0
            siMsg := list.map fun item ↦
              { siContainer := some item.sIBmessage, siType := item.sIBtype } }
      | _, _ => none
    | some _ => none
  else none

/-- The elements of a F1 Setup Response: every cell is in a list of its own. -/
def setupResponseIes (msg : F1apSetupResp) : List (ProtocolIE IeId F1SetupResponseIe) :=
  [⟨.transactionID, .reject, .transactionID msg.transactionId.toInt64⟩] ++
  (msg.gNBCuName.map fun name ↦ ⟨.gNBCUName, .ignore, .gNBCUName name.bytes⟩).toList ++
  msg.cellsToActivate.map (fun cell ↦
    ⟨.cellsToBeActivatedList, .reject, .cellsToBeActivatedList [encodeCellsToActivate cell]⟩) ++
  [⟨.gNBCURRCVersion, .reject, .rrcVersion (encodeRrcVersion msg.rrcVer)⟩]

def encodeF1apSetupResponse (msg : F1apSetupResp) : Option F1apPdu :=
  some (.successfulOutcome .f1Setup .reject (setupResponseIes msg))

/-- A `f1ap_setup_resp_t` while it is filled in. -/
structure SetupRespOut where
  transactionId : UInt64 := 0
  gNBCuName : Option CString := none
  numCellsToActivate : ℕ := 0
  cellsToActivate : ℕ → ServedCellToActivate := fun _ ↦ {}
  rrcVer : UInt8 × UInt8 × UInt8 := (0, 0, 0)

def SetupRespOut.toMsg (out : SetupRespOut) : F1apSetupResp where
  transactionId := out.transactionId
  gNBCuName := out.gNBCuName
  cellsToActivate := (List.range out.numCellsToActivate).map out.cellsToActivate
  rrcVer := out.rrcVer

/-- A turn of the loop of `decode_f1ap_setup_response`. -/
def decodeSetupResponseIe (out : SetupRespOut) (ie : ProtocolIE IeId F1SetupResponseIe) :
    Option SetupRespOut :=
  match ie.id, ie.value with
  | .transactionID, .transactionID value =>
    if value = -1 then none else some { out with transactionId := value.toUInt64 }
  | .gNBCUName, .gNBCUName value => some { out with gNBCuName := some (.strncpy value) }
  | .gNBCURRCVersion, .rrcVersion value => do
    let rrcVer ← decodeRrcVersion out.rrcVer value
    pure { out with rrcVer }
  | .cellsToBeActivatedList, .cellsToBeActivatedList list =>
    if list.length > 0 then do
      let cellsToActivate ← fillSlots decodeCellsToActivate 0 list out.cellsToActivate
      pure { out with numCellsToActivate := list.length, cellsToActivate }
    else none
  -- a list with another value is skipped
  | .cellsToBeActivatedList, _ => some out
  | _, _ => none

def decodeF1apSetupResponse : F1apPdu → Option F1apSetupResp
  | .successfulOutcome .f1Setup _ ies =>
    if findIes ies [.transactionID, .gNBCURRCVersion] then
      (ies.foldlM decodeSetupResponseIe {}).map SetupRespOut.toMsg
    else none
  | _ => none

/-! ### F1 Setup Failure -/

/-- `F1AP_TimeToWait_v10s`, of `v1s`, `v2s`, `v5s`, `v10s`, `v20s` and `v60s`. -/
def timeToWaitV10s : ℕ := 3

/-- The elements of a F1 Setup Failure. -/
def setupFailureIes (msg : F1apSetupFailure) : List (ProtocolIE IeId F1SetupFailureIe) :=
  [⟨.transactionID, .reject, .transactionID msg.transactionId.toInt64⟩,
    ⟨.cause, .ignore, .cause (.radioNetwork msg.cause)⟩] ++
  (if msg.timeToWait > 0 then [⟨.timeToWait, .ignore, .timeToWait timeToWaitV10s⟩] else []) ++
  (if msg.criticalityDiagnostics ≠ 0 then
    [⟨.criticalityDiagnostics, .ignore, .criticalityDiagnostics .ueContextSetup .reject 0⟩]
  else [])

def encodeF1apSetupFailure (msg : F1apSetupFailure) : Option F1apPdu :=
  some (.unsuccessfulOutcome .f1Setup .reject (setupFailureIes msg))

/-- A turn of the loop of `decode_f1ap_setup_failure`. -/
def decodeSetupFailureIe (out : F1apSetupFailure) (ie : ProtocolIE IeId F1SetupFailureIe) :
    Option F1apSetupFailure :=
  match ie.id, ie.value with
  | .transactionID, .transactionID value => some { out with transactionId := value.toUInt64 }
  | .cause, .cause (.radioNetwork value) => some { out with cause := value }
  | .timeToWait, .timeToWait value => some { out with timeToWait := value }
  | _, _ => none

def decodeF1apSetupFailure : F1apPdu → Option F1apSetupFailure
  | .unsuccessfulOutcome _ _ ies =>
    if findIes ies [.transactionID, .cause] then ies.foldlM decodeSetupFailureIe {} else none
  | _ => none

/-! ### gNB-DU Configuration Update -/

/-- An item of `Served_Cells_To_Modify_List`. -/
def encodeCellToModify (cell : CellToModify) :
    Option (ProtocolIE IeId ServedCellsToModifyItem) := do
  let servedCellInformation ← encodeServedCellInfo cell.info
  pure
    { id := .servedCellsToModifyItem, criticality := .reject
      value :=
        { oldNRCGI := encodeNrCgi cell.oldPlmn cell.oldNrCellid
          servedCellInformation
          gNBDUSystemInformation := cell.sysInfo.map encodeSystemInfo } }

/-- Into `cell`. -/
def decodeCellToModify (cell : CellToModify) (item : ProtocolIE IeId ServedCellsToModifyItem) :
    Option CellToModify := do
  let oldPlmn ← tbcdToMccMnc item.value.oldNRCGI.pLMNIdentity
  let oldNrCellid ← bitStringToNrCellIdentity item.value.oldNRCGI.nRCellIdentity
  let info ← decodeServedCellInfo cell.info item.value.servedCellInformation
  pure
    { oldPlmn, oldNrCellid, info
      sysInfo := decodeSystemInfo cell.sysInfo item.value.gNBDUSystemInformation }

/-- An item of `Served_Cells_To_Delete_List`. -/
def decodeCellToDelete (_ : CellToDelete) (item : ProtocolIE IeId NrCgi) : Option CellToDelete := do
  pure {
    plmn := ← tbcdToMccMnc item.value.pLMNIdentity
    nrCellid := ← bitStringToNrCellIdentity item.value.nRCellIdentity }

section Runtime

variable (rt : IntegerRuntime)

/-- The elements of a gNB-DU Configuration Update without cells to add or to delete. -/
def duConfigurationUpdateIes (msg : F1apDuConfigurationUpdate)
    (modify : List (ProtocolIE IeId ServedCellsToModifyItem)) :
    List (ProtocolIE IeId DuConfigurationUpdateIe) :=
  [⟨.transactionID, .reject, .transactionID msg.transactionId.toInt64⟩] ++
  (if msg.cellToModify.length > 0 then
    [⟨.servedCellsToModifyList, .reject, .servedCellsToModifyList modify⟩] else []) ++
  (msg.gNBDuId.map fun id ↦ ⟨.gNBDUID, .reject, .gNBDUID (rt.asnInt642Integer id)⟩).toList

/-- `encode_f1ap_du_configuration_update`: with cells to add or to delete, assertions end the
program. -/
def encodeF1apDuConfigurationUpdate (msg : F1apDuConfigurationUpdate) : Option F1apPdu :=
  if msg.cellToAdd.length > 0 then none
  else do
    let modify ← msg.cellToModify.mapM encodeCellToModify
    if msg.cellToDelete.length > 0 then none
    else pure (.initiatingMessage .gNBDUConfigurationUpdate .reject
      (.gNBDUConfigurationUpdate (duConfigurationUpdateIes rt msg modify)))

/-- A `f1ap_gnb_du_configuration_update_t` while it is filled in. -/
structure DuConfigurationUpdateOut where
  transactionId : UInt64 := 0
  numCellsToAdd : ℕ := 0
  cellToAdd : ℕ → ServedCell := fun _ ↦ {}
  numCellsToModify : ℕ := 0
  cellToModify : ℕ → CellToModify := fun _ ↦ {}
  numCellsToDelete : ℕ := 0
  cellToDelete : ℕ → CellToDelete := fun _ ↦ {}
  /-- a pointer -/
  gNBDuId : Option UInt64 := none

def DuConfigurationUpdateOut.toMsg (out : DuConfigurationUpdateOut) : F1apDuConfigurationUpdate where
  transactionId := out.transactionId
  cellToAdd := (List.range out.numCellsToAdd).map out.cellToAdd
  cellToModify := (List.range out.numCellsToModify).map out.cellToModify
  cellToDelete := (List.range out.numCellsToDelete).map out.cellToDelete
  gNBDuId := out.gNBDuId

/-- A turn of the loop of `decode_f1ap_du_configuration_update`. -/
def decodeDuConfigurationUpdateIe (out : DuConfigurationUpdateOut)
    (ie : ProtocolIE IeId DuConfigurationUpdateIe) : Option DuConfigurationUpdateOut :=
  match ie.id, ie.value with
  | .transactionID, .transactionID value => some { out with transactionId := value.toUInt64 }
  | .servedCellsToAddList, .servedCellsToAddList list =>
    -- the count is checked before it is set
    if out.numCellsToAdd > 0 then do
      let cellToAdd ← fillSlots decodeServedCell 0 list out.cellToAdd
      pure { out with numCellsToAdd := list.length, cellToAdd }
    else none
  | .servedCellsToModifyList, .servedCellsToModifyList list =>
    if list.length > 0 then do
      let cellToModify ← fillSlots decodeCellToModify 0 list out.cellToModify
      pure { out with numCellsToModify := list.length, cellToModify }
    else none
  | .servedCellsToDeleteList, .servedCellsToDeleteList list =>
    if list.length > 0 then do
      let cellToDelete ← fillSlots decodeCellToDelete 0 list out.cellToDelete
      pure { out with numCellsToDelete := list.length, cellToDelete }
    else none
  | .gNBDUID, .gNBDUID value =>
    match out.gNBDuId with
    | some id => some { out with gNBDuId := some (rt.asnInteger2ulong id value) }
    | none => none
  | .transactionID, _ => none
  | .servedCellsToAddList, _ => none
  | .servedCellsToModifyList, _ => none
  | .servedCellsToDeleteList, _ => none
  | .gNBDUID, _ => none
  | .cellsStatusList, _ => none
  | .dedicatedSIDeliveryNeededUEList, _ => none
  | .gNBDUTNLAssociationToRemoveList, _ => none
  -- there is no default case
  | _, _ => some out

def decodeF1apDuConfigurationUpdate : F1apPdu → Option F1apDuConfigurationUpdate
  | .initiatingMessage .gNBDUConfigurationUpdate _ (.gNBDUConfigurationUpdate ies) =>
    if findIes ies [.transactionID] then
      (ies.foldlM (decodeDuConfigurationUpdateIe rt) {}).map DuConfigurationUpdateOut.toMsg
    else none
  | _ => none

end Runtime

end OaiRan.F1ap
