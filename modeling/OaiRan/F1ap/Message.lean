import OaiRan.Asn1.Conversions

/-!
# The messages of F1AP interface management

The messages as the rest of the base station sees them (`f1ap_messages_types.h`) and as the PDUs that
the generated ASN.1 coder takes and returns. A tagged union is an inductive type. The integers of the
PDUs are those of the ASN.1 types, whose bounds fit the fields of the messages.

The arrays of cells have room for `F1AP_MAX_NB_CELLS`, that is two. Here they are lists of any length,
and the codec never looks at the bound: what is proved of every list is true of those that fit, and
says nothing of a message with more cells, which the program cannot hold.
-/

namespace OaiRan.F1ap

open Asn1

/-! ### Messages -/

structure Nssai where
  sst : UInt8
  sd : ℕ
  deriving DecidableEq, Repr

/-- `f1ap_nr_frequency_info_t`. -/
structure NrFrequencyInfo where
  arfcn : ℕ := 0
  band : ℤ := 0
  deriving DecidableEq, Repr

/-- `f1ap_transmission_bandwidth_t`. -/
structure TransmissionBandwidth where
  scs : ℕ := 0
  nrb : ℕ := 0
  deriving DecidableEq, Repr

/-- `f1ap_mode_t` and the union that it selects from. -/
inductive DuplexMode
  | tdd (freqinfo : NrFrequencyInfo) (tbw : TransmissionBandwidth)
  | fdd (ulFreqinfo dlFreqinfo : NrFrequencyInfo) (ulTbw dlTbw : TransmissionBandwidth)
  deriving DecidableEq, Repr

/-- `f1ap_served_cell_info_t`. -/
structure ServedCellInfo where
  plmn : Plmn := {}
  nrCellid : ℕ := 0
  nrPci : ℕ := 0
  tac : Option ℕ := none
  nssai : List Nssai := []
  mode : DuplexMode := .tdd {} {}
  measurementTimingConfig : List UInt8 := []
  deriving DecidableEq, Repr

/-- `f1ap_gnb_du_system_info_t`. -/
structure DuSystemInfo where
  (mib sib1 : List UInt8)
  deriving DecidableEq, Repr

/-- A served cell with its system information. -/
structure ServedCell where
  info : ServedCellInfo := {}
  sysInfo : Option DuSystemInfo := none
  deriving DecidableEq, Repr

structure F1apSetupReq where
  transactionId : UInt64 := 0
  gNBDuId : UInt64 := 0
  gNBDuName : Option CString := none
  rrcVer : UInt8 × UInt8 × UInt8 := (0, 0, 0)
  cell : List ServedCell := []
  deriving DecidableEq

/-- `f1ap_sib_msg_t`. -/
structure SibMsg where
  siContainer : Option (List UInt8)
  siType : ℤ
  deriving DecidableEq, Repr

/-- `served_cells_to_activate_t`. -/
structure ServedCellToActivate where
  plmn : Plmn := {}
  nrCellid : ℕ := 0
  nrpci : ℕ := 0
  siMsg : List SibMsg := []
  deriving DecidableEq, Repr

structure F1apSetupResp where
  transactionId : UInt64 := 0
  gNBCuName : Option CString := none
  cellsToActivate : List ServedCellToActivate := []
  rrcVer : UInt8 × UInt8 × UInt8 := (0, 0, 0)
  deriving DecidableEq

structure F1apSetupFailure where
  cause : ℕ := 0
  timeToWait : ℕ := 0
  criticalityDiagnostics : ℕ := 0
  transactionId : UInt64 := 0
  deriving DecidableEq, Repr

/-- An element of `cell_to_modify`. -/
structure CellToModify where
  oldPlmn : Plmn := {}
  oldNrCellid : ℕ := 0
  info : ServedCellInfo := {}
  sysInfo : Option DuSystemInfo := none
  deriving DecidableEq, Repr

/-- An element of `cell_to_delete`. -/
structure CellToDelete where
  plmn : Plmn := {}
  nrCellid : ℕ := 0
  deriving DecidableEq, Repr

/-- `f1ap_gnb_du_configuration_update_t`. -/
structure F1apDuConfigurationUpdate where
  transactionId : UInt64 := 0
  cellToAdd : List ServedCell := []
  cellToModify : List CellToModify := []
  cellToDelete : List CellToDelete := []
  gNBDuId : Option UInt64 := none
  deriving DecidableEq, Repr

/-! ### PDUs -/

/-- The `F1AP_ProtocolIE_ID_id_…` that the codec names. -/
inductive IeId
  | transactionID
  | gNBDUID
  | gNBDUName
  | gNBDUServedCellsList
  | gNBDUServedCellsItem
  | gNBDURRCVersion
  | latestRRCVersionEnhanced
  | taiSliceSupportList
  | gNBCUName
  | cellsToBeActivatedList
  | cellsToBeActivatedListItem
  | gNBCUSystemInformation
  | availablePLMNList
  | extendedAvailablePLMNList
  | iabInfoIABDonorCU
  | availableSNPNIDList
  | gNBCURRCVersion
  | cause
  | timeToWait
  | criticalityDiagnostics
  | servedCellsToAddList
  | servedCellsToAddItem
  | servedCellsToModifyList
  | servedCellsToModifyItem
  | servedCellsToDeleteList
  | servedCellsToDeleteItem
  | cellsStatusList
  | dedicatedSIDeliveryNeededUEList
  | gNBDUTNLAssociationToRemoveList
  | other (id : ℕ)
  deriving DecidableEq, Repr

/-- `F1AP_NRCGI_t`. -/
structure NrCgi where
  pLMNIdentity : List UInt8
  nRCellIdentity : BitString

/-- `F1AP_FreqBandNrItem_t`. -/
structure FreqBandNrItem where
  freqBandIndicatorNr : ℤ
  supportedSULBandList : List ℤ := []

/-- `F1AP_NRFreqInfo_t`. -/
structure NrFreqInfo where
  nRARFCN : ℕ
  freqBandListNr : List FreqBandNrItem

/-- `F1AP_Transmission_Bandwidth_t`. -/
structure TxBandwidth where
  (nRSCS nRNRB : ℕ)

/-- `F1AP_NR_Mode_Info_t`. -/
inductive NrModeInfo
  | fDD (uLNRFreqInfo dLNRFreqInfo : NrFreqInfo)
      (uLTransmissionBandwidth dLTransmissionBandwidth : TxBandwidth)
  | tDD (nRFreqInfo : NrFreqInfo) (transmissionBandwidth : TxBandwidth)
  | other

/-- `F1AP_SliceSupportItem_t`. -/
structure SliceSupportItem where
  sST : List UInt8
  sD : Option (List UInt8)

/-- The extensions of `F1AP_ServedPLMNs_Item_t`. -/
inductive ServedPlmnExtension
  | sliceSupportList (list : List SliceSupportItem)
  | other

/-- `F1AP_ServedPLMNs_Item_t`. -/
structure ServedPlmnItem where
  pLMNIdentity : List UInt8
  iEExtensions : Option (List (ProtocolIE IeId ServedPlmnExtension)) := none

/-- `F1AP_Served_Cell_Information_t`. -/
structure ServedCellInformation where
  nRCGI : NrCgi
  nRPCI : ℕ
  fiveGSTAC : Option (List UInt8)
  servedPLMNs : List ServedPlmnItem
  nRModeInfo : NrModeInfo
  measurementTimingConfiguration : List UInt8

/-- `F1AP_GNB_DU_System_Information_t`. -/
structure DuSystemInformation where
  (mIBMessage sIB1Message : List UInt8)

/-- `F1AP_GNB_DU_Served_Cells_Item_t` and `F1AP_Served_Cells_To_Add_Item_t`. -/
structure ServedCellsItem where
  servedCellInformation : ServedCellInformation
  gNBDUSystemInformation : Option DuSystemInformation

/-- `F1AP_Served_Cells_To_Modify_Item_t`. -/
structure ServedCellsToModifyItem where
  oldNRCGI : NrCgi
  servedCellInformation : ServedCellInformation
  gNBDUSystemInformation : Option DuSystemInformation

/-- `F1AP_RRC_Version_t`. -/
structure RrcVersion where
  latestRRCVersion : BitString
  iEExtensions : Option (List (ProtocolIE IeId (List UInt8)))

/-- `F1AP_SibtypetobeupdatedListItem_t`. -/
structure SibtypetobeupdatedListItem where
  sIBtype : ℤ
  sIBmessage : List UInt8

/-- The extensions of `F1AP_Cells_to_be_Activated_List_Item_t`. -/
inductive CellToBeActivatedExtension
  | gNBCUSystemInformation (sibtypetobeupdatedlist : List SibtypetobeupdatedListItem)
  | other

/-- `F1AP_Cells_to_be_Activated_List_Item_t`. -/
structure CellsToBeActivatedListItem where
  nRCGI : NrCgi
  nRPCI : Option ℕ
  iEExtensions : Option (List (ProtocolIE IeId CellToBeActivatedExtension))

/-- The open type of `F1AP_F1SetupRequestIEs_t`. -/
inductive F1SetupRequestIe
  | transactionID (value : Int64)
  | gNBDUID (value : ℤ)
  | gNBDUName (value : List UInt8)
  | gNBDUServedCellsList (list : List (ProtocolIE IeId ServedCellsItem))
  | rrcVersion (value : RrcVersion)

/-- The open type of `F1AP_F1SetupResponseIEs_t`. -/
inductive F1SetupResponseIe
  | transactionID (value : Int64)
  | gNBCUName (value : List UInt8)
  | cellsToBeActivatedList (list : List (ProtocolIE IeId CellsToBeActivatedListItem))
  | rrcVersion (value : RrcVersion)

inductive ProcedureCode
  | f1Setup
  | gNBDUConfigurationUpdate
  | ueContextSetup
  | other (code : ℕ)
  deriving DecidableEq, Repr

/-- `F1AP_Cause_t`. -/
inductive Cause
  | radioNetwork (value : ℕ)
  | other

/-- The open type of `F1AP_F1SetupFailureIEs_t`. The encoder writes the same diagnostics always. -/
inductive F1SetupFailureIe
  | transactionID (value : Int64)
  | cause (value : Cause)
  | timeToWait (value : ℕ)
  | criticalityDiagnostics (procedureCode : ProcedureCode) (procedureCriticality : Criticality)
      (transactionID : ℤ)

/-- The open type of `F1AP_GNBDUConfigurationUpdateIEs_t`. -/
inductive DuConfigurationUpdateIe
  | transactionID (value : Int64)
  | servedCellsToAddList (list : List (ProtocolIE IeId ServedCellsItem))
  | servedCellsToModifyList (list : List (ProtocolIE IeId ServedCellsToModifyItem))
  | servedCellsToDeleteList (list : List (ProtocolIE IeId NrCgi))
  | gNBDUID (value : ℤ)
  | other

/-- The open type of `F1AP_InitiatingMessage_t`. -/
inductive InitiatingMessage
  | f1SetupRequest (protocolIEs : List (ProtocolIE IeId F1SetupRequestIe))
  | gNBDUConfigurationUpdate (protocolIEs : List (ProtocolIE IeId DuConfigurationUpdateIe))

/-- `F1AP_F1AP_PDU_t`. -/
inductive F1apPdu
  | initiatingMessage (procedureCode : ProcedureCode) (criticality : Criticality)
      (value : InitiatingMessage)
  | successfulOutcome (procedureCode : ProcedureCode) (criticality : Criticality)
      (f1SetupResponse : List (ProtocolIE IeId F1SetupResponseIe))
  | unsuccessfulOutcome (procedureCode : ProcedureCode) (criticality : Criticality)
      (f1SetupFailure : List (ProtocolIE IeId F1SetupFailureIe))

end OaiRan.F1ap
