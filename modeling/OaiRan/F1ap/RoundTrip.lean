import OaiRan.F1ap.InterfaceManagement
import OaiRan.Lib.Loop

/-!
# What the F1AP interface management codec loses

Decoding the PDU of a well-formed message gives the message back under a condition on the message, and
only then (`f1ap_lossless_iff`). The condition names what is lost: **slices** are never written; **NR
cell identities** are read back in 32 bits; a **second cell to activate** or a **second system
information message** replaces the first; a **time to wait** is always sent as 10 seconds;
**criticality diagnostics**, a **gNB-DU ID**, and **cells to add or to delete** are not supported by one
side or the other.

## The four messages, and what each rests on

Each message has a lemma `lossless_…_iff`. It rests on what the loop over the elements of the PDU
leaves behind (`foldlM_setupRequestIes`, `foldlM_setupResponseIes`, `foldlM_setupFailureIes`,
`decodeF1apDuConfigurationUpdate_eq`), and for the cells on `lossless_servedCellInfo_iff`, by
`lossless_mapM_iff` one cell at a time. Of the ASN.1 coder it takes that a PDU is passed on as it is,
and of its runtime the round trip of a gNB-DU ID (`IntegerRuntime`).
-/

namespace OaiRan.F1ap

open Asn1 Option List

variable {rt : IntegerRuntime} {x : UInt64} {cell : ServedCellToActivate}
  {cells : List ServedCellToActivate}

/-! ### Served cells -/

/-- The bandwidths of a duplex mode. -/
def DuplexMode.bandwidths : DuplexMode → List TransmissionBandwidth
  | .tdd _ tbw => [tbw]
  | .fdd _ _ ulTbw dlTbw => [ulTbw, dlTbw]

/-- Fields in the ranges of TS 38.473. -/
structure ServedCellInfo.WellFormed (c : ServedCellInfo) : Prop where
  plmn : c.plmn.Valid
  nrCellid : c.nrCellid < 2 ^ 36
  tac : ∀ t ∈ c.tac, t < 2 ^ 24
  nrb : ∀ tbw ∈ c.mode.bandwidths, tbw.nrb ∈ nrbLut

/-- What is not lost of a served cell. -/
structure ServedCellInfo.Kept (c : ServedCellInfo) : Prop where
  nssai : c.nssai = []
  nrCellid : c.nrCellid < 2 ^ 31
  measurementTimingConfig : c.measurementTimingConfig ≠ []

theorem lossless_nrb : ∀ nrb ∈ nrbLut, (toNRNRB nrb).bind (nrbLut[·]?) = some nrb := by
  decide

theorem lossless_txBandwidth (h : tbw.nrb ∈ nrbLut) :
    Lossless encodeTxBandwidth decodeTxBandwidth tbw := by
  obtain ⟨i, hi, hnrb⟩ := bind_eq_some_iff.1 (lossless_nrb _ h)
  refine lossless_iff.2 ⟨⟨tbw.scs, i⟩, ?_, ?_⟩
  · rw [encodeTxBandwidth, hi]
    rfl
  · rw [decodeTxBandwidth, hnrb]
    rfl

theorem decodeFrequencyInfo_encodeFrequencyInfo (info : NrFrequencyInfo) :
    decodeFrequencyInfo (encodeFrequencyInfo info) = some info := rfl

theorem lossless_mode (h : ∀ tbw ∈ mode.bandwidths, tbw.nrb ∈ nrbLut) :
    Lossless encodeMode decodeMode mode := by
  cases mode with
  | tdd freqinfo tbw =>
    obtain ⟨tb, henc, hdec⟩ := lossless_iff.1 (lossless_txBandwidth (h tbw (.head _)))
    refine lossless_iff.2 ⟨.tDD (encodeFrequencyInfo freqinfo) tb, ?_, ?_⟩
    · rw [encodeMode, henc]
      rfl
    · rw [decodeMode, decodeFrequencyInfo_encodeFrequencyInfo, hdec]
      rfl
  | fdd ulFreqinfo dlFreqinfo ulTbw dlTbw =>
    obtain ⟨ul, hul, hul'⟩ := lossless_iff.1 (lossless_txBandwidth (h ulTbw (.head _)))
    obtain ⟨dl, hdl, hdl'⟩ := lossless_iff.1 (lossless_txBandwidth (h dlTbw (.tail _ (.head _))))
    refine lossless_iff.2
      ⟨.fDD (encodeFrequencyInfo ulFreqinfo) (encodeFrequencyInfo dlFreqinfo) ul dl, ?_, ?_⟩
    · rw [encodeMode, hul, hdl]
      rfl
    · rw [decodeMode, decodeFrequencyInfo_encodeFrequencyInfo,
        decodeFrequencyInfo_encodeFrequencyInfo, hul', hdl']
      rfl

/-- The cell that is decoded. -/
def ServedCellInfo.decoded (c : ServedCellInfo) : ServedCellInfo :=
  { c with nssai := [], nrCellid := CInt.toUint64 (CInt.toInt32 c.nrCellid) }

theorem decodeTac_encoded (h : ∀ t ∈ tac, t < 2 ^ 24) :
    decodeTac none (tac.map int24ToOctetString) = some tac := by
  cases tac with
  | none => rfl
  | some t => rw [map_some, decodeTac, octetStringToInt24_int24ToOctetString (h t rfl), map_some]

variable {c : ServedCellInfo} {msg : F1apSetupResp}

theorem encodeServedCellInfo_bind (h : c.WellFormed) :
    (encodeServedCellInfo c).bind (decodeServedCellInfo {}) =
      if c.measurementTimingConfig.length > 0 then some c.decoded else none := by
  obtain ⟨mode, henc, hdec⟩ := lossless_iff.1 (lossless_mode h.nrb)
  simp only [encodeServedCellInfo, henc, Option.bind_eq_bind, Option.bind_some, Option.pure_def,
    decodeServedCellInfo, decodeTac_encoded h.tac, encodeNrCgi, tbcdToMccMnc_mccMncToPlmnid h.plmn,
    bitStringToNrCellIdentity_nrCellIdToBitString, decodeServedPlmns, readSliceInfo, hdec]
  rfl

theorem decoded_eq_iff (h : c.nrCellid < 2 ^ 36) :
    c.decoded = c ↔ c.nssai = [] ∧ c.nrCellid < 2 ^ 31 := by
  have hid := bitStringToNrCellIdentity_eq_iff h
  rw [bitStringToNrCellIdentity_nrCellIdToBitString, some.injEq] at hid
  rw [← hid]
  obtain ⟨plmn, nrCellid, nrPci, tac, nssai, mode, config⟩ := c
  simp [ServedCellInfo.decoded, eq_comm (a := ([] : List Nssai)), and_comm]

/-- **A served cell** is kept exactly under the condition. -/
theorem lossless_servedCellInfo_iff (h : c.WellFormed) :
    Lossless encodeServedCellInfo (decodeServedCellInfo {}) c ↔ c.Kept := by
  rw [Lossless, encodeServedCellInfo_bind h]
  split
  · rename_i hlen
    rw [some.injEq, decoded_eq_iff h.nrCellid]
    exact ⟨fun hc ↦ ⟨hc.1, hc.2, ne_nil_of_length_pos hlen⟩, fun hc ↦ ⟨hc.nssai, hc.nrCellid⟩⟩
  · rename_i hlen
    refine ⟨fun hc ↦ absurd hc (some_ne_none c).symm, fun hc ↦ absurd ?_ hlen⟩
    exact length_pos_of_ne_nil hc.measurementTimingConfig

theorem decodeSystemInfo_encodeSystemInfo (sysInfo : Option DuSystemInfo) :
    decodeSystemInfo none (sysInfo.map encodeSystemInfo) = sysInfo := by
  cases sysInfo <;> rfl

theorem encodeServedCell_bind (id : IeId) (cell : ServedCell) :
    (encodeServedCell id cell).bind (decodeServedCell {}) =
      ((encodeServedCellInfo cell.info).bind (decodeServedCellInfo {})).map
        fun info ↦ { cell with info } := by
  rw [encodeServedCell]
  cases encodeServedCellInfo cell.info with
  | none => rfl
  | some enc =>
    simp only [Option.bind_eq_bind, Option.bind_some, Option.pure_def, decodeServedCell,
      decodeSystemInfo_encodeSystemInfo]
    exact Option.map_eq_bind.symm

theorem lossless_servedCell_iff {id : IeId} {cell : ServedCell} (h : cell.info.WellFormed) :
    Lossless (encodeServedCell id) (decodeServedCell {}) cell ↔ cell.info.Kept := by
  rw [← lossless_servedCellInfo_iff h, Lossless, Lossless, encodeServedCell_bind, map_eq_some_iff]
  constructor
  · rintro ⟨info, hinfo, heq⟩
    rwa [show info = cell.info from congrArg ServedCell.info heq] at hinfo
  · intro hinfo
    exact ⟨cell.info, hinfo, rfl⟩

/-- **The cells to modify** with their old identity. -/
theorem lossless_cellToModify_iff {cell : CellToModify} (h : cell.info.WellFormed)
    (hplmn : cell.oldPlmn.Valid) (hid : cell.oldNrCellid < 2 ^ 36) :
    Lossless encodeCellToModify (decodeCellToModify {}) cell ↔
      cell.oldNrCellid < 2 ^ 31 ∧ cell.info.Kept := by
  have hbind : (encodeCellToModify cell).bind (decodeCellToModify {}) =
      ((encodeServedCellInfo cell.info).bind (decodeServedCellInfo {})).map fun info ↦
        { cell with info, oldNrCellid := CInt.toUint64 (CInt.toInt32 cell.oldNrCellid) } := by
    rw [encodeCellToModify]
    cases encodeServedCellInfo cell.info with
    | none => rfl
    | some enc =>
      simp only [Option.bind_eq_bind, Option.bind_some, Option.pure_def, decodeCellToModify,
        encodeNrCgi, tbcdToMccMnc_mccMncToPlmnid hplmn,
        bitStringToNrCellIdentity_nrCellIdToBitString, decodeSystemInfo_encodeSystemInfo]
      exact Option.map_eq_bind.symm
  have hold := bitStringToNrCellIdentity_eq_iff hid
  rw [bitStringToNrCellIdentity_nrCellIdToBitString, Option.some.injEq] at hold
  rw [← lossless_servedCellInfo_iff h, ← hold, Lossless, Lossless, hbind, Option.map_eq_some_iff]
  constructor
  · rintro ⟨info, hinfo, heq⟩
    rw [show info = cell.info from congrArg CellToModify.info heq] at hinfo
    have hid := congrArg CellToModify.oldNrCellid heq
    dsimp only at hid
    exact ⟨hid, hinfo⟩
  · rintro ⟨hid, hinfo⟩
    exact ⟨cell.info, hinfo, by rw [hid]⟩

/-! ### F1 Setup Request -/

theorem toInt64_ne (h : x.toNat < 256) : x.toInt64 ≠ -1 := by
  intro heq
  have hx : x = Int64.toUInt64 (-1) := by rw [← heq, UInt64.toUInt64_toInt64]
  rw [hx] at h
  exact absurd h (by decide)

theorem decodeRrcVersion_encodeRrcVersion (out rrcVer : UInt8 × UInt8 × UInt8) :
    decodeRrcVersion out (encodeRrcVersion rrcVer) = some rrcVer := rfl

/-- Fields in the ranges of TS 38.473. -/
structure F1apSetupReq.WellFormed (msg : F1apSetupReq) : Prop where
  transactionId : msg.transactionId.toNat < 256
  gNBDuId : msg.gNBDuId.toNat < 2 ^ 36
  cell : ∀ cell ∈ msg.cell, cell.info.WellFormed

theorem findIes_setupRequestIes (msg : F1apSetupReq)
    (cells : List (ProtocolIE IeId ServedCellsItem)) :
    findIes (setupRequestIes rt msg cells) [.transactionID, .gNBDUID, .gNBDURRCVersion] = true := by
  cases h : msg.gNBDuName <;> simp [findIes, setupRequestIes, h]

theorem foldlM_setupRequestIes {msg : F1apSetupReq} (h : msg.WellFormed)
    (cells : List (ProtocolIE IeId ServedCellsItem)) :
    (setupRequestIes rt msg cells).foldlM (decodeSetupRequestIe rt) {} =
      if cells.length > 0 then (fillSlots decodeServedCell 0 cells fun _ ↦ {}).map fun cell ↦
        ⟨msg.transactionId, msg.gNBDuId, msg.gNBDuName, msg.rrcVer, cells.length, cell⟩
      else none := by
  have hid := toInt64_ne h.transactionId
  have hdu := rt.round_trip h.gNBDuId
  have hname : (msg.gNBDuName.map fun name ↦
      (⟨.gNBDUName, .ignore, .gNBDUName name.bytes⟩ : ProtocolIE IeId F1SetupRequestIe)).toList.foldlM
        (decodeSetupRequestIe rt) { transactionId := msg.transactionId, gNBDuId := msg.gNBDuId } =
      some {
        transactionId := msg.transactionId, gNBDuId := msg.gNBDuId, gNBDuName := msg.gNBDuName } := by
    cases msg.gNBDuName with
    | none => rfl
    | some name => simp [decodeSetupRequestIe]
  simp only [setupRequestIes, List.foldlM_append, List.foldlM_cons, List.foldlM_nil,
    decodeSetupRequestIe, if_neg hid, hdu, UInt64.toUInt64_toInt64, Option.bind_eq_bind,
    Option.bind_some, Option.pure_def, hname]
  split
  · cases fillSlots decodeServedCell 0 cells fun _ ↦ {} <;> rfl
  · rfl

/-- What is decoded from a F1 Setup Request. -/
theorem decodeF1apSetupRequest_eq {msg : F1apSetupReq} (h : msg.WellFormed)
    (cells : List (ProtocolIE IeId ServedCellsItem)) :
    decodeF1apSetupRequest rt (.initiatingMessage .f1Setup .reject
        (.f1SetupRequest (setupRequestIes rt msg cells))) =
      if cells.length > 0 then
        (cells.mapM (decodeServedCell {})).map fun cell ↦ { msg with cell }
      else none := by
  rw [decodeF1apSetupRequest, if_pos (findIes_setupRequestIes msg cells), foldlM_setupRequestIes h]
  split
  · rw [← fillSlots_const, Option.map_map, Option.map_map]
    rfl
  · rfl

/-- **F1 Setup Request.** -/
theorem lossless_setupRequest_iff {msg : F1apSetupReq} (h : msg.WellFormed) :
    Lossless (encodeF1apSetupRequest rt) (decodeF1apSetupRequest rt) msg ↔
      msg.cell ≠ [] ∧ ∀ cell ∈ msg.cell, cell.info.Kept := by
  have hcells : Lossless (mapM (encodeServedCell .gNBDUServedCellsItem))
      (mapM (decodeServedCell {})) msg.cell ↔ ∀ cell ∈ msg.cell, cell.info.Kept := by
    rw [lossless_mapM_iff]
    exact forall₂_congr fun cell hcell ↦ lossless_servedCell_iff (h.cell cell hcell)
  rw [← hcells, lossless_iff, lossless_iff]
  constructor
  · rintro ⟨pdu, henc, hdec⟩
    obtain ⟨cells, hcells, hpdu⟩ := bind_eq_some_iff.1 henc
    rw [← some.inj hpdu, decodeF1apSetupRequest_eq h] at hdec
    split at hdec
    · rename_i hlen
      obtain ⟨cell, hcell, heq⟩ := map_eq_some_iff.1 hdec
      rw [show cell = msg.cell from congrArg F1apSetupReq.cell heq] at hcell
      rw [← length_of_mapM_eq_some hcell] at hlen
      exact ⟨ne_nil_of_length_pos hlen, cells, hcells, hcell⟩
    · cases hdec
  · rintro ⟨hne, cells, hcells, hcell⟩
    have hlen : cells.length > 0 := by
      rw [← length_of_mapM_eq_some hcell]
      exact length_pos_of_ne_nil hne
    refine ⟨_, bind_eq_some_iff.2 ⟨cells, hcells, rfl⟩, ?_⟩
    rw [decodeF1apSetupRequest_eq h, if_pos hlen, hcell]
    rfl

/-! ### F1 Setup Response -/

/-- System information of a type that the CU sends. -/
def SibMsg.Supported (msg : SibMsg) : Prop :=
  msg.siContainer ≠ none ∧ msg.siType > 6 ∧ msg.siType ≠ 9

/-- Fields in the ranges of TS 38.473. -/
structure F1apSetupResp.WellFormed (msg : F1apSetupResp) : Prop where
  transactionId : msg.transactionId.toNat < 256
  plmn : ∀ cell ∈ msg.cellsToActivate, cell.plmn.Valid
  nrCellid : ∀ cell ∈ msg.cellsToActivate, cell.nrCellid < 2 ^ 36
  siMsg : ∀ cell ∈ msg.cellsToActivate, ∀ si ∈ cell.siMsg, si.Supported

/-- The item of a supported message is the message. -/
theorem map_encodeSibMsg {msg : SibMsg} (h : msg.Supported) :
    ((encodeSibMsg msg).map fun item ↦
      ({ siContainer := some item.sIBmessage, siType := item.sIBtype } : SibMsg)) = [msg] := by
  obtain ⟨hne, htype⟩ := h
  obtain ⟨container, type⟩ := msg
  cases container with
  | none => exact absurd rfl hne
  | some container =>
    show map _ (if type > 6 ∧ type ≠ 9 then _ else []) = _
    rw [if_pos htype]
    rfl

/-- The messages that are decoded: only the last one. -/
def lastSibMsg (siMsg : List SibMsg) : List SibMsg := siMsg.getLast?.toList

theorem lastSibMsg_eq_iff : lastSibMsg siMsg = siMsg ↔ siMsg.length ≤ 1 := by
  rcases siMsg with - | ⟨a, - | ⟨b, l⟩⟩
  · simp [lastSibMsg]
  · simp [lastSibMsg]
  · simp only [lastSibMsg, length_cons]
    constructor
    · intro h
      have hlen := congrArg length h
      simp [getLast?_cons] at hlen
    · omega

/-- The cell that is decoded. -/
def ServedCellToActivate.decoded (cell : ServedCellToActivate) : ServedCellToActivate :=
  { cell with
    nrCellid := CInt.toUint64 (CInt.toInt32 cell.nrCellid)
    siMsg := lastSibMsg cell.siMsg }

/-- What is not lost of a cell to activate. -/
structure ServedCellToActivate.Kept (cell : ServedCellToActivate) : Prop where
  nrCellid : cell.nrCellid < 2 ^ 31
  siMsg : cell.siMsg.length ≤ 1

theorem ServedCellToActivate.decoded_eq_iff
    (h : cell.nrCellid < 2 ^ 36) : cell.decoded = cell ↔ cell.Kept := by
  have hid := bitStringToNrCellIdentity_eq_iff h
  rw [bitStringToNrCellIdentity_nrCellIdToBitString, some.injEq] at hid
  have hkept : cell.Kept ↔ cell.nrCellid < 2 ^ 31 ∧ cell.siMsg.length ≤ 1 :=
    ⟨fun hc ↦ ⟨hc.1, hc.2⟩, fun hc ↦ ⟨hc.1, hc.2⟩⟩
  rw [hkept, ← hid, ← lastSibMsg_eq_iff]
  obtain ⟨plmn, nrCellid, nrpci, siMsg⟩ := cell
  simp [ServedCellToActivate.decoded]

/-- The extension container after the loop over the system information. -/
theorem encodeCellsToActivate_iEExtensions (cell : ServedCellToActivate) :
    (encodeCellsToActivate cell).value.iEExtensions = cell.siMsg.getLast?.map fun msg ↦
      [⟨.gNBCUSystemInformation, .reject, .gNBCUSystemInformation (encodeSibMsg msg)⟩] := by
  rcases eq_nil_or_concat cell.siMsg with hnil | ⟨l, msg, hconcat⟩
  · simp [encodeCellsToActivate, hnil]
  · simp [encodeCellsToActivate, hconcat]

theorem decodeCellsToActivate_encodeCellsToActivate
    (hplmn : cell.plmn.Valid) (hsi : ∀ si ∈ cell.siMsg, si.Supported) :
    decodeCellsToActivate {} (encodeCellsToActivate cell) = some cell.decoded := by
  have hcgi : (encodeCellsToActivate cell).value.nRCGI = encodeNrCgi cell.plmn cell.nrCellid := rfl
  have hpci : (encodeCellsToActivate cell).value.nRPCI = some cell.nrpci := rfl
  have hie : (encodeCellsToActivate cell).id = .cellsToBeActivatedListItem := rfl
  rw [decodeCellsToActivate, if_pos hie, encodeCellsToActivate_iEExtensions, hcgi, hpci]
  simp only [encodeNrCgi, tbcdToMccMnc_mccMncToPlmnid hplmn,
    bitStringToNrCellIdentity_nrCellIdToBitString, bind_eq_bind, bind_some,
    getD_some, ServedCellToActivate.decoded, lastSibMsg]
  cases hlast : cell.siMsg.getLast? with
  | none => rfl
  | some msg =>
    have hmsg := map_encodeSibMsg (hsi msg (mem_of_getLast? hlast))
    simp only [map_some, hmsg, toList_some]

theorem findIes_setupResponseIes (msg : F1apSetupResp) :
    findIes (setupResponseIes msg) [.transactionID, .gNBCURRCVersion] = true := by
  simp [findIes, setupResponseIes]

/-- **Every list of one cell** is decoded into the same place. -/
theorem numCellsToActivate_foldlM (h : (cells.map fun cell ↦ (⟨.cellsToBeActivatedList, .reject,
        .cellsToBeActivatedList [encodeCellsToActivate cell]⟩ :
          ProtocolIE IeId F1SetupResponseIe)).foldlM decodeSetupResponseIe out = some out')
    (hout : out.numCellsToActivate ≤ 1) : out'.numCellsToActivate ≤ 1 := by
  rw [foldlM_map] at h
  refine foldlM_invariant (P := fun out ↦ out.numCellsToActivate ≤ 1) ?_ hout h
  intro s t cell _ hstep
  obtain ⟨cells, -, heq⟩ := bind_eq_some_iff.1 hstep
  rw [← some.inj heq]
  exact Nat.le_refl 1

/-- The fold up to the cells. -/
theorem foldlM_setupResponseIes (h : msg.transactionId.toNat < 256) :
    (setupResponseIes msg).foldlM decodeSetupResponseIe {} =
      ((msg.cellsToActivate.map fun cell ↦ (⟨.cellsToBeActivatedList, .reject,
        .cellsToBeActivatedList [encodeCellsToActivate cell]⟩ :
          ProtocolIE IeId F1SetupResponseIe)).foldlM decodeSetupResponseIe
        { transactionId := msg.transactionId, gNBCuName := msg.gNBCuName }).map
        fun out ↦ { out with rrcVer := msg.rrcVer } := by
  have hid := toInt64_ne h
  have hname : (msg.gNBCuName.map fun name ↦ (⟨.gNBCUName, .ignore, .gNBCUName name.bytes⟩ :
      ProtocolIE IeId F1SetupResponseIe)).toList.foldlM decodeSetupResponseIe
        { transactionId := msg.transactionId } =
      some { transactionId := msg.transactionId, gNBCuName := msg.gNBCuName } := by
    cases msg.gNBCuName with
    | none => rfl
    | some name => simp [decodeSetupResponseIe]
  simp only [setupResponseIes, foldlM_append, foldlM_cons, foldlM_nil, decodeSetupResponseIe,
    if_neg hid, UInt64.toUInt64_toInt64, bind_eq_bind, Option.bind_some, Option.pure_def, hname,
    decodeRrcVersion_encodeRrcVersion]
  exact Option.map_eq_bind.symm

theorem length_cellsToActivate_le (h : msg.transactionId.toNat < 256)
    (hdec : decodeF1apSetupResponse (.successfulOutcome .f1Setup .reject (setupResponseIes msg)) =
      some msg') : msg'.cellsToActivate.length ≤ 1 := by
  rw [decodeF1apSetupResponse, if_pos (findIes_setupResponseIes msg), foldlM_setupResponseIes h,
    Option.map_map] at hdec
  obtain ⟨out, hout, heq⟩ := Option.map_eq_some_iff.1 hdec
  have hlen : msg'.cellsToActivate.length = out.numCellsToActivate := by
    rw [← heq]
    show ((List.range out.numCellsToActivate).map _).length = _
    rw [List.length_map, List.length_range]
  rw [hlen]
  exact numCellsToActivate_foldlM hout (Nat.zero_le 1)

theorem decodeF1apSetupResponse_eq (h : msg.WellFormed) (hlen : msg.cellsToActivate.length ≤ 1) :
    decodeF1apSetupResponse (.successfulOutcome .f1Setup .reject (setupResponseIes msg)) =
      some { msg with cellsToActivate := msg.cellsToActivate.map ServedCellToActivate.decoded } := by
  rw [decodeF1apSetupResponse, if_pos (findIes_setupResponseIes msg),
    foldlM_setupResponseIes h.transactionId, Option.map_map]
  obtain ⟨transactionId, gNBCuName, cells, rrcVer⟩ := msg
  rcases cells with - | ⟨cell, - | ⟨cell', cells⟩⟩
  · rfl
  · have hcell := decodeCellsToActivate_encodeCellsToActivate (h.plmn cell (.head _))
      (h.siMsg cell (.head _))
    simp only [List.map_cons, List.map_nil, List.foldlM_cons, List.foldlM_nil,
      decodeSetupResponseIe, fillSlots, hcell, Option.bind_eq_bind, Option.bind_some,
      List.length_cons, List.length_nil, Nat.zero_add, Nat.one_pos, gt_iff_lt, if_true,
      Option.pure_def, Option.map_some]
    rfl
  · simp at hlen

/-- **F1 Setup Response.** -/
theorem lossless_setupResponse_iff (h : msg.WellFormed) :
    Lossless encodeF1apSetupResponse decodeF1apSetupResponse msg ↔
      msg.cellsToActivate.length ≤ 1 ∧ ∀ cell ∈ msg.cellsToActivate, cell.Kept := by
  have hkept : (∀ cell ∈ msg.cellsToActivate, cell.Kept) ↔
      msg.cellsToActivate.map ServedCellToActivate.decoded = msg.cellsToActivate := by
    rw [← forall₂_congr fun cell hcell ↦
      ServedCellToActivate.decoded_eq_iff (h.nrCellid cell hcell)]
    nth_rewrite 3 [← map_id msg.cellsToActivate]
    exact map_inj_left.symm
  rw [Lossless, encodeF1apSetupResponse, bind_some, hkept]
  constructor
  · intro hdec
    have hlen := length_cellsToActivate_le h.transactionId hdec
    rw [decodeF1apSetupResponse_eq h hlen, some.injEq] at hdec
    exact ⟨hlen, congrArg F1apSetupResp.cellsToActivate hdec⟩
  · rintro ⟨hlen, hcells⟩
    rw [decodeF1apSetupResponse_eq h hlen, hcells]

/-! ### F1 Setup Failure -/

/-- The elements of a F1 Setup Failure up to the diagnostics. -/
theorem foldlM_setupFailureIes (msg : F1apSetupFailure) :
    (setupFailureIes msg).foldlM decodeSetupFailureIe {} =
      if msg.criticalityDiagnostics ≠ 0 then none
      else some { msg with
        timeToWait := if msg.timeToWait > 0 then timeToWaitV10s else 0
        criticalityDiagnostics := 0 } := by
  obtain ⟨cause, timeToWait, diagnostics, transactionId⟩ := msg
  rcases timeToWait with - | wait <;> rcases diagnostics with - | diag <;>
    simp [setupFailureIes, decodeSetupFailureIe]

/-- **F1 Setup Failure.** Every time to wait is sent as 10 seconds. -/
theorem lossless_setupFailure_iff {msg : F1apSetupFailure} :
    Lossless encodeF1apSetupFailure decodeF1apSetupFailure msg ↔
      (msg.timeToWait = 0 ∨ msg.timeToWait = timeToWaitV10s) ∧ msg.criticalityDiagnostics = 0 := by
  rw [Lossless, encodeF1apSetupFailure, bind_some, decodeF1apSetupFailure,
    if_pos (by simp [findIes, setupFailureIes]), foldlM_setupFailureIes]
  obtain ⟨cause, timeToWait, diagnostics, transactionId⟩ := msg
  rcases diagnostics with - | diag
  · rcases timeToWait with - | wait
    · simp
    · simp [eq_comm (a := timeToWaitV10s)]
  · simp

/-! ### gNB-DU Configuration Update -/

/-- Fields in the ranges of TS 38.473. -/
structure F1apDuConfigurationUpdate.WellFormed (msg : F1apDuConfigurationUpdate) : Prop where
  cellToAdd : ∀ cell ∈ msg.cellToAdd, cell.info.WellFormed
  info : ∀ cell ∈ msg.cellToModify, cell.info.WellFormed
  oldPlmn : ∀ cell ∈ msg.cellToModify, cell.oldPlmn.Valid
  oldNrCellid : ∀ cell ∈ msg.cellToModify, cell.oldNrCellid < 2 ^ 36

/-- What is not lost of a gNB-DU Configuration Update. -/
structure F1apDuConfigurationUpdate.Kept (msg : F1apDuConfigurationUpdate) : Prop where
  cellToAdd : msg.cellToAdd = []
  cellToDelete : msg.cellToDelete = []
  gNBDuId : msg.gNBDuId = none
  cellToModify : ∀ cell ∈ msg.cellToModify, cell.oldNrCellid < 2 ^ 31 ∧ cell.info.Kept

theorem findIes_duConfigurationUpdateIes (msg : F1apDuConfigurationUpdate)
    (modify : List (ProtocolIE IeId ServedCellsToModifyItem)) :
    findIes (duConfigurationUpdateIes rt msg modify) [.transactionID] = true := by
  simp [findIes, duConfigurationUpdateIes]

/-- What is decoded from an update: a gNB-DU ID is written through a null pointer. -/
theorem decodeF1apDuConfigurationUpdate_eq {msg : F1apDuConfigurationUpdate}
    {modify : List (ProtocolIE IeId ServedCellsToModifyItem)}
    (hlen : modify.length = msg.cellToModify.length) :
    decodeF1apDuConfigurationUpdate rt (.initiatingMessage .gNBDUConfigurationUpdate .reject
        (.gNBDUConfigurationUpdate (duConfigurationUpdateIes rt msg modify))) =
      if msg.gNBDuId = none then
        (modify.mapM (decodeCellToModify {})).map fun cellToModify ↦
          { transactionId := msg.transactionId, cellToModify }
      else none := by
  rw [decodeF1apDuConfigurationUpdate, if_pos (findIes_duConfigurationUpdateIes msg modify)]
  simp only [duConfigurationUpdateIes, ← hlen, List.foldlM_append, List.foldlM_cons,
    List.foldlM_nil, decodeDuConfigurationUpdateIe, UInt64.toUInt64_toInt64, Option.bind_eq_bind,
    Option.bind_some, Option.pure_def]
  rcases modify with - | ⟨item, modify⟩
  · cases msg.gNBDuId <;> rfl
  · rw [← fillSlots_const]
    simp only [List.length_cons, Nat.zero_lt_succ, gt_iff_lt, if_true, List.foldlM_cons,
      List.foldlM_nil, decodeDuConfigurationUpdateIe, Option.bind_eq_bind, Option.pure_def]
    cases fillSlots decodeCellToModify 0 (item :: modify) fun _ ↦ {} with
    | none => cases msg.gNBDuId <;> rfl
    | some cells => cases msg.gNBDuId <;> rfl

/-- **gNB-DU Configuration Update.** -/
theorem lossless_duConfigurationUpdate_iff {msg : F1apDuConfigurationUpdate} (h : msg.WellFormed) :
    Lossless (encodeF1apDuConfigurationUpdate rt) (decodeF1apDuConfigurationUpdate rt) msg ↔
      msg.Kept := by
  have hcells : Lossless (mapM encodeCellToModify) (mapM (decodeCellToModify {}))
      msg.cellToModify ↔
        ∀ cell ∈ msg.cellToModify, cell.oldNrCellid < 2 ^ 31 ∧ cell.info.Kept := by
    rw [lossless_mapM_iff]
    exact forall₂_congr fun cell hcell ↦ lossless_cellToModify_iff (h.info cell hcell)
      (h.oldPlmn cell hcell) (h.oldNrCellid cell hcell)
  rw [lossless_iff]
  constructor
  · rintro ⟨pdu, henc, hdec⟩
    rw [encodeF1apDuConfigurationUpdate] at henc
    split at henc
    · cases henc
    · rename_i hadd
      obtain ⟨modify, hmodify, henc⟩ := bind_eq_some_iff.1 henc
      split at henc
      · cases henc
      · rename_i hdel
        rw [← some.inj henc,
          decodeF1apDuConfigurationUpdate_eq (length_of_mapM_eq_some hmodify)] at hdec
        split at hdec
        · rename_i hid
          obtain ⟨cells, hcell, heq⟩ := map_eq_some_iff.1 hdec
          rw [show cells = msg.cellToModify from
            congrArg F1apDuConfigurationUpdate.cellToModify heq] at hcell
          exact ⟨eq_nil_of_length_eq_zero (Nat.eq_zero_of_not_pos hadd),
            eq_nil_of_length_eq_zero (Nat.eq_zero_of_not_pos hdel), hid,
            hcells.1 (lossless_iff.2 ⟨modify, hmodify, hcell⟩)⟩
        · cases hdec
  · intro hkept
    obtain ⟨modify, hmodify, hcell⟩ := lossless_iff.1 (hcells.2 hkept.cellToModify)
    refine ⟨_, ?_, (decodeF1apDuConfigurationUpdate_eq
      (length_of_mapM_eq_some hmodify)).trans ?_⟩
    · rw [encodeF1apDuConfigurationUpdate, hkept.cellToAdd, hkept.cellToDelete, hmodify]
      rfl
    · rw [if_pos hkept.gNBDuId, hcell]
      obtain ⟨transactionId, add, modify, delete, id⟩ := msg
      obtain ⟨hadd, hdel, hid, -⟩ := hkept
      dsimp only at hadd hdel hid
      rw [hadd, hdel, hid]
      rfl

/-! ### The codec -/

/-- The messages of the interface management codec. -/
inductive F1Message
  | setupRequest (msg : F1apSetupReq)
  | setupResponse (msg : F1apSetupResp)
  | setupFailure (msg : F1apSetupFailure)
  | duConfigurationUpdate (msg : F1apDuConfigurationUpdate)

/-- Fields in the ranges of TS 38.473. -/
def F1Message.WellFormed : F1Message → Prop
  | setupRequest msg => msg.WellFormed
  | setupResponse msg => msg.WellFormed
  | setupFailure _ => True
  | duConfigurationUpdate msg => msg.WellFormed

/-- Decoding the PDU that was encoded succeeds, and gives the message in every field. -/
def F1Message.Recovered (rt : IntegerRuntime) : F1Message → Prop
  | setupRequest msg => Lossless (encodeF1apSetupRequest rt) (decodeF1apSetupRequest rt) msg
  | setupResponse msg => Lossless encodeF1apSetupResponse decodeF1apSetupResponse msg
  | setupFailure msg => Lossless encodeF1apSetupFailure decodeF1apSetupFailure msg
  | duConfigurationUpdate msg =>
    Lossless (encodeF1apDuConfigurationUpdate rt) (decodeF1apDuConfigurationUpdate rt) msg

/-- What the codec does not lose. -/
def F1Message.Kept : F1Message → Prop
  | setupRequest msg => msg.cell ≠ [] ∧ ∀ cell ∈ msg.cell, cell.info.Kept
  | setupResponse msg =>
    msg.cellsToActivate.length ≤ 1 ∧ ∀ cell ∈ msg.cellsToActivate, cell.Kept
  | setupFailure msg =>
    (msg.timeToWait = 0 ∨ msg.timeToWait = timeToWaitV10s) ∧ msg.criticalityDiagnostics = 0
  | duConfigurationUpdate msg => msg.Kept

/-- **What the codec recovers**, and nothing else. -/
theorem f1ap_lossless_iff (rt : IntegerRuntime) (m : F1Message) (h : m.WellFormed) :
    m.Recovered rt ↔ m.Kept := by
  cases m with
  | setupRequest msg => exact lossless_setupRequest_iff h
  | setupResponse msg => exact lossless_setupResponse_iff h
  | setupFailure msg => exact lossless_setupFailure_iff
  | duConfigurationUpdate msg => exact lossless_duConfigurationUpdate_iff h

/-- A runtime in which an `INTEGER` is the number that it stands for. -/
def plainRuntime : IntegerRuntime where
  asnInt642Integer x := x.toNat
  asnInteger2ulong _ value := .ofNat value.toNat
  round_trip {x} _ _ := by rw [Int.toNat_natCast, UInt64.ofNat_toNat]

/-- A cell to activate in PLMN 001.01. -/
def testCell : ServedCellToActivate where
  plmn := { mcc := 1, mnc := 1, mncDigitLength := 2 }
  nrCellid := 12345678
  nrpci := 0
  siMsg := []

/-- A response with the given cells. -/
def testResponse (cells : List ServedCellToActivate) : F1apSetupResp where
  transactionId := 0
  gNBCuName := none
  cellsToActivate := cells
  rrcVer := (12, 34, 56)

theorem testResponse_wellFormed
    (h : ∀ cell ∈ cells, cell = testCell) : (testResponse cells).WellFormed where
  transactionId := (by decide : (0 : UInt64).toNat < 256)
  plmn cell hcell := by
    rw [h cell hcell]
    exact ⟨by decide, by decide⟩
  nrCellid cell hcell := by
    rw [h cell hcell]
    decide
  siMsg cell hcell si hsi := by
    rw [h cell hcell] at hsi
    exact absurd hsi not_mem_nil

/-- A response that activates one cell is recovered. -/
theorem f1ap_one_cell_recovered :
    (F1Message.setupResponse (testResponse [testCell])).Recovered plainRuntime :=
  (f1ap_lossless_iff plainRuntime (.setupResponse (testResponse [testCell]))
    (testResponse_wellFormed fun _ hcell ↦ mem_singleton.1 hcell)).2
    ⟨Nat.le_refl 1, fun cell hcell ↦ by
      rw [mem_singleton.1 hcell]
      exact ⟨by decide, by decide⟩⟩

/-- **A response that activates two cells is not**: the second replaces the first. -/
theorem f1ap_two_cells_lost :
    (F1Message.setupResponse (testResponse [testCell, testCell])).WellFormed ∧
    ¬(F1Message.setupResponse (testResponse [testCell, testCell])).Recovered plainRuntime := by
  have hwf : (testResponse [testCell, testCell]).WellFormed := testResponse_wellFormed (by simp)
  refine ⟨hwf, fun hrec ↦ ?_⟩
  have hlen := ((lossless_setupResponse_iff hwf).1 hrec).1
  exact absurd hlen (by decide)

end OaiRan.F1ap
