import Mathlib.Data.Fin.Basic

/-!
# SDAP entities

The SDAP entity of a PDU session (`nr_sdap_entity.c`): its table of mapping rules from QoS flows to
DRBs, the transmitting and the receiving side, and the configuration by RRC (`add_drb`,
`nr_reconfigure_sdap_entity`, `nr_pdcp_release_drb`).

Whether a PDU gets a header is stored **per QoS flow** in the table of the sender, next to the DRB of
the rule. The PDCP entity of the receiver knows it **per DRB**. Only RRC's own mapping writes both;
the default DRB, reflective mapping and the release of a rule change the DRB and leave the flag as it
is.
-/

namespace OaiRan.Sdap

open Function

/-- A QoS flow identifier. -/
abbrev Qfi := Fin 64

/-- `qfi2drb_t`; DRB 0 is `SDAP_NO_MAPPING_RULE`. -/
structure Qfi2Drb where
  drbId : ℕ
  (hasSdapRx hasSdapTx : Bool)
  deriving DecidableEq

/-- `nr_sdap_entity_t`. -/
structure SdapEntity where
  defaultDrb : ℕ
  qfi2drbTable : Qfi → Qfi2Drb

/-- The entity that `calloc` returns. -/
def SdapEntity.empty : SdapEntity :=
  { defaultDrb := 0, qfi2drbTable := fun _ ↦ { drbId := 0, hasSdapRx := false, hasSdapTx := false } }

def avlblDrb : ℕ := 5

/-! ### Mapping rules -/

def qfi2drbMapUpdate (entity : SdapEntity) (qfi : Qfi) (drb : ℕ) (hasSdapRx hasSdapTx : Bool) :
    SdapEntity :=
  if 0 < qfi ∧ 0 < drb ∧ drb ≤ avlblDrb then
    { entity with
      qfi2drbTable :=
        update entity.qfi2drbTable qfi { drbId := drb, hasSdapRx, hasSdapTx } }
  else entity

/-- The flags of the rule stay. -/
def qfi2drbMapDel (entity : SdapEntity) (qfi : Qfi) : SdapEntity :=
  { entity with
    qfi2drbTable :=
      update entity.qfi2drbTable qfi { entity.qfi2drbTable qfi with drbId := 0 } }

/-- The DRB of a flow, 0 if there is none. A flow without a rule is mapped to the default DRB **with
the flags that happen to be in the table**. -/
def qfi2drbMap (entity : SdapEntity) (qfi : Qfi) : SdapEntity × ℕ :=
  let rule := entity.qfi2drbTable qfi
  if rule.drbId ≠ 0 then (entity, rule.drbId)
  else if entity.defaultDrb ≠ 0 then
    (qfi2drbMapUpdate entity qfi entity.defaultDrb rule.hasSdapRx rule.hasSdapTx, entity.defaultDrb)
  else (entity, 0)

/-! ### Sending -/

/-- The byte of `nr_sdap_dl_hdr_t` and `nr_sdap_ul_hdr_t`: six bits of QFI, then RQI and RDI on the
downlink, R and D/C on the uplink. -/
def sdapHdr (qfi : Qfi) (bit6 bit7 : Bool) : UInt8 :=
  .ofNat (qfi.val + 64 * bit6.toNat + 128 * bit7.toNat)

/-- `SDAP_MAX_PDU` without the header. -/
def maxSdu : ℕ := 8999

/-- The entity afterwards, and the PDU with the DRB that it is submitted to. The last argument of
`tx_entity` is the RQI at the gNB and the D/C bit at the UE. -/
def nrSdapTxEntity (isGnb : Bool) (entity : SdapEntity) (rbId : ℕ) (sdu : List UInt8) (qfi : Qfi)
    (rqi : Bool) : SdapEntity × Option (ℕ × List UInt8) :=
  let (entity, pdcpEntity) := qfi2drbMap entity qfi
  let (drb, hasSdap) :=
    if pdcpEntity ≠ 0 then (pdcpEntity, (entity.qfi2drbTable qfi).hasSdapTx) else (rbId, false)
  if !hasSdap then (entity, some (drb, sdu))
  else if sdu.length = 0 ∨ sdu.length > maxSdu then (entity, none)
  else
    let hdr := if isGnb then sdapHdr qfi rqi false else sdapHdr qfi false rqi
    (entity, some (drb, hdr :: sdu))

/-! ### Receiving -/

/-- `nr_sdap_construct_ctrl_pdu`: the end marker of a flow, whose D/C bit is 0. -/
def ctrlPdu (qfi : Qfi) : List UInt8 := [sdapHdr qfi false false]

/-- `nr_sdap_submit_ctrl_pdu`: nothing is sent to DRB 0. -/
def submitCtrlPdu (drb : ℕ) (qfi : Qfi) : List (ℕ × List UInt8) :=
  if drb ≠ 0 then [(drb, ctrlPdu qfi)] else []

/-- The length of the SDAP header of a DRB. -/
def sdapHdrLength (hasSdap : Bool) : ℕ := if hasSdap then 1 else 0

/-- What the gNB pushes to GTP-U; **the D/C bit is looked at for the log only**. -/
def rxGnb (hasSdapRx : Bool) (buf : List UInt8) : List UInt8 := buf.drop (sdapHdrLength hasSdapRx)

/-- Reflective mapping of a flow to the DRB on which it has arrived, with the end markers that it
gives rise to. -/
def reflectiveMapping (entity : SdapEntity) (pdcpEntity : ℕ) (qfi : Qfi) :
    SdapEntity × List (ℕ × List UInt8) :=
  let toDefault :=
    if (entity.qfi2drbTable qfi).drbId = 0 ∧ entity.defaultDrb ≠ 0 then
      submitCtrlPdu entity.defaultDrb qfi else []
  let (entity, toRule) :=
    if pdcpEntity ≠ (entity.qfi2drbTable qfi).drbId then
      let (entity, drb) := qfi2drbMap entity qfi
      (entity, submitCtrlPdu drb qfi)
    else (entity, [])
  ({ entity with
      qfi2drbTable :=
        update entity.qfi2drbTable qfi { entity.qfi2drbTable qfi with drbId := pdcpEntity } },
    toDefault ++ toRule)

/-- The QFI in a header. -/
def hdrQfi (hdr : UInt8) : Qfi := Fin.ofNat 64 hdr.toNat

/-- The entity of the UE afterwards, what goes to the upper layer, and the end markers. -/
def rxUe (entity : SdapEntity) (pdcpEntity : ℕ) (hasSdapRx : Bool) (buf : List UInt8) :
    SdapEntity × List UInt8 × List (ℕ × List UInt8) :=
  let hdr := buf.headD 0
  let (entity, controls) :=
    if hasSdapRx ∧ hdr.toNat.testBit 7 then reflectiveMapping entity pdcpEntity (hdrQfi hdr)
    else (entity, [])
  (entity, buf.drop (sdapHdrLength hasSdapRx), controls)

/-! ### Configuration -/

/-- An entry of `drb_ToAddModList` **that does not end the program**: PDCP has five DRBs and calls
`exit` for any other (`nr_pdcp_ue_add_drb_pdcp_entity`), and `add_drb` reads through
`mappedQoS_FlowsToAdd`, which has to be there with an element. The QFIs are those found at
`mappedQoS_FlowsToAdd->list.array[0]`, which the code takes for an array of values. A DRB with an EPS
bearer, which has no SDAP configuration, is left out. -/
structure DrbConfig where
  (drbId pduSession : ℕ)
  (sdapHeaderUl sdapHeaderDl defaultDrb : Bool)
  mappedQfis : List Qfi
  drbId_pos : 0 < drbId
  drbId_le : drbId ≤ avlblDrb
  mapped : mappedQfis ≠ []

def isSdapRx (isGnb : Bool) (cfg : DrbConfig) : Bool :=
  if isGnb then cfg.sdapHeaderUl else cfg.sdapHeaderDl

def isSdapTx (isGnb : Bool) (cfg : DrbConfig) : Bool :=
  if isGnb then cfg.sdapHeaderDl else cfg.sdapHeaderUl

/-- The body of the loop in `nr_sdap_ue_qfi2drb_config`. -/
def ueQfi2drbConfigOne (entity : SdapEntity) (qfi : Qfi) (drb : ℕ) (hasSdapRx hasSdapTx : Bool) :
    SdapEntity × List (ℕ × List UInt8) :=
  let toDefault :=
    if entity.defaultDrb ≠ 0 ∧ (entity.qfi2drbTable qfi).drbId = 0 then
      submitCtrlPdu entity.defaultDrb qfi else []
  let (entity, toRule) :=
    if (entity.qfi2drbTable qfi).drbId ≠ drb ∧ (entity.qfi2drbTable qfi).hasSdapTx then
      let (entity, ruleDrb) := qfi2drbMap entity qfi
      (entity, submitCtrlPdu ruleDrb qfi)
    else (entity, [])
  (qfi2drbMapUpdate entity qfi drb hasSdapRx hasSdapTx, toDefault ++ toRule)

def ueQfi2drbConfig (drb : ℕ) (hasSdapRx hasSdapTx : Bool) :
    SdapEntity → List Qfi → SdapEntity × List (ℕ × List UInt8)
  | entity, [] => (entity, [])
  | entity, qfi :: qfis =>
    let (entity, controls) := ueQfi2drbConfigOne entity qfi drb hasSdapRx hasSdapTx
    let (entity, rest) := ueQfi2drbConfig drb hasSdapRx hasSdapTx entity qfis
    (entity, controls ++ rest)

/-- Of an entity that exists already only the UE updates the rules. A new one gets rules if it has a
default DRB. -/
def newNrSdapEntity (isGnb : Bool) (existing : Option SdapEntity) (cfg : DrbConfig) :
    SdapEntity × List (ℕ × List UInt8) :=
  let hasSdapRx := isSdapRx isGnb cfg
  let hasSdapTx := isSdapTx isGnb cfg
  match existing with
  | some entity =>
    if isGnb then (entity, [])
    else ueQfi2drbConfig cfg.drbId hasSdapRx hasSdapTx entity cfg.mappedQfis
  | none =>
    if cfg.defaultDrb then
      (cfg.mappedQfis.foldl
        (fun entity qfi ↦ qfi2drbMapUpdate entity qfi cfg.drbId hasSdapRx hasSdapTx)
        { SdapEntity.empty with defaultDrb := cfg.drbId }, [])
    else (SdapEntity.empty, [])

/-- The rules of a released DRB are deleted. -/
def nrSdapReleaseDrb (entity : SdapEntity) (drb : ℕ) : SdapEntity :=
  { entity with
    qfi2drbTable := fun qfi ↦
      if (entity.qfi2drbTable qfi).drbId = drb then { entity.qfi2drbTable qfi with drbId := 0 }
      else entity.qfi2drbTable qfi }

/-- `nr_reconfigure_sdap_entity`, which only the UE has. -/
def nrReconfigureSdapEntity (entity : SdapEntity) (cfg : DrbConfig) (toRelease : List Qfi) :
    SdapEntity × List (ℕ × List UInt8) :=
  let (entity, controls) :=
    ueQfi2drbConfig cfg.drbId (isSdapRx false cfg) (isSdapTx false cfg) entity cfg.mappedQfis
  (toRelease.foldl qfi2drbMapDel entity, controls)

/-! ### One end of the radio link -/

/-- What SDAP needs of a PDCP entity. -/
structure PdcpDrb where
  pduSession : ℕ
  (hasSdapRx hasSdapTx : Bool)
  deriving DecidableEq

/-- The DRBs of the UE and the SDAP entities of its PDU sessions, at the gNB or at the UE. -/
structure SdapSide where
  drbs : ℕ → Option PdcpDrb
  entities : ℕ → Option SdapEntity

def SdapSide.init : SdapSide := { drbs := fun _ ↦ none, entities := fun _ ↦ none }

def SdapSide.setEntity (side : SdapSide) (pduSession : ℕ) (entity : SdapEntity) : SdapSide :=
  { side with entities := update side.entities pduSession (some entity) }

/-- A DRB that exists is left alone. -/
def addDrb (isGnb : Bool) (side : SdapSide) (cfg : DrbConfig) : SdapSide × List (ℕ × List UInt8) :=
  if (side.drbs cfg.drbId).isSome then (side, [])
  else
    let drb : PdcpDrb :=
      { pduSession := cfg.pduSession
        hasSdapRx := isSdapRx isGnb cfg
        hasSdapTx := isSdapTx isGnb cfg }
    let (entity, controls) := newNrSdapEntity isGnb (side.entities cfg.pduSession) cfg
    ({ side with drbs := update side.drbs cfg.drbId (some drb) }.setEntity cfg.pduSession
      entity, controls)

def reconfigureDrb (side : SdapSide) (cfg : DrbConfig) (toRelease : List Qfi) :
    SdapSide × List (ℕ × List UInt8) :=
  match side.entities cfg.pduSession with
  | none => (side, [])
  | some entity =>
    let (entity, controls) := nrReconfigureSdapEntity entity cfg toRelease
    (side.setEntity cfg.pduSession entity, controls)

/-- `nr_pdcp_release_drb`. -/
def releaseDrb (side : SdapSide) (drb : ℕ) : SdapSide :=
  match side.drbs drb with
  | none => side
  | some pdcp =>
    let entities := match side.entities pdcp.pduSession with
      | none => side.entities
      | some entity => update side.entities pdcp.pduSession (some (nrSdapReleaseDrb entity drb))
    { drbs := update side.drbs drb none, entities }

/-- `sdap_data_req`: PDCP takes the PDU if it has the DRB. -/
def sdapDataReq (isGnb : Bool) (side : SdapSide) (pduSession rbId : ℕ) (sdu : List UInt8) (qfi : Qfi)
    (rqi : Bool) : SdapSide × Option (ℕ × List UInt8) :=
  match side.entities pduSession with
  | none => (side, none)
  | some entity =>
    let (entity, submitted) := nrSdapTxEntity isGnb entity rbId sdu qfi rqi
    (side.setEntity pduSession entity, submitted.filter fun p ↦ (side.drbs p.1).isSome)

/-- PDCP drops a PDU without a byte behind the SDAP header (`nr_pdcp_entity_recv_pdu`). -/
def tooShort (pdcp : PdcpDrb) (pdu : List UInt8) : Bool :=
  pdu.length < sdapHdrLength pdcp.hasSdapRx + 1

/-- A PDU arrives at the gNB: what is pushed to GTP-U. -/
def gnbDataInd (gnb : SdapSide) (drb : ℕ) (pdu : List UInt8) : List (List UInt8) :=
  match gnb.drbs drb with
  | none => []
  | some pdcp =>
    if tooShort pdcp pdu then []
    else if (gnb.entities pdcp.pduSession).isSome then [rxGnb pdcp.hasSdapRx pdu] else []

/-- A PDU arrives at the UE: the UE afterwards, what goes up, and the end markers. -/
def ueDataInd (ue : SdapSide) (drb : ℕ) (pdu : List UInt8) :
    SdapSide × List (List UInt8) × List (ℕ × List UInt8) :=
  match ue.drbs drb with
  | none => (ue, [], [])
  | some pdcp =>
    if tooShort pdcp pdu then (ue, [], [])
    else match ue.entities pdcp.pduSession with
      | none => (ue, [], [])
      | some entity =>
        let (entity, sdu, controls) := rxUe entity drb pdcp.hasSdapRx pdu
        (ue.setEntity pdcp.pduSession entity, [sdu], controls)

end OaiRan.Sdap
