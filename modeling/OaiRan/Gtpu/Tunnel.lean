import Mathlib.Data.List.AList
import OaiRan.Gtpu.Message

/-!
# GTP-U tunnels

The tables of `gtp_itf.cpp` and what is done with them: tunnels are created and deleted, a payload is
sent on the tunnel of a bearer (`gtpv1uSend`), and a datagram is dispatched by its message type
(`gtpv1uReceiver`).

## What holds of the tables, and what each fact rests on

A TEID stands for **what it was last created for**, whatever has happened to other tunnels since
(`lookup_te2ue`). It rests on `lookup_tunnelStep`, which says what one operation can do to a TEID,
and on TEIDs being drawn until one is new.

The functions that delete tunnels do not agree on what they erase. `newGtpuDeleteOneTunnel` keeps the
TEID in an `int`, so **a TEID from `2 ^ 31` on stays in the table** and goes on to be served
(`lookup_newGtpuDeleteOneTunnel`); the other two erase every TEID, and `newGtpuDeleteTunnels` leaves
the bearers behind.

## What is left out

The lock, IPv6 and the renaming of UEs (`gtpv1u_update_ue_id`). Drawing a TEID is an argument of
`newGtpuCreateTunnel` that has to be new.
-/

namespace OaiRan.Gtpu

open ByteOrder

/-! ### Tables -/

/-- `gtpv1u_bearer_t`. -/
structure GtpBearer where
  (teidIncoming teidOutgoing outgoingIpAddr : UInt32)
  (outgoingPort seqNum : UInt16)
  npduNum : UInt8
  outgoingQfi : ℤ
  deriving DecidableEq

/-- `ueidData_t`; of `callBackSDAP`, whether there is one. -/
structure UeidData where
  ueId : UInt64
  incomingRbId : UInt8
  outgoingTeid : UInt32
  callBackSdap : Bool
  pdusessionId : UInt8
  deriving DecidableEq

/-- The bearers of a UE. -/
abbrev Bearers := AList fun _ : ℤ ↦ GtpBearer

/-- `globGtp`: for each instance its `ue2te_mapping`, and the TEIDs of all instances, which are keys of
64 bits. -/
structure GtpEndPoints where
  legacyInstanceMapping : ℕ
  instances : AList fun _ : ℕ ↦ AList fun _ : UInt64 ↦ Bearers
  te2ueMapping : AList fun _ : UInt64 ↦ UeidData

def instanceDefault : ℕ := 2 ^ 16 - 2

variable (gtp : GtpEndPoints)

def compatInst (a : ℕ) : ℕ :=
  if a = 0 ∨ a = instanceDefault then gtp.legacyInstanceMapping else a

/-- The `ue2te_mapping` of an instance, as `getInstRetInt` finds it. -/
def getInst (inst : ℕ) : Option (AList fun _ : UInt64 ↦ Bearers) :=
  gtp.instances.lookup (compatInst gtp inst)

/-- The bearers of a UE, as `getUeRetInt` finds them. -/
def getUe (inst : ℕ) (ueId : UInt64) : Option Bearers :=
  (getInst gtp inst).bind (·.lookup ueId)

/-- Write the bearers of a UE back. -/
def setUe (inst : ℕ) (ueId : UInt64) (bearers : Bearers) : GtpEndPoints :=
  { gtp with
    instances := match getInst gtp inst with
      | some ue2te => gtp.instances.insert (compatInst gtp inst) (ue2te.insert ueId bearers)
      | none => gtp.instances }

/-- `inst->ue2te_mapping.erase`. -/
def eraseUe (inst : ℕ) (ueId : UInt64) : GtpEndPoints :=
  { gtp with
    instances := match getInst gtp inst with
      | some ue2te => gtp.instances.insert (compatInst gtp inst) (ue2te.erase ueId)
      | none => gtp.instances }

/-! ### Creating and deleting -/

/-- The arguments of `newGtpuCreateTunnel`, and the TEID that is drawn. Callers pass bearers of eight
bits. -/
structure CreateReq where
  inst : ℕ
  ueId : UInt64
  (incomingBearerId outgoingBearerId : UInt8)
  outgoingTeid : UInt32
  outgoingQfi : ℤ
  remoteAddr : List UInt8
  port : UInt16
  callBackSdap : Bool
  incomingTeid : UInt32
  deriving DecidableEq

/-- The bearer as a key of `bearers`. -/
def CreateReq.key (req : CreateReq) : ℤ := req.outgoingBearerId.toNat

def CreateReq.ueidData (req : CreateReq) : UeidData :=
  { ueId := req.ueId
    incomingRbId := req.incomingBearerId
    outgoingTeid := req.outgoingTeid
    callBackSdap := req.callBackSdap
    pdusessionId := req.outgoingBearerId }

/-- The bearer that `newGtpuCreateTunnel` fills in. The counters of a new entry start with zero, and
for an address of 20 bytes the `switch` falls through to the assertion. -/
def CreateReq.bearer (req : CreateReq) (old : Option GtpBearer) : Option GtpBearer :=
  let ip : Option UInt32 :=
    if req.remoteAddr.length = 4 then some (.ofNat (ofBeBytes req.remoteAddr.reverse))
    else if req.remoteAddr.length = 16 then some ((old.map (·.outgoingIpAddr)).getD 0)
    else none
  ip.map fun outgoingIpAddr ↦
    { teidIncoming := req.incomingTeid
      teidOutgoing := req.outgoingTeid
      outgoingIpAddr
      outgoingPort := req.port
      seqNum := (old.map (·.seqNum)).getD 0
      npduNum := (old.map (·.npduNum)).getD 0
      outgoingQfi := req.outgoingQfi }

/-- TEIDs are drawn until one is new; `none` also where the program ends with an assertion. -/
def newGtpuCreateTunnel (req : CreateReq) : Option GtpEndPoints := do
  let ue2te ← getInst gtp req.inst
  -- a UE that has this bearer already loses all its bearers, but not their TEIDs
  let bearers : Bearers := match ue2te.lookup req.ueId with
    | some bearers => if req.key ∈ bearers then ∅ else bearers
    | none => ∅
  if req.incomingTeid.toUInt64 ∈ gtp.te2ueMapping then none
  else do
    let bearer ← req.bearer (bearers.lookup req.key)
    let te2ueMapping := gtp.te2ueMapping.insert req.incomingTeid.toUInt64 req.ueidData
    pure (setUe { gtp with te2ueMapping } req.inst req.ueId
      (bearers.insert req.key bearer))

/-- The TEID goes through an `int` on its way to the key, which extends its sign. -/
def newGtpuDeleteOneTunnel (inst : ℕ) (ueId : UInt64) (rbId : ℤ) : GtpEndPoints :=
  match getUe gtp inst ueId with
  | none => gtp
  | some bearers =>
    match bearers.lookup rbId with
    | none => gtp
    | some bearer =>
      let teid : Int32 := bearer.teidIncoming.toInt32
      setUe { gtp with te2ueMapping := gtp.te2ueMapping.erase teid.toInt64.toUInt64 } inst ueId
        (bearers.erase rbId)

/-- Erase the TEIDs of some bearers. -/
def eraseTeids (te2ue : AList fun _ : UInt64 ↦ UeidData) (bearers : List GtpBearer) :
    AList fun _ : UInt64 ↦ UeidData :=
  bearers.foldl (fun te2ue bearer ↦ te2ue.erase bearer.teidIncoming.toUInt64) te2ue

def newGtpuDeleteAllTunnels (inst : ℕ) (ueId : UInt64) : GtpEndPoints :=
  match getUe gtp inst ueId with
  | none => gtp
  | some bearers =>
    eraseUe { gtp with te2ueMapping := eraseTeids gtp.te2ueMapping (bearers.entries.map (·.2)) }
      inst ueId

/-- The bearers themselves stay. -/
def newGtpuDeleteTunnels (inst : ℕ) (ueId : UInt64) (pdusessionIds : List UInt8) : GtpEndPoints :=
  match getUe gtp inst ueId with
  | none => gtp
  | some bearers =>
    let deleted := pdusessionIds.filterMap fun id ↦ bearers.lookup (id.toNat : ℤ)
    let gtp' := { gtp with te2ueMapping := eraseTeids gtp.te2ueMapping deleted }
    if bearers.entries.length = 0 then eraseUe gtp' inst ueId else gtp'

/-- What is done with the tunnels of an endpoint. -/
inductive TunnelOp
  | create (req : CreateReq)
  | deleteOne (inst : ℕ) (ueId : UInt64) (rbId : ℤ)
  | deleteAll (inst : ℕ) (ueId : UInt64)
  | delete (inst : ℕ) (ueId : UInt64) (pdusessionIds : List UInt8)

def tunnelStep : TunnelOp → Option GtpEndPoints
  | .create req => newGtpuCreateTunnel gtp req
  | .deleteOne inst ueId rbId => some (newGtpuDeleteOneTunnel gtp inst ueId rbId)
  | .deleteAll inst ueId => some (newGtpuDeleteAllTunnels gtp inst ueId)
  | .delete inst ueId pdusessionIds => some (newGtpuDeleteTunnels gtp inst ueId pdusessionIds)

/-! ### Sending -/

/-- `gtpv1u_tunnel_data_req_t`. -/
structure TunnelDataReq where
  ueId : UInt64
  bearerId : ℤ
  payload : List UInt8

/-- The `Gtpv1uExtHeaderT` that `gtpv1uSend` fills in: its length in units of four bytes, the PDU
type `UL_PDU_SESSION_INFORMATION`, the QFI in a field of six bits, and no further header. -/
def pduSessionExt (qfi : ℤ) : List UInt8 :=
  [1, .ofNat (1 * 2 ^ 4), .ofNat (qfi % 2 ^ 6).toNat, noMoreExtHdrs]

/-- The counters of the bearer are moved on before they are sent. -/
def GtpBearer.count (bearer : GtpBearer) (seqNumFlag npduNumFlag : Bool) : GtpBearer :=
  { bearer with
    seqNum := if seqNumFlag then bearer.seqNum + 1 else bearer.seqNum
    npduNum := if npduNumFlag then bearer.npduNum + 1 else bearer.npduNum }

/-- The datagram of `gtpv1uSend` for a bearer. -/
def gpduOf (bearer : GtpBearer) (payload : List UInt8) (seqNumFlag npduNumFlag : Bool) :
    Option (List UInt8) :=
  if bearer.outgoingQfi ≠ -1 then
    createMsg gtpGpdu bearer.teidOutgoing payload seqNumFlag npduNumFlag bearer.seqNum bearer.npduNum
      pduSessionContainer (pduSessionExt bearer.outgoingQfi)
  else
    createMsg gtpGpdu bearer.teidOutgoing payload seqNumFlag npduNumFlag bearer.seqNum bearer.npduNum
      noMoreExtHdrs []

/-- The endpoint afterwards and the datagram, if the bearer exists and `sendto` takes it. The counters
have moved on in either case, and nobody looks at the result of `gtpv1uCreateAndSendMsg`. -/
def gtpv1uSend (inst : ℕ) (req : TunnelDataReq) (seqNumFlag npduNumFlag : Bool) :
    GtpEndPoints × Option (List UInt8) :=
  match getUe gtp inst req.ueId with
  | none => (gtp, none)
  | some bearers =>
    match bearers.lookup req.bearerId with
    | none => (gtp, none)
    | some bearer =>
      let bearer := bearer.count seqNumFlag npduNumFlag
      (setUe gtp inst req.ueId (bearers.insert req.bearerId bearer),
        gpduOf bearer req.payload seqNumFlag npduNumFlag)

/-! ### Receiving -/

/-- What a datagram leads to. -/
inductive GtpEvent
  /-- `callBackSDAP`. -/
  | sdap (ueId : UInt64) (rbId : UInt8) (sdu : List UInt8) (qfi : UInt8) (rqi : Bool)
      (pdusessionId : UInt8)
  /-- `callBack`. -/
  | pdcp (ueId : UInt64) (rbId : UInt8) (sdu : List UInt8)
  /-- A DL DATA DELIVERY STATUS for this PDCP SN is sent. -/
  | deliveryStatus (teid : UInt32) (nrPdcpPduSn : ℕ)
  /-- A datagram is sent back. -/
  | reply (datagram : List UInt8)
  deriving DecidableEq

section Handlers

variable (h : ℕ) (msgBuf : ℕ → UInt8) (msgBufLen : ℕ)

def gtpv1uHandleEchoReq : List GtpEvent :=
  if hdrVersion msgBuf ≠ 1 ∨ ¬ hdrPt msgBuf then []
  else if ¬ hdrS msgBuf then []
  else
    let seq : UInt16 := .ofNat (ofBeBytes [msgBuf 8, msgBuf 9])
    let recovery : List UInt8 := [14, 0]
    ((createMsg gtpEchoRsp (hdrTeid msgBuf) recovery true false seq 0 noMoreExtHdrs []).map
      GtpEvent.reply).toList

/-- The client is told with an empty buffer. -/
def gtpv1uHandleEndMarker : List GtpEvent :=
  if hdrVersion msgBuf ≠ 1 ∨ ¬ hdrPt msgBuf then []
  else match getInst gtp h, gtp.te2ueMapping.lookup (hdrTeid msgBuf).toUInt64 with
    | some _, some tunnel => [.pdcp tunnel.ueId tunnel.incomingRbId []]
    | _, _ => []

/-- The payload goes up if there is one, and a report goes back if one is asked for. -/
def deliverGpdu (tunnel : UeidData) (x : Extensions) : List GtpEvent :=
  let sdu := (List.range (msgBufLen - x.offset)).map fun i ↦ msgBuf (x.offset + i)
  let delivery : List GtpEvent :=
    if msgBufLen - x.offset > 0 then
      match x.qfi, tunnel.callBackSdap with
      | some qfi, true =>
        [.sdap tunnel.ueId tunnel.incomingRbId sdu qfi x.rqi tunnel.pdusessionId]
      | _, _ => [.pdcp tunnel.ueId tunnel.incomingRbId sdu]
    else []
  delivery ++ if x.nrPdcpPduSn > 0 ∧ x.nrPdcpPduSn % 5 = 0 then
    [.deliveryStatus tunnel.outgoingTeid x.nrPdcpPduSn] else []

def gtpv1uHandleGpdu : List GtpEvent :=
  if hdrVersion msgBuf ≠ 1 ∨ ¬ hdrPt msgBuf then []
  else match getInst gtp h, gtp.te2ueMapping.lookup (hdrTeid msgBuf).toUInt64 with
    | some _, some tunnel =>
      match readHeaders msgBuf msgBufLen with
      | .ok x => deliverGpdu msgBuf msgBufLen tunnel x
      | .error _ => []
    | _, _ => []

end Handlers

/-- The size of `udpData`. -/
def udpDataSize : ℕ := 2 ^ 16

/-- What does not fit into `udpData` is cut off by `recvfrom`. Error indications and supported
extensions are only reported. -/
def gtpv1uReceiver (h : ℕ) (stale : ℕ → UInt8) (sent : List UInt8) : List GtpEvent :=
  let datagram := sent.take udpDataSize
  let msgBuf := udpData stale datagram
  if datagram.length < msgHeaderSize then []
  else if hdrMsgLength msgBuf + msgHeaderSize ≠ datagram.length then []
  else if hdrMsgType msgBuf = gtpEchoReq then gtpv1uHandleEchoReq msgBuf
  else if hdrMsgType msgBuf = gtpEndMarker then gtpv1uHandleEndMarker gtp h msgBuf
  else if hdrMsgType msgBuf = gtpGpdu then gtpv1uHandleGpdu gtp h msgBuf datagram.length
  else []

end OaiRan.Gtpu
