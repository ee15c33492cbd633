import OaiRan.Lib.ByteOrder

/-!
# GTP-U messages

The datagrams of `gtp_itf.cpp`: how `gtpv1uCreateAndSendMsg` puts one together, and how the receiver
walks over the header and the chain of extension headers to the payload. The two are independent of
each other; that they agree on where the payload starts is `walk_of_container`.

The host is little-endian. The header is converted with `htons` and `htonl`, but **the sequence
number is stored as it is**.

`sendto` is assumed to do what UDP over IPv4 does: a datagram of at most 65507 bytes is sent whole,
and a longer one is refused.
-/

namespace OaiRan.Gtpu

open ByteOrder

/-! ### Header values -/

def gtpEchoReq : UInt8 := 1
def gtpEchoRsp : UInt8 := 2
def gtpEndMarker : UInt8 := 254
def gtpGpdu : UInt8 := 255

def noMoreExtHdrs : UInt8 := 0
def nrRanContainer : UInt8 := 0x84
def pduSessionContainer : UInt8 := 0x85

/-- The size of `Gtpv1uMsgHeaderT`. -/
def msgHeaderSize : ℕ := 8

/-- `HDR_MAX`: room for all headers. -/
def hdrMax : ℕ := 256

/-- The longest datagram: 65535 bytes with the headers of IPv4 and UDP. -/
def maxDatagram : ℕ := 65535 - 20 - 8

/-! ### Sending -/

/-- The first byte of `Gtpv1uMsgHeaderT`: `PN`, `S`, `E`, `spare`, `PT` and `version`. -/
def headerFlags (pn s e : Bool) : UInt8 :=
  .ofNat (pn.toNat + 2 * s.toNat + 4 * e.toNat + 8 * 0 + 16 * 1 + 32 * 1)

/-- The loop over the extension headers. It copies one and the same buffer until that ends with
`NO_MORE_EXT_HDRS`, and forever if it does not; it has written over its buffer before the fuel is
used up. -/
def copyExtensions (ext : List UInt8) : ℕ → UInt8 → Option (List UInt8)
  | 0, _ => none
  | fuel + 1, extHdrType =>
    if extHdrType = noMoreExtHdrs then some []
    else if h : ext ≠ [] then do
      let rest ← copyExtensions ext fuel (ext.getLast h)
      pure (ext ++ rest)
    else copyExtensions ext fuel extHdrType

/-- The optional fields, which are there if one of the flags is set. There is no `htons`: the low byte
of the sequence number comes first. -/
def optFields (seqNumFlag npduNumFlag : Bool) (seqNum : UInt16) (npduNum extHdrType : UInt8) :
    List UInt8 :=
  if seqNumFlag || extHdrType != noMoreExtHdrs || npduNumFlag then
    (beBytes 2 (if seqNumFlag then seqNum.toNat else 0)).reverse ++
      [if npduNumFlag then npduNum else 0, extHdrType]
  else []

/-- A message behind its `Gtpv1uMsgHeaderT`. -/
def framed (flags msgType : UInt8) (teid : UInt32) (body : List UInt8) : List UInt8 :=
  [flags, msgType] ++ beBytes 2 body.length ++ beBytes 4 teid.toNat ++ body

/-- What `gtpv1uCreateAndSendMsg` sends; `none` also where `sendto` fails and it returns `GTPNOK`. -/
def createMsg (msgType : UInt8) (teid : UInt32) (msg : List UInt8) (seqNumFlag npduNumFlag : Bool)
    (seqNum : UInt16) (npduNum extHdrType : UInt8) (ext : List UInt8) : Option (List UInt8) := do
  let exts ← copyExtensions ext hdrMax extHdrType
  let datagram := framed (headerFlags npduNumFlag seqNumFlag (extHdrType != noMoreExtHdrs)) msgType
    teid (optFields seqNumFlag npduNumFlag seqNum npduNum extHdrType ++ exts ++ msg)
  if datagram.length ≤ maxDatagram then some datagram else none

/-! ### Receiving -/

/-- `udpData`: the datagram, and behind it what was there before. -/
def udpData (stale : ℕ → UInt8) (datagram : List UInt8) (i : ℕ) : UInt8 :=
  datagram[i]?.getD (stale i)

section Header

variable (msgBuf : ℕ → UInt8)

def hdrPn : Bool := (msgBuf 0).toNat.testBit 0
def hdrS : Bool := (msgBuf 0).toNat.testBit 1
def hdrE : Bool := (msgBuf 0).toNat.testBit 2
def hdrPt : Bool := (msgBuf 0).toNat.testBit 4
def hdrVersion : ℕ := (msgBuf 0).toNat / 2 ^ 5
def hdrMsgType : UInt8 := msgBuf 1
def hdrMsgLength : ℕ := ofBeBytes [msgBuf 2, msgBuf 3]
def hdrTeid : UInt32 := .ofNat (ofBeBytes [msgBuf 4, msgBuf 5, msgBuf 6, msgBuf 7])

end Header

/-- What is found in the extension headers of a G-PDU. -/
structure Extensions where
  offset : ℕ
  qfi : Option UInt8
  rqi : Bool
  nrPdcpPduSn : ℕ
  deriving DecidableEq

/-- Why there is no payload. -/
inductive WalkError
  | malformed
  | hangs
  deriving DecidableEq

/-- `NR_PDCP_PDU_SN` in the NR RAN container at `offset`, if a delivery report is asked for. -/
def nrRanContainerSn (msgBuf : ℕ → UInt8) (offset nrPdcpPduSn : ℕ) : ℕ :=
  if (msgBuf (offset + 1)).toNat / 2 ^ 4 = 0 then
    let discard := if (msgBuf (offset + 1)).toNat.testBit 2 then 9 else 0
    let flush := if (msgBuf (offset + 1)).toNat.testBit 1 then 3 else 0
    let at' := offset + 6 + discard + flush
    if (msgBuf (offset + 2)).toNat.testBit 3 then
      ofBeBytes [msgBuf at', msgBuf (at' + 1), msgBuf (at' + 2)]
    else nrPdcpPduSn
  else nrPdcpPduSn

/-- The body of the `switch` over the extension header types. -/
def readExtension (msgBuf : ℕ → UInt8) (msgBufLen : ℕ) (extType : UInt8) (x : Extensions) :
    Except WalkError Extensions :=
  if extType = pduSessionContainer then
    if x.offset + 2 > msgBufLen then .error .malformed
    else .ok
      { x with
        qfi := some (.ofNat ((msgBuf (x.offset + 2)).toNat % 2 ^ 6))
        rqi := (msgBuf (x.offset + 2)).toNat.testBit 6 }
  else if extType = nrRanContainer then
    if x.offset + 1 > msgBufLen then .error .malformed
    else .ok { x with nrPdcpPduSn := nrRanContainerSn msgBuf x.offset x.nrPdcpPduSn }
  else .ok x

/-- The loop over the extension headers. A header of length zero is read again and again. -/
def walkExtensions (msgBuf : ℕ → UInt8) (msgBufLen : ℕ) :
    ℕ → UInt8 → Extensions → Except WalkError Extensions
  | 0, _, _ => .error .hangs
  | fuel + 1, extType, x =>
    if extType = noMoreExtHdrs then .ok x
    else do
      let y ← readExtension msgBuf msgBufLen extType x
      let offset := x.offset + (msgBuf x.offset).toNat * 4
      if offset > msgBufLen then .error .malformed
      else walkExtensions msgBuf msgBufLen fuel (msgBuf (offset - 1)) { y with offset }

/-- The headers of a G-PDU. Every turn of the loop but a hanging one moves on. -/
def readHeaders (msgBuf : ℕ → UInt8) (msgBufLen : ℕ) : Except WalkError Extensions :=
  let opt := hdrE msgBuf || hdrS msgBuf || hdrPn msgBuf
  let x : Extensions :=
    { offset := msgHeaderSize + if opt then 4 else 0, qfi := none, rqi := false, nrPdcpPduSn := 0 }
  if hdrE msgBuf then
    walkExtensions msgBuf msgBufLen (msgBufLen + 1) (msgBuf (x.offset - 1)) x
  else .ok x

end OaiRan.Gtpu
