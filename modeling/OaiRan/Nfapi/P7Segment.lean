import OaiRan.Lib.ByteOrder
import OaiRan.Lib.InFlight

/-!
# P7 segments

A P7 message that is longer than the segment size of its sender is sent in segments, each with a copy
of the header, and put together by the peer (`vnf_p7.c`, `pnf_p7.c`). The VNF and the PNF have their
own copies of both halves; they differ in the size of the transmit buffer, in the time stamps that
only the VNF writes, in the reassembly queue, of which the VNF has one for each PHY, and in the times
at which stale messages are removed.

The peer counts the bytes of a message **with 16 bits**, both for the size of the buffer and for the
offset of a segment. A copy that goes past the end of the buffer is undefined, here `none`.
-/

namespace OaiRan.Nfapi

open ByteOrder InFlight

/-- The two ends of the P7 interface. -/
inductive P7Node
  | vnf
  | pnf
  deriving DecidableEq

/-- The one that sends to a node. -/
def P7Node.peer : P7Node → P7Node
  | .vnf => .pnf
  | .pnf => .vnf

/-! ### The header -/

def nrP7HeaderLength : ℕ := 18

/-- `nfapi_nr_p7_message_header_t`. -/
structure NrP7Header where
  (phyId messageId : UInt16)
  messageLength : UInt32
  mSegmentSequence : UInt16
  (checksum transmitTimestamp : UInt32)

/-- The header as it is packed. -/
def NrP7Header.toBytes (h : NrP7Header) : List UInt8 :=
  beBytes 2 h.phyId.toNat ++ beBytes 2 h.messageId.toNat ++ beBytes 4 h.messageLength.toNat ++
    beBytes 2 h.mSegmentSequence.toNat ++ beBytes 4 h.checksum.toNat ++
    beBytes 4 h.transmitTimestamp.toNat

def nrP7MessageHeaderUnpack (msg : List UInt8) : Option NrP7Header :=
  if msg.length < nrP7HeaderLength then none
  else some
    { phyId := .ofNat (ofBeBytes (msg.take 2))
      messageId := .ofNat (ofBeBytes ((msg.drop 2).take 2))
      messageLength := .ofNat (ofBeBytes ((msg.drop 4).take 4))
      mSegmentSequence := .ofNat (ofBeBytes ((msg.drop 8).take 2))
      checksum := .ofNat (ofBeBytes ((msg.drop 10).take 4))
      transmitTimestamp := .ofNat (ofBeBytes ((msg.drop 14).take 4)) }

def p7GetMore (mss : UInt16) : Bool := mss.toNat / 2 ^ 15 ≠ 0

def p7GetSegment (mss : UInt16) : ℕ := mss.toNat / 2 ^ 8 % 2 ^ 7

def p7GetSequence (mss : UInt16) : UInt8 := .ofNat (mss.toNat % 2 ^ 8)

/-- `NFAPI_P7_SET_MSS`, **whose fields are not where the other macros look**: four bits of sequence
number, three of segment number and one more for M. -/
def p7SetMss (more segm sequ : ℕ) : UInt16 :=
  .ofNat (more % 2 * 2 ^ 7 + segm % 2 ^ 3 * 2 ^ 4 + sequ % 2 ^ 4)

/-- Bytes of a buffer are replaced. -/
def overwrite (buffer : List UInt8) (offset : ℕ) (bytes : List UInt8) : List UInt8 :=
  buffer.take offset ++ bytes ++ buffer.drop (offset + bytes.length)

section Checksum

variable (crc32 : UInt32 → List UInt8 → UInt32)

/-- `nfapi_nr_calculate_checksum`; the CRC of a buffer on top of another is a parameter. The length is
passed with 16 bits. -/
def nrCalculateChecksum (buffer : List UInt8) (len : ℕ) : UInt32 :=
  let chksum := crc32 0 (buffer.take 10)
  let chksum := crc32 chksum [0, 0, 0, 0]
  let chksum := crc32 chksum ((buffer.drop nrP7HeaderLength).take (len % 2 ^ 16 - nrP7HeaderLength))
  ~~~chksum

def nrP7UpdateChecksum (buffer : List UInt8) (len : ℕ) : List UInt8 :=
  overwrite buffer 10 (beBytes 4 (nrCalculateChecksum crc32 buffer len).toNat)

end Checksum

def nrP7UpdateTransmitTimestamp (buffer : List UInt8) (timestamp : UInt32) : List UInt8 :=
  overwrite buffer 14 (beBytes 4 timestamp.toNat)

/-! ### Sending -/

/-- `segment_size` of a node and `checksum_enabled`, which is the same at both. -/
structure P7Config where
  segmentSize : ℕ
  checksumEnabled : Bool
  header_lt : nrP7HeaderLength < segmentSize
  lt : segmentSize < 2 ^ 16

/-- A message; what follows the header is packed already. -/
structure NrP7Message where
  (phyId messageId : UInt16)
  transmitTimestamp : UInt32
  body : List UInt8

/-- The buffer that a message is packed into. -/
def P7Node.txBufferSize : P7Node → ℕ
  | .vnf => 1024 * 1024 * 3
  | .pnf => 32768

/-- The header of a packed message. -/
def NrP7Message.header (msg : NrP7Message) (mSegmentSequence : UInt16) : NrP7Header :=
  { phyId := msg.phyId
    messageId := msg.messageId
    messageLength := .ofNat (nrP7HeaderLength + msg.body.length)
    mSegmentSequence
    checksum := 0
    transmitTimestamp := msg.transmitTimestamp }

def nrP7MessagePack (msg : NrP7Message) (mSegmentSequence : UInt16) (packedBufLen : ℕ) :
    Option (List UInt8) :=
  if nrP7HeaderLength + msg.body.length ≤ packedBufLen then
    some ((msg.header mSegmentSequence).toBytes ++ msg.body)
  else none

section Send

variable (sender : P7Node) (cfg : P7Config) (crc32 : UInt32 → List UInt8 → UInt32)
  (timestamp : ℕ → UInt32)

/-- The VNF stamps its buffer, **after** the header has been copied into the segment. -/
def stamp (buffer : List UInt8) (segment : ℕ) : List UInt8 :=
  match sender with
  | .vnf => nrP7UpdateTransmitTimestamp buffer (timestamp segment)
  | .pnf => buffer

/-- `n` more turns of the loop over the segments. -/
def sendSegments (msgBodyLen segBodyLen segmentCount : ℕ) :
    (n segment offset : ℕ) → (buffer : List UInt8) → List (List UInt8)
  | 0, _, _, _ => []
  | n + 1, segment, offset, buffer =>
    let last : Bool := segment + 1 = segmentCount
    let size := (if last then msgBodyLen - segBodyLen * segment
      else cfg.segmentSize - nrP7HeaderLength) % 2 ^ 16
    let segmentSize := size + nrP7HeaderLength
    let header := (((buffer.take nrP7HeaderLength).set 6 (.ofNat (segmentSize / 2 ^ 8))).set 7
      (.ofNat segmentSize)).set 8 (.ofNat ((!last).toNat * 2 ^ 7 + segment))
    let txBuffer := header ++ (buffer.drop offset).take size
    let txBuffer :=
      if cfg.checksumEnabled then nrP7UpdateChecksum crc32 txBuffer segmentSize else txBuffer
    txBuffer :: sendSegments msgBodyLen segBodyLen segmentCount n (segment + 1) (offset + size)
      (stamp sender timestamp buffer segment)

/-- `vnf_nr_p7_pack_and_send_p7_msg` and `pnf_nr_p7_pack_and_send_p7_message`: the datagrams. -/
def nrP7PackAndSend (sequenceNumber : UInt32) (msg : NrP7Message) : Option (List (List UInt8)) :=
  (nrP7MessagePack msg (p7SetMss 0 0 sequenceNumber.toNat) sender.txBufferSize).map fun buffer ↦
    let len := buffer.length
    if len > cfg.segmentSize then
      let msgBodyLen := len - nrP7HeaderLength
      let segBodyLen := cfg.segmentSize - nrP7HeaderLength
      let segmentCount := msgBodyLen / segBodyLen + if msgBodyLen % segBodyLen ≠ 0 then 1 else 0
      sendSegments sender cfg crc32 timestamp msgBodyLen segBodyLen segmentCount segmentCount 0
        nrP7HeaderLength buffer
    else
      let buffer := if cfg.checksumEnabled then nrP7UpdateChecksum crc32 buffer len else buffer
      [stamp sender timestamp buffer 0]

end Send

/-! ### Reassembly -/

/-- `pnf_p7_rx_message_t`; a segment that has not arrived is empty. -/
structure RxMessage where
  (sequenceNumber numSegmentsReceived numSegmentsExpected : UInt8)
  segments : ℕ → List UInt8
  rxHrTime : UInt32

/-- A reassembly queue and its buffer; the null pointer is the empty buffer. -/
structure P7Rx where
  msgQueue : List RxMessage
  reassemblyBuffer : List UInt8

/-- The queue of messages before anything arrives. -/
def P7Rx.init : P7Rx := { msgQueue := [], reassemblyBuffer := [] }

/-- A segment is stored in its message. -/
def RxMessage.store (msg : RxMessage) (segmentNumber : ℕ) (m : Bool) (data : List UInt8) :
    RxMessage :=
  { msg with
    segments := Function.update msg.segments segmentNumber data
    numSegmentsReceived := msg.numSegmentsReceived + 1
    numSegmentsExpected := if m then msg.numSegmentsExpected else .ofNat (segmentNumber + 1) }

def rxReassemblyQueueAddSegment (queue : List RxMessage) (rxHrTime : UInt32)
    (sequenceNumber : UInt8) (segmentNumber : ℕ) (m : Bool) (data : List UInt8) :
    List RxMessage × RxMessage :=
  let data := data.take (data.length % 2 ^ 16)
  match queue.find? (·.sequenceNumber = sequenceNumber) with
  | some msg =>
    (updateFirst (·.sequenceNumber = sequenceNumber) (·.store segmentNumber m data) queue,
      msg.store segmentNumber m data)
  | none =>
    let msg : RxMessage :=
      { sequenceNumber
        numSegmentsReceived := 1
        numSegmentsExpected := if m then 255 else .ofNat (segmentNumber + 1)
        segments := Function.update (fun _ ↦ []) segmentNumber data
        rxHrTime }
    (msg :: queue, msg)

def rxReassemblyQueueRemoveMsg (queue : List RxMessage) (msg : RxMessage) : List RxMessage :=
  queue.eraseP (·.sequenceNumber = msg.sequenceNumber)

/-- Received more than 1000 ticks ago, modulo 2³². -/
def stale (now rxHrTime : UInt32) : Bool := now - rxHrTime > 1000

def rxReassemblyQueueRemoveOldMsgs (queue : List RxMessage) (now : UInt32) : List RxMessage :=
  queue.filter fun msg ↦ !stale now msg.rxHrTime

/-- `memcpy` into the reassembly buffer. -/
def copyAt (buffer : List UInt8) (offset : ℕ) (data : List UInt8) : Option (List UInt8) :=
  if offset + data.length ≤ buffer.length then some (overwrite buffer offset data) else none

/-- The length of a message of which all segments have arrived, with 16 bits. -/
def RxMessage.length (msg : RxMessage) : UInt16 :=
  (List.range msg.numSegmentsExpected.toNat).foldl
    (fun length i ↦ length + (.ofNat (msg.segments i).length - if i > 0 then 18 else 0)) 0

/-- One turn of the loop that fills the buffer, with the offset. -/
def copySegment (msg : RxMessage) (state : List UInt8 × UInt16) (i : ℕ) :
    Option (List UInt8 × UInt16) :=
  let (buffer, offset) := state
  let segment := msg.segments i
  if i = 0 then
    (copyAt buffer 0 segment).map fun buffer ↦ (buffer, offset + .ofNat segment.length)
  else if segment.length < nrP7HeaderLength then none
  else
    let data := segment.drop nrP7HeaderLength
    (copyAt buffer offset.toNat data).map fun buffer ↦ (buffer, offset + .ofNat data.length)

/-- The buffer afterwards and the message. -/
def reassemble (buffer : List UInt8) (msg : RxMessage) : Option (List UInt8 × List UInt8) :=
  let length := msg.length.toNat
  let buffer := if buffer.length < length then List.replicate length 0 else buffer
  ((List.range msg.numSegmentsExpected.toNat).foldlM (copySegment msg) (buffer, 0)).map
    fun (buffer, _) ↦ (buffer, buffer.take length)

/-- A segment arrives: the queue afterwards and what is dispatched. -/
def handleSegment (rx : P7Rx) (rxHrTime : UInt32) (sequenceNumber : UInt8) (segmentNumber : ℕ)
    (m : Bool) (data : List UInt8) : Option (P7Rx × List (List UInt8)) :=
  let (msgQueue, rxMsg) :=
    rxReassemblyQueueAddSegment rx.msgQueue rxHrTime sequenceNumber segmentNumber m data
  if rxMsg.numSegmentsReceived = rxMsg.numSegmentsExpected then
    (reassemble rx.reassemblyBuffer rxMsg).map fun (reassemblyBuffer, message) ↦
      ({ msgQueue := rxReassemblyQueueRemoveMsg msgQueue rxMsg, reassemblyBuffer }, [message])
  else some ({ rx with msgQueue }, [])

/-! ### A node -/

/-- The reassembly queues. The PNF has one, the VNF one for each PHY that is connected. -/
structure P7Rxs where
  queues : UInt16 → Option P7Rx

/-- The queue that a message of a PHY goes through. -/
def P7Node.queueOf : P7Node → UInt16 → UInt16
  | .pnf, _ => 0
  | .vnf, phyId => phyId

def P7Rxs.set (rxs : P7Rxs) (q : UInt16) (rx : P7Rx) : P7Rxs :=
  { queues := Function.update rxs.queues q (some rx) }

/-- Stale messages of a queue are removed. -/
def P7Rxs.removeOldMsgs (rxs : P7Rxs) (q : UInt16) (now : UInt32) : P7Rxs :=
  match rxs.queues q with
  | none => rxs
  | some rx =>
    rxs.set q { rx with msgQueue := rxReassemblyQueueRemoveOldMsgs rx.msgQueue now }

/-- The clock when a datagram is handled. The VNF reads it twice. -/
structure P7Clock where
  (rxHrTime now : UInt32)

/-- The time at which a node removes stale messages. -/
def P7Node.removalTime : P7Node → P7Clock → UInt32
  | .pnf, clock => clock.rxHrTime
  | .vnf, clock => clock.now

section Handle

variable (node : P7Node) (checksumEnabled : Bool) (crc32 : UInt32 → List UInt8 → UInt32)

/-- `pnf_nr_handle_p7_message` and `vnf_nr_handle_p7_message`: the queues afterwards and what is
dispatched. -/
def nrHandleP7Message (rxs : P7Rxs) (clock : P7Clock) (msg : List UInt8) :
    Option (P7Rxs × List (List UInt8)) :=
  match nrP7MessageHeaderUnpack msg with
  | none => some (rxs, [])
  | some header =>
    if checksumEnabled ∧ nrCalculateChecksum crc32 msg msg.length ≠ header.checksum then
      some (rxs, [])
    else
      let m := p7GetMore header.mSegmentSequence
      let segmentNum := p7GetSegment header.mSegmentSequence
      let q := node.queueOf header.phyId
      if !m ∧ segmentNum = 0 then
        -- only the PNF removes stale messages here
        match node with
        | .pnf => some (rxs.removeOldMsgs q (node.removalTime clock), [msg])
        | .vnf => some (rxs, [msg])
      else
        match rxs.queues q with
        | none => some (rxs, [])
        | some rx =>
          (handleSegment rx clock.rxHrTime (p7GetSequence header.mSegmentSequence) segmentNum m
            msg).map fun (rx, dispatched) ↦
              ((rxs.set q rx).removeOldMsgs q (node.removalTime clock), dispatched)

end Handle

end OaiRan.Nfapi
