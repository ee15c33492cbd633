import OaiRan.Rlc.Am.Control
import OaiRan.Rlc.Am.Status

/-!
# The acknowledged-mode entity: PDUs out, SDUs in, timers

`generate_pdu` with its three sources (status, retransmission, transmission), `recv_sdu`,
`set_time`, `discard_sdu` and re-establishment, and with them the entity's entry points. `none` is
a failed assertion or a pointer that the source follows although it is `NULL` or freed.
-/

namespace OaiRan.Rlc.Am

variable (c : AmConfig)

/-! ### The wait list -/

/-- Order is by `sn`; if `sn` is the same then order is by `so`. -/
def nrRlcTxSduSegmentListAdd (s : AmTx) (list : List NrRlcSduSegment) (g : NrRlcSduSegment) :
    List NrRlcSduSegment :=
  OrderedChain.insertBefore
    (fun cur ↦ snCompareTx c s (s.heap.sn cur) (s.heap.sn g) > 0 ||
      (s.heap.sn cur == s.heap.sn g && cur.so > g.so)) g list

/-- The list up to the segment at the address `a`; `none` if there is no such segment. -/
def cutAfter (a : ℕ) : List NrRlcSduSegment → Option (List NrRlcSduSegment)
  | [] => none
  | g :: l => if g.ptr = a then some [g] else (cutAfter a l).map (g :: ·)

/-- `nr_rlc_sdu_segment_list_append` with `wait_end`. The new segment is linked behind `wait_end`,
and whatever came after is no longer in the list. -/
def appendWait (s : AmTx) (g : NrRlcSduSegment) : Option AmTx :=
  if s.waitList = [] then some { s with waitList := [g], waitEnd := some g.ptr }
  else
    match s.waitEnd with
    | none => none
    | some a =>
      match cutAfter a s.waitList, cutAfter a s.retransmitList with
      | some l, _ => some { s with waitList := l ++ [g], waitEnd := some g.ptr }
      | none, some l => some { s with retransmitList := l ++ [g], waitEnd := some g.ptr }
      | none, none => none

/-- The segment that `wait_end` points to. -/
def waitEndSegment (s : AmTx) (a : ℕ) : Option NrRlcSduSegment :=
  (s.waitList ++ s.retransmitList).find? fun g ↦ g.ptr == a

/-- The segment comes after `wait_end`. -/
def afterWaitEnd (s : AmTx) (e g : NrRlcSduSegment) : Bool :=
  let cmp := snCompareTx c s (s.heap.sn g) (s.heap.sn e)
  cmp > 0 || (cmp == 0 && g.so > e.so)

/-- Insert into the wait list; `wait_end` is only set if the segment is alone there. -/
def insertWait (s : AmTx) (g : NrRlcSduSegment) : AmTx :=
  let waitList := nrRlcTxSduSegmentListAdd c s s.waitList g
  { s with
    waitList := waitList
    waitEnd := match waitList with
      | [h] => some h.ptr
      | _ => s.waitEnd }

/-- Put the segment in the wait list. -/
def putWait (s : AmTx) (g : NrRlcSduSegment) : Option AmTx :=
  match s.waitEnd with
  | none => appendWait s g
  | some a =>
    match waitEndSegment s a with
    | none => none
    | some e => if afterWaitEnd c s e g then appendWait s g else some (insertWait c s g)

/-! ### Polling -/

/-- We are stalling if `tx_next` is not `tx_next_ack <= tx_next < tx_next_ack + window_size`. -/
def isWindowStalling (s : AmTx) : Bool :=
  !(snCompareTx c s s.txNextAck s.txNext ≤ 0 &&
    snCompareTx c s s.txNext ((s.txNextAck + c.windowSize) % c.snModulus) < 0)

def checkPollAfterPduAssembly (s : AmTx) : Bool :=
  (s.txList.isEmpty && s.retransmitList.isEmpty) || isWindowStalling c s

/-- What including a poll does to the state; `poll_sn` is the highest SN submitted. -/
def includePoll (tCurrent : UInt64) (s : AmTx) : AmTx :=
  { s with
    pduWithoutPoll := 0
    byteWithoutPoll := 0
    pollSn := snBefore c s.txNext
    tPollRetransmitStart := tCurrent }

/-! ### PDUs -/

/-- The reserved bits that come before an 18-bit SN. -/
def serializeReserved (e : NrRlcPduEncoder) : Option NrRlcPduEncoder :=
  if c.snFieldLength = 18 then nrRlcPduEncoderPutBits e 0 2 else some e

/-- The header bits, in the order they are put; `none` if the buffer is full. -/
def serializeHeader (h : SduHeap) (g : NrRlcSduSegment) (size : ℤ) : Option NrRlcPduEncoder := do
  let e := nrRlcPduEncoderInit (List.replicate size.toNat 0)
  let e ← nrRlcPduEncoderPutBits e 1 1
  let e ← nrRlcPduEncoderPutBits e 0 1
  let e ← nrRlcPduEncoderPutBits e (1 - g.isFirst.toNat) 1
  let e ← nrRlcPduEncoderPutBits e (1 - g.isLast.toNat) 1
  let e ← serializeReserved c e
  let e ← nrRlcPduEncoderPutBits e (h.sn g).toNat c.snFieldLength
  if g.isFirst then some e else nrRlcPduEncoderPutBits e g.so.toNat 16

/-- The PDU: the header, then the bytes of the segment; with a poll, the P bit is set to 1 at the
end. -/
def serializeSdu (h : SduHeap) (g : NrRlcSduSegment) (size : ℤ) (p : Bool) :
    Option (List UInt8) :=
  (serializeHeader c h g size).map fun e ↦
    let pdu := e.buffer.take e.byte ++ h.bytes g
    if p then pdu.modify 0 fun x ↦ x ||| 0x40 else pdu

/-- Resize a segment so that its PDU fits into `pduSize` bytes: the segment and the rest of it. -/
def resegment (h : SduHeap) (g : NrRlcSduSegment) (pduSize : ℤ) :
    SduHeap × NrRlcSduSegment × NrRlcSduSegment :=
  let h := h.update g.sdu fun s ↦ { s with refCount := s.refCount + 1 }
  let overSize := computePduHeaderSize c g + g.size - pduSize
  let first := { g with size := g.size - overSize, isLast := false }
  let next := { g with ptr := h.brk, size := overSize, so := g.so + first.size, isFirst := false }
  ({ h with brk := h.brk + 1 }, first, next)

/-- Segment if necessary. -/
def fitSegment (h : SduHeap) (g : NrRlcSduSegment) (size : ℤ) :
    SduHeap × NrRlcSduSegment × Option NrRlcSduSegment :=
  if computePduHeaderSize c g + g.size > size then
    let (h, first, next) := resegment c h g size
    (h, first, some next)
  else (h, g, none)

/-- The size that a segment counts in the buffer status. -/
def bstatusSize (l : List NrRlcSduSegment) : ℤ :=
  (l.map fun g ↦ computePduHeaderSize c g + g.size).sum

/-- The end of `generate_retx_pdu` and `generate_tx_pdu`: the poll bit, and the PDU. -/
def emitPdu (tCurrent : UInt64) (s : AmTx) (g : NrRlcSduSegment) (size : ℤ) (p : Bool) :
    Option (AmTx × List UInt8) :=
  let p := p || s.forcePoll
  let s := { s with forcePoll := false }
  (serializeSdu c s.heap g size p).map fun pdu ↦
    (if p then includePoll c tCurrent s else s, pdu)

/-- The head of the retransmit list is taken, cut to `size` and put in the wait list. -/
def takeRetransmit (s : AmTx) (g : NrRlcSduSegment) (rest : List NrRlcSduSegment) (size : ℤ) :
    Option (AmTx × NrRlcSduSegment) :=
  let (heap, first, next) := fitSegment c s.heap g size
  let s := { s with
    heap := heap
    retransmitList := next.toList ++ rest
    bstatusRetxSize := s.bstatusRetxSize - (computePduHeaderSize c g + g.size) +
      bstatusSize c next.toList }
  (putWait c s first).map fun s ↦ (s, first)

def generateRetxPdu (tCurrent : UInt64) (s : AmTx) (size : ℤ) : Option (AmTx × List UInt8) :=
  match s.retransmitList with
  | [] => some (s, [])
  | g :: rest =>
    -- not enough room for at least one byte of data? do nothing
    if computePduHeaderSize c g + 1 > size then some (s, [])
    else (takeRetransmit c s g rest size).bind fun (s, first) ↦
      emitPdu c tCurrent s first size (checkPollAfterPduAssembly c s)

/-- Assign an SN to the SDU, if it has none. -/
def assignSn (s : AmTx) (g : NrRlcSduSegment) : AmTx :=
  if s.heap.sn g = -1 then
    { s with
      heap := s.heap.update g.sdu fun u ↦ { u with sn := s.txNext }
      txNext := (s.txNext + 1) % c.snModulus }
  else s

/-- The head of the TX list is taken, cut to `size` and put in the wait list. -/
def takeTx (s : AmTx) (g : NrRlcSduSegment) (rest : List NrRlcSduSegment) (size : ℤ) :
    Option (AmTx × NrRlcSduSegment) :=
  let s := assignSn c s g
  let (heap, first, next) := fitSegment c s.heap g size
  let s := { s with
    heap := heap
    txList := next.toList ++ rest
    bstatusTxSize := s.bstatusTxSize - (computePduHeaderSize c g + g.size) +
      bstatusSize c next.toList }
  (putWait c s first).map fun s ↦ (s, first)

/-- Polling actions for a new PDU. -/
def countWithoutPoll (s : AmTx) (g : NrRlcSduSegment) : AmTx :=
  { s with
    pduWithoutPoll := s.pduWithoutPoll + 1
    byteWithoutPoll := s.byteWithoutPoll + g.size }

def pollDue (s : AmTx) : Bool :=
  (c.pollPdu != -1 && s.pduWithoutPoll ≥ c.pollPdu) ||
    (c.pollByte != -1 && s.byteWithoutPoll ≥ c.pollByte) || checkPollAfterPduAssembly c s

def generateTxPdu (tCurrent : UInt64) (s : AmTx) (size : ℤ) : Option (AmTx × List UInt8) :=
  -- sn out of window (that is: we have window stalling)? do nothing
  if isWindowStalling c s then some (s, [])
  else
    match s.txList with
    | [] => some (s, [])
    | g :: rest =>
      -- not enough room for at least one byte of data? do nothing
      if computePduHeaderSize c g + 1 > size then some (s, [])
      else (takeTx c s g rest size).bind fun (s, first) ↦
        let s := countWithoutPoll s first
        emitPdu c tCurrent s first size (pollDue c s)

/-- Retransmissions go first. -/
def generateDataPdu (tCurrent : UInt64) (s : AmTx) (size : ℤ) : Option (AmTx × List UInt8) :=
  match generateRetxPdu c tCurrent s size with
  | none => none
  | some (s, []) => generateTxPdu c tCurrent s size
  | some (s, pdu) => some (s, pdu)

/-! ### The entity -/

namespace NrRlcEntityAm

def recvPdu (e : NrRlcEntityAm) (buffer : List UInt8) : NrRlcEntityAm :=
  match decodePdu c buffer with
  | .discard p => { e with rx := triggerStatus e.rx p }
  | .control => { e with tx := processControlPdu c e.tx buffer }
  | .segment p pdu => { e with rx := recvDataPdu c e.tCurrent e.rx p pdu }

/-- The PDU, empty where the source returns 0. -/
def generatePdu (e : NrRlcEntityAm) (size : ℤ) : Option (NrRlcEntityAm × List UInt8) :=
  let data := (generateDataPdu c e.tCurrent e.tx size).map fun (tx, pdu) ↦
    ({ e with tx := tx }, pdu)
  if statusToReport c e.tCurrent e.rx then
    match generateStatus c e.tCurrent e.rx size with
    | none => none
    | some (_, []) => data
    | some (rx, pdu) => some ({ e with rx := rx }, pdu)
  else data

/-- `recv_sdu` takes the SDU: it does not make the buffer too big. -/
def acceptsSdu (e : NrRlcEntityAm) (buffer : List UInt8) : Bool :=
  e.tx.txSize + buffer.length ≤ c.txMaxsize

/-- Append a new SDU to the TX list. -/
def addSdu (s : AmTx) (buffer : List UInt8) (sduId : ℤ) : AmTx :=
  let (heap, g) := nrRlcNewSdu s.heap buffer sduId
  { s with
    heap := heap
    txSize := s.txSize + buffer.length
    txList := s.txList ++ [g]
    bstatusTxSize := s.bstatusTxSize + (computePduHeaderSize c g + g.size) }

/-- `none` is the failed assertion on an SDU that is too big. -/
def recvSdu (e : NrRlcEntityAm) (buffer : List UInt8) (sduId : ℤ) : Option NrRlcEntityAm :=
  if (buffer.length : ℤ) > nrSduMax then none
  else
    let e :=
      if e.sduRejected ≠ 0 ∧ e.tCurrent > e.tLogBufferFull + 1000 then
        { e with sduRejected := 0, tLogBufferFull := e.tCurrent }
      else e
    if e.acceptsSdu c buffer then some { e with tx := addSdu c e.tx buffer sduId }
    else some { e with sduRejected := e.sduRejected + 1 }

/-- `t_poll_retransmit` is running and has expired. -/
def tPollRetransmitExpired (tCurrent : UInt64) (s : AmTx) : Bool :=
  !(s.tPollRetransmitStart == 0 ||
    tCurrent ≤ s.tPollRetransmitStart + UInt64.ofInt c.tPollRetransmit)

/-- Move a segment that has left the wait list to the retransmit list. -/
def moveToRetransmit (s : AmTx) (g : NrRlcSduSegment) : AmTx :=
  { s with
    retransmitList := nrRlcTxSduSegmentListAdd c s s.retransmitList g
    bstatusRetxSize := s.bstatusRetxSize + (computePduHeaderSize c g + g.size) }

/-- Retransmit all the segments of the SDU at the head of the wait list. -/
def retransmitHead (s : AmTx) (g : NrRlcSduSegment) (rest : List NrRlcSduSegment) : AmTx :=
  let heap := s.heap.update g.sdu fun u ↦ { u with retxCount := u.retxCount + 1 }
  let same (h : NrRlcSduSegment) : Bool := heap.sn h == heap.sn g
  let waitList := rest.dropWhile same
  let s := { s with
    heap := heap
    waitList := waitList
    waitEnd := if waitList = [] then none else s.waitEnd
    maxRetxReached :=
      if (heap.cell g.sdu).retxCount ≥ c.maxRetxThreshold then s.maxRetxReached + 1
      else s.maxRetxReached }
  (g :: rest.takeWhile same).foldl (moveToRetransmit c) s

/-- 38.322 5.3.3.4. The source does not check that the wait list has a head. -/
def checkTPollRetransmit (tCurrent : UInt64) (s : AmTx) : Option AmTx :=
  if !tPollRetransmitExpired c tCurrent s then some s
  else
    let s := { s with tPollRetransmitStart := 0, forcePoll := true }
    if !checkPollAfterPduAssembly c s then some s
    else
      match s.waitList with
      | [] => none
      | g :: rest => some (retransmitHead c s g rest)

def setTime (e : NrRlcEntityAm) (now : UInt64) : Option NrRlcEntityAm :=
  (checkTPollRetransmit c now e.tx).map fun tx ↦
    { e with tCurrent := now, tx := tx, rx := checkTReassembly c now e.rx }

/-- Implements 38.322 5.4: if the SDU is not found or some bytes have already been 'PDU-ized' then
do nothing. -/
def discardSdu (e : NrRlcEntityAm) (sduId : ℤ) : NrRlcEntityAm :=
  let other (g : NrRlcSduSegment) : Bool := (e.tx.heap.cell g.sdu).upperLayerId != sduId
  match e.tx.txList.dropWhile other with
  | [] => e
  | g :: rest =>
    if !g.isFirst || !g.isLast then e
    else { e with tx := { e.tx with
      txList := e.tx.txList.takeWhile other ++ rest
      bstatusTxSize := e.tx.bstatusTxSize - (computePduHeaderSize c g + g.size)
      txSize := e.tx.txSize - (e.tx.heap.cell g.sdu).size
      heap := (nrRlcFreeSduSegment e.tx.heap g).1 } }

/-- `clear_entity`: the calls made so far are all that is left. -/
def reestablishment (e : NrRlcEntityAm) : NrRlcEntityAm where
  rx := { delivered := e.rx.delivered, reassembled := e.rx.reassembled }
  tx :=
    { heap := (e.tx.txList ++ e.tx.waitList ++ e.tx.retransmitList).foldl
        (fun h g ↦ (nrRlcFreeSduSegment h g).1) e.tx.heap
      acked := e.tx.acked
      maxRetxReached := e.tx.maxRetxReached }

end NrRlcEntityAm

end OaiRan.Rlc.Am
