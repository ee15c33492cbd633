import OaiRan.Rlc.Sdu
import OaiRan.Rlc.Reassembly
import OaiRan.Lib.StepSystem

/-!
# The unacknowledged-mode entity

`nr_rlc_entity_um.c`. The entity's record is split into the receiving part (`UmRx`), the
transmitting part (`UmTx`) and the clock they share; the parameters that only creation sets are a
record of their own (`UmConfig`). Calls to the upper layer are kept in the receiving part:
`delivered` is what was passed to `deliver_sdu`, oldest first, and `reassembled` the SN and the
cells of every run of `reassemble_and_deliver`. Statistics are left out; nothing reads them.

`generatePdu` returns the PDU, empty where the source returns 0. `tx_end` is always the last cell
of `tx_list`, so appending there is appending to the list.
-/

namespace OaiRan.Rlc.Um

/-- The fields of the entity that `new_nr_rlc_entity_um` sets and no operation changes. -/
structure UmConfig where
  (rxMaxsize txMaxsize tReassembly : ℤ)
  snFieldLength : ℕ
  (snModulus windowSize : ℤ)

/-- The parameters of `new_nr_rlc_entity_um`, with what it asserts of them. -/
structure UmParams where
  (rxMaxsize txMaxsize tReassembly : ℤ)
  snFieldLength : ℕ
  snFieldLength_eq : snFieldLength = 6 ∨ snFieldLength = 12

def UmParams.config (p : UmParams) : UmConfig where
  rxMaxsize := p.rxMaxsize
  txMaxsize := p.txMaxsize
  tReassembly := p.tReassembly
  snFieldLength := p.snFieldLength
  snModulus := 1 <<< p.snFieldLength
  windowSize := (1 <<< p.snFieldLength) / 2

theorem UmParams.snModulus_eq (p : UmParams) : p.config.snModulus = 2 ^ p.config.snFieldLength := by
  rcases p.snFieldLength_eq with h | h <;> simp [UmParams.config, h]

structure UmRx where
  rxNextHighest : ℤ := 0
  rxNextReassembly : ℤ := 0
  rxTimerTrigger : ℤ := 0
  tReassemblyStart : UInt64 := 0
  rxList : List NrRlcPdu := []
  rxSize : ℤ := 0
  delivered : List (List (Option UInt8)) := []
  reassembled : List (ℤ × List NrRlcPdu) := []

structure UmTx where
  txNext : ℤ := 0
  txList : List NrRlcSduSegment := []
  txSize : ℤ := 0
  bstatusTxSize : ℤ := 0
  heap : SduHeap := .empty

structure NrRlcEntityUm where
  rx : UmRx := {}
  tx : UmTx := {}
  tCurrent : UInt64 := 0
  tLogBufferFull : UInt64 := 0
  sduRejected : ℤ := 0

variable (c : UmConfig)

/-- For a given SDU/SDU segment, the corresponding PDU header size. -/
def computePduHeaderSize (g : NrRlcSduSegment) : ℤ :=
  1 + (if !(g.isFirst && g.isLast) && c.snFieldLength == 12 then 1 else 0) +
    (if !g.isFirst then 2 else 0)

variable {c} in
/-- No header has more than four bytes. -/
theorem computePduHeaderSize_le_four (g : NrRlcSduSegment) : computePduHeaderSize c g ≤ 4 := by
  rw [computePduHeaderSize]
  split <;> split <;> omega

/-! ### PDU RX functions -/

/-- As per 38.322 7.1, the modulus base is `rx_next_highest - window_size`. -/
def modulusRx (s : UmRx) (a : ℤ) : ℤ :=
  let r := a - (s.rxNextHighest - c.windowSize)
  (if r < 0 then r + c.snModulus else r) % c.snModulus

def snCompareRx (s : UmRx) (a b : ℤ) : ℤ := modulusRx c s a - modulusRx c s b

/-- The cells of `sn` lose their data and their size. -/
def reassembleAndDeliver (s : UmRx) (sn : ℤ) : UmRx :=
  let segments := snRun sn s.rxList
  { s with
    rxList := mapSnRun (fun p ↦ { p with data := none, size := 0 }) sn s.rxList
    rxSize := s.rxSize - (segments.map NrRlcPdu.size).sum
    delivered := s.delivered ++ (reassemble segments).delivered.toList
    reassembled := s.reassembled ++ [(sn, segments)] }

/-- The SDU is full: reassemble it and move `rx_next_reassembly` past what is delivered. -/
def actionsSduFull (s : UmRx) (x : ℤ) : UmRx :=
  let s := reassembleAndDeliver s x
  if x = s.rxNextReassembly then
    { s with
      rxNextReassembly :=
        skipDelivered c.snModulus s.rxList c.snModulus.toNat s.rxNextReassembly }
  else s

/-- The cell is outside of the reassembly window. -/
def outOfWindow (s : UmRx) (p : NrRlcPdu) : Bool := snCompareRx c s p.sn s.rxNextHighest ≥ 0

/-- Move the reassembly window up to `x`, dropping the PDUs that fall out of it. -/
def moveWindow (s : UmRx) (x : ℤ) : UmRx :=
  let s := { s with rxNextHighest := (x + 1) % c.snModulus }
  { s with
    rxSize := s.rxSize - ((s.rxList.takeWhile (outOfWindow c s)).map NrRlcPdu.size).sum
    rxList := s.rxList.dropWhile (outOfWindow c s) }

/-- The SDU is not full: if `x` is above the reassembly window then move the window. -/
def actionsSduNotFull (s : UmRx) (x : ℤ) : UmRx :=
  if snCompareRx c s x s.rxNextHighest ≥ 0 then
    let s := moveWindow c s x
    if snCompareRx c s s.rxNextReassembly s.rxNextHighest ≥ 0 then
      { s with
        rxNextReassembly := skipDelivered c.snModulus s.rxList c.snModulus.toNat
          ((s.rxNextHighest - c.windowSize + c.snModulus) % c.snModulus) }
    else s
  else s

/-- Stop `t_reassembly` if it has become useless. -/
def stopTReassembly (s : UmRx) : UmRx :=
  if s.tReassemblyStart ≠ 0 ∧
      (snCompareRx c s s.rxTimerTrigger s.rxNextReassembly ≤ 0 ∨
        snCompareRx c s s.rxTimerTrigger s.rxNextHighest > 0 ∨
        (s.rxNextHighest = (s.rxNextReassembly + 1) % c.snModulus ∧
          !sduHasMissingBytes s.rxList s.rxNextReassembly)) then
    { s with tReassemblyStart := 0 }
  else s

/-- Start `t_reassembly` if it is off and there is something to wait for. -/
def startTReassembly (tCurrent : UInt64) (s : UmRx) : UmRx :=
  if s.tReassemblyStart = 0 ∧
      (snCompareRx c s s.rxNextHighest ((s.rxNextReassembly + 1) % c.snModulus) > 0 ∨
        (s.rxNextHighest = (s.rxNextReassembly + 1) % c.snModulus ∧
          sduHasMissingBytes s.rxList s.rxNextReassembly)) then
    { s with tReassemblyStart := tCurrent, rxTimerTrigger := s.rxNextHighest }
  else s

def receptionActions (tCurrent : UInt64) (s : UmRx) (x : ℤ) : UmRx :=
  let s := if sduFull s.rxList x then actionsSduFull c s x else actionsSduNotFull c s x
  startTReassembly c tCurrent (stopTReassembly c s)

/-- What the header of a received PDU says. -/
inductive UmPdu
  | discard
  | complete (sdu : List UInt8)
  | segment (pdu : NrRlcPdu)
  deriving DecidableEq, Repr

/-- The two reserved bits that come before a 12-bit SN. -/
def decodeReserved (d : NrRlcPduDecoder) : Option NrRlcPduDecoder :=
  if c.snFieldLength = 12 then (nrRlcPduDecoderGetBits d 2).map (·.2) else some d

/-- The SN and the SO of a segment. -/
def decodeSegment (isFirst : Bool) (d : NrRlcPduDecoder) :
    Option (ℕ × ℕ × NrRlcPduDecoder) := do
  let d ← decodeReserved c d
  let (sn, d) ← nrRlcPduDecoderGetBits d c.snFieldLength
  let (so, d) ← decodeSo isFirst d
  some (sn, so, d)

/-- The header part of `nr_rlc_entity_um_recv_pdu`, up to the check that there is data. -/
def decodePdu (buffer : List UInt8) : UmPdu :=
  match nrRlcPduDecoderGetBits (nrRlcPduDecoderInit buffer) 2 with
  | none => .discard
  | some (si, d) =>
    let isFirst := si &&& 2 == 0
    let isLast := si &&& 1 == 0
    if isFirst && isLast then
      if buffer.length < 2 then .discard else .complete (buffer.drop 1)
    else
      match decodeSegment c isFirst d with
      | none => .discard
      | some (sn, so, d) =>
        if buffer.length ≤ d.byte then .discard
        else .segment (nrRlcNewPdu sn so isFirst isLast (buffer.drop d.byte))

def recvPdu (tCurrent : UInt64) (s : UmRx) (buffer : List UInt8) : UmRx :=
  match decodePdu c buffer with
  | .discard => s
  | .complete sdu => { s with delivered := s.delivered ++ [sdu.map some] }
  | .segment pdu =>
    if s.rxSize + pdu.size > c.rxMaxsize then s
    else if snCompareRx c s pdu.sn s.rxNextReassembly < 0 then s
    else
      receptionActions c tCurrent
        { s with
          rxSize := s.rxSize + pdu.size
          rxList := nrRlcPduListAdd (snCompareRx c s) s.rxList pdu } pdu.sn

/-! ### TX functions -/

/-- The SN with the reserved bits before it, or the six reserved bits of a complete SDU. -/
def serializeSn (h : SduHeap) (g : NrRlcSduSegment) (e : NrRlcPduEncoder) :
    Option NrRlcPduEncoder :=
  if g.isFirst && g.isLast then nrRlcPduEncoderPutBits e 0 6
  else if c.snFieldLength = 12 then
    (nrRlcPduEncoderPutBits e 0 2).bind (nrRlcPduEncoderPutBits · (h.sn g).toNat c.snFieldLength)
  else nrRlcPduEncoderPutBits e (h.sn g).toNat c.snFieldLength

/-- The header bits, in the order they are put; `none` if the buffer is full. -/
def serializeHeader (h : SduHeap) (g : NrRlcSduSegment) (size : ℤ) : Option NrRlcPduEncoder := do
  let e := nrRlcPduEncoderInit (List.replicate size.toNat 0)
  let e ← nrRlcPduEncoderPutBits e (1 - g.isFirst.toNat) 1
  let e ← nrRlcPduEncoderPutBits e (1 - g.isLast.toNat) 1
  let e ← serializeSn c h g e
  if g.isFirst then some e else nrRlcPduEncoderPutBits e g.so.toNat 16

/-- The PDU: the header, then the bytes of the segment. -/
def serializeSdu (h : SduHeap) (g : NrRlcSduSegment) (size : ℤ) : Option (List UInt8) :=
  (serializeHeader c h g size).map fun e ↦ e.buffer.take e.byte ++ h.bytes g

/-- Resize a segment so that its PDU fits into `pduSize` bytes: the segment and the rest of it,
or `none` if not even one byte fits. The reference count is taken in any case. -/
def resegment (h : SduHeap) (g : NrRlcSduSegment) (pduSize : ℤ) :
    SduHeap × Option (NrRlcSduSegment × NrRlcSduSegment) :=
  let h := h.update g.sdu fun s ↦ { s with refCount := s.refCount + 1 }
  let pduHeaderSize := computePduHeaderSize c { g with isLast := false }
  if pduHeaderSize + 1 > pduSize then (h, none)
  else
    let overSize := pduHeaderSize + g.size - pduSize
    let first := { g with size := g.size - overSize, isLast := false }
    let next :=
      { g with ptr := h.brk, size := overSize, so := g.so + first.size, isFirst := false }
    ({ h with brk := h.brk + 1 }, some (first, next))

/-- The end of `generate_tx_pdu`: the head of `tx_list` has become the segment `g` that fits, and
`s` is the entity without it. -/
def emitPdu (s : UmTx) (g : NrRlcSduSegment) (size : ℤ) : Option (UmTx × List UInt8) :=
  (serializeSdu c s.heap g size).map fun pdu ↦
    ({ s with
        txNext := if !g.isFirst && g.isLast then (s.txNext + 1) % c.snModulus else s.txNext
        txSize := s.txSize - g.size
        heap := (nrRlcFreeSduSegment s.heap g).1 }, pdu)

/-- Unlink the head of `tx_list` and give it its SN. -/
def takeHead (s : UmTx) (g : NrRlcSduSegment) (rest : List NrRlcSduSegment) : UmTx :=
  { s with
    txList := rest
    heap := s.heap.update g.sdu fun u ↦ { u with sn := s.txNext }
    bstatusTxSize := s.bstatusTxSize - (computePduHeaderSize c g + g.size) }

def generateTxPdu (s : UmTx) (size : ℤ) : Option (UmTx × List UInt8) :=
  match s.txList with
  | [] => some (s, [])
  | g :: rest =>
    let pduHeaderSize := computePduHeaderSize c g
    -- not enough room for at least one byte of data? do nothing
    if pduHeaderSize + 1 > size then some (s, [])
    else
      let pduSize := pduHeaderSize + g.size
      let s := takeHead c s g rest
      if pduSize > size then
        match resegment c s.heap g size with
        | (heap, none) => some ({ s with heap := heap }, [])
        | (heap, some (first, next)) =>
          emitPdu c { s with
            heap := heap
            txList := next :: rest
            bstatusTxSize := s.bstatusTxSize + (computePduHeaderSize c next + next.size) }
            first size
      else emitPdu c s g size

/-! ### SDU RX functions -/

/-- `none` is the `exit` on an SDU that is too big. -/
def recvSdu (e : NrRlcEntityUm) (buffer : List UInt8) (sduId : ℤ) : Option NrRlcEntityUm :=
  let size : ℤ := buffer.length
  if size > nrSduMax then none
  else
    let e :=
      if e.sduRejected ≠ 0 ∧ e.tCurrent > e.tLogBufferFull + 1000 then
        { e with sduRejected := 0, tLogBufferFull := e.tCurrent }
      else e
    if e.tx.txSize + size > c.txMaxsize then some { e with sduRejected := e.sduRejected + 1 }
    else
      let (heap, g) := nrRlcNewSdu e.tx.heap buffer sduId
      some { e with tx := { e.tx with
        heap := heap
        txSize := e.tx.txSize + size
        txList := e.tx.txList ++ [g]
        bstatusTxSize := e.tx.bstatusTxSize + (computePduHeaderSize c g + g.size) } }

/-! ### Time and timers -/

/-- `t_reassembly` is running and has expired. -/
def tReassemblyExpired (tCurrent : UInt64) (s : UmRx) : Bool :=
  !(s.tReassemblyStart == 0 ||
    tCurrent ≤ s.tReassemblyStart + UInt64.ofInt c.tReassembly)

/-- The first SN from `rx_timer_trigger` on that is not delivered yet. -/
def nextReassemblyAfterExpiry (s : UmRx) : ℤ :=
  skipDelivered c.snModulus s.rxList c.snModulus.toNat s.rxTimerTrigger

/-- The cells that an expiry of `t_reassembly` discards. -/
def discardedOnExpiry (s : UmRx) : List NrRlcPdu :=
  s.rxList.takeWhile fun p ↦ snCompareRx c s p.sn (nextReassemblyAfterExpiry c s) < 0

def checkTReassembly (tCurrent : UInt64) (s : UmRx) : UmRx :=
  if !tReassemblyExpired c tCurrent s then s
  else
    let rxNextReassembly := nextReassemblyAfterExpiry c s
    let s := { s with
      tReassemblyStart := 0
      rxNextReassembly := rxNextReassembly
      rxList := s.rxList.dropWhile fun p ↦ snCompareRx c s p.sn rxNextReassembly < 0 }
    if snCompareRx c s s.rxNextHighest ((s.rxNextReassembly + 1) % c.snModulus) > 0 ∨
        (s.rxNextHighest = s.rxNextReassembly + 1 ∧
          sduHasMissingBytes s.rxList s.rxNextReassembly) then
      { s with tReassemblyStart := tCurrent, rxTimerTrigger := s.rxNextHighest }
    else s

/-! ### The entity -/

def NrRlcEntityUm.recvPdu (e : NrRlcEntityUm) (buffer : List UInt8) : NrRlcEntityUm :=
  { e with rx := Um.recvPdu c e.tCurrent e.rx buffer }

def NrRlcEntityUm.generatePdu (e : NrRlcEntityUm) (size : ℤ) :
    Option (NrRlcEntityUm × List UInt8) :=
  (generateTxPdu c e.tx size).map fun (tx, pdu) ↦ ({ e with tx := tx }, pdu)

def NrRlcEntityUm.setTime (e : NrRlcEntityUm) (now : UInt64) : NrRlcEntityUm :=
  { e with tCurrent := now, rx := checkTReassembly c now e.rx }

end OaiRan.Rlc.Um
