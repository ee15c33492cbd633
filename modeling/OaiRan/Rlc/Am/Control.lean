import OaiRan.Rlc.Am.Entity

/-!
# The acknowledged-mode entity: status reports in

`process_control_pdu`. A STATUS PDU is read twice, first to validate it and then to process it;
here it is decoded once. Processing walks `wait_list` and `retransmit_list` together, smallest SN
first, once for all NACKs: what lies before a NACK is acknowledged and freed, what it hits goes to
the new retransmit list, and the walk stops at what may still be hit by a later one. The labels of
the source are the cases of `processWaitListHead` and `processRetransmitListHead`, with `none` for
the jump to `done_nack`.
-/

namespace OaiRan.Rlc.Am

variable (c : AmConfig)

/-- Is there an overlap of the byte ranges from `s1` to `e1` and from `s2` to `e2`? An end of -1 is
the end of the SDU. -/
def soOverlap (s1 e1 s2 e2 : ℤ) : Bool :=
  if s1 < s2 then e1 == -1 || e1 ≥ s2 else e2 == -1 || s1 ≤ e2

/-! ### Decoding -/

/-- A NACK as decoded: the bytes from `so_start` to `so_end` of `range` SNs. -/
structure Nack where
  (nackSn soStart soEnd : ℤ)
  range : ℕ
  deriving DecidableEq, Repr

def decodeSoRange (e2 : ℕ) (d : NrRlcPduDecoder) : Option (ℕ × ℕ × NrRlcPduDecoder) :=
  if e2 = 0 then some (0, 0xffff, d)
  else do
    let (soStart, d) ← nrRlcPduDecoderGetBits d 16
    let (soEnd, d) ← nrRlcPduDecoderGetBits d 16
    some (soStart, soEnd, d)

def decodeNackRange (e3 : ℕ) (d : NrRlcPduDecoder) : Option (ℕ × NrRlcPduDecoder) :=
  if e3 = 0 then some (1, d) else nrRlcPduDecoderGetBits d 8

/-- One NACK and the E1 bit after it. The special value 0xffff of the SO end indicates 'all bytes
to the end'. -/
def decodeNack (d : NrRlcPduDecoder) : Option (Nack × ℕ × NrRlcPduDecoder) := do
  let (nackSn, d) ← nrRlcPduDecoderGetBits d c.snFieldLength
  let (e1, d) ← nrRlcPduDecoderGetBits d 1
  let (e2, d) ← nrRlcPduDecoderGetBits d 1
  let (e3, d) ← nrRlcPduDecoderGetBits d 1
  let (_, d) ← nrRlcPduDecoderGetBits d (if c.snFieldLength = 18 then 3 else 1)
  let (soStart, soEnd, d) ← decodeSoRange e2 d
  let (range, d) ← decodeNackRange e3 d
  some (⟨nackSn, soStart, if soEnd = 0xffff then -1 else soEnd, range⟩, e1, d)

/-- The NACKs, as long as E1 says that there is one; each has at least two bytes, so the length of
the PDU bounds their number. -/
def decodeNacks : ℕ → ℕ → NrRlcPduDecoder → Option (List Nack)
  | _, 0, _ => some []
  | 0, _ + 1, _ => none
  | fuel + 1, _ + 1, d => do
    let (n, e1, d) ← decodeNack c d
    let ns ← decodeNacks fuel e1 d
    some (n :: ns)

/-- D/C, CPT, ACK_SN, E1 and the reserved bits. -/
def decodeAck (buffer : List UInt8) : Option (ℕ × ℕ × NrRlcPduDecoder) := do
  let (_, d) ← nrRlcPduDecoderGetBits (nrRlcPduDecoderInit buffer) 1
  let (cpt, d) ← nrRlcPduDecoderGetBits d 3
  let (ackSn, d) ← nrRlcPduDecoderGetBits d c.snFieldLength
  let (e1, d) ← nrRlcPduDecoderGetBits d 1
  let (_, d) ← nrRlcPduDecoderGetBits d (if c.snFieldLength = 18 then 1 else 7)
  if cpt = 0 then some (ackSn, e1, d) else none

/-- ACK_SN and the NACKs. -/
def decodeControl (buffer : List UInt8) : Option (ℤ × List Nack) := do
  let (ackSn, e1, d) ← decodeAck c buffer
  let nacks ← decodeNacks c buffer.length e1 d
  some (ackSn, nacks)

/-- A NACK for one SN. -/
structure NackSn where
  (sn soStart soEnd : ℤ)
  deriving DecidableEq, Repr

/-- The SNs of a NACK: only the first one has the SO start and only the last one the SO end. -/
def Nack.expand (n : Nack) : List NackSn :=
  (List.range n.range).map fun (i : ℕ) ↦
    { sn := (n.nackSn + i) % c.snModulus
      soStart := if i = 0 then n.soStart else 0
      soEnd := if i = n.range - 1 then n.soEnd else -1 }

/-- ACK_SN is not above `tx_next` and no NACK is above ACK_SN. The source also means to check that
the NACKs increase, but compares with a previous NACK that it never sets. -/
def validControl (s : AmTx) (ackSn : ℤ) (nacks : List Nack) : Bool :=
  snCompareTx c s ackSn s.txNext ≤ 0 &&
    (nacks.flatMap (Nack.expand c)).all fun n ↦ snCompareTx c s n.sn ackSn ≤ 0

/-! ### Processing -/

/-- The variables of the walk. `kept` is `wait_list` up to `prev_wait_list`, `newRetransmitList`
the new list up to its end; `endWaitList` is `none` while unset, and `some none` for the list's
own head. -/
structure ControlState where
  tx : AmTx
  (kept curWaitList newRetransmitList curRetransmitList : List NrRlcSduSegment)
  endWaitList : Option (Option ℕ)

/-- Free a segment that is acknowledged, and indicate successful delivery if the SDU is. -/
def freeAcked (s : AmTx) (g : NrRlcSduSegment) : AmTx :=
  match nrRlcFreeSduSegment s.heap g with
  | (heap, true) =>
    { s with
      heap := heap
      txSize := s.txSize - (s.heap.cell g.sdu).size
      acked := s.acked ++ [(s.heap.cell g.sdu).upperLayerId] }
  | (heap, false) => { s with heap := heap }

/-- `g`, the head of the current wait list, is taken out of it. -/
def unlinkWait (k : ControlState) (g : NrRlcSduSegment) (rest : List NrRlcSduSegment) :
    ControlState :=
  { k with
    curWaitList := rest
    endWaitList :=
      if k.tx.waitEnd = some g.ptr then some (k.kept.getLast?.map (·.ptr)) else k.endWaitList }

/-- Increase the retransmission count of the SDU, and report if it is too big. -/
def countRetx (s : AmTx) (g : NrRlcSduSegment) : AmTx :=
  let heap := s.heap.update g.sdu fun u ↦ { u with retxCount := u.retxCount + 1 }
  { s with
    heap := heap
    maxRetxReached :=
      if (heap.cell g.sdu).retxCount ≥ c.maxRetxThreshold * (heap.cell g.sdu).refCount
      then s.maxRetxReached + 1 else s.maxRetxReached
    bstatusRetxSize := s.bstatusRetxSize + (computePduHeaderSize c g + g.size) }

def freeWait (k : ControlState) (g : NrRlcSduSegment) (rest : List NrRlcSduSegment) :
    ControlState :=
  let k := unlinkWait k g rest
  { k with tx := freeAcked k.tx g }

def freeRetransmit (k : ControlState) (g : NrRlcSduSegment) (rest : List NrRlcSduSegment) :
    ControlState :=
  { k with
    curRetransmitList := rest
    tx := freeAcked
      { k.tx with bstatusRetxSize := k.tx.bstatusRetxSize - (computePduHeaderSize c g + g.size) }
      g }

/-- Does the NACK hit the segment? -/
def NackSn.hits (h : SduHeap) (n : NackSn) (g : NrRlcSduSegment) : Bool :=
  h.sn g == n.sn && soOverlap n.soStart n.soEnd g.so (g.so + g.size - 1)

/-- We can't classify the segment yet: it is beyond the start of the NACK. -/
def beyondNack (s : AmTx) (n : NackSn) (g : NrRlcSduSegment) : Bool :=
  let cmp := snCompareTx c s (s.heap.sn g) n.sn
  cmp > 0 || (cmp == 0 && g.so > n.soStart)

/-- `process_wait_list_head` -/
def processWaitListHead (k : ControlState) (ackSn : ℤ) (n : NackSn) (g : NrRlcSduSegment)
    (rest : List NrRlcSduSegment) : Option ControlState :=
  if n.hits k.tx.heap g then
    let k := unlinkWait k g rest
    some { k with newRetransmitList := k.newRetransmitList ++ [g], tx := countRetx c k.tx g }
  else if beyondNack c k.tx n g then none
  else if snCompareTx c k.tx (k.tx.heap.sn g) ackSn < 0 then some (freeWait k g rest)
  -- the rest of the list is above ack_sn
  else if snCompareTx c k.tx (k.tx.heap.sn g) ackSn > 0 then
    some { k with kept := k.kept ++ g :: rest, curWaitList := [] }
  else some { k with kept := k.kept ++ [g], curWaitList := rest }

/-- `process_retransmit_list_head` -/
def processRetransmitListHead (k : ControlState) (ackSn : ℤ) (n : NackSn) (g : NrRlcSduSegment)
    (rest : List NrRlcSduSegment) : Option ControlState :=
  if n.hits k.tx.heap g then
    some { k with
      newRetransmitList := k.newRetransmitList ++ [g], curRetransmitList := rest }
  else if beyondNack c k.tx n g then none
  else if snCompareTx c k.tx (k.tx.heap.sn g) ackSn < 0 then some (freeRetransmit c k g rest)
  -- the remaining list is linked to the new one, and cut off again at the end
  else if k.curWaitList = [] then some { k with curRetransmitList := [] }
  else some { k with
    newRetransmitList := k.newRetransmitList ++ [g], curRetransmitList := rest }

/-- The head of the wait list is the smaller one. -/
def waitListFirst (s : AmTx) (w r : NrRlcSduSegment) : Bool :=
  let cmp := snCompareTx c s (s.heap.sn w) (s.heap.sn r)
  cmp < 0 || (cmp == 0 && w.so < r.so)

/-- `process_next_pdu`: process the smallest SN either from the wait list or the retransmit list.
`none` is the end of the NACK. -/
def processNextPdu (k : ControlState) (ackSn : ℤ) (n : NackSn) : Option ControlState :=
  match k.curWaitList, k.curRetransmitList with
  | [], [] => none
  | w :: ws, [] => processWaitListHead c k ackSn n w ws
  | [], r :: rs => processRetransmitListHead c k ackSn n r rs
  | w :: ws, r :: rs =>
    if waitListFirst c k.tx w r then processWaitListHead c k ackSn n w ws
    else processRetransmitListHead c k ackSn n r rs

/-- At most `fuel` segments for one NACK. -/
def processNackLoop (ackSn : ℤ) (n : NackSn) : ℕ → ControlState → ControlState
  | 0, k => k
  | fuel + 1, k =>
    match processNextPdu c k ackSn n with
    | none => k
    | some k' => processNackLoop ackSn n fuel k'

/-- One NACK: every turn takes a segment from one of the two lists. -/
def processNack (ackSn : ℤ) (k : ControlState) (n : NackSn) : ControlState :=
  processNackLoop c ackSn n (k.curWaitList.length + k.curRetransmitList.length) k

/-- Nacks done, finish with ack: the wait list. -/
def finishWaitList (ackSn : ℤ) : List NrRlcSduSegment → ControlState → ControlState
  | [], k => k
  | g :: rest, k =>
    if snCompareTx c k.tx (k.tx.heap.sn g) ackSn < 0 then
      finishWaitList ackSn rest (freeWait k g rest)
    else k

/-- The retransmit list. -/
def finishRetransmitList (ackSn : ℤ) : List NrRlcSduSegment → ControlState → ControlState
  | [], k => k
  | g :: rest, k =>
    if snCompareTx c k.tx (k.tx.heap.sn g) ackSn < 0 then
      finishRetransmitList ackSn rest (freeRetransmit c k g rest)
    else k

/-- The lists after the walk. -/
def ControlState.finish (k : ControlState) : AmTx :=
  { k.tx with
    waitList := k.kept ++ k.curWaitList
    retransmitList := k.newRetransmitList ++ k.curRetransmitList
    waitEnd := k.endWaitList.getD k.tx.waitEnd }

/-- Let's start from the highest possible value and go down as needed. -/
def updateTxNextAck (s : AmTx) (ackSn : ℤ) : AmTx :=
  let lower (a : ℤ) (l : List NrRlcSduSegment) : ℤ :=
    match l with
    | [] => a
    | g :: _ => if snCompareTx c s (s.heap.sn g) a < 0 then s.heap.sn g else a
  let txNextAck := lower (lower s.txNext s.waitList) s.retransmitList
  { s with txNextAck := if snCompareTx c s ackSn txNextAck < 0 then ackSn else txNextAck }

/-- 38.322 5.3.3.3 says to stop `t_poll_retransmit` if an ACK or NACK is received for `poll_sn`. -/
def pollAnswered (s : AmTx) (ackSn : ℤ) (nacks : List Nack) : Bool :=
  snCompareTx c s s.pollSn ackSn < 0 ||
    nacks.any fun n ↦ snCompareTx c s n.nackSn s.pollSn ≤ 0 &&
      snCompareTx c s s.pollSn ((n.nackSn + n.range) % c.snModulus) < 0

def stopPollTimer (s : AmTx) (ackSn : ℤ) (nacks : List Nack) : AmTx :=
  if pollAnswered c s ackSn nacks then { s with tPollRetransmitStart := 0 } else s

/-- The walk as a whole. -/
def walkLists (s : AmTx) (ackSn : ℤ) (nacks : List NackSn) : ControlState :=
  let k : ControlState := ⟨s, [], s.waitList, [], s.retransmitList, none⟩
  let k := nacks.foldl (processNack c ackSn) k
  let k := finishWaitList c ackSn k.curWaitList k
  finishRetransmitList c ackSn k.curRetransmitList k

/-- Process the control PDU for real. -/
def applyControl (s : AmTx) (ackSn : ℤ) (nacks : List Nack) : AmTx :=
  let s := stopPollTimer c s ackSn nacks
  updateTxNextAck c (walkLists c s ackSn (nacks.flatMap (Nack.expand c))).finish ackSn

def processControlPdu (s : AmTx) (buffer : List UInt8) : AmTx :=
  match decodeControl c buffer with
  | none => s
  | some (ackSn, nacks) =>
    if validControl c s ackSn nacks then applyControl c s ackSn nacks else s

end OaiRan.Rlc.Am
