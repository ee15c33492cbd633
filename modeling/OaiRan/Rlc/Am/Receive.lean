import OaiRan.Rlc.Am.Entity

/-!
# The acknowledged-mode entity: data PDUs in

`nr_rlc_entity_am_recv_pdu` for a data PDU, with the reception actions of 38.322 5.2.3.2.3, and
the expiry of `t_reassembly`. Control PDUs are the subject of `OaiRan.Rlc.Am.Control`.
-/

namespace OaiRan.Rlc.Am

variable (c : AmConfig)

/-- Walk over the cells of `sn`, taking what they cover off the range of `size` bytes from `so`
on. -/
def segmentAlreadyReceivedLoop (sn : ℤ) : ℤ → ℤ → List NrRlcPdu → Bool
  | _, size, [] => size ≤ 0
  | so, size, l :: ls =>
    if size ≤ 0 then true
    else if l.sn = sn then
      if l.so ≤ so ∧ so < l.so + l.size then
        let covered := l.size - (so - l.so)
        segmentAlreadyReceivedLoop sn (so + covered) (size - covered) ls
      else if l.so ≤ so + size - 1 ∧ so + size - 1 < l.so + l.size then
        let covered := size - (l.so - so)
        segmentAlreadyReceivedLoop sn so (size - covered) ls
      else segmentAlreadyReceivedLoop sn so size ls
    else segmentAlreadyReceivedLoop sn so size ls

def segmentAlreadyReceived (s : AmRx) (sn so size : ℤ) : Bool :=
  segmentAlreadyReceivedLoop sn so size s.rxList

/-- The cells of `sn` lose their data but keep their size. -/
def reassembleAndDeliver (s : AmRx) (sn : ℤ) : AmRx :=
  let segments := snRun sn s.rxList
  { s with
    rxList := mapSnRun (fun p ↦ { p with data := none }) sn s.rxList
    rxSize := s.rxSize - (segments.map NrRlcPdu.size).sum
    delivered := s.delivered ++ (reassemble segments).delivered.toList
    reassembled := s.reassembled ++ [(sn, segments)] }

/-- Free all delivered SDUs at the head of `rx_list`: what is left, and the next `rx_next`. A turn
frees all the segments of one SDU, so there are no more turns than cells. -/
def freeDelivered : ℕ → List NrRlcPdu → ℤ → List NrRlcPdu × ℤ
  | 0, l, rxNext => (l, rxNext)
  | _ + 1, [], rxNext => ([], rxNext)
  | fuel + 1, p :: l, rxNext =>
    if p.data.isNone && p.sn == rxNext then
      freeDelivered fuel (l.dropWhile fun q ↦ q.sn == rxNext) ((rxNext + 1) % c.snModulus)
    else (p :: l, rxNext)

/-- Move `rx_highest_status` past what is delivered. -/
def updateHighestStatus (s : AmRx) (x : ℤ) : AmRx :=
  if x = s.rxHighestStatus then
    { s with
      rxHighestStatus :=
        skipDelivered c.snModulus s.rxList c.snModulus.toNat s.rxHighestStatus }
  else s

/-- Update `rx_next` and free all delivered SDUs at the head of `rx_list`. -/
def updateRxNext (s : AmRx) (x : ℤ) : AmRx :=
  if x = s.rxNext then
    let (rxList, rxNext) := freeDelivered c s.rxList.length s.rxList s.rxNext
    { s with rxList := rxList, rxNext := rxNext }
  else s

def actionsSduFull (s : AmRx) (x : ℤ) : AmRx :=
  updateRxNext c (updateHighestStatus c (reassembleAndDeliver s x) x) x

def updateNextHighest (s : AmRx) (x : ℤ) : AmRx :=
  if snCompareRx c s x s.rxNextHighest ≥ 0 then
    { s with rxNextHighest := (x + 1) % c.snModulus }
  else s

/-- Stop `t_reassembly` if it has become useless. -/
def stopTReassembly (s : AmRx) : AmRx :=
  if s.tReassemblyStart ≠ 0 ∧
      (s.rxNextStatusTrigger = s.rxNext ∨
        (s.rxNextStatusTrigger = (s.rxNext + 1) % c.snModulus ∧
          !sduHasMissingBytes s.rxList s.rxNext) ∨
        (!snInRecvWindow c s s.rxNextStatusTrigger ∧
          s.rxNextStatusTrigger ≠ (s.rxNext + c.windowSize) % c.snModulus)) then
    { s with tReassemblyStart := 0 }
  else s

/-- Start `t_reassembly` if there is something to wait for from `sn` on. -/
def restartTReassembly (tCurrent : UInt64) (s : AmRx) (sn : ℤ) : AmRx :=
  if snCompareRx c s s.rxNextHighest ((sn + 1) % c.snModulus) > 0 ∨
      (s.rxNextHighest = (sn + 1) % c.snModulus ∧ sduHasMissingBytes s.rxList sn) then
    { s with tReassemblyStart := tCurrent, rxNextStatusTrigger := s.rxNextHighest }
  else s

def startTReassembly (tCurrent : UInt64) (s : AmRx) : AmRx :=
  if s.tReassemblyStart = 0 then restartTReassembly c tCurrent s s.rxNext else s

def receptionActions (tCurrent : UInt64) (s : AmRx) (x : ℤ) : AmRx :=
  let s := updateNextHighest c s x
  let s := if sduFull s.rxList x then actionsSduFull c s x else s
  startTReassembly c tCurrent (stopTReassembly c s)

/-- What the header of a received PDU says; `p` is the poll bit. -/
inductive AmPdu
  | discard (p : Bool)
  | control
  | segment (p : Bool) (pdu : NrRlcPdu)
  deriving DecidableEq, Repr

/-- The two reserved bits that come before an 18-bit SN. -/
def decodeReserved (d : NrRlcPduDecoder) : Option NrRlcPduDecoder :=
  if c.snFieldLength = 18 then (nrRlcPduDecoderGetBits d 2).map (·.2) else some d

/-- The SI, the SN and the SO; `none` is a decoding error or a zero SO field. -/
def decodeSegment (d : NrRlcPduDecoder) : Option (Bool × Bool × ℕ × ℕ × NrRlcPduDecoder) := do
  let (si, d) ← nrRlcPduDecoderGetBits d 2
  let isFirst := si &&& 2 == 0
  let isLast := si &&& 1 == 0
  let d ← decodeReserved c d
  let (sn, d) ← nrRlcPduDecoderGetBits d c.snFieldLength
  let (so, d) ← decodeSo isFirst d
  some (isFirst, isLast, sn, so, d)

/-- The header part of `nr_rlc_entity_am_recv_pdu`, up to the check that there is data. -/
def decodePdu (buffer : List UInt8) : AmPdu :=
  match nrRlcPduDecoderGetBits (nrRlcPduDecoderInit buffer) 1 with
  | none => .discard false
  | some (0, _) => .control
  | some (_ + 1, d) =>
    match nrRlcPduDecoderGetBits d 1 with
    | none => .discard false
    | some (p, d) =>
      match decodeSegment c d with
      | none => .discard (p != 0)
      | some (isFirst, isLast, sn, so, d) =>
        if buffer.length ≤ d.byte then .discard (p != 0)
        else .segment (p != 0) (nrRlcNewPdu sn so isFirst isLast (buffer.drop d.byte))

/-- The checks that a data PDU has to pass. -/
def acceptsPdu (s : AmRx) (pdu : NrRlcPdu) : Bool :=
  s.rxSize + pdu.size ≤ c.rxMaxsize && snInRecvWindow c s pdu.sn &&
    !segmentAlreadyReceived s pdu.sn pdu.so pdu.size

/-- Put the PDU into the reception list. -/
def putPdu (s : AmRx) (pdu : NrRlcPdu) : AmRx :=
  { s with
    rxSize := s.rxSize + pdu.size
    rxList := nrRlcPduListAdd (snCompareRx c s) s.rxList pdu }

/-- The poll bit triggers a status report. -/
def triggerStatus (s : AmRx) (p : Bool) : AmRx :=
  if p then { s with statusTriggered := true } else s

/-- The receiving side's part in `nr_rlc_entity_am_recv_pdu`. -/
def recvDataPdu (tCurrent : UInt64) (s : AmRx) (p : Bool) (pdu : NrRlcPdu) : AmRx :=
  if acceptsPdu c s pdu then
    triggerStatus (receptionActions c tCurrent (putPdu c s pdu) pdu.sn) p
  else triggerStatus s p

/-- `t_reassembly` is running and has expired. -/
def tReassemblyExpired (tCurrent : UInt64) (s : AmRx) : Bool :=
  !(s.tReassemblyStart == 0 ||
    tCurrent ≤ s.tReassemblyStart + UInt64.ofInt c.tReassembly)

def checkTReassembly (tCurrent : UInt64) (s : AmRx) : AmRx :=
  if !tReassemblyExpired c tCurrent s then s
  else
    let s := { s with
      tReassemblyStart := 0
      rxHighestStatus :=
        skipDelivered c.snModulus s.rxList c.snModulus.toNat s.rxNextStatusTrigger
      statusTriggered := true }
    restartTReassembly c tCurrent s s.rxHighestStatus

/-! ### What a segment adds -/

/-- Byte `x` of SDU `sn` is in a cell of the list. -/
def Covered (l : List NrRlcPdu) (sn x : ℤ) : Prop :=
  ∃ p ∈ l, p.sn = sn ∧ p.so ≤ x ∧ x < p.so + p.size

variable {l : List NrRlcPdu} {sn so size : ℤ}

/-- The order of `nr_rlc_pdu_list_add` among the cells of an SN is all that the walk needs. -/
theorem segmentAlreadyReceivedLoop_iff (hl : l.Pairwise fun p q ↦ p.sn = q.sn → p.so ≤ q.so) :
    segmentAlreadyReceivedLoop sn so size l = true ↔
      ∀ x, so ≤ x → x < so + size → Covered l sn x := by
  induction l generalizing so size with
  | nil =>
    simp only [segmentAlreadyReceivedLoop, decide_eq_true_eq, Covered, List.not_mem_nil]
    constructor
    · intro hsize x _ _
      omega
    · intro h
      by_contra hsize
      simpa using h so le_rfl (by omega)
  | cons p l ih =>
    obtain ⟨hp, hl⟩ := List.pairwise_cons.1 hl
    have hcons (x : ℤ) : Covered (p :: l) sn x ↔
        (p.sn = sn ∧ p.so ≤ x ∧ x < p.so + p.size) ∨ Covered l sn x := by
      simp [Covered]
    -- once a cell of the SN starts behind `so`, that byte is in no cell any more
    have hgap (hsn : p.sn = sn) (hlt : so < p.so) : ¬Covered l sn so := by
      rintro ⟨q, hq, hqsn, hle, -⟩
      have := hp q hq (hsn.trans hqsn.symm)
      omega
    simp only [segmentAlreadyReceivedLoop, hcons]
    split_ifs with hsize hsn hfront hback
    · exact iff_of_true rfl fun x _ _ ↦ by omega
    · rw [ih hl]
      constructor
      · intro h x hx hx'
        rcases lt_or_ge x (p.so + p.size) with hlt | hge
        · exact .inl ⟨hsn, by omega, hlt⟩
        · exact .inr (h x (by omega) (by omega))
      · intro h x hx hx'
        exact (h x (by omega) (by omega)).resolve_left fun hcell ↦ by omega
    · rw [ih hl]
      constructor
      · intro h
        exact absurd (h so le_rfl (by omega)) (hgap hsn (by omega))
      · intro h
        have := (h so le_rfl (by omega)).resolve_left fun hcell ↦ by omega
        exact absurd this (hgap hsn (by omega))
    · rw [ih hl]
      refine ⟨fun h x hx hx' ↦ .inr (h x hx hx'), fun h x hx hx' ↦ ?_⟩
      refine (h x hx hx').resolve_left fun hcell ↦ ?_
      have := (h so le_rfl (by omega)).resolve_left fun hcell ↦ by omega
      exact hgap hsn (by omega) this
    · rw [ih hl]
      simp [hsn]

/-- **`segment_already_received` is exact.** -/
theorem segmentAlreadyReceived_iff (s : AmRx) (sn so size : ℤ)
    (hl : s.rxList.Pairwise fun p q ↦ p.sn = q.sn → p.so ≤ q.so) :
    segmentAlreadyReceived s sn so size = true ↔
      ∀ x, so ≤ x → x < so + size → Covered s.rxList sn x :=
  segmentAlreadyReceivedLoop_iff hl

/-- Two cells that overlap. -/
theorem overlapping_covered :
    Covered [nrRlcNewPdu 7 0 true false [1, 2, 3], nrRlcNewPdu 7 2 false true [3, 4]] 7 3 :=
  (segmentAlreadyReceived_iff { rxList := [nrRlcNewPdu 7 0 true false [1, 2, 3],
    nrRlcNewPdu 7 2 false true [3, 4]] } 7 0 4 (by decide)).1 (by decide) 3 (by decide) (by decide)

end OaiRan.Rlc.Am
