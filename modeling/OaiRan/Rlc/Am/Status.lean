import OaiRan.Rlc.Am.Receive

/-!
# The acknowledged-mode entity: status reports out

`next_missing`, `generate_missing` and `generate_status`: the receiver walks its list, and each
stretch of missing bytes becomes one or more NACKs, written to the PDU as they are found. Three
things are patched into the PDU later, at byte and bit positions that are remembered: the E1 bit
of a NACK (or of the header) when another one follows, the end of the last segment NACK when the
PDU was too small for the rest, and ACK_SN at the very end.
-/

namespace OaiRan.Rlc.Am

variable (c : AmConfig)

/-- A stretch of missing bytes: from `so_start` of `sn_start` to `so_end` of `sn_end`. -/
structure MissingData where
  (snStart soStart snEnd soEnd : ℤ)
  deriving DecidableEq, Repr

/-- Don't report if out of the reporting window. -/
def outOfReport (s : AmRx) (sn : ℤ) : Bool := snCompareRx c s s.rxHighestStatus sn ≤ 0

/-- `(sn - 1 + sn_modulus) % sn_modulus` -/
def snBefore (sn : ℤ) : ℤ := (sn - 1 + c.snModulus) % c.snModulus

/-- The missing part ends before the PDU `cur`, the first cell of `next`, but does not go beyond
`rx_highest_status - 1`. -/
def setEndDifferentSdu (s : AmRx) (snStart soStart : ℤ) (cur : NrRlcPdu) (next : List NrRlcPdu) :
    MissingData × List NrRlcPdu :=
  let snEnd := if cur.isFirst then snBefore c cur.sn else cur.sn
  let soEnd := if cur.isFirst then 0xffff else cur.so - 1
  if outOfReport c s snEnd then
    (⟨snStart, soStart, snBefore c s.rxHighestStatus, 0xffff⟩, [])
  else (⟨snStart, soStart, snEnd, soEnd⟩, next)

/-- The loop of `next_missing` from `cur` on, `maxSo` and `lastReached` being what is known of the
SDU that `cur` belongs to: the next missing part and the cells to go on with, `none` when there is
nothing more to report. -/
def nextMissingLoop (s : AmRx) : NrRlcPdu → List NrRlcPdu → ℤ → Bool →
    Option (MissingData × List NrRlcPdu)
  | cur, [], maxSo, lastReached =>
    let maxSo := max maxSo (cur.so + cur.size - 1)
    let lastReached := lastReached || cur.isLast
    let done := cur.data.isNone || lastReached
    let snStart := if done then (cur.sn + 1) % c.snModulus else cur.sn
    let soStart := if done then 0 else maxSo + 1
    if outOfReport c s snStart then none
    else some (⟨snStart, soStart, snBefore c s.rxHighestStatus, 0xffff⟩, [])
  | cur, next :: rest, maxSo, lastReached =>
    let maxSo := max maxSo (cur.so + cur.size - 1)
    let lastReached := lastReached || cur.isLast
    -- no discontinuity in data => process the next PDU
    if next.sn = cur.sn ∧ maxSo ≥ next.so - 1 then nextMissingLoop s next rest maxSo lastReached
    else if next.sn = (cur.sn + 1) % c.snModulus ∧ lastReached ∧ next.isFirst then
      nextMissingLoop s next rest 0 false
    -- discontinuity in the same SDU
    else if next.sn = cur.sn then
      if outOfReport c s cur.sn then none
      else some (⟨cur.sn, maxSo + 1, cur.sn, next.so - 1⟩, next :: rest)
    -- discontinuity between different SDUs
    else
      let snStart := if lastReached then (cur.sn + 1) % c.snModulus else cur.sn
      let soStart := if lastReached then 0 else maxSo + 1
      if outOfReport c s snStart then none
      else some (setEndDifferentSdu c s snStart soStart next (next :: rest))

/-- Special case with `checkHead`: there may be a missing part before the head of the list. -/
def nextMissing (s : AmRx) (cur : NrRlcPdu) (rest : List NrRlcPdu) (checkHead : Bool) :
    Option (MissingData × List NrRlcPdu) :=
  if checkHead && (cur.sn != s.rxNext || !cur.isFirst) then
    if outOfReport c s s.rxNext then none
    else some (setEndDifferentSdu c s s.rxNext 0 cur (cur :: rest))
  else nextMissingLoop c s cur rest 0 false

/-- The whole SDU is missing: the NACK needs no SO. -/
def MissingData.whole (m : MissingData) : Bool := m.soStart == 0 && m.soEnd == 0xffff

def nackSize (m : MissingData) : ℤ :=
  2 + (if c.snFieldLength == 18 then 1 else 0) +
    (if m.snStart = m.snEnd then if m.whole then 0 else 4 else if m.whole then 1 else 5)

/-- The PDU being written, with the position of the E1 bit to set if a NACK follows and the
position of the last SO end, if the last NACK has one. -/
structure StatusEncoder where
  encoder : NrRlcPduEncoder
  (e1Byte e1Bit : ℕ)
  soEndAddress : Option ℕ

/-- The position of the E1 bit of the NACK that starts where the encoder points. -/
def getE1Position (e : NrRlcPduEncoder) : ℕ × ℕ :=
  if c.snFieldLength = 18 then (e.byte + 2, 5) else (e.byte + 1, 3)

def NrRlcPduEncoder.setBit (e : NrRlcPduEncoder) (byte bit : ℕ) : NrRlcPduEncoder :=
  { e with buffer := e.buffer.modify byte fun x ↦ x ||| (1 <<< UInt8.ofNat bit) }

/-- SO start and SO end, if the NACK has them: the address of the latter. -/
def putSoRange (e : NrRlcPduEncoder) (m : MissingData) : Option (NrRlcPduEncoder × Option ℕ) :=
  if m.whole then some (e, none)
  else do
    let e ← nrRlcPduEncoderPutBits e m.soStart.toNat 16
    let address := e.byte
    let e ← nrRlcPduEncoderPutBits e m.soEnd.toNat 16
    some (e, some address)

/-- The NACK range, if the NACK is for more than one SN. -/
def putNackRange (e : NrRlcPduEncoder) (m : MissingData) (snCount : ℤ) : Option NrRlcPduEncoder :=
  if m.snStart = m.snEnd then some e else nrRlcPduEncoderPutBits e snCount.toNat 8

/-- Write one NACK for the `snCount` SNs of `m`. -/
def putNack (g : StatusEncoder) (m : MissingData) (snCount : ℤ) : Option StatusEncoder := do
  -- set the previous e1 bit to 1
  let e := NrRlcPduEncoder.setBit g.encoder g.e1Byte g.e1Bit
  let (e1Byte, e1Bit) := getE1Position c e
  let e ← nrRlcPduEncoderPutBits e m.snStart.toNat c.snFieldLength
  let e ← nrRlcPduEncoderPutBits e 0 1
  let e ← nrRlcPduEncoderPutBits e (!m.whole).toNat 1
  let e ← nrRlcPduEncoderPutBits e (decide (m.snStart ≠ m.snEnd)).toNat 1
  let e ← nrRlcPduEncoderPutBits e 0 (if c.snFieldLength = 18 then 3 else 1)
  let (e, soEndAddress) ← putSoRange e m
  let e ← putNackRange e m snCount
  some ⟨e, e1Byte, e1Bit, soEndAddress⟩

/-- The NACK for at most 255 of the `snCount` SNs from `snStart` on that are left of `m`. -/
def nackRange (m : MissingData) (snStart snCount : ℤ) : MissingData where
  snStart := snStart
  soStart := if snStart = m.snStart then m.soStart else 0
  snEnd := if snCount ≤ 255 then m.snEnd else (snStart + 254) % c.snModulus
  soEnd := if snCount ≤ 255 then m.soEnd else 0xffff

/-- The loop of `generate_missing`: the encoder, the last NACK generated (or what was given, if
there is none) and whether there was no more room. -/
def generateMissingLoop (m : MissingData) : ℕ → ℤ → ℤ → Option ℤ → StatusEncoder →
    Option (StatusEncoder × Option ℤ × Bool)
  | 0, _, _, last, g => some (g, last, false)
  | fuel + 1, snStart, snCount, last, g =>
    if snCount = 0 then some (g, last, false)
    else
      let range := nackRange c m snStart snCount
      if g.encoder.byte + nackSize c range > g.encoder.buffer.length then some (g, last, true)
      else do
        let count := min snCount 255
        let g ← putNack c g range count
        let last := if range.snStart = range.snEnd then snStart else snStart + (count - 1)
        generateMissingLoop m fuel ((snStart + count) % c.snModulus) (snCount - count) (some last) g

/-- The number of SNs in `m`. -/
def snCount (m : MissingData) : ℤ := (m.snEnd - m.snStart + c.snModulus) % c.snModulus + 1

def generateMissing (m : MissingData) (g : StatusEncoder) :
    Option (StatusEncoder × Option ℤ × Bool) :=
  generateMissingLoop c m (snCount c m).toNat m.snStart (snCount c m) none g

/-- Force the last SO end to 0xffff. -/
def forceSoEnd (g : StatusEncoder) : StatusEncoder :=
  match g.soEndAddress with
  | none => g
  | some a =>
    { g with encoder := { g.encoder with
        buffer := (g.encoder.buffer.set a 0xff).set (a + 1) 0xff } }

/-- The loop of `generate_status` from the cells `l` on. The head of the list may be looked at
twice, every other cell is left behind. -/
def generateStatusLoop (s : AmRx) : ℕ → List NrRlcPdu → Bool → ℤ → StatusEncoder →
    Option (StatusEncoder × ℤ)
  | 0, _, _, lastNack, g => some (g, lastNack)
  | _ + 1, [], _, lastNack, g => some (g, lastNack)
  | fuel + 1, cur :: rest, checkHead, lastNack, g =>
    match nextMissing c s cur rest checkHead with
    | none => some (g, lastNack)
    | some (m, next) => do
      let (g, ln, truncated) ← generateMissing c m g
      let lastNack := ln.getD lastNack
      if truncated then some (forceSoEnd g, lastNack)
      else generateStatusLoop s fuel next false lastNack g

/-- Put ACK_SN, which is `last_nack + 1`. -/
def putAckSn (buffer : List UInt8) (ackSn : ℕ) : List UInt8 :=
  if c.snFieldLength = 12 then
    (buffer.set 0 (UInt8.ofNat (ackSn >>> 8))).set 1 (UInt8.ofNat (ackSn &&& 255))
  else
    ((buffer.set 0 (UInt8.ofNat (ackSn >>> 14))).set 1
      (UInt8.ofNat ((ackSn >>> 6) &&& 255))).modify 2
        fun x ↦ x ||| UInt8.ofNat ((ackSn &&& 0x3f) <<< 2)

/-- The STATUS PDU, empty if there is not enough room. -/
def statusPdu (s : AmRx) (size : ℤ) : Option (List UInt8) :=
  if size < 3 then some []
  else do
    let e := nrRlcPduEncoderInit (List.replicate size.toNat 0)
    let e ← nrRlcPduEncoderPutBits e 0 (8 * 3)
    let g : StatusEncoder := ⟨e, 2, if c.snFieldLength = 18 then 1 else 7, none⟩
    let (g, lastNack) ← generateStatusLoop c s (s.rxList.length + 1) s.rxList true
      (snBefore c s.rxNext) g
    let ackSn := (lastNack + 1) % c.snModulus
    some ((putAckSn c g.encoder.buffer ackSn.toNat).take g.encoder.byte)

def generateStatus (tCurrent : UInt64) (s : AmRx) (size : ℤ) : Option (AmRx × List UInt8) :=
  (statusPdu c s size).map fun pdu ↦
    if pdu = [] then (s, [])
    else ({ s with statusTriggered := false, tStatusProhibitStart := tCurrent }, pdu)

def statusToReport (tCurrent : UInt64) (s : AmRx) : Bool :=
  s.statusTriggered &&
    (s.tStatusProhibitStart == 0 ||
      tCurrent - s.tStatusProhibitStart > UInt64.ofInt c.tStatusProhibit)

/-! ### The size of a report

`missing_size` and `status_size`, which the buffer status for MAC is computed with, go over the list
on their own. -/

/-- The bits of a NACK, by which of the optional parts it has. -/
def nackBitCount (m : MissingData) : ℕ :=
  let rBits := if c.snFieldLength = 18 then 3 else 1
  if m.snStart = m.snEnd then
    if m.whole then c.snFieldLength + 3 + rBits else c.snFieldLength + 3 + rBits + 16 * 2
  else
    if m.whole then c.snFieldLength + 3 + rBits + 8 else c.snFieldLength + 3 + rBits + 16 * 2 + 8

/-- The loop of `missing_size`: the size, the number of ranges and whether there was no more
room. -/
def missingSizeLoop (m : MissingData) (maxsize : ℤ) : ℕ → ℤ → ℤ → ℕ → ℤ → ℤ × ℕ × Bool
  | 0, _, _, rangeCount, size => (size, rangeCount, false)
  | fuel + 1, snStart, snCount, rangeCount, size =>
    if snCount = 0 then (size, rangeCount, false)
    else
      let range := nackRange c m snStart snCount
      if size + nackSize c range > maxsize then (size, rangeCount, true)
      else
        let count := min snCount 255
        missingSizeLoop m maxsize fuel ((snStart + count) % c.snModulus) (snCount - count)
          (rangeCount + 1) (size + (nackBitCount c range / 8 : ℕ))

def missingSize (m : MissingData) (size maxsize : ℤ) : ℤ × ℕ × Bool :=
  missingSizeLoop c m maxsize (snCount c m).toNat m.snStart (snCount c m) 0 size

/-- The loop of `status_size`. The head of the list is checked as long as there is no NACK. -/
def statusSizeLoop (s : AmRx) (maxsize : ℤ) : ℕ → List NrRlcPdu → ℕ → ℤ → ℤ
  | 0, _, _, size => size
  | _ + 1, [], _, size => size
  | fuel + 1, cur :: rest, nackCount, size =>
    match nextMissing c s cur rest (nackCount == 0) with
    | none => size
    | some (m, next) =>
      let (size, rangeCount, truncated) := missingSize c m size maxsize
      if truncated then size
      else statusSizeLoop s maxsize fuel next (nackCount + rangeCount) size

def statusSize (s : AmRx) (maxsize : ℤ) : ℤ :=
  if maxsize < 3 then 0 else statusSizeLoop c s maxsize (s.rxList.length + 1) s.rxList 0 3

end OaiRan.Rlc.Am
