import OaiRan.Rlc.Sdu
import OaiRan.Rlc.Reassembly

/-!
# The acknowledged-mode entity: state

`nr_rlc_entity_am.h`. The record is split as in the unacknowledged mode: the receiving part
(`AmRx`), the transmitting part (`AmTx`), the clock and the log counters they share, and the
parameters that creation sets (`AmConfig`). Calls to the upper layer are kept in the state:
`delivered` is what was passed to `deliver_sdu`, `acked` the identifiers passed to
`sdu_successful_delivery` and `maxRetxReached` counts the calls of `max_retx_reached`;
`reassembled` has the SN and the cells of every run of `reassemble_and_deliver`. Statistics are
left out; nothing reads them.

`tx_end` is always the last cell of `tx_list` and is left out. `wait_end` is not always the last
cell of `wait_list`, so it is kept, as an address: `none` is `NULL`.
-/

namespace OaiRan.Rlc.Am

/-- The configuration of the entity. -/
structure AmConfig where
  (tPollRetransmit tReassembly tStatusProhibit pollPdu pollByte maxRetxThreshold : ℤ)
  snFieldLength : ℕ
  (snModulus windowSize rxMaxsize txMaxsize : ℤ)

/-- The parameters of `new_nr_rlc_entity_am`, with what it asserts of them. -/
structure AmParams where
  (rxMaxsize txMaxsize tPollRetransmit tReassembly tStatusProhibit pollPdu pollByte : ℤ)
  maxRetxThreshold : ℤ
  snFieldLength : ℕ
  snFieldLength_eq : snFieldLength = 12 ∨ snFieldLength = 18

def AmParams.config (p : AmParams) : AmConfig where
  tPollRetransmit := p.tPollRetransmit
  tReassembly := p.tReassembly
  tStatusProhibit := p.tStatusProhibit
  pollPdu := p.pollPdu
  pollByte := p.pollByte
  maxRetxThreshold := p.maxRetxThreshold
  snFieldLength := p.snFieldLength
  snModulus := 1 <<< p.snFieldLength
  windowSize := (1 <<< p.snFieldLength) / 2
  rxMaxsize := p.rxMaxsize
  txMaxsize := p.txMaxsize

/-- What creation guarantees about the SN space: the window is half of it. -/
structure AmConfig.Sane (c : AmConfig) : Prop where
  snFieldLength_eq : c.snFieldLength = 12 ∨ c.snFieldLength = 18
  snModulus_eq_pow : c.snModulus = 2 ^ c.snFieldLength
  snModulus_eq : c.snModulus = 2 * c.windowSize
  two_le : 2 ≤ c.windowSize

theorem AmParams.sane (p : AmParams) : p.config.Sane := by
  rcases p.snFieldLength_eq with h | h <;> constructor <;> simp [AmParams.config, h]

theorem AmConfig.Sane.pos {c : AmConfig} (h : c.Sane) : 0 < c.snModulus := by
  have := h.two_le
  rw [h.snModulus_eq]
  omega

structure AmRx where
  rxNext : ℤ := 0
  rxNextStatusTrigger : ℤ := 0
  rxHighestStatus : ℤ := 0
  rxNextHighest : ℤ := 0
  statusTriggered : Bool := false
  tReassemblyStart : UInt64 := 0
  tStatusProhibitStart : UInt64 := 0
  rxList : List NrRlcPdu := []
  rxSize : ℤ := 0
  delivered : List (List (Option UInt8)) := []
  reassembled : List (ℤ × List NrRlcPdu) := []

structure AmTx where
  txNext : ℤ := 0
  txNextAck : ℤ := 0
  pollSn : ℤ := 0
  pduWithoutPoll : ℤ := 0
  byteWithoutPoll : ℤ := 0
  forcePoll : Bool := false
  tPollRetransmitStart : UInt64 := 0
  txList : List NrRlcSduSegment := []
  txSize : ℤ := 0
  waitList : List NrRlcSduSegment := []
  waitEnd : Option ℕ := none
  retransmitList : List NrRlcSduSegment := []
  bstatusTxSize : ℤ := 0
  bstatusRetxSize : ℤ := 0
  heap : SduHeap := .empty
  acked : List ℤ := []
  maxRetxReached : ℕ := 0

structure NrRlcEntityAm where
  rx : AmRx := {}
  tx : AmTx := {}
  tCurrent : UInt64 := 0
  tLogBufferFull : UInt64 := 0
  sduRejected : ℤ := 0

variable (c : AmConfig)

/-- For a given SDU/SDU segment, the corresponding PDU header size. -/
def computePduHeaderSize (g : NrRlcSduSegment) : ℤ :=
  2 + (if c.snFieldLength == 18 then 1 else 0) + (if !g.isFirst then 2 else 0)

/-- `if (r < 0) r += sn_modulus` -/
def wrap (r : ℤ) : ℤ := if r < 0 then r + c.snModulus else r

/-- As per 38.322 7.1, the modulus base is `rx_next`. -/
def modulusRx (s : AmRx) (a : ℤ) : ℤ := wrap c (a - s.rxNext)

def modulusTx (s : AmTx) (a : ℤ) : ℤ := wrap c (a - s.txNextAck)

/-- We simplify `rx_next <= sn < rx_next + am_window_size`. -/
def snInRecvWindow (s : AmRx) (sn : ℤ) : Bool := modulusRx c s sn < c.windowSize

def snCompareRx (s : AmRx) (a b : ℤ) : ℤ := modulusRx c s a - modulusRx c s b

def snCompareTx (s : AmTx) (a b : ℤ) : ℤ := modulusTx c s a - modulusTx c s b

end OaiRan.Rlc.Am
