import OaiRan.Lib.OrderedChain
import OaiRan.Lib.StepSystem
import Mathlib.Tactic.Ring

/-!
# The PDCP entity

`nr_pdcp_entity.c` and `nr_pdcp_sdu.c`. A COUNT is a `uint32_t`: a natural number, with every
operation that can leave the range reduced modulo `2 ^ 32`. The ciphering and integrity algorithms
are parameters (`PdcpAlgorithms`): a keystream that is XORed to the data, and a function that
computes the four bytes of MAC-I.

`deliver_sdu` is an upper layer callback; the calls made so far are kept in the state, as the list
cells that were handed over. Statistics, `rx_size` and the discard timer are left out: nothing
reads them.
-/

namespace OaiRan.Pdcp

inductive NrPdcpEntityType
  | drbAm
  | drbUm
  | srb
  deriving DecidableEq, Repr

/-- The security algorithms, by number and key. -/
structure PdcpAlgorithms where
  /-- Byte `i` of the keystream for a key, a bearer, a COUNT and a direction. -/
  keystream (algorithm : ℤ) (key : List UInt8) (bearer : ℤ) (count : ℕ) (direction : Bool) (i : ℕ) :
    UInt8
  /-- MAC-I of a message. -/
  macI (algorithm : ℤ) (key message : List UInt8) (bearer : ℤ) (count : ℕ) (direction : Bool) :
    List UInt8
  length_macI (algorithm : ℤ) (key message : List UInt8) (bearer : ℤ) (count : ℕ)
    (direction : Bool) : (macI algorithm key message bearer count direction).length = 4

/-- What `new_nr_pdcp_entity` is given, security apart. -/
structure PdcpConfig where
  type : NrPdcpEntityType
  isGnb : Bool
  rbId : ℤ
  (hasSdapRx hasSdapTx : Bool)
  snSize : ℕ
  tReordering : ℤ
  snSize_eq : snSize = 12 ∨ snSize = 18

namespace PdcpConfig

/-- `(1 << sn_size) - 1` -/
def snMax (c : PdcpConfig) : ℕ := 1 <<< c.snSize - 1

def windowSize (c : PdcpConfig) : ℕ := 1 <<< (c.snSize - 1)

/-- `SHORT_PDCP_HEADER_SIZE` or `LONG_PDCP_HEADER_SIZE`. -/
def headerSize (c : PdcpConfig) : ℕ := if c.snSize = 12 then 2 else 3

end PdcpConfig

/-- `nr_pdcp_entity_security_keys_and_algos_t` -/
structure SecurityKeysAndAlgos where
  (integrityAlgorithm cipheringAlgorithm : ℤ)
  (integrityKey cipheringKey : List UInt8)
  deriving DecidableEq, Repr

structure PdcpSecurity where
  hasCiphering : Bool := false
  hasIntegrity : Bool := false
  keysAndAlgos : SecurityKeysAndAlgos := ⟨0, 0, [], []⟩
  deriving DecidableEq, Repr

/-- The header and MAC-I of a message, for the upper layer. -/
structure NrPdcpIntegrityData where
  count : ℕ := 0
  mac : List UInt8 := []
  header : List UInt8 := []
  deriving DecidableEq, Repr

structure NrPdcpSdu where
  count : ℕ
  buffer : List UInt8
  msgIntegrity : NrPdcpIntegrityData
  deriving DecidableEq, Repr

structure NrPdcpEntity where
  security : PdcpSecurity := {}
  txNext : ℕ := 0
  rxNext : ℕ := 0
  rxDeliv : ℕ := 0
  rxReord : ℕ := 0
  tCurrent : UInt64 := 0
  tReorderingStart : UInt64 := 0
  rxList : List NrPdcpSdu := []
  entitySuspended : Bool := false
  delivered : List NrPdcpSdu := []
  deriving DecidableEq, Repr

/-! ### The reordering list -/

/-- Order is by `count`. -/
def nrPdcpSduListAdd (l : List NrPdcpSdu) (sdu : NrPdcpSdu) : List NrPdcpSdu :=
  OrderedChain.insertBefore (fun cur ↦ sdu.count < cur.count) sdu l

def nrPdcpSduInList (l : List NrPdcpSdu) (count : ℕ) : Bool := l.any fun sdu ↦ sdu.count == count

/-! ### Security -/

/-- `NR_K_KEY_SIZE` bytes are copied if an algorithm is given, and -1 keeps what there is. Only the
algorithms 1 and 2 are there; the rest is `exit(1)`. -/
def setSecurity (s : PdcpSecurity) (parameters : SecurityKeysAndAlgos) : Option PdcpSecurity :=
  let supported (algorithm : ℤ) : Bool := algorithm ∈ [-1, 0, 1, 2]
  if supported parameters.integrityAlgorithm && supported parameters.cipheringAlgorithm then
    let integrity (s : PdcpSecurity) : PdcpSecurity :=
      if parameters.integrityAlgorithm = -1 then s
      else { s with
        hasIntegrity := parameters.integrityAlgorithm != 0
        keysAndAlgos := { s.keysAndAlgos with
          integrityAlgorithm := parameters.integrityAlgorithm
          integrityKey := parameters.integrityKey } }
    let ciphering (s : PdcpSecurity) : PdcpSecurity :=
      if parameters.cipheringAlgorithm = -1 then s
      else { s with
        hasCiphering := parameters.cipheringAlgorithm != 0
        keysAndAlgos := { s.keysAndAlgos with
          cipheringAlgorithm := parameters.cipheringAlgorithm
          cipheringKey := parameters.cipheringKey } }
    some (ciphering (integrity s))
  else none

variable (a : PdcpAlgorithms) (c : PdcpConfig)

/-- Cipher the bytes of a buffer from `offset` on. -/
def cipher (s : PdcpSecurity) (buffer : List UInt8) (offset count : ℕ) (direction : Bool) :
    List UInt8 :=
  buffer.take offset ++ (buffer.drop offset).mapIdx fun i b ↦
    b ^^^ a.keystream s.keysAndAlgos.cipheringAlgorithm s.keysAndAlgos.cipheringKey c.rbId count
      direction i

def integrity (s : PdcpSecurity) (message : List UInt8) (count : ℕ) (direction : Bool) :
    List UInt8 :=
  a.macI s.keysAndAlgos.integrityAlgorithm s.keysAndAlgos.integrityKey message c.rbId count direction

/-- SRBs always have MAC-I, even if integrity is not active. -/
def integritySize (s : PdcpSecurity) : ℕ :=
  if s.hasIntegrity || c.type == .srb then 4 else 0

/-! ### PDUs out -/

/-- The D/C bit is only to be set for DRBs. -/
def dcBit : ℕ := if c.type = .drbAm ∨ c.type = .drbUm then 0x80 else 0

def pduHeader (sn : ℕ) : List UInt8 :=
  if c.snSize = 12 then
    [UInt8.ofNat (dcBit c ||| ((sn >>> 8) &&& 0xf)), UInt8.ofNat (sn &&& 0xff)]
  else
    [UInt8.ofNat (dcBit c ||| ((sn >>> 16) &&& 0x3)), UInt8.ofNat ((sn >>> 8) &&& 0xff),
      UInt8.ofNat (sn &&& 0xff)]

/-- MAC-I is 0 for SRBs with integrity not active. -/
def appendMacI (s : PdcpSecurity) (message : List UInt8) (count : ℕ) : List UInt8 :=
  if s.hasIntegrity then message ++ integrity a c s message count c.isGnb
  else if integritySize c s = 4 then message ++ [0, 0, 0, 0]
  else message

namespace NrPdcpEntity

/-- The PDU, `none` if the entity is suspended. The caller's PDU buffer is large enough. -/
def processSdu (e : NrPdcpEntity) (buffer : List UInt8) : NrPdcpEntity × Option (List UInt8) :=
  if e.entitySuspended then (e, none)
  else
    let count := e.txNext
    let sn := e.txNext &&& c.snMax
    let sdapHeaderSize := c.hasSdapTx.toNat
    let pdu := appendMacI a c e.security (pduHeader c sn ++ buffer) count
    let pdu :=
      if e.security.hasCiphering then
        cipher a c e.security pdu (c.headerSize + sdapHeaderSize) count c.isGnb
      else pdu
    ({ e with txNext := (e.txNext + 1) % 2 ^ 32 }, some pdu)

end NrPdcpEntity

/-! ### PDUs in -/

/-- The SN in the header of a PDU. -/
def rcvdSn (buffer : List UInt8) : ℕ :=
  let byte (i : ℕ) : ℕ := (buffer.getD i 0).toNat
  if c.snSize = 12 then ((byte 0 &&& 0xf) <<< 8) ||| byte 1
  else ((byte 0 &&& 0x3) <<< 16) ||| (byte 1 <<< 8) ||| byte 2

/-- The COUNT that an SN stands for, as seen from `rx_deliv`. -/
def rcvdCount (rxDeliv sn : ℕ) : ℕ :=
  let rxDelivSn := rxDeliv &&& c.snMax
  let rxDelivHfn := rxDeliv >>> c.snSize
  let rcvdHfn :=
    if (sn : ℤ) < (rxDelivSn : ℤ) - c.windowSize then (rxDelivHfn + 1) % 2 ^ 32
    else if sn ≥ rxDelivSn + c.windowSize then (rxDelivHfn + (2 ^ 32 - 1)) % 2 ^ 32
    else rxDelivHfn
  ((rcvdHfn <<< c.snSize) % 2 ^ 32) ||| sn

/-- Deliver all SDUs from `count` on up to a discontinuity or the end of the list: what is
delivered, the next COUNT and the rest of the list. -/
def deliverRun : ℕ → List NrPdcpSdu → List NrPdcpSdu × ℕ × List NrPdcpSdu
  | count, [] => ([], count, [])
  | count, cur :: l =>
    if count = cur.count then
      let (run, next, rest) := deliverRun ((count + 1) % 2 ^ 32) l
      (cur :: run, next, rest)
    else ([], count, cur :: l)

/-- The D/C bit of a PDU for a DRB is forced to 1. -/
def forceDcBit (buffer : List UInt8) : List UInt8 :=
  if c.type = .srb then buffer else buffer.modify 0 fun b ↦ b ||| 0x80

/-- The PDU is not too small. -/
def longEnough (s : PdcpSecurity) (buffer : List UInt8) : Bool :=
  buffer.length ≥ c.headerSize + c.hasSdapRx.toNat + integritySize c s + 1

/-- The MAC-I, header and COUNT, which some RRC procedures need. -/
def storeIntegrityData (s : PdcpSecurity) (buffer : List UInt8) (count : ℕ) : NrPdcpIntegrityData :=
  if s.hasIntegrity || c.type == .srb then
    { count := count
      mac := buffer.drop (buffer.length - 4)
      header := buffer.take c.headerSize }
  else {}

/-- The PDU deciphered. -/
def decipher (s : PdcpSecurity) (buffer : List UInt8) (count : ℕ) : List UInt8 :=
  if s.hasCiphering then
    cipher a c s buffer (c.headerSize + c.hasSdapRx.toNat) count (!c.isGnb)
  else buffer

/-- Does MAC-I agree, if there is integrity? -/
def checkMacI (s : PdcpSecurity) (buffer : List UInt8) (count : ℕ) : Bool :=
  let size := buffer.length - integritySize c s
  !s.hasIntegrity || integrity a c s (buffer.take size) count (!c.isGnb) == buffer.drop size

/-- Stop and reset `t_reordering` if there is nothing left to wait for. -/
def stopTReordering (e : NrPdcpEntity) : NrPdcpEntity :=
  if e.tReorderingStart ≠ 0 ∧ e.rxDeliv ≥ e.rxReord then { e with tReorderingStart := 0 } else e

/-- Start `t_reordering`, if there is a gap. -/
def startTReordering (e : NrPdcpEntity) : NrPdcpEntity :=
  if e.rxDeliv < e.rxNext then { e with rxReord := e.rxNext, tReorderingStart := e.tCurrent } else e

def updateTReordering (e : NrPdcpEntity) : NrPdcpEntity :=
  let e := stopTReordering e
  if e.tReorderingStart = 0 then startTReordering e else e

/-- The SDU is put into the list. -/
def storeSdu (e : NrPdcpEntity) (sdu : NrPdcpSdu) : NrPdcpEntity :=
  { e with
    rxList := nrPdcpSduListAdd e.rxList sdu
    rxNext := if sdu.count ≥ e.rxNext then (sdu.count + 1) % 2 ^ 32 else e.rxNext }

/-- The SDUs from `count` on are delivered, up to a discontinuity. -/
def deliverFrom (e : NrPdcpEntity) (count : ℕ) : NrPdcpEntity :=
  let (run, next, rest) := deliverRun count e.rxList
  { e with delivered := e.delivered ++ run, rxList := rest, rxDeliv := next }

/-- The SDU is stored, and delivered with what follows it if it is the next one. -/
def receiveSdu (e : NrPdcpEntity) (sdu : NrPdcpSdu) : NrPdcpEntity :=
  if sdu.count = e.rxDeliv then deliverFrom (storeSdu e sdu) e.rxDeliv else storeSdu e sdu

/-- What a PDU of enough bytes stands for: its COUNT and, if MAC-I agrees, the SDU. -/
def readPdu (s : PdcpSecurity) (rxDeliv : ℕ) (buffer : List UInt8) : Option NrPdcpSdu :=
  let count := rcvdCount c rxDeliv (rcvdSn c buffer)
  let msgIntegrity := storeIntegrityData c s buffer count
  let buffer := decipher a c s buffer count
  if checkMacI a c s buffer count then
    some ⟨count, (buffer.take (buffer.length - integritySize c s)).drop c.headerSize, msgIntegrity⟩
  else none

namespace NrPdcpEntity

def recvPdu (e : NrPdcpEntity) (buffer : List UInt8) : NrPdcpEntity :=
  if e.entitySuspended then e
  else if buffer.length < 1 then e
  else
    let buffer := forceDcBit c buffer
    if !longEnough c e.security buffer then e
    else
      match readPdu a c e.security e.rxDeliv buffer with
      | none => e
      | some sdu =>
        if sdu.count < e.rxDeliv || nrPdcpSduInList e.rxList sdu.count then e
        else updateTReordering (receiveSdu e sdu)

/-! ### Timers, suspension and re-establishment -/

/-- `t_reordering` is running and has expired; -1 is infinity. -/
def tReorderingExpired (e : NrPdcpEntity) : Bool :=
  !(c.tReordering == -1 || e.tReorderingStart == 0 ||
    e.tCurrent ≤ e.tReorderingStart + UInt64.ofInt c.tReordering)

/-- Deliver all SDUs with a COUNT below `rx_reord`. -/
def deliverBelow (e : NrPdcpEntity) : NrPdcpEntity :=
  let below (sdu : NrPdcpSdu) : Bool := sdu.count < e.rxReord
  { e with
    delivered := e.delivered ++ e.rxList.takeWhile below, rxList := e.rxList.dropWhile below }

def checkTReordering (e : NrPdcpEntity) : NrPdcpEntity :=
  if !tReorderingExpired c e then e
  else startTReordering (deliverFrom (deliverBelow { e with tReorderingStart := 0 }) e.rxReord)

def setTime (e : NrPdcpEntity) (now : UInt64) : NrPdcpEntity :=
  checkTReordering c { e with tCurrent := now }

def deliverAllSdus (e : NrPdcpEntity) : NrPdcpEntity :=
  { e with delivered := e.delivered ++ e.rxList, rxList := [] }

/-- Stored SDUs are delivered only if `t_reordering` is running. -/
def suspend (e : NrPdcpEntity) : NrPdcpEntity :=
  let e :=
    if e.tReorderingStart ≠ 0 then deliverAllSdus { e with tReorderingStart := 0 } else e
  { e with txNext := 0, rxNext := 0, rxDeliv := 0, entitySuspended := true }

/-- The receiving and transmitting side of re-establishment, which differ by the type. -/
def reestablishState (e : NrPdcpEntity) : NrPdcpEntity :=
  match c.type with
  | .drbAm => e
  | .drbUm =>
    let e := if e.tReorderingStart ≠ 0 then deliverAllSdus e else e
    { e with txNext := 0, tReorderingStart := 0, rxNext := 0, rxDeliv := 0 }
  | .srb => { e with txNext := 0, rxList := [], tReorderingStart := 0, rxNext := 0, rxDeliv := 0 }

def reestablish (e : NrPdcpEntity) (parameters : SecurityKeysAndAlgos) : Option NrPdcpEntity :=
  let e := reestablishState c e
  (setSecurity e.security parameters).map fun security ↦
    { e with security := security, entitySuspended := false }

end NrPdcpEntity

end OaiRan.Pdcp
