import OaiRan.Lib.Keystream
import OaiRan.Nas.Message

/-!
# Protected NAS messages

The UE's side of NAS security (`nr_nas_msg.c`, `secu_defs.c`). The algorithms and the key derivation
are parameters (`NasAlgorithms`); the COUNTs are natural numbers, as they never get near `2 ^ 32`:
`nas_count_ul` is asserted to fit into 24 bits before it is used, and the program ends when
`nas_count_dl` does not.

A function is `none` where the program ends: an assertion that fails, `exit`, or a null pointer that
is read through. An octet behind the end of a PDU reads as 0.
-/

namespace OaiRan.Nas

open Keystream

/-- The security algorithms and the key derivation. -/
structure NasAlgorithms where
  /-- Byte `i` of the keystream of an algorithm. -/
  keystream (algorithm : ℕ) (key : List UInt8) (count direction i : ℕ) : UInt8
  /-- The MAC of a message. -/
  mac (algorithm : ℕ) (key : List UInt8) (count direction : ℕ) (message : List UInt8) : List UInt8
  length_mac (algorithm : ℕ) (key : List UInt8) (count direction : ℕ) (message : List UInt8) :
    (mac algorithm key count direction message).length = 4
  /-- What the buffer for a MAC holds if nothing is written into it. -/
  uninitialised (count direction : ℕ) (message : List UInt8) : List UInt8
  length_uninitialised (count direction : ℕ) (message : List UInt8) :
    (uninitialised count direction message).length = 4
  /-- `kamf` from the keys of the UICC and the Authentication Request. -/
  deriveKamf (uicc : Uicc) (pdu : List UInt8) : List UInt8
  /-- A NAS key from the type of the algorithm, its number and `kamf`. -/
  deriveKnas (algorithmType algorithm : ℕ) (kamf : List UInt8) : List UInt8

/-- `stream_security_container_t`; a context is the key it was made of, and there is none for
algorithm 0. -/
structure StreamSecurityContainer where
  (cipheringAlgorithm integrityAlgorithm : ℕ)
  (cipheringKey integrityKey : List UInt8)
  deriving DecidableEq, Repr

def streamSecurityContainerInit (cipheringAlgorithm integrityAlgorithm : ℕ)
    (cipheringKey integrityKey : List UInt8) : Option StreamSecurityContainer :=
  if cipheringAlgorithm ≤ 2 ∧ integrityAlgorithm ≤ 2 then
    some ⟨cipheringAlgorithm, integrityAlgorithm, cipheringKey, integrityKey⟩
  else none

variable (a : NasAlgorithms)

namespace StreamSecurityContainer

/-- `stream_compute_encrypt`, which is also used to decipher. -/
def encrypt (k : StreamSecurityContainer) (count direction : ℕ) (message : List UInt8) :
    List UInt8 :=
  if k.cipheringAlgorithm = 0 then message
  else xorStream (a.keystream k.cipheringAlgorithm k.cipheringKey count direction) message

/-- The buffer after `stream_compute_integrity`, which computes nothing for algorithm 0. -/
def integrity (k : StreamSecurityContainer) (count direction : ℕ) (message : List UInt8) :
    List UInt8 :=
  if k.integrityAlgorithm = 0 then a.uninitialised count direction message
  else a.mac k.integrityAlgorithm k.integrityKey count direction message

variable {a} (k : StreamSecurityContainer) (count direction : ℕ) (message : List UInt8)

@[simp] theorem length_encrypt : (k.encrypt a count direction message).length = message.length := by
  rw [encrypt]
  split
  · rfl
  · exact length_xorStream _ _

@[simp] theorem encrypt_encrypt :
    k.encrypt a count direction (k.encrypt a count direction message) = message := by
  rw [encrypt, encrypt]
  split
  · rfl
  · exact xorStream_xorStream _ _

@[simp] theorem length_integrity : (k.integrity a count direction message).length = 4 := by
  rw [integrity]
  split
  · exact a.length_uninitialised ..
  · exact a.length_mac ..

/-- The four octets of a MAC. -/
theorem exists_integrity_eq : ∃ m₀ m₁ m₂ m₃, k.integrity a count direction message =
    [m₀, m₁, m₂, m₃] := by
  have hlen := length_integrity (a := a) k count direction message
  generalize k.integrity a count direction message = l at hlen ⊢
  rcases l with - | ⟨m₀, - | ⟨m₁, - | ⟨m₂, - | ⟨m₃, - | ⟨m₄, l⟩⟩⟩⟩⟩
  all_goals try (simp only [List.length_cons, List.length_nil] at hlen; omega)
  exact ⟨m₀, m₁, m₂, m₃, rfl⟩

end StreamSecurityContainer

/-- `nr_ue_nas_t` and what is used of `ue_sa_security_key_t`. -/
structure NrUeNas where
  uicc : Uicc
  kamf : List UInt8 := List.replicate 32 0
  nasCountUl : ℕ := 0
  nasCountDl : ℕ := 0
  securityContainer : Option StreamSecurityContainer := none
  guti : Option Guti := none
  registrationRequestBuf : List UInt8 := []
  deriving DecidableEq, Repr

/-! ### Downlink -/

/-- `security_state_t` -/
inductive SecurityState
  | noSecurityContext
  | unprotected
  | integrityFailed
  | integrityPassed
  | badInput
  deriving DecidableEq, Repr

/-- Synchronize the NAS SQN: the COUNT from `nas_count_dl` on that ends in `nas_sqn`. -/
def synchronizeSqn (nasCountDl nasSqn : ℕ) : ℕ :=
  let targetSqn := nasCountDl &&& 0xff
  if nasSqn ≠ targetSqn then
    let count := if nasSqn < targetSqn then nasCountDl + 256 else nasCountDl
    (count >>> 8) <<< 8 ||| nasSqn
  else nasCountDl

/-- The COUNT is stored before the MAC is checked. -/
def nasSecurityRxProcess (nas : NrUeNas) (pdu : List UInt8) :
    Option (NrUeNas × SecurityState × List UInt8) :=
  match nas.securityContainer with
  | none => some (nas, .noSecurityContext, pdu)
  | some k =>
    if pdu.getD 1 0 = 0 then some (nas, .unprotected, pdu)
    -- header is 7 bytes, require at least one byte of payload
    else if pdu.length < 8 then some (nas, .badInput, pdu)
    -- only accept "integrity protected and ciphered" messages
    else if pdu.getD 1 0 ≠ 2 then some (nas, .badInput, pdu)
    else
      let count := synchronizeSqn nas.nasCountDl (pdu.getD 6 0).toNat
      let nas := { nas with nasCountDl := count }
      if count > 0xffffff then none
      else if (pdu.drop 2).take 4 ≠ k.integrity a count 1 (pdu.drop 6) then
        some (nas, .integrityFailed, pdu)
      else
        some ({ nas with nasCountDl := count + 1 }, .integrityPassed,
          pdu.take 7 ++ k.encrypt a count 1 (pdu.drop 7))

/-- The type of a message, 0 if it is too short. The message in a DL NAS Transport counts. -/
def getMsgType (pdu : List UInt8) : UInt8 :=
  if pdu.length < 2 then 0
  else if pdu.getD 1 0 = 0 then
    if pdu.length < 3 then 0 else pdu.getD 2 0
  else if pdu.length < 10 then 0
  else if pdu.getD 9 0 = fgsDownlinkNasTransport then
    if pdu.length < 17 then 0 else pdu.getD 16 0
  else pdu.getD 9 0

/-! ### Uplink -/

/-- `nas_protected_security_header_encode` -/
def nasProtectedSecurityHeaderEncode (type : SecurityHeaderType) (messageAuthenticationCode : ℕ)
    (sequenceNumber : UInt8) : List UInt8 :=
  [fgsMobilityManagementMessage, type.toOctet] ++
    ByteOrder.beBytes 4 messageAuthenticationCode ++ [sequenceNumber]

/-- The messages that are sent with protection. -/
inductive ProtectedType
  | securityModeComplete
  | registrationComplete
  | serviceRequest
  | deregistrationRequest
  | pduSessionEstablishmentRequest
  deriving DecidableEq, Repr

/-- A protected message as it is sent, with the plain encoding it was made of and the keys and the
COUNT that were used. -/
structure ProtectedMessage where
  type : ProtectedType
  container : StreamSecurityContainer
  count : ℕ
  (plain pdu : List UInt8)
  deriving DecidableEq, Repr

/-- Encode the header, cipher what follows it, authenticate from the sequence number on and increment
the COUNT. -/
def protect (nas : NrUeNas) (type : ProtectedType) (header : SecurityHeaderType)
    (plain : List UInt8) : Option (NrUeNas × ProtectedMessage) := do
  let k ← nas.securityContainer
  if nas.nasCountUl > 0xffffff then none
  else
    let count := nas.nasCountUl
    let data := nasProtectedSecurityHeaderEncode header 0 (UInt8.ofNat (count &&& 0xff)) ++ plain
    -- ciphering
    let data := data.take 7 ++ k.encrypt a count 0 (data.drop 7)
    -- integrity protection
    let mac := k.integrity a count 0 (data.drop 6)
    let data := data.take 2 ++ mac ++ data.drop 6
    some ({ nas with nasCountUl := count + 1 }, ⟨type, k, count, plain, data⟩)

/-- The PDU that is made of a plain encoding. -/
def protectedPdu (k : StreamSecurityContainer) (count : ℕ) (header : SecurityHeaderType)
    (plain : List UInt8) : List UInt8 :=
  let authenticated := UInt8.ofNat (count &&& 0xff) :: k.encrypt a count 0 plain
  [fgsMobilityManagementMessage, header.toOctet] ++
    (k.integrity a count 0 authenticated ++ authenticated)

variable {a}

/-- **What `protect` does**: it takes the next COUNT, and nothing else of the state changes. -/
theorem protect_eq_some {header : SecurityHeaderType}
    (h : protect a nas type header plain = some (nas', m)) :
    ∃ k, nas.securityContainer = some k ∧ nas' = { nas with nasCountUl := nas.nasCountUl + 1 } ∧
      m = ⟨type, k, nas.nasCountUl, plain, protectedPdu a k nas.nasCountUl header plain⟩ := by
  obtain ⟨k, hk, h⟩ := Option.bind_eq_some_iff.1 h
  split at h
  · cases h
  · cases h
    exact ⟨k, hk, rfl, rfl⟩

end OaiRan.Nas
