import OaiRan.Nfapi.Indication

/-!
# TX_DATA.request

The packer and the unpacker of the transport blocks (`nr_fapi_p7.c`). The payload of a TLV is an array
of words in the message (tag 0) or in dynamic memory (tag 1); with tag 2 the packer sends an offset
instead, which the unpacker does not accept in this build.

Both sides compute the number of words from the length with 32 bits (`wordLen`). For a length close
to `2 ^ 32` the sum wraps, and **the payload is not sent**; every other one arrives
(`unpackTxDataRequest_packTxDataRequest`).
-/

namespace OaiRan.Nfapi

open Codec

/-- `nfapi_nr_tx_data_request_tlv_t`, with the words that `direct` or `ptr` holds. -/
structure NrTxDataRequestTlv where
  tag : UInt16
  length : UInt32
  value : List UInt32

/-- `nfapi_nr_pdu_t`. -/
structure NrTxDataPdu where
  pduLength : UInt32
  pduIndex : UInt16
  numTlv : UInt32
  tlvs : CArray 2 numTlv.toNat NrTxDataRequestTlv

structure NrTxDataRequest where
  (sfn slot numberOfPdus : UInt16)
  pduList : CArray 16 numberOfPdus.toNat NrTxDataPdu

/-- The number of words in `direct`. -/
def maxDirectWords : ℕ := 38016

/-- The body of the loop in `pack_tx_data_pdu_list_value`; an invalid tag is only reported. -/
def packTxDataTlv (payloadOffset : UInt32) (tlv : NrTxDataRequestTlv) : Put UInt32 := do
  push16 tlv.tag
  push32 tlv.length
  let byteLen := wordLen tlv.length
  if tlv.tag = 0 ∨ tlv.tag = 1 then do
    pusharray32 tlv.value byteLen
    pure payloadOffset
  else if tlv.tag = 2 then do
    push32 payloadOffset
    pure (payloadOffset + tlv.length)
  else pure payloadOffset

def packTxDataPduListValue (payloadOffset : UInt32) (value : NrTxDataPdu) : Put UInt32 := do
  push32 value.pduLength
  push16 value.pduIndex
  push32 value.numTlv
  foldVec packTxDataTlv payloadOffset value.tlvs.entries

def packTxDataRequest (msg : NrTxDataRequest) : Put NrTxDataRequest := do
  push16 msg.sfn
  push16 msg.slot
  push16 msg.numberOfPdus
  let _ ← foldVec packTxDataPduListValue 0 msg.pduList.entries
  pure msg

/-- The `switch` of `unpack_tx_data_pdu_list_value`. -/
def unpackTxDataValue (tag : UInt16) (byteLen : ℕ) : Get (List UInt32) :=
  if tag = 0 then do
    let direct ← pullarray32 maxDirectWords byteLen
    pure direct.toList
  else if tag = 1 then do
    let ptr ← pullarray32 byteLen byteLen
    pure ptr.toList
  else fail

/-- The body of the loop in `unpack_tx_data_pdu_list_value`. -/
def unpackTxDataTlv : Get NrTxDataRequestTlv := do
  let tag ← pull16
  let length ← pull32
  let value ← unpackTxDataValue tag (wordLen length)
  pure { tag, length, value }

def unpackTxDataPduListValue : Get NrTxDataPdu := do
  let pduLength ← pull32
  let pduIndex ← pull16
  let numTlv ← pull32
  let tlvs ← pullArray 2 unpackTxDataTlv numTlv.toNat
  pure { pduLength, pduIndex, numTlv, tlvs }

def unpackTxDataRequest : Get NrTxDataRequest := do
  let sfn ← pull16
  let slot ← pull16
  let numberOfPdus ← pull16
  let pduList ← pullArray 16 unpackTxDataPduListValue numberOfPdus.toNat
  pure { sfn, slot, numberOfPdus, pduList }

/-! ### What arrives -/

/-- The tag is one that both sides know, and the words are those that hold `length` bytes. -/
structure NrTxDataRequestTlv.WellFormed (tlv : NrTxDataRequestTlv) : Prop where
  tag : tlv.tag = 0 ∨ tlv.tag = 1
  words : tlv.value.length = (tlv.length.toNat + 3) / 4
  direct : tlv.tag = 0 → tlv.value.length ≤ maxDirectWords

def NrTxDataRequestTlv.received (tlv : NrTxDataRequestTlv) : NrTxDataRequestTlv :=
  { tlv with value := tlv.value.take (wordLen tlv.length) }

/-- The length leaves room for rounding up. -/
def NrTxDataRequestTlv.Carried (tlv : NrTxDataRequestTlv) : Prop := tlv.length.toNat + 3 < 2 ^ 32

variable {tlv : NrTxDataRequestTlv} {msg : NrTxDataRequest}

theorem NrTxDataRequestTlv.WellFormed.wordLen_le (h : tlv.WellFormed) :
    wordLen tlv.length ≤ tlv.value.length := by
  rw [wordLen, h.words]
  exact Nat.div_le_div_right (Nat.mod_le _ _)

theorem NrTxDataRequestTlv.received_eq_iff (h : tlv.WellFormed) :
    tlv.received = tlv ↔ tlv.Carried := by
  have htake : tlv.received = tlv ↔ tlv.value.length ≤ wordLen tlv.length := by
    rw [← List.take_eq_self_iff]
    exact ⟨congrArg value, fun h ↦ by rw [received, h]⟩
  rw [htake, h.words, wordLen, Carried]
  omega

theorem carries_txDataValue (h : tlv.WellFormed) :
    Carries (pusharray32 tlv.value (wordLen tlv.length))
      (unpackTxDataValue tlv.tag (wordLen tlv.length)) tlv.received.value := by
  rw [unpackTxDataValue]
  rcases h.tag with htag | htag
  · rw [if_pos htag]
    exact (carries_pusharray32 tlv.value (h.wordLen_le.trans (h.direct htag)) h.wordLen_le).map _
  · rw [if_neg (by rw [htag]; decide), if_pos htag]
    exact (carries_pusharray32 tlv.value le_rfl h.wordLen_le).map _

theorem faithful_packTxDataTlv (h : tlv.WellFormed) (payloadOffset : UInt32) :
    Faithful (packTxDataTlv payloadOffset tlv) unpackTxDataTlv fun _ ↦ tlv.received := by
  rw [packTxDataTlv]
  simp only [if_pos h.tag]
  exact (carries_push16 _).bind_faithful <| (carries_push32 _).bind_faithful <|
    (carries_txDataValue h).returns rfl

def NrTxDataPdu.received (value : NrTxDataPdu) : NrTxDataPdu :=
  { value with tlvs := value.tlvs.map NrTxDataRequestTlv.received }

/-- Every TLV of every PDU. -/
def NrTxDataRequest.Forall (P : NrTxDataRequestTlv → Prop) (msg : NrTxDataRequest) : Prop :=
  ∀ value ∈ msg.pduList.entries.toList, ∀ tlv ∈ value.tlvs.entries.toList, P tlv

theorem NrTxDataPdu.received_eq_iff {value : NrTxDataPdu}
    (h : ∀ tlv ∈ value.tlvs.entries.toList, tlv.WellFormed) :
    value.received = value ↔ ∀ tlv ∈ value.tlvs.entries.toList, tlv.Carried := by
  have htlvs : value.received = value ↔ value.tlvs.map NrTxDataRequestTlv.received = value.tlvs := by
    obtain ⟨_, _, _, tlvs⟩ := value
    simp [received]
  rw [htlvs, CArray.map_eq_self_iff]
  exact forall₂_congr fun tlv htlv ↦ NrTxDataRequestTlv.received_eq_iff (h tlv htlv)

theorem faithful_packTxDataPduListValue {value : NrTxDataPdu}
    (h : ∀ tlv ∈ value.tlvs.entries.toList, tlv.WellFormed) (payloadOffset : UInt32) :
    Faithful (packTxDataPduListValue payloadOffset value) unpackTxDataPduListValue
      fun _ ↦ value.received :=
  (carries_push32 _).bind_faithful <| (carries_push16 _).bind_faithful <|
    (carries_push32 _).bind_faithful <| (Faithful.foldArray payloadOffset value.tlvs
      fun c tlv htlv ↦ faithful_packTxDataTlv (h tlv htlv) c).last fun _ ↦ rfl

def NrTxDataRequest.received (msg : NrTxDataRequest) : NrTxDataRequest :=
  { msg with pduList := msg.pduList.map NrTxDataPdu.received }

theorem NrTxDataRequest.received_eq_iff (h : msg.Forall NrTxDataRequestTlv.WellFormed) :
    msg.received = msg ↔ msg.Forall NrTxDataRequestTlv.Carried := by
  have hpdus : msg.received = msg ↔ msg.pduList.map NrTxDataPdu.received = msg.pduList := by
    obtain ⟨_, _, _, pduList⟩ := msg
    simp [received]
  rw [hpdus, CArray.map_eq_self_iff]
  exact forall₂_congr fun value hvalue ↦ NrTxDataPdu.received_eq_iff (h value hvalue)

theorem packTxDataRequest_eq (h : packTxDataRequest msg b = some (msg', b')) : msg' = msg := by
  iterate 4 obtain ⟨_, _, -, h⟩ := bind_eq_some h
  exact (Prod.mk.inj (Option.some.inj h)).1.symm

/-- **A well-formed TX_DATA.request arrives** with as many words as `wordLen` says. -/
theorem faithful_packTxDataRequest (h : msg.Forall NrTxDataRequestTlv.WellFormed) :
    Faithful (packTxDataRequest msg) unpackTxDataRequest NrTxDataRequest.received :=
  (carries_push16 _).bind_faithful <| (carries_push16 _).bind_faithful <|
    (carries_push16 _).bind_faithful <| (Faithful.foldArray 0 msg.pduList
      fun c value hvalue ↦ faithful_packTxDataPduListValue (h value hvalue) c).map fun _ ↦ rfl

end OaiRan.Nfapi
