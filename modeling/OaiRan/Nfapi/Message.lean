import OaiRan.Nfapi.DlRequest
import OaiRan.Nfapi.UlRequest
import OaiRan.Nfapi.TxData

/-!
# P7 messages

`fapi_nr_p7_message_pack` and `fapi_nr_p7_message_unpack` (`nr_fapi_p7.c`): eight bytes of header, which
hold the type and the length of the message, and the body that belongs to the type. Vendor
extensions are left out, and the caller's structure is large enough for every message.

**Every indication is read back**, and so is every UL_TTI.request and UL_DCI.request. A
DL_TTI.request is read back exactly if it has no UE groups with members and nothing in its SSB PDUs
is cut off, a TX_DATA.request exactly if no length is too large to be rounded up.
-/

namespace OaiRan.Nfapi

open Codec Option

variable {packedBufLen : UInt32} {bytes : List UInt8}

/-! ### The slot indication -/

/-- `nfapi_nr_slot_indication_scf_t`. -/
structure NrSlotIndication where
  (sfn slot : UInt16)

def packNrSlotIndication (msg : NrSlotIndication) : Put Unit := do
  push16 msg.sfn
  push16 msg.slot

def unpackNrSlotIndication : Get NrSlotIndication := do
  pure {
    sfn := ← pull16
    slot := ← pull16 }

/-! ### Messages -/

/-- `nfapi_nr_phy_msg_type_e`. -/
def nrPhyMsgTypeDlTtiRequest : UInt16 := 0x80
def nrPhyMsgTypeUlTtiRequest : UInt16 := 0x81
def nrPhyMsgTypeSlotIndication : UInt16 := 0x82
def nrPhyMsgTypeUlDciRequest : UInt16 := 0x83
def nrPhyMsgTypeTxDataRequest : UInt16 := 0x84
def nrPhyMsgTypeRxDataIndication : UInt16 := 0x85
def nrPhyMsgTypeCrcIndication : UInt16 := 0x86
def nrPhyMsgTypeUciIndication : UInt16 := 0x87
def nrPhyMsgTypeSrsIndication : UInt16 := 0x88
def nrPhyMsgTypeRachIndication : UInt16 := 0x89

/-- What stands behind the header in each of the message structures. -/
inductive P7Body
  | dlTtiRequest (msg : NrDlTtiRequest)
  | ulTtiRequest (msg : NrUlTtiRequest)
  | slotIndication (msg : NrSlotIndication)
  | ulDciRequest (msg : NrUlDciRequest)
  | txDataRequest (msg : NrTxDataRequest)
  | rxDataIndication (msg : NrRxDataIndication)
  | crcIndication (msg : NrCrcIndication)
  | uciIndication (msg : NrUciIndication)
  | srsIndication (msg : NrSrsIndication)
  | rachIndication (msg : NrRachIndication)

def P7Body.messageId : P7Body → UInt16
  | .dlTtiRequest _ => nrPhyMsgTypeDlTtiRequest
  | .ulTtiRequest _ => nrPhyMsgTypeUlTtiRequest
  | .slotIndication _ => nrPhyMsgTypeSlotIndication
  | .ulDciRequest _ => nrPhyMsgTypeUlDciRequest
  | .txDataRequest _ => nrPhyMsgTypeTxDataRequest
  | .rxDataIndication _ => nrPhyMsgTypeRxDataIndication
  | .crcIndication _ => nrPhyMsgTypeCrcIndication
  | .uciIndication _ => nrPhyMsgTypeUciIndication
  | .srsIndication _ => nrPhyMsgTypeSrsIndication
  | .rachIndication _ => nrPhyMsgTypeRachIndication

/-- A message with the `message_length` of `nfapi_nr_p7_message_header_t`. -/
structure P7Message where
  messageLength : UInt32
  body : P7Body

/-- The body is returned as the packer leaves it. -/
def fapiNrP7MessageBodyPack : P7Body → Put P7Body
  | .dlTtiRequest msg => do
    let msg ← packDlTtiRequest msg
    pure (.dlTtiRequest msg)
  | .ulTtiRequest msg => do
    let msg ← packUlTtiRequest msg
    pure (.ulTtiRequest msg)
  | .slotIndication msg => do
    packNrSlotIndication msg
    pure (.slotIndication msg)
  | .ulDciRequest msg => do
    let msg ← packUlDciRequest msg
    pure (.ulDciRequest msg)
  | .txDataRequest msg => do
    let msg ← packTxDataRequest msg
    pure (.txDataRequest msg)
  | .rxDataIndication msg => do
    packNrRxDataIndication msg
    pure (.rxDataIndication msg)
  | .crcIndication msg => do
    packNrCrcIndication msg
    pure (.crcIndication msg)
  | .uciIndication msg => do
    packNrUciIndication msg
    pure (.uciIndication msg)
  | .srsIndication msg => do
    packNrSrsIndication msg
    pure (.srsIndication msg)
  | .rachIndication msg => do
    packNrRachIndication msg
    pure (.rachIndication msg)

def nfapiHeaderLength : ℕ := 8

/-- `fapi_nr_p7_message_pack` on a buffer in which the bytes of the header are still to be set. -/
def packHeaderAndBody (msg : P7Message) (packedBufLen : UInt32) : Put P7Message := do
  let body ← fapiNrP7MessageBodyPack msg.body
  patch 0 [1]
  patch 1 [0]
  patch 2 (bytes16 msg.body.messageId)
  let msgEnd ← position
  let packedMsgLen := UInt32.ofNat (msgEnd - nfapiHeaderLength)
  if packedMsgLen > packedBufLen then fail else do
    patch 4 (bytes32 packedMsgLen)
    pure { messageLength := packedMsgLen, body }

/-- The message as the packer leaves it, and the bytes. -/
def fapiNrP7MessagePack (msg : P7Message) (packedBufLen : UInt32) :
    Option (P7Message × List UInt8) := do
  let (msg, buffer) ← packHeaderAndBody msg packedBufLen
    { bytes := List.replicate nfapiHeaderLength 0, size := packedBufLen.toNat }
  pure (msg, buffer.bytes)

/-- The `switch` of `fapi_nr_p7_message_unpack`. -/
def unpackP7Body (messageId : UInt16) : Get P7Body :=
  if messageId = nrPhyMsgTypeDlTtiRequest then do
    let msg ← unpackDlTtiRequest
    pure (.dlTtiRequest msg)
  else if messageId = nrPhyMsgTypeUlTtiRequest then do
    let msg ← unpackUlTtiRequest
    pure (.ulTtiRequest msg)
  else if messageId = nrPhyMsgTypeSlotIndication then do
    let msg ← unpackNrSlotIndication
    pure (.slotIndication msg)
  else if messageId = nrPhyMsgTypeUlDciRequest then do
    let msg ← unpackUlDciRequest
    pure (.ulDciRequest msg)
  else if messageId = nrPhyMsgTypeTxDataRequest then do
    let msg ← unpackTxDataRequest
    pure (.txDataRequest msg)
  else if messageId = nrPhyMsgTypeRxDataIndication then do
    let msg ← unpackNrRxDataIndication
    pure (.rxDataIndication msg)
  else if messageId = nrPhyMsgTypeCrcIndication then do
    let msg ← unpackNrCrcIndication
    pure (.crcIndication msg)
  else if messageId = nrPhyMsgTypeUciIndication then do
    let msg ← unpackNrUciIndication
    pure (.uciIndication msg)
  else if messageId = nrPhyMsgTypeSrsIndication then do
    let msg ← unpackNrSrsIndication
    pure (.srsIndication msg)
  else if messageId = nrPhyMsgTypeRachIndication then do
    let msg ← unpackNrRachIndication
    pure (.rachIndication msg)
  else fail

/-- The header, as `fapi_nr_message_header_unpack` reads it, and the body. -/
def unpackHeaderAndBody (messageBufLen : ℕ) : Get P7Message := do
  let _numMsg ← pull8
  let _opaqueHandle ← pull8
  let messageId ← pull16
  let messageLength ← pull32
  if messageLength.toNat > messageBufLen then fail else do
    let body ← unpackP7Body messageId
    pure { messageLength, body }

/-- The message and the bytes that are left. -/
def fapiNrP7MessageUnpack (messageBuf : List UInt8) : Option (P7Message × List UInt8) :=
  if messageBuf.length < nfapiHeaderLength then none
  else unpackHeaderAndBody messageBuf.length messageBuf

/-! ### The header -/

/-- The eight bytes. -/
def headerBytes (messageId : UInt16) (messageLength : UInt32) : List UInt8 :=
  [1, 0] ++ bytes16 messageId ++ bytes32 messageLength

/-- What a packed message looks like, for a body that is written behind what is there already. -/
theorem fapiNrP7MessagePack_eq_some (h : fapiNrP7MessagePack msg packedBufLen = some (msg', bytes))
    (happends : ∀ b body b', fapiNrP7MessageBodyPack msg.body b = some (body, b') →
      ∃ bs, b'.bytes = b.bytes ++ bs) :
    ∃ (b b' : Buffer) (bs : List UInt8), fapiNrP7MessageBodyPack msg.body b = some (msg'.body, b') ∧
      b'.bytes.drop b.bytes.length = bs ∧ msg'.messageLength = UInt32.ofNat bs.length ∧
      bytes = headerBytes msg.body.messageId msg'.messageLength ++ bs := by
  obtain ⟨⟨msg₁, buffer⟩, hpack, h⟩ := bind_eq_some_iff.1 h
  cases h
  obtain ⟨body, b₁, hbody, h⟩ := bind_eq_some hpack
  obtain ⟨_, b₂, h₂, h⟩ := bind_eq_some h
  obtain ⟨_, b₃, h₃, h⟩ := bind_eq_some h
  obtain ⟨_, b₄, h₄, h⟩ := bind_eq_some h
  obtain ⟨_, _, hpos, h⟩ := bind_eq_some h
  cases hpos
  obtain ⟨bs, hbs⟩ := happends _ _ _ hbody
  have hfour := patch_eq_some h₄
  rw [patch_eq_some h₃, patch_eq_some h₂, hbs] at hfour
  have hzeros : b₄.bytes = [1, 0] ++ bytes16 msg.body.messageId ++ [0, 0, 0, 0] ++ bs := hfour
  have hlen : b₄.bytes.length - nfapiHeaderLength = bs.length := by
    rw [hzeros]
    simp only [List.length_append]
    exact Nat.add_sub_cancel_left 8 bs.length
  dsimp only at h
  split at h
  · simp [fail] at h
  · obtain ⟨_, b₅, h₅, h⟩ := bind_eq_some h
    cases h
    refine ⟨_, b₁, bs, hbody, by rw [hbs, List.drop_left], by rw [hlen], ?_⟩
    rw [patch_eq_some h₅, hzeros]
    rfl

/-- **Behind its own header a body is read as by its own unpacker.** -/
theorem fapiNrP7MessageUnpack_headerBytes (messageId : UInt16) (bs : List UInt8) :
    fapiNrP7MessageUnpack (headerBytes messageId (.ofNat bs.length) ++ bs) =
      (unpackP7Body messageId bs).map fun r ↦ (⟨.ofNat bs.length, r.1⟩, r.2) := by
  have hlen : (headerBytes messageId (.ofNat bs.length) ++ bs).length = 8 + bs.length := by
    rw [List.length_append]
    rfl
  have hfits : ¬ (UInt32.ofNat bs.length).toNat > 8 + bs.length := by
    rw [UInt32.toNat_ofNat']
    omega
  have hnum : pull8 (headerBytes messageId (.ofNat bs.length) ++ bs) =
      some (1, 0 :: (bytes16 messageId ++ (bytes32 (.ofNat bs.length) ++ bs))) := rfl
  have hhandle : pull8 (0 :: (bytes16 messageId ++ (bytes32 (.ofNat bs.length) ++ bs))) =
      some (0, bytes16 messageId ++ (bytes32 (.ofNat bs.length) ++ bs)) := rfl
  rw [fapiNrP7MessageUnpack, if_neg (by rw [hlen, nfapiHeaderLength]; omega), hlen,
    unpackHeaderAndBody, bind_of_eq_some _ hnum, bind_of_eq_some _ hhandle,
    bind_of_eq_some _ (reads_pull16 messageId _), bind_of_eq_some _ (reads_pull32 _ bs),
    if_neg hfits]
  change (unpackP7Body messageId bs).bind _ = _
  cases unpackP7Body messageId bs <;> rfl

/-! ### Round trips -/

/-- The body without what the packer fills in. -/
def P7Body.input : P7Body → P7Body
  | .dlTtiRequest msg => .dlTtiRequest msg.input
  | .ulTtiRequest msg => .ulTtiRequest msg.input
  | .ulDciRequest msg => .ulDciRequest msg.input
  | body => body

/-- Counts are within their arrays by construction; this is about the TLVs. -/
def P7Body.WellFormed : P7Body → Prop
  | .txDataRequest msg => msg.Forall NrTxDataRequestTlv.WellFormed
  | _ => True

/-- Everything in the body arrives. -/
def P7Body.Carried : P7Body → Prop
  | .dlTtiRequest msg => msg.Carried
  | .txDataRequest msg => msg.Forall NrTxDataRequestTlv.Carried
  | _ => True

/-- A packed body: what was written, behind what is there, and whether it is read back. -/
structure P7Body.Packed (body body' : P7Body) (b b' : Buffer) : Prop where
  appends : ∃ bs, b'.bytes = b.bytes ++ bs
  input_eq : body'.input = body.input
  unpack_iff : unpackP7Body body.messageId (b'.bytes.drop b.bytes.length) = some (body', []) ↔
    body.Carried

variable {body' body : P7Body} {b b' : Buffer}

/-- A body that its packer leaves as it is and that arrives. -/
theorem P7Body.Packed.of_carries {α : Type} {p : Put Unit} {g : Get α} {a : α} {c : α → P7Body}
    (hp : Carries p g a)
    (hunpack : unpackP7Body (c a).messageId = g >>= fun x ↦ pure (c x)) (hcarried : (c a).Carried)
    (h : (p >>= fun _ ↦ pure (c a)) b = some (body', b')) : (c a).Packed body' b b' := by
  obtain ⟨bs, hbs, hreads⟩ := hp.returns (f := c) (h := id) rfl h
  obtain ⟨_, _, -, h⟩ := bind_eq_some h
  cases h
  refine ⟨⟨bs, hbs⟩, rfl, iff_of_true ?_ hcarried⟩
  rw [hbs, List.drop_left, hunpack]
  simpa using hreads []

/-- A body that its packer completes. -/
theorem P7Body.Packed.of_message {α : Type} {p : Put α} {g : Get α} {c : α → P7Body}
    (hc : Function.Injective c) (hunpack : unpackP7Body body.messageId = g >>= fun x ↦ pure (c x))
    (hp : ∀ a, p b = some (a, b') → (∃ bs, b'.bytes = b.bytes ++ bs) ∧ (c a).input = body.input ∧
      (g (b'.bytes.drop b.bytes.length) = some (a, []) ↔ body.Carried))
    (h : (p >>= fun x ↦ pure (c x)) b = some (body', b')) : body.Packed body' b b' := by
  obtain ⟨a, u, ha, h⟩ := bind_eq_some h
  cases h
  obtain ⟨happends, hinput, hiff⟩ := hp a ha
  refine ⟨happends, hinput, ?_⟩
  rw [hunpack, ← hiff]
  constructor
  · intro h
    obtain ⟨x, v, hx, h⟩ := bind_eq_some h
    obtain ⟨hxa, rfl⟩ := Prod.mk.inj (some.inj h)
    rw [hx, hc hxa]
  · intro h
    rw [bind_of_eq_some _ h]
    rfl

/-- **What becomes of a body.** -/
theorem packed_fapiNrP7MessageBodyPack (hwf : body.WellFormed)
    (h : fapiNrP7MessageBodyPack body b = some (body', b')) : body.Packed body' b b' := by
  have hfaithful {α : Type} {p : Put α} {g : Get α} {a : α} (hp : Faithful p g id)
      (ha : p b = some (a, b')) : (∃ bs, b'.bytes = b.bytes ++ bs) ∧
        g (b'.bytes.drop b.bytes.length) = some (a, []) := by
    obtain ⟨bs, hbs, -⟩ := hp ha
    exact ⟨⟨bs, hbs⟩, hp.eq_some ha⟩
  cases body with
  | slotIndication msg => exact .of_carries (.push16 <| (carries_push16 _).map _) rfl trivial h
  | rxDataIndication msg => exact .of_carries (carries_packNrRxDataIndication msg) rfl trivial h
  | crcIndication msg => exact .of_carries (carries_packNrCrcIndication msg) rfl trivial h
  | uciIndication msg => exact .of_carries (carries_packNrUciIndication msg) rfl trivial h
  | srsIndication msg => exact .of_carries (carries_packNrSrsIndication msg) rfl trivial h
  | rachIndication msg => exact .of_carries (carries_packNrRachIndication msg) rfl trivial h
  | dlTtiRequest msg =>
    refine .of_message (fun _ _ ↦ P7Body.dlTtiRequest.inj) rfl (fun msg' hmsg ↦ ?_) h
    exact ⟨packDlTtiRequest_appends hmsg, congrArg P7Body.dlTtiRequest (packDlTtiRequest_input hmsg),
      unpackDlTtiRequest_packDlTtiRequest hmsg⟩
  | ulTtiRequest msg =>
    refine .of_message (fun _ _ ↦ P7Body.ulTtiRequest.inj) rfl (fun msg' hmsg ↦ ?_) h
    obtain ⟨happends, hread⟩ := hfaithful (faithful_packUlTtiRequest msg) hmsg
    exact ⟨happends, congrArg P7Body.ulTtiRequest (packUlTtiRequest_input hmsg),
      iff_of_true hread trivial⟩
  | ulDciRequest msg =>
    refine .of_message (fun _ _ ↦ P7Body.ulDciRequest.inj) rfl (fun msg' hmsg ↦ ?_) h
    obtain ⟨happends, hread⟩ := hfaithful (faithful_packUlDciRequest msg) hmsg
    exact ⟨happends, congrArg P7Body.ulDciRequest (packUlDciRequest_input hmsg),
      iff_of_true hread trivial⟩
  | txDataRequest msg =>
    refine .of_message (fun _ _ ↦ P7Body.txDataRequest.inj) rfl (fun msg' hmsg ↦ ?_) h
    obtain rfl : msg' = msg := packTxDataRequest_eq hmsg
    obtain ⟨bs, hbs, -⟩ := faithful_packTxDataRequest hwf hmsg
    have hread := (faithful_packTxDataRequest hwf).eq_some hmsg
    refine ⟨⟨bs, hbs⟩, rfl, ?_⟩
    rw [hread, some.injEq, Prod.mk.injEq, and_iff_left rfl]
    exact NrTxDataRequest.received_eq_iff hwf

/-- A packed message is read back exactly if everything in it arrives. -/
theorem fapiNrP7MessageUnpack_iff
    (hwf : msg.body.WellFormed) (h : fapiNrP7MessagePack msg packedBufLen = some (msg', bytes)) :
    msg'.body.input = msg.body.input ∧
      (fapiNrP7MessageUnpack bytes = some (msg', []) ↔ msg.body.Carried) := by
  obtain ⟨b, b', bs, hbody, hdrop, hlen, rfl⟩ := fapiNrP7MessagePack_eq_some h
    fun _ _ _ hbody ↦ (packed_fapiNrP7MessageBodyPack hwf hbody).appends
  have hpacked := packed_fapiNrP7MessageBodyPack hwf hbody
  refine ⟨hpacked.input_eq, ?_⟩
  rw [← hpacked.unpack_iff, hdrop, hlen, fapiNrP7MessageUnpack_headerBytes, map_eq_some_iff]
  constructor
  · rintro ⟨⟨body, rest⟩, hbody', h⟩
    cases h
    exact hbody'
  · intro h
    exact ⟨_, h, by rw [← hlen]⟩

/-! ### Requests and indications -/

def P7Body.isRequest : P7Body → Bool
  | .dlTtiRequest _ | .ulTtiRequest _ | .ulDciRequest _ | .txDataRequest _ => true
  | _ => false

def P7Body.isIndication : P7Body → Bool
  | .rxDataIndication _ | .crcIndication _ | .uciIndication _ | .srsIndication _
  | .rachIndication _ => true
  | _ => false

/-- **A packed request is read back, to the last byte and as the packer leaves it, exactly if
everything in it is carried.** The packer itself changes only sizes and counts that it computes. -/
theorem fapiNrP7MessageUnpack_request {msg msg' : P7Message} {packedBufLen : UInt32}
    {bytes : List UInt8} (_hreq : msg.body.isRequest) (hwf : msg.body.WellFormed)
    (h : fapiNrP7MessagePack msg packedBufLen = some (msg', bytes)) :
    fapiNrP7MessageUnpack bytes = some (msg', []) ∧ msg'.body.input = msg.body.input ↔
      msg.body.Carried := by
  obtain ⟨hinput, hiff⟩ := fapiNrP7MessageUnpack_iff hwf h
  rw [hiff, and_iff_left hinput]

def ssbPdu : NrDlTtiSsbPdu :=
  { physCellId := 3, betaPss := 0, ssbBlockIndex := 0, ssbSubcarrierOffset := 0
    ssbOffsetPointA := 8, bchPayloadFlag := 1, bchPayload := 5, ssbRsrp := 0
    precodingAndBeamforming :=
      { numPrgs := 0, prgSize := 0, digBfInterfaces := 0, prgsList := ⟨.nil, by decide⟩ } }

/-- A DL_TTI.request with an SSB PDU and a group without a UE. -/
def ssbRequest : P7Message :=
  { messageLength := 0
    body := .dlTtiRequest
      { sfn := 1, slot := 2, nPdus := 1, nGroup := 1
        dlTtiPduList := ⟨⟨[{ pduSize := 0, pdu := .ssb ssbPdu }], rfl⟩, by decide⟩
        groups := ⟨⟨[{ nUe := 0, pduIdx := ⟨.nil, by decide⟩ }], rfl⟩, by decide⟩ } }

theorem ssbRequest_carried : ssbRequest.body.Carried :=
  ⟨by simp [NrDlTtiPdu.Carried, List.Vector.toList, ssbPdu], by simp [List.Vector.toList]⟩

theorem ssbRequest_read_back : ∃ msg' bytes,
    fapiNrP7MessagePack ssbRequest 100 = some (msg', bytes) ∧
      fapiNrP7MessageUnpack bytes = some (msg', []) ∧
      msg'.body.input = ssbRequest.body.input := by
  obtain ⟨⟨msg', bytes⟩, h⟩ := isSome_iff_exists.1
    (show (fapiNrP7MessagePack ssbRequest 100).isSome by decide +kernel)
  have hwf : ssbRequest.body.WellFormed := trivial
  exact ⟨msg', bytes, h, (fapiNrP7MessageUnpack_request rfl hwf h).2 ssbRequest_carried⟩

/-- A DL_TTI.request whose only group has one UE. -/
def oneUeRequest : P7Message :=
  { messageLength := 0
    body := .dlTtiRequest
      { sfn := 0, slot := 0, nPdus := 0, nGroup := 1
        dlTtiPduList := ⟨.nil, by decide⟩
        groups := ⟨⟨[{ nUe := 1, pduIdx := ⟨⟨[0], rfl⟩, by decide⟩ }], rfl⟩, by decide⟩ } }

/-- Three bytes of the index are left over. -/
theorem oneUeRequest_not_read_back :
    oneUeRequest.body.isRequest ∧ oneUeRequest.body.WellFormed ∧ ∃ msg' bytes,
      fapiNrP7MessagePack oneUeRequest 100 = some (msg', bytes) ∧
        fapiNrP7MessageUnpack bytes ≠ some (msg', []) := by
  obtain ⟨⟨msg', bytes⟩, h⟩ := isSome_iff_exists.1
    (show (fapiNrP7MessagePack oneUeRequest 100).isSome by decide +kernel)
  refine ⟨rfl, trivial, msg', bytes, h, fun hread ↦ ?_⟩
  have hrest : (fapiNrP7MessagePack oneUeRequest 100).bind
      (fun r ↦ (fapiNrP7MessageUnpack r.2).map Prod.snd) = some [0, 0, 0] := by decide +kernel
  rw [h, bind_some, hread, map_some] at hrest
  exact absurd (some.inj hrest) (List.cons_ne_nil _ _).symm

theorem P7Body.wellFormed_of_isIndication (h : body.isIndication) : body.WellFormed := by
  cases body <;> trivial

theorem P7Body.carried_of_isIndication (h : body.isIndication) : body.Carried := by
  cases body <;> trivial

/-- The packer leaves an indication as it is. -/
theorem P7Body.eq_of_input_eq (h : body.isIndication)
    (hinput : body'.input = body.input) : body' = body := by
  cases body <;> cases body' <;>
    first | exact hinput | exact absurd h Bool.false_ne_true | cases hinput

/-- **Every indication is read back**, to the last byte. -/
theorem fapiNrP7MessageUnpack_indication {msg msg' : P7Message} {packedBufLen : UInt32}
    {bytes : List UInt8} (hind : msg.body.isIndication)
    (h : fapiNrP7MessagePack msg packedBufLen = some (msg', bytes)) :
    fapiNrP7MessageUnpack bytes = some (msg', []) ∧ msg'.body = msg.body := by
  obtain ⟨hinput, hiff⟩ :=
    fapiNrP7MessageUnpack_iff (P7Body.wellFormed_of_isIndication hind) h
  exact ⟨hiff.2 (P7Body.carried_of_isIndication hind), P7Body.eq_of_input_eq hind hinput⟩

def harqPdu : NrUciPucchPduFormat01 :=
  { pduBitmap := 3, handle := 0, rnti := 0x1234, pucchFormat := 1, ulCqi := 200
    timingAdvance := 31, rssi := 0
    sr := .present { srIndication := 1, srConfidenceLevel := 0 }
    harq := .present
      { numHarq := 1, harqConfidenceLevel := 0, harqList := ⟨⟨[1], rfl⟩, by decide⟩ } }

/-- A UCI.indication with an SR and a HARQ bit on PUCCH format 1. -/
def harqIndication : P7Message :=
  { messageLength := 0
    body := .uciIndication
      { sfn := 7, slot := 3, numUcis := 1
        uciList := ⟨[{ pduSize := 0, pdu := .pucch01 harqPdu }], rfl⟩ } }

theorem harqIndication_read_back : ∃ msg' bytes,
    fapiNrP7MessagePack harqIndication 200 = some (msg', bytes) ∧
      fapiNrP7MessageUnpack bytes = some (msg', []) ∧ msg'.body = harqIndication.body := by
  obtain ⟨⟨msg', bytes⟩, h⟩ := isSome_iff_exists.1
    (show (fapiNrP7MessagePack harqIndication 200).isSome by decide +kernel)
  exact ⟨msg', bytes, h, fapiNrP7MessageUnpack_indication rfl h⟩

end OaiRan.Nfapi
