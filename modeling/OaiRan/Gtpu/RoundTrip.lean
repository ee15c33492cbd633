import Mathlib.Data.List.Induction
import OaiRan.Gtpu.Tunnel

/-!
# GTP-U user data from end to end

A payload handed to `gtpv1uSend` arrives at the UE and the bearer for which the peer created the
TEID, with its bytes and its QFI, and an Echo Request is answered. `gtpv1u_round_trip_iff` says when
both happen as they should.

## The two halves, and what each rests on

User data is delivered **exactly if** it is not empty, `sendto` takes the datagram, and a tunnel with
a QFI leads to a peer with an SDAP callback (`Deliverable`). This rests on three facts about the two
ends of a tunnel, which do not share any code:

* a TEID stands for what it was last created for (`lookup_te2ue`), along every history of creations
  and deletions at the peer;
* the receiver finds the fields that `gtpv1uCreateAndSendMsg` wrote (`readHeaders_gpdu`), whatever
  the receive buffer held before;
* the datagram is as long as its header says (`gtpv1uReceiver_framed`).

An Echo Response takes the sequence number over **with its bytes swapped** (`sequenceNumber_echo`), so
it has the right number exactly if the two bytes of that number are equal (`gtpv1uReceiver_echo`).
-/

namespace OaiRan.Gtpu

open ByteOrder Option List UInt8

variable {gtp gtp' gtp₀ peer peer₀ sender : GtpEndPoints} {ops : List TunnelOp}
  {msgBuf : ℕ → UInt8} {h i inst : ℕ} {datagram request : List UInt8}

/-! ### What a TEID stands for -/

/-- The endpoint after some operations on its tunnels. -/
def tunnelRun (gtp : GtpEndPoints) (ops : List TunnelOp) : Option GtpEndPoints :=
  ops.foldlM tunnelStep gtp

/-- The last creation of this TEID. -/
def lastCreated (teid : UInt32) (ops : List TunnelOp) : Option CreateReq :=
  ops.foldl (fun last op ↦ match op with
    | .create req => if req.incomingTeid = teid then some req else last
    | _ => last) none

variable {teid : UInt32} {d : UeidData}

theorem lookup_of_lookup_erase {te2ue : AList fun _ : UInt64 ↦ UeidData} {key t : UInt64}
    (h : (te2ue.erase t).lookup key = some d) : te2ue.lookup key = some d := by
  by_cases ht : key = t
  · subst ht
    rw [AList.lookup_erase] at h
    cases h
  · rwa [AList.lookup_erase_ne ht] at h

theorem lookup_of_lookup_eraseTeids {bearers : List GtpBearer} {key : UInt64} :
    ∀ {te2ue : AList fun _ : UInt64 ↦ UeidData},
      (eraseTeids te2ue bearers).lookup key = some d → te2ue.lookup key = some d := by
  induction bearers with
  | nil => exact fun h ↦ h
  | cons bearer bearers ih => exact fun h ↦ lookup_of_lookup_erase (ih h)

/-- **What one operation does to a TEID**: it is created, or it stands for what it stood for. -/
theorem lookup_tunnelStep {op : TunnelOp}
    (hstep : tunnelStep gtp op = some gtp') (h : gtp'.te2ueMapping.lookup teid.toUInt64 = some d) :
    (∃ req, op = .create req ∧ req.incomingTeid = teid ∧ req.ueidData = d) ∨
      (gtp.te2ueMapping.lookup teid.toUInt64 = some d ∧
        ∀ req, op = .create req → req.incomingTeid ≠ teid) := by
  cases op with
  | create req =>
    obtain ⟨ue2te, -, hstep⟩ := bind_eq_some_iff.1 hstep
    dsimp only at hstep
    split at hstep
    · cases hstep
    · obtain ⟨bearer, -, hstep⟩ := bind_eq_some_iff.1 hstep
      cases hstep
      by_cases hteid : req.incomingTeid = teid
      · subst hteid
        exact .inl ⟨req, rfl, rfl, some.inj ((AList.lookup_insert _).symm.trans h)⟩
      · refine .inr ⟨?_, fun req' hreq' ↦ by cases hreq'; exact hteid⟩
        have hkey : teid.toUInt64 ≠ req.incomingTeid.toUInt64 :=
          fun hkey ↦ hteid (UInt32.toUInt64_inj.1 hkey).symm
        exact (AList.lookup_insert_ne hkey).symm.trans h
  | deleteOne inst ueId rbId =>
    cases hstep
    refine .inr ⟨?_, fun _ hreq ↦ by cases hreq⟩
    rw [newGtpuDeleteOneTunnel] at h
    split at h
    · exact h
    · split at h
      · exact h
      · exact lookup_of_lookup_erase h
  | deleteAll inst ueId =>
    cases hstep
    refine .inr ⟨?_, fun _ hreq ↦ by cases hreq⟩
    rw [newGtpuDeleteAllTunnels] at h
    split at h
    · exact h
    · exact lookup_of_lookup_eraseTeids h
  | delete inst ueId pdusessionIds =>
    cases hstep
    refine .inr ⟨?_, fun _ hreq ↦ by cases hreq⟩
    rw [newGtpuDeleteTunnels] at h
    split at h
    · exact h
    · split at h <;> exact lookup_of_lookup_eraseTeids h

/-- **A TEID stands for what it was last created for**, as long as it is there. -/
theorem lookup_te2ue (h₀ : gtp₀.te2ueMapping = ∅) (hrun : tunnelRun gtp₀ ops = some gtp)
    (h : gtp.te2ueMapping.lookup teid.toUInt64 = some d) :
    ∃ req, lastCreated teid ops = some req ∧ req.ueidData = d := by
  induction ops using reverseRecOn generalizing gtp d with
  | nil =>
    obtain rfl : gtp₀ = gtp := some.inj hrun
    rw [h₀] at h
    cases h
  | append_singleton ops op ih =>
    rw [tunnelRun, foldlM_append] at hrun
    obtain ⟨gtp', hrun', hstep⟩ := bind_eq_some_iff.1 hrun
    replace hstep : tunnelStep gtp' op = some gtp := by simpa using hstep
    rw [lastCreated, foldl_append, foldl_cons, foldl_nil]
    rcases lookup_tunnelStep hstep h with ⟨req, rfl, hteid, hd⟩ | ⟨hbefore, hop⟩
    · exact ⟨req, if_pos hteid, hd⟩
    · obtain ⟨req, hreq, hd⟩ := ih hrun' hbefore
      refine ⟨req, ?_, hd⟩
      cases op with
      | create req' => exact (if_neg (hop req' rfl)).trans hreq
      | _ => exact hreq

/-- **A TEID from `2 ^ 31` on is not erased with its tunnel**: as an `int` it is negative, and its key
would be one of the last of 64 bits. -/
theorem lookup_newGtpuDeleteOneTunnel {ueId : UInt64} {rbId : ℤ} {bearer : GtpBearer}
    (hbearers : getUe gtp inst ueId = some bearers) (hbearer : bearers.lookup rbId = some bearer)
    (hteid : 2 ^ 31 ≤ bearer.teidIncoming.toNat) (teid : UInt32) :
    (newGtpuDeleteOneTunnel gtp inst ueId rbId).te2ueMapping.lookup teid.toUInt64 =
      gtp.te2ueMapping.lookup teid.toUInt64 := by
  have hmsb : bearer.teidIncoming.toBitVec.msb = true := by
    rw [BitVec.msb_eq_decide]
    exact decide_eq_true hteid
  have hsign : bearer.teidIncoming.toInt32.toInt64.toUInt64.toNat =
      bearer.teidIncoming.toNat % 2 ^ 64 + (2 ^ 64 - 2 ^ 32) := by
    change (BitVec.signExtend 64 bearer.teidIncoming.toBitVec).toNat = _
    rw [BitVec.toNat_signExtend, BitVec.toNat_setWidth, if_pos hmsb]
    rfl
  have hkey : teid.toUInt64 ≠ bearer.teidIncoming.toInt32.toInt64.toUInt64 := by
    intro hkey
    have hlt := teid.toNat_lt
    rw [← UInt64.toNat_inj, UInt32.toNat_toUInt64, hsign] at hkey
    omega
  rw [newGtpuDeleteOneTunnel, hbearers]
  dsimp only
  rw [hbearer]
  exact AList.lookup_erase_ne hkey

/-! ### The header -/

section Framed

variable {flags msgType : UInt8} {teid : UInt32} {body : List UInt8} (stale : ℕ → UInt8)

theorem length_framed : (framed flags msgType teid body).length = msgHeaderSize + body.length := by
  simp [framed, msgHeaderSize]
  omega

theorem hdrMsgType_framed : hdrMsgType (udpData stale (framed flags msgType teid body)) = msgType :=
  rfl

theorem hdrTeid_framed : hdrTeid (udpData stale (framed flags msgType teid body)) = teid := by
  have hbytes : [udpData stale (framed flags msgType teid body) 4,
      udpData stale (framed flags msgType teid body) 5,
      udpData stale (framed flags msgType teid body) 6,
      udpData stale (framed flags msgType teid body) 7] = beBytes 4 teid.toNat := rfl
  rw [hdrTeid, hbytes, ofBeBytes_beBytes_of_lt teid.toNat_lt, UInt32.ofNat_toNat]

theorem hdrMsgLength_framed (hbody : body.length < 2 ^ 16) :
    hdrMsgLength (udpData stale (framed flags msgType teid body)) = body.length := by
  have hbytes : [udpData stale (framed flags msgType teid body) 2,
      udpData stale (framed flags msgType teid body) 3] = beBytes 2 body.length := rfl
  rw [hdrMsgLength, hbytes, ofBeBytes_beBytes_of_lt hbody]

end Framed

/-- A datagram that `sendto` takes has the right length in its header, fits into `udpData` and so
reaches the handler of G-PDUs. -/
theorem gtpv1uReceiver_framed (gtp : GtpEndPoints) (h : ℕ) (stale : ℕ → UInt8) (flags : UInt8)
    (teid : UInt32) {body : List UInt8} (hbody : msgHeaderSize + body.length ≤ maxDatagram) :
    gtpv1uReceiver gtp h stale (framed flags gtpGpdu teid body) =
      gtpv1uHandleGpdu gtp h (udpData stale (framed flags gtpGpdu teid body))
        (msgHeaderSize + body.length) := by
  simp only [msgHeaderSize, maxDatagram] at hbody
  have htake : (framed flags gtpGpdu teid body).take udpDataSize = framed flags gtpGpdu teid body := by
    refine take_of_length_le ?_
    rw [length_framed, msgHeaderSize, udpDataSize]
    omega
  rw [gtpv1uReceiver, htake]
  simp only [length_framed, hdrMsgLength_framed stale (show body.length < 2 ^ 16 by omega),
    hdrMsgType_framed]
  rw [if_neg (by omega), if_neg (by omega), if_neg (by decide), if_neg (by decide), if_pos trivial]

/-! ### Payloads -/

theorem hdr_headerFlags (h : msgBuf 0 = headerFlags pn s e) :
    hdrPn msgBuf = pn ∧ hdrS msgBuf = s ∧ hdrE msgBuf = e ∧ hdrPt msgBuf ∧ hdrVersion msgBuf = 1 := by
  rw [hdrPn, hdrS, hdrE, hdrPt, hdrVersion, h]
  cases pn <;> cases s <;> cases e <;> decide

theorem length_optFields (s pn : Bool) (seqNum : UInt16) (npduNum extHdrType : UInt8) :
    (optFields s pn seqNum npduNum extHdrType).length =
      if s || extHdrType != noMoreExtHdrs || pn then 4 else 0 := by
  rw [optFields]
  split <;> rfl

section Gpdu

variable (bearer : GtpBearer) (payload : List UInt8) (s pn : Bool)

/-- The length of everything behind the header. -/
def bodyLength : ℕ :=
  (if bearer.outgoingQfi ≠ -1 then 8 else if s || pn then 4 else 0) + payload.length

/-- The extension header type and the extension header of a payload. -/
def gpduExt (qfi : ℤ) : UInt8 × List UInt8 :=
  if qfi ≠ -1 then (pduSessionContainer, pduSessionExt qfi) else (noMoreExtHdrs, [])

/-- Everything between the header and the payload. -/
def gpduHeaders : List UInt8 :=
  optFields s pn bearer.seqNum bearer.npduNum (gpduExt bearer.outgoingQfi).1 ++
    (gpduExt bearer.outgoingQfi).2

theorem gpduExt_ne_iff (qfi : ℤ) : ((gpduExt qfi).1 != noMoreExtHdrs) = decide (qfi ≠ -1) := by
  rw [gpduExt]
  split
  · rename_i h
    rw [decide_eq_true h]
    rfl
  · rename_i h
    rw [decide_eq_false h]
    rfl

theorem length_gpduHeaders :
    (gpduHeaders bearer s pn ++ payload).length = bodyLength bearer payload s pn := by
  rw [gpduHeaders, bodyLength, length_append, length_append, length_optFields, gpduExt_ne_iff, gpduExt]
  by_cases hqfi : bearer.outgoingQfi ≠ -1
  · simp [hqfi, pduSessionExt]
  · simp [not_not.1 hqfi]

theorem copyExtensions_gpduExt (qfi : ℤ) :
    copyExtensions (gpduExt qfi).2 hdrMax (gpduExt qfi).1 = some (gpduExt qfi).2 := by
  rw [gpduExt]
  split <;> rfl

/-- The datagram of a payload. -/
def gpdu : List UInt8 :=
  framed (headerFlags pn s (bearer.outgoingQfi ≠ -1)) gtpGpdu bearer.teidOutgoing
    (gpduHeaders bearer s pn ++ payload)

/-- The payload is framed, and sent if the datagram is not too long. -/
theorem gpduOf_eq : gpduOf bearer payload s pn =
    if msgHeaderSize + bodyLength bearer payload s pn ≤ maxDatagram then
      some (gpdu bearer payload s pn)
    else none := by
  have hcreate : gpduOf bearer payload s pn =
      createMsg gtpGpdu bearer.teidOutgoing payload s pn bearer.seqNum bearer.npduNum
        (gpduExt bearer.outgoingQfi).1 (gpduExt bearer.outgoingQfi).2 := by
    rw [gpduOf, gpduExt]
    split <;> rfl
  have hlength :
      (gpdu bearer payload s pn).length = msgHeaderSize + bodyLength bearer payload s pn := by
    rw [gpdu, length_framed, length_gpduHeaders]
  rw [hcreate, createMsg, copyExtensions_gpduExt, gpduExt_ne_iff, ← hlength]
  rfl

/-! ### The walk over the headers -/

/-- What is behind the first bytes of a body. -/
theorem map_range_framed (stale : ℕ → UInt8) (front payload : List UInt8) :
    (range payload.length).map (fun i ↦ udpData stale (framed flags msgType teid (front ++ payload))
      (msgHeaderSize + front.length + i)) = payload := by
  obtain ⟨pre, hpre, hlen⟩ : ∃ pre, framed flags msgType teid (front ++ payload) = pre ++ payload ∧
      pre.length = msgHeaderSize + front.length :=
    ⟨_, (append_assoc ..).symm, by simp [msgHeaderSize]; omega⟩
  refine ext_getElem (by simp) fun i h₁ h₂ ↦ ?_
  rw [getElem_map, getElem_range, ← hlen, hpre, udpData,
    getElem?_append_right (Nat.le_add_right _ _), Nat.add_sub_cancel_left, getElem?_eq_getElem h₂,
    getD_some]

/-- **The container is read, and the payload starts behind it.** -/
theorem walk_of_container {msgBufLen fuel offset : ℕ} {qfi : ℤ}
    (h0 : msgBuf offset = 1) (h2 : msgBuf (offset + 2) = .ofNat (qfi % 2 ^ 6).toNat)
    (h3 : msgBuf (offset + 3) = noMoreExtHdrs) (hlen : offset + 4 ≤ msgBufLen) :
    walkExtensions msgBuf msgBufLen (fuel + 2) pduSessionContainer
        { offset, qfi := none, rqi := false, nrPdcpPduSn := 0 } =
      .ok { offset := offset + 4, qfi := some (.ofNat (qfi % 2 ^ 6).toNat), rqi := false
            nrPdcpPduSn := 0 } := by
  have hlt : (qfi % 2 ^ 6).toNat < 2 ^ 6 := by omega
  have hqfi : (ofNat (qfi % 2 ^ 6).toNat).toNat = (qfi % 2 ^ 6).toNat := by
    rw [toNat_ofNat', Nat.mod_eq_of_lt (by omega)]
  have hread : readExtension msgBuf msgBufLen pduSessionContainer
      { offset, qfi := none, rqi := false, nrPdcpPduSn := 0 } =
        .ok { offset, qfi := some (.ofNat (qfi % 2 ^ 6).toNat), rqi := false, nrPdcpPduSn := 0 } := by
    rw [readExtension, if_pos rfl]
    dsimp only
    rw [if_neg (by omega), h2, hqfi, Nat.mod_eq_of_lt hlt, Nat.testBit_lt_two_pow hlt]
  have hnext : offset + 1 * 4 - 1 = offset + 3 := by omega
  rw [walkExtensions, if_neg (by decide), hread]
  dsimp only [bind, Except.bind]
  rw [h0, show (1 : UInt8).toNat = 1 from rfl, if_neg (by omega), hnext, h3, walkExtensions,
    if_pos rfl]

theorem hdr_gpdu (stale : ℕ → UInt8) :
    let msgBuf := udpData stale (gpdu bearer payload s pn)
    hdrPn msgBuf = pn ∧ hdrS msgBuf = s ∧ hdrE msgBuf = decide (bearer.outgoingQfi ≠ -1) ∧
      hdrPt msgBuf ∧ hdrVersion msgBuf = 1 :=
  hdr_headerFlags rfl

/-- **The receiver finds the QFI that was sent, and the payload behind all the headers.** -/
theorem readHeaders_gpdu (stale : ℕ → UInt8) :
    readHeaders (udpData stale (gpdu bearer payload s pn))
        (msgHeaderSize + bodyLength bearer payload s pn) =
      .ok {
        offset := msgHeaderSize + (gpduHeaders bearer s pn).length
        qfi := if bearer.outgoingQfi = -1 then none
          else some (.ofNat (bearer.outgoingQfi % 2 ^ 6).toNat)
        rqi := false
        nrPdcpPduSn := 0 } := by
  obtain ⟨hpn, hs, he, -, -⟩ := hdr_gpdu bearer payload s pn stale
  rw [readHeaders, hpn, hs, he]
  by_cases hqfi : bearer.outgoingQfi = -1
  · have hlen : (gpduHeaders bearer s pn).length = if s || pn then 4 else 0 := by
      rw [gpduHeaders, gpduExt, if_neg (not_not.2 hqfi), append_nil, length_optFields]
      simp [noMoreExtHdrs]
    rw [hlen]
    simp [hqfi]
  · -- the four optional bytes, the last of which announces the container, and the container
    have hheaders : gpduHeaders bearer s pn =
        (beBytes 2 (if s then bearer.seqNum.toNat else 0)).reverse ++
          [if pn then bearer.npduNum else 0, pduSessionContainer] ++
            pduSessionExt bearer.outgoingQfi := by
      rw [gpduHeaders, gpduExt, if_pos hqfi, optFields, if_pos]
      simp [pduSessionContainer, noMoreExtHdrs]
    have hflag : decide (bearer.outgoingQfi ≠ -1) = true := decide_eq_true hqfi
    rw [gpdu, bodyLength, hheaders, if_pos hqfi, if_neg hqfi, hflag]
    generalize hmsgBuf : udpData stale (framed _ _ _ _) = msgBuf
    have h11 : msgBuf (8 + 4 - 1) = pduSessionContainer := by rw [← hmsgBuf]; rfl
    have h12 : msgBuf 12 = 1 := by rw [← hmsgBuf]; rfl
    have h14 : msgBuf (12 + 2) = .ofNat (bearer.outgoingQfi % 2 ^ 6).toNat := by rw [← hmsgBuf]; rfl
    have h15 : msgBuf (12 + 3) = noMoreExtHdrs := by rw [← hmsgBuf]; rfl
    have hfuel : 8 + (8 + payload.length) + 1 = 8 + 7 + payload.length + 2 := by omega
    have hlen : 12 + 4 ≤ 8 + (8 + payload.length) := by omega
    simp only [Bool.true_or, if_true, msgHeaderSize]
    rw [h11, hfuel, walk_of_container h12 h14 h15 hlen]
    rfl

/-! ### Delivery -/

/-- What the peer is to be given: the payload, for the UE and the bearer that the TEID was created
for, through SDAP if there is a QFI. -/
def expectedDelivery (req : CreateReq) : GtpEvent :=
  if bearer.outgoingQfi = -1 then .pdcp req.ueId req.incomingBearerId payload
  else .sdap req.ueId req.incomingBearerId payload (.ofNat bearer.outgoingQfi.toNat) false
    req.outgoingBearerId

/-- The payload is not empty, `sendto` takes the datagram, and the peer can be given a QFI. -/
structure Deliverable (req : CreateReq) : Prop where
  nonempty : payload ≠ []
  fits : msgHeaderSize + bodyLength bearer payload s pn ≤ maxDatagram
  sdap : bearer.outgoingQfi ≠ -1 → req.callBackSdap

/-- What the peer is given, if its TEID leads to `tunnel`. -/
def deliveries (tunnel : UeidData) : List GtpEvent :=
  if payload = [] then []
  else if bearer.outgoingQfi ≠ -1 ∧ tunnel.callBackSdap then
    [.sdap tunnel.ueId tunnel.incomingRbId payload (.ofNat (bearer.outgoingQfi % 2 ^ 6).toNat) false
      tunnel.pdusessionId]
  else [.pdcp tunnel.ueId tunnel.incomingRbId payload]

/-- What the handler of G-PDUs makes of a payload. -/
theorem gtpv1uHandleGpdu_gpdu {tunnel : UeidData} (hinst : (getInst peer h).isSome)
    (hteid : peer.te2ueMapping.lookup bearer.teidOutgoing.toUInt64 = some tunnel) (stale : ℕ → UInt8) :
    gtpv1uHandleGpdu peer h (udpData stale (gpdu bearer payload s pn))
      (msgHeaderSize + bodyLength bearer payload s pn) = deliveries bearer payload tunnel := by
  obtain ⟨inst, hinst⟩ := isSome_iff_exists.1 hinst
  obtain ⟨-, -, -, hpt, hversion⟩ := hdr_gpdu bearer payload s pn stale
  have hteid' : hdrTeid (udpData stale (gpdu bearer payload s pn)) = bearer.teidOutgoing :=
    hdrTeid_framed stale
  have hlen := length_gpduHeaders bearer payload s pn
  rw [length_append] at hlen
  have hsize : msgHeaderSize + bodyLength bearer payload s pn -
      (msgHeaderSize + (gpduHeaders bearer s pn).length) = payload.length := by
    omega
  rw [gtpv1uHandleGpdu, if_neg (by simp [hpt, hversion]), hinst, hteid', hteid]
  rw [readHeaders_gpdu]
  simp only [deliverGpdu, hsize, gpdu, map_range_framed, deliveries]
  by_cases hempty : payload = []
  · simp [hempty]
  · rw [if_pos (length_pos_iff.2 hempty), if_neg hempty]
    by_cases hqfi : bearer.outgoingQfi = -1
    · simp [hqfi]
    · cases hsdap : tunnel.callBackSdap <;> simp [hqfi]

/-- The cases in which the handler delivers what is expected. -/
theorem delivered_iff {bearer : GtpBearer} {payload : List UInt8} {s pn : Bool}
    {created : CreateReq} (hqfi : -1 ≤ bearer.outgoingQfi ∧ bearer.outgoingQfi ≤ 63) :
    (if msgHeaderSize + bodyLength bearer payload s pn ≤ maxDatagram then
        deliveries bearer payload created.ueidData
      else []) = [expectedDelivery bearer payload created] ↔
    Deliverable bearer payload s pn created := by
  rw [deliveries, CreateReq.ueidData]
  constructor
  · intro h
    split at h
    · rename_i hfits
      split at h
      · cases h
      · rename_i hempty
        refine ⟨hempty, hfits, fun hne ↦ ?_⟩
        by_contra hsdap
        rw [if_neg (fun hand ↦ hsdap hand.2), expectedDelivery, if_neg hne] at h
        cases h
    · cases h
  · rintro ⟨hempty, hfits, hsdap⟩
    rw [if_pos hfits, if_neg hempty, expectedDelivery]
    by_cases hne : bearer.outgoingQfi = -1
    · rw [if_neg (fun hand ↦ hand.1 hne), if_pos hne]
    · have hmod : bearer.outgoingQfi % 2 ^ 6 = bearer.outgoingQfi := by omega
      rw [if_pos ⟨hne, hsdap hne⟩, if_neg hne, hmod]

end Gpdu

/-! ### Echo -/

/-- The sequence number of a message, in network order. -/
def sequenceNumber (datagram : List UInt8) : ℕ :=
  ofBeBytes [datagram[8]?.getD 0, datagram[9]?.getD 0]

/-- The bytes of a message. -/
def msgBytes (datagram : List UInt8) : ℕ → UInt8 := udpData (fun _ ↦ 0) datagram

/-- An Echo Request: a message of version 1 that is complete, fits the receive buffer and has a
sequence number. -/
structure IsEchoRequest (datagram : List UInt8) : Prop where
  length : 12 ≤ datagram.length
  fits : datagram.length ≤ udpDataSize
  version : hdrVersion (msgBytes datagram) = 1
  pt : hdrPt (msgBytes datagram)
  s : hdrS (msgBytes datagram)
  msgType : hdrMsgType (msgBytes datagram) = gtpEchoReq
  msgLength : hdrMsgLength (msgBytes datagram) + msgHeaderSize = datagram.length

theorem udpData_of_lt (stale : ℕ → UInt8)
    (h : i < datagram.length) : udpData stale datagram i = msgBytes datagram i := by
  rw [msgBytes, udpData, udpData, getElem?_eq_getElem h]
  rfl

/-- The number is swapped on its way through `ntohs` and the store without `htons`. -/
theorem sequenceNumber_echo (teid : UInt32) (x y : UInt8) :
    ∃ response,
      createMsg gtpEchoRsp teid [14, 0] true false (.ofNat (ofBeBytes [x, y])) 0 noMoreExtHdrs [] =
        some response ∧ sequenceNumber response = ofBeBytes [y, x] := by
  have hx := x.toNat_lt
  have hy := y.toNat_lt
  have hseq : (UInt16.ofNat (ofBeBytes [x, y])).toNat = x.toNat * 2 ^ 8 + y.toNat := by
    rw [UInt16.toNat_ofNat', ofBeBytes, foldl_cons, foldl_cons, foldl_nil]
    omega
  refine ⟨_, rfl, ?_⟩
  -- bytes 8 and 9 are the low and the high byte of the number
  change ofBeBytes [ofNat (UInt16.ofNat (ofBeBytes [x, y])).toNat,
    ofNat ((UInt16.ofNat (ofBeBytes [x, y])).toNat / 2 ^ 8)] = ofBeBytes [y, x]
  have hlow : ofNat (UInt16.ofNat (ofBeBytes [x, y])).toNat = y := by
    rw [hseq, ← UInt8.toNat_inj, UInt8.toNat_ofNat']
    omega
  have hhigh : ofNat ((UInt16.ofNat (ofBeBytes [x, y])).toNat / 2 ^ 8) = x := by
    rw [hseq, ← UInt8.toNat_inj, UInt8.toNat_ofNat']
    omega
  rw [hlow, hhigh]

/-- **An Echo Request is answered, and the answer has its sequence number exactly if both bytes of
the number are the same.** -/
theorem gtpv1uReceiver_echo (gtp : GtpEndPoints) (h : ℕ) (stale : ℕ → UInt8)
    (hreq : IsEchoRequest request) :
    ∃ response, gtpv1uReceiver gtp h stale request = [.reply response] ∧
      (sequenceNumber response = sequenceNumber request ↔ request[8]? = request[9]?) := by
  have hlen := hreq.length
  have hbyte (i : ℕ) (hi : i < 12) : udpData stale request i = msgBytes request i :=
    udpData_of_lt stale (by omega)
  obtain ⟨response, hresponse, hnumber⟩ := sequenceNumber_echo (hdrTeid (udpData stale request))
    (udpData stale request 8) (udpData stale request 9)
  refine ⟨response, ?_, ?_⟩
  · have hversion : hdrVersion (udpData stale request) = 1 := by
      rw [hdrVersion, hbyte 0 (by omega)]; exact hreq.version
    have hpt : hdrPt (udpData stale request) := by
      rw [hdrPt, hbyte 0 (by omega)]; exact hreq.pt
    have hs : hdrS (udpData stale request) := by
      rw [hdrS, hbyte 0 (by omega)]; exact hreq.s
    have htype : hdrMsgType (udpData stale request) = gtpEchoReq := by
      rw [hdrMsgType, hbyte 1 (by omega)]; exact hreq.msgType
    have hmsgLength : hdrMsgLength (udpData stale request) + msgHeaderSize = request.length := by
      rw [hdrMsgLength, hbyte 2 (by omega), hbyte 3 (by omega)]; exact hreq.msgLength
    rw [gtpv1uReceiver, take_of_length_le hreq.fits, if_neg (by rw [msgHeaderSize]; omega),
      if_neg (not_not.2 hmsgLength), if_pos htype, gtpv1uHandleEchoReq,
      if_neg (by simp [hversion, hpt]), if_neg (by simp [hs])]
    dsimp only
    rw [hresponse]
    rfl
  · have h8 : request[8]? = some (udpData stale request 8) := by
      rw [udpData, getElem?_eq_getElem (by omega)]; rfl
    have h9 : request[9]? = some (udpData stale request 9) := by
      rw [udpData, getElem?_eq_getElem (by omega)]; rfl
    rw [hnumber, sequenceNumber, h8, h9, some.injEq]
    generalize udpData stale request 8 = x
    generalize udpData stale request 9 = y
    rw [← UInt8.toNat_inj]
    simp only [getD_some, ofBeBytes, foldl_cons, foldl_nil]
    omega

/-! ### End to end -/

/-- **User data and echoes.** The peer has created and deleted tunnels as it likes and still owns the
TEID that the sender sends to. Then a payload given to `gtpv1uSend` is delivered once, as expected,
exactly if it is deliverable. An Echo Response has the number of its request exactly if the two bytes
of that number are the same. -/
theorem gtpv1u_round_trip_iff (req : TunnelDataReq) {s pn : Bool} {bearers : Bearers} {bearer : GtpBearer}
    (hbearers : getUe sender inst req.ueId = some bearers)
    (hbearer : bearers.lookup req.bearerId = some bearer)
    (hqfi : -1 ≤ bearer.outgoingQfi ∧ bearer.outgoingQfi ≤ 63)
    (hpeer₀ : peer₀.te2ueMapping = ∅) (hpeer : tunnelRun peer₀ ops = some peer)
    (hinst : (getInst peer h).isSome) (howns : bearer.teidOutgoing.toUInt64 ∈ peer.te2ueMapping)
    (stale : ℕ → UInt8) :
    (∃ created, lastCreated bearer.teidOutgoing ops = some created ∧
      ((gtpv1uSend sender inst req s pn).2.elim [] (gtpv1uReceiver peer h stale) =
          [expectedDelivery bearer req.payload created] ↔
        Deliverable bearer req.payload s pn created)) ∧
    ∀ request, IsEchoRequest request →
      ∃ response, gtpv1uReceiver peer h stale request = [.reply response] ∧
        (sequenceNumber response = sequenceNumber request ↔ request[8]? = request[9]?) := by
  refine ⟨?_, fun _ hrequest ↦ gtpv1uReceiver_echo peer h stale hrequest⟩
  obtain ⟨tunnel, htunnel⟩ := isSome_iff_exists.1 (AList.lookup_isSome.2 howns)
  obtain ⟨created, hcreated, rfl⟩ := lookup_te2ue hpeer₀ hpeer htunnel
  have hcount : bodyLength (bearer.count s pn) req.payload s pn =
      bodyLength bearer req.payload s pn := rfl
  have hsend : (gtpv1uSend sender inst req s pn).2 =
      gpduOf (bearer.count s pn) req.payload s pn := by
    rw [gtpv1uSend, hbearers]
    dsimp only
    rw [hbearer]
  refine ⟨created, hcreated, ?_⟩
  rw [hsend, gpduOf_eq, hcount, ← delivered_iff hqfi]
  split
  · rename_i hfits
    have hbody := length_gpduHeaders (bearer.count s pn) req.payload s pn
    have hhandle := gtpv1uHandleGpdu_gpdu (bearer.count s pn) req.payload s pn hinst htunnel stale
    rw [elim_some, gpdu, gtpv1uReceiver_framed _ _ _ _ _ (by rw [hbody]; exact hfits), hbody, ← gpdu,
      hhandle]
    rfl
  · rfl

/-- An endpoint with one instance and no tunnels. -/
def idleEndPoints : GtpEndPoints :=
  { legacyInstanceMapping := 1, instances := AList.singleton 1 ∅, te2ueMapping := ∅ }

def createTunnel : CreateReq :=
  { inst := 1, ueId := 7, incomingBearerId := 4, outgoingBearerId := 5, outgoingTeid := 0x10
    outgoingQfi := 9, remoteAddr := [10, 0, 0, 1], port := 2152, callBackSdap := true
    incomingTeid := 0x20 }

theorem idleEndPoints_create_isSome : (tunnelRun idleEndPoints [.create createTunnel]).isSome := by
  decide

def onePeer : GtpEndPoints :=
  (tunnelRun idleEndPoints [.create createTunnel]).get idleEndPoints_create_isSome

/-- The bearer at the other end of the tunnel. -/
def oneBearer : GtpBearer :=
  { teidIncoming := 0x10, teidOutgoing := 0x20, outgoingIpAddr := 0x0200000a, outgoingPort := 2152
    seqNum := 0, npduNum := 0, outgoingQfi := 9 }

def oneBearers : Bearers := AList.singleton 5 oneBearer

def oneSender : GtpEndPoints :=
  { legacyInstanceMapping := 1
    instances := AList.singleton 1 (AList.singleton 3 oneBearers)
    te2ueMapping := ∅ }

theorem three_bytes_delivered :
    (gtpv1uSend oneSender 1 ⟨3, 5, [1, 2, 3]⟩ true false).2.elim []
      (gtpv1uReceiver onePeer 1 fun _ ↦ 0) = [.sdap 7 4 [1, 2, 3] 9 false 5] := by
  obtain ⟨⟨created, hcreated, hiff⟩, -⟩ := gtpv1u_round_trip_iff
    ⟨3, 5, [1, 2, 3]⟩ (show getUe oneSender 1 3 = some oneBearers from rfl)
    (show oneBearers.lookup 5 = some oneBearer from rfl) (by decide)
    rfl
    (some_get idleEndPoints_create_isSome).symm
    (show (getInst onePeer 1).isSome by decide)
    (show oneBearer.teidOutgoing.toUInt64 ∈ onePeer.te2ueMapping by decide) (fun _ ↦ 0)
  have hreq : lastCreated oneBearer.teidOutgoing [.create createTunnel] = some createTunnel := rfl
  obtain rfl : created = createTunnel := some.inj (hcreated.symm.trans hreq)
  exact hiff.2 ⟨by decide, by decide, fun _ ↦ rfl⟩

/-- An Echo Request with the number 1. -/
def echoRequest : List UInt8 := [0x32, 1, 0, 4, 0, 0, 0, 0, 0, 1, 0, 0]

/-- The answer to number 1 has the number 256. -/
theorem echoResponse_swapped : IsEchoRequest echoRequest ∧
    ∃ response, gtpv1uReceiver idleEndPoints 1 (fun _ ↦ 0) echoRequest = [.reply response] ∧
      sequenceNumber echoRequest = 1 ∧ sequenceNumber response = 256 := by
  refine ⟨⟨by decide, by decide, by decide, by decide, by decide, by decide, by decide⟩,
    [0x32, 2, 0, 6, 0, 0, 0, 0, 1, 0, 0, 0, 14, 0], ?_, ?_, ?_⟩ <;> decide

end OaiRan.Gtpu
