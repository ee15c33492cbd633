import OaiRan.Mac.Bsr

/-!
# The gNB's reading of an uplink MAC PDU

`nr_process_mac_pdu` goes over the sub-PDUs of a PDU, each with a subheader of one to three octets
(`decode_ul_mac_sub_pdu_header`), and hands SDUs to RLC. A byte that is read behind the PDU is an
outcome of its own; so is every other way to end.

Here the PDU is a list, which is what a round trip is stated over. `UlReads` has the same function over
a buffer that goes on behind the PDU, for the bytes that it inspects, and shows that the two agree on
every PDU whose sub-PDUs are in order.
-/

namespace OaiRan.Mac

/-- The LCIDs of the uplink that `nr_process_mac_pdu` distinguishes. -/
inductive UlSchLcid
  | ccch64Bits
  | srb
  | dtch
  | ccch48Bits
  | recommendedBitrateQuery
  | multiEntryPhr4Oct
  | configuredGrantConfirmation
  | multiEntryPhr1Oct
  | singleEntryPhr
  | cRnti
  | sTruncatedBsr
  | lTruncatedBsr
  | sBsr
  | lBsr
  | padding
  | unknown
  deriving DecidableEq

/-- `lcid = pduP[0] & 0x3F` as the `switch` sees it. -/
def ulSchLcid (lcid : ℕ) : UlSchLcid :=
  if lcid = 0x00 then .ccch64Bits
  else if lcid = 0x01 ∨ lcid = 0x02 then .srb
  else if 0x04 ≤ lcid ∧ lcid ≤ 0x04 + 28 then .dtch
  else if lcid = 0x34 then .ccch48Bits
  else if lcid = 0x35 then .recommendedBitrateQuery
  else if lcid = 0x36 then .multiEntryPhr4Oct
  else if lcid = 0x37 then .configuredGrantConfirmation
  else if lcid = 0x38 then .multiEntryPhr1Oct
  else if lcid = 0x39 then .singleEntryPhr
  else if lcid = 0x3A then .cRnti
  else if lcid = 0x3B then .sTruncatedBsr
  else if lcid = 0x3C then .lTruncatedBsr
  else if lcid = 0x3D then .sBsr
  else if lcid = 0x3E then .lBsr
  else if lcid = 0x3F then .padding
  else .unknown

/-- What `decode_ul_mac_sub_pdu_header` finds. -/
structure UlSubheader where
  (lcid macSubheaderLen macLen : ℕ)
  deriving DecidableEq

/-- The subheader with an `L` field. -/
def decodeLength (lcid : ℕ) (pdu : List UInt8) : Option UlSubheader := do
  let octet ← pdu[0]?
  let l₁ ← pdu[1]?
  if octet.toNat.testBit 6 then
    let l₂ ← pdu[2]?
    some ⟨lcid, 3, l₁.toNat * 256 + l₂.toNat⟩
  else some ⟨lcid, 2, l₁.toNat⟩

/-- The `switch` of `decode_ul_mac_sub_pdu_header`. -/
def subheaderOf (lcid : ℕ) (pdu : List UInt8) : Option UlSubheader :=
  match ulSchLcid lcid with
  | .ccch64Bits => some ⟨lcid, 1, 8⟩
  | .srb | .dtch | .lTruncatedBsr | .lBsr => decodeLength lcid pdu
  | .ccch48Bits => some ⟨lcid, 1, 6⟩
  | .singleEntryPhr | .cRnti => some ⟨lcid, 1, 2⟩
  | .sTruncatedBsr | .sBsr => some ⟨lcid, 1, 1⟩
  | _ => some ⟨lcid, 1, 0⟩

/-- `decode_ul_mac_sub_pdu_header`, `none` where it reads behind the PDU. -/
def decodeUlMacSubPduHeader (pdu : List UInt8) : Option UlSubheader :=
  pdu[0]?.bind fun octet ↦ subheaderOf (octet.toNat % 64) pdu

/-- How `nr_process_mac_pdu` ends. -/
inductive UlPduEnd
  /-- All sub-PDUs have been read. -/
  | finished
  /-- The rest is padding. -/
  | padding
  | invalidPdu
  | invalidCcch
  | invalidHarqPid
  | unknownLcid (lcid : ℕ)
  /-- An SRB without `CellGroup`, or a C-RNTI without a random access procedure. -/
  | assertion
  | outOfBounds
  deriving DecidableEq

/-- What `nr_process_mac_pdu` knows of the UE, and what it leaves behind. -/
structure GnbUe where
  /-- The UE has a `CellGroup`. -/
  cellGroup : Bool := true
  harqPid : ℤ := 0
  /-- `prepare_initial_ul_rrc_message` succeeds. -/
  initialUlRrcMessage : Bool := true
  /-- A random access procedure with the UE's RNTI is idle. -/
  raIdle : Bool := false
  estimatedUlBuffer : ℕ := 0
  /-- The octets of the last power headroom report. -/
  phr : Option (UInt8 × UInt8) := none
  /-- The calls of `mac_rlc_data_ind`: LCID and bytes. -/
  dataInd : List (ℕ × List UInt8) := []

def GnbUe.macRlcDataInd (ue : GnbUe) (lcid : ℕ) (sdu : List UInt8) : GnbUe :=
  { ue with dataInd := ue.dataInd ++ [(lcid, sdu)] }

/-- The `switch` over the LCID of a sub-PDU with subheader `h`: how it ends the loop, if it does. -/
def GnbUe.subPdu (ue : GnbUe) (h : UlSubheader) (pdu : List UInt8) : Except UlPduEnd GnbUe :=
  let ce := (pdu.drop h.macSubheaderLen).take h.macLen
  match ulSchLcid h.lcid with
  | .ccch64Bits =>
    if (pdu.take (h.macSubheaderLen + h.macLen)).all (· == 0) then .error .invalidCcch
    else .ok (if ue.initialUlRrcMessage then ue.macRlcDataInd 0 ce else ue)
  | .ccch48Bits => .ok (if ue.initialUlRrcMessage then ue.macRlcDataInd 0 ce else ue)
  | .srb => if ue.cellGroup then .ok (ue.macRlcDataInd h.lcid ce) else .error .assertion
  | .dtch =>
    .ok { ue.macRlcDataInd h.lcid ce with estimatedUlBuffer := ue.estimatedUlBuffer - h.macLen }
  | .recommendedBitrateQuery | .multiEntryPhr4Oct | .configuredGrantConfirmation
  | .multiEntryPhr1Oct => .ok ue
  | .singleEntryPhr =>
    if ue.harqPid < 0 then .error .invalidHarqPid
    else .ok { ue with phr := some (ce.getD 0 0, ce.getD 1 0) }
  | .cRnti => if ue.raIdle then .error .assertion else .ok ue
  | .sTruncatedBsr | .sBsr =>
    .ok { ue with estimatedUlBuffer := estimateUlBufferShortBsr (ce.getD 0 0) }
  | .lTruncatedBsr | .lBsr => .ok { ue with estimatedUlBuffer := estimateUlBufferLongBsr ce }
  | .padding => .error .padding
  | .unknown => .error (.unknownLcid h.lcid)

/-- The loop of `nr_process_mac_pdu`. Every sub-PDU has at least one octet, so that as many turns as
there are octets are enough. -/
def processMacPduLoop : ℕ → GnbUe → List UInt8 → UlPduEnd × GnbUe
  | 0, ue, _ => (.finished, ue)
  | n + 1, ue, pdu =>
    if pdu = [] then (.finished, ue)
    else
      match decodeUlMacSubPduHeader pdu with
      | none => (.outOfBounds, ue)
      | some h =>
        if h.macSubheaderLen + h.macLen > pdu.length then (.invalidPdu, ue)
        else
          match ue.subPdu h pdu with
          | .error e => (e, ue)
          | .ok ue => processMacPduLoop n ue (pdu.drop (h.macSubheaderLen + h.macLen))

def nrProcessMacPdu (ue : GnbUe) (pdu : List UInt8) : UlPduEnd × GnbUe :=
  processMacPduLoop pdu.length ue pdu

/-- The PDU has been read to its end. -/
def UlPduEnd.accepted : UlPduEnd → Bool
  | .finished | .padding => true
  | _ => false

/-! ### Reading one sub-PDU -/

theorem decodeLength_short (h : octet.toNat.testBit 6 = false) (lcid : ℕ) (l₁ : UInt8)
    (rest : List UInt8) : decodeLength lcid (octet :: l₁ :: rest) = some ⟨lcid, 2, l₁.toNat⟩ := by
  change (if octet.toNat.testBit 6 then _ else some (⟨lcid, 2, l₁.toNat⟩ : UlSubheader)) = _
  rw [h]
  rfl

theorem decodeLength_long (h : octet.toNat.testBit 6 = true) (lcid : ℕ)
    (rest : List UInt8) : decodeLength lcid (octet :: l₁ :: l₂ :: rest) =
      some ⟨lcid, 3, l₁.toNat * 256 + l₂.toNat⟩ := by
  change (if octet.toNat.testBit 6 then some (⟨lcid, 3, l₁.toNat * 256 + l₂.toNat⟩ : UlSubheader)
    else _) = _
  rw [h]
  rfl

variable {ue ue' : GnbUe} {h : UlSubheader} {sub rest : List UInt8} {n : ℕ}

/-- A sub-PDU that is in order is read, and what follows is read next. -/
theorem processMacPduLoop_append (hdec : decodeUlMacSubPduHeader (sub ++ rest) = some h)
    (hlen : sub.length = h.macSubheaderLen + h.macLen) (hpos : sub ≠ [])
    (hsub : ue.subPdu h (sub ++ rest) = .ok ue') :
    processMacPduLoop (n + 1) ue (sub ++ rest) = processMacPduLoop n ue' rest := by
  rw [processMacPduLoop, if_neg (by simp [hpos]), hdec]
  dsimp only
  rw [if_neg (by simp [hlen]), hsub, ← hlen]
  rw [List.drop_left]

theorem processMacPduLoop_nil : processMacPduLoop n ue [] = (.finished, ue) := by
  cases n with
  | zero => rfl
  | succ n => rw [processMacPduLoop, if_pos rfl]

end OaiRan.Mac
