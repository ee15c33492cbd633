import OaiRan.Lib.ByteOrder

/-!
# 5GS mobility management messages

The uplink messages of `nr_nas_msg.c` that are sent with protection, as `mm_msg_encode` writes them
(`EMM/MSG` and `IES`). The buffers are large enough for every message, so that an encoder fails only
on the protocol discriminator.

`MM_msg` is a **union**: every message but the Service Request starts with the octets of
`mm_msg_header_t`, and what is written to the one is read as the other. A Service Request starts with
the NAS key set identifier and the service type, which **share their octets with the header**
(`MmMsgHeader.setNasKeySetIdentifier`, `MmMsgHeader.setServiceType`).
-/

namespace OaiRan.Nas

open ByteOrder

/-- `Security_header_t` -/
inductive SecurityHeaderType
  | plain5gsMsg
  | integrityProtected
  | integrityProtectedAndCiphered
  | integrityProtectedWithNewSecuCtx
  | integrityProtectedAndCipheredWithNewSecuCtx
  deriving DecidableEq, Repr

def SecurityHeaderType.toOctet : SecurityHeaderType → UInt8
  | plain5gsMsg => 0
  | integrityProtected => 1
  | integrityProtectedAndCiphered => 2
  | integrityProtectedWithNewSecuCtx => 3
  | integrityProtectedAndCipheredWithNewSecuCtx => 4

def fgsMobilityManagementMessage : UInt8 := 0x7e

def fgsSessionManagementMessage : UInt8 := 0x2e

/-! Message types. -/

def registrationAccept : UInt8 := 0x42

def registrationComplete : UInt8 := 0x43

def registrationReject : UInt8 := 0x44

def fgsDeregistrationRequestUeOriginating : UInt8 := 0x45

def fgsDeregistrationAcceptUeOriginating : UInt8 := 0x46

def fgsServiceRequest : UInt8 := 0x4c

def fgsAuthenticationRequest : UInt8 := 0x56

def fgsIdentityRequest : UInt8 := 0x5b

def fgsSecurityModeCommand : UInt8 := 0x5d

def fgsSecurityModeComplete : UInt8 := 0x5e

def fgsUplinkNasTransport : UInt8 := 0x67

def fgsDownlinkNasTransport : UInt8 := 0x68

def fgsPduSessionEstablishmentReq : UInt8 := 0xc1

/-! ### The header -/

/-- `mm_msg_header_t` -/
structure MmMsgHeader where
  (exProtocolDiscriminator securityHeaderType messageType : UInt8)
  deriving DecidableEq, Repr

namespace MmMsgHeader

/-- The header of a message, with the security header type of its own. -/
def of (type : SecurityHeaderType) (messageType : UInt8) : MmMsgHeader :=
  ⟨fgsMobilityManagementMessage, type.toOctet, messageType⟩

/-- `serviceType : 4` of a Service Request is in the second octet. -/
def setServiceType (h : MmMsgHeader) (serviceType : UInt8) : MmMsgHeader :=
  { h with securityHeaderType := (h.securityHeaderType &&& 0xf0) ||| (serviceType &&& 0x0f) }

/-- `tsc : 1` and `naskeysetidentifier : 3` of a Service Request are in the first octet. -/
def setNasKeySetIdentifier (h : MmMsgHeader) (tsc identifier : UInt8) : MmMsgHeader :=
  { h with
    exProtocolDiscriminator :=
      (h.exProtocolDiscriminator &&& 0xf0) ||| (tsc &&& 1) ||| ((identifier &&& 7) <<< (1 : UInt8)) }

end MmMsgHeader

/-- `_nas_mm_msg_encode_header` -/
def nasMmMsgEncodeHeader (h : MmMsgHeader) : Option (List UInt8) :=
  if h.exProtocolDiscriminator ≠ fgsMobilityManagementMessage then none
  else some [h.exProtocolDiscriminator, h.securityHeaderType &&& 0xf, h.messageType]

/-- `mm_msg_encode`: the header, and what the encoder of the message writes. -/
def mmMsgEncode (h : MmMsgHeader) (body : List UInt8) : Option (List UInt8) :=
  (nasMmMsgEncodeHeader h).map (· ++ body)

/-! ### Mobile identities -/

/-- `uicc_t`, as far as it is read here. -/
structure Uicc where
  (imeisvStr dnnStr : List UInt8)
  deriving DecidableEq, Repr

/-- At most `IMEISV_STR_MAX_LENGTH` digits are read, and what is not a digit counts as 0. -/
def getImeisvDigit (uicc : Uicc) (i : ℕ) : UInt8 :=
  match (uicc.imeisvStr.take 16).drop i with
  | [] => 0
  | c :: _ => if 0x30 ≤ c ∧ c ≤ 0x39 then c - 0x30 else 0

/-- Two half octets. -/
def halves (high low : UInt8) : UInt8 := (high <<< (4 : UInt8)) ||| low

def encodeImeisv5gsMobileIdentity (uicc : Uicc) : List UInt8 :=
  let digit := getImeisvDigit uicc
  [halves (digit 0) 5, halves (digit 2) (digit 1), halves (digit 4) (digit 3),
    halves (digit 6) (digit 5), halves (digit 8) (digit 7), halves (digit 10) (digit 9),
    halves (digit 12) (digit 11), halves (digit 14) (digit 13), halves 0xf (digit 15)]

/-- `Guti5GSMobileIdentity_t` -/
structure Guti where
  (mccdigit1 mccdigit2 mccdigit3 mncdigit1 mncdigit2 mncdigit3 amfregionid : UInt8)
  (amfsetid amfpointer tmsi : ℕ)
  deriving DecidableEq, Repr

def encodeGuti5gsMobileIdentity (guti : Guti) : List UInt8 :=
  [0xf2, halves guti.mccdigit2 guti.mccdigit1, halves guti.mncdigit3 guti.mccdigit3,
    halves guti.mncdigit2 guti.mncdigit1, guti.amfregionid] ++
  beBytes 2 ((guti.amfsetid <<< 6) ||| (guti.amfpointer &&& 0x3f)) ++ beBytes 4 guti.tmsi

def encodeStmsi5gsMobileIdentity (guti : Guti) : List UInt8 :=
  0xf4 :: beBytes 2 ((guti.amfsetid <<< 6) ||| (guti.amfpointer &&& 0x3f)) ++ beBytes 4 guti.tmsi

/-- `encode_5gs_mobile_identity`: IEI, if there is one, length and identity. -/
def encode5gsMobileIdentity (iei : List UInt8) (identity : List UInt8) : List UInt8 :=
  iei ++ beBytes 2 identity.length ++ identity

/-! ### Messages -/

def encodeFgsSecurityModeComplete (uicc : Uicc) (nasMessageContainer : List UInt8) : List UInt8 :=
  encode5gsMobileIdentity [0x77] (encodeImeisv5gsMobileIdentity uicc) ++
    [0x71] ++ beBytes 2 nasMessageContainer.length ++ nasMessageContainer

/-- The key set identifier is not written. -/
def encodeFgsDeregistrationRequestUeOriginating (guti : Guti) : List UInt8 :=
  [0x10] ++ encode5gsMobileIdentity [] (encodeGuti5gsMobileIdentity guti)

/-- The key set identifier is not available and the service type is data. -/
def encodeFgsServiceRequest (guti : Guti) : List UInt8 :=
  [0x71] ++ encode5gsMobileIdentity [] (encodeStmsi5gsMobileIdentity guti)

/-- `nas_pdu_session_req_t` -/
structure NasPduSessionReq where
  (pdusessionId pdusessionType sst sd : ℤ)
  deriving DecidableEq, Repr

def encodePduSessionEstablishmentRequest (req : NasPduSessionReq) : List UInt8 :=
  [fgsSessionManagementMessage, UInt8.ofInt req.pdusessionId, 1, fgsPduSessionEstablishmentReq,
    0xff, 0xff, UInt8.ofInt req.pdusessionType]

/-- The slice; `0xffffff` means that there is no SD. -/
def snssai (req : NasPduSessionReq) : List UInt8 :=
  if req.sd ≠ 0xffffff then UInt8.ofInt req.sst :: beBytes 3 (req.sd % 2 ^ 24).toNat
  else [UInt8.ofInt req.sst]

/-- The DNN, with its length in front of it. -/
def dnn (uicc : Uicc) : List UInt8 := UInt8.ofNat uicc.dnnStr.length :: uicc.dnnStr

def encodeFgsUplinkNasTransport (uicc : Uicc) (req : NasPduSessionReq) : List UInt8 :=
  let payload := encodePduSessionEstablishmentRequest req
  [0x01] ++ beBytes 2 payload.length ++ payload ++ [0x12, UInt8.ofInt req.pdusessionId, 0x81] ++
    [0x22, UInt8.ofNat (snssai req).length] ++ snssai req ++
    [0x25, UInt8.ofNat (dnn uicc).length] ++ dnn uicc

end OaiRan.Nas
