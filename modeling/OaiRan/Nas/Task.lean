import OaiRan.Lib.StepSystem
import OaiRan.Nas.Security

/-!
# The NAS task of the UE

The messages that `nas_nrue` takes from its queue, and the two initial messages that RRC has generated.
The steps are those of one UE. What a Registration Request contains is given by whoever calls
`generateRegistrationRequest`; a PDU Session Establishment Accept configures the network interface
and nothing that is looked at here.

The trace keeps **which COUNTs were accepted in the current security context**, and the protected
messages that were sent.
-/

namespace OaiRan.Nas

open Option

variable (a : NasAlgorithms)

/-! ### Generating uplink messages -/

/-- A message that is sent: a plain one, with its type, or a protected one. -/
inductive UlMessage
  | plain (messageType : UInt8)
  | secured (message : ProtectedMessage)
  deriving DecidableEq, Repr

/-- The protected messages among those that are sent. -/
def UlMessage.toList : Option UlMessage → List ProtectedMessage
  | some (.secured m) => [m]
  | _ => []

def generateSecurityModeComplete (nas : NrUeNas) : Option (NrUeNas × ProtectedMessage) := do
  let plain ← mmMsgEncode (.of .plain5gsMsg fgsSecurityModeComplete)
    (encodeFgsSecurityModeComplete nas.uicc nas.registrationRequestBuf)
  protect a nas .securityModeComplete .integrityProtectedAndCipheredWithNewSecuCtx plain

/-- There is no SOR transparent container. -/
def generateRegistrationComplete (nas : NrUeNas) : Option (NrUeNas × ProtectedMessage) :=
  protect a nas .registrationComplete .integrityProtectedAndCiphered
    [fgsMobilityManagementMessage, SecurityHeaderType.plain5gsMsg.toOctet, registrationComplete]

/-- The header is filled in before the Service Request, which shares its octets. The message is
protected if both contexts are there. -/
def generateServiceRequest (nas : NrUeNas) : Option (NrUeNas × UlMessage) := do
  let k ← nas.securityContainer
  let guti ← nas.guti
  let header := ((MmMsgHeader.of .plain5gsMsg fgsServiceRequest).setServiceType 1)
    |>.setNasKeySetIdentifier 0 7
  let plain ← mmMsgEncode header (encodeFgsServiceRequest guti)
  if k.cipheringAlgorithm ≠ 0 ∧ k.integrityAlgorithm ≠ 0 then
    let (nas, message) ← protect a nas .serviceRequest .integrityProtected plain
    some (nas, .secured message)
  else some (nas, .plain fgsServiceRequest)

/-- The security header type of the message inside is that of a new context. -/
def generateDeregistrationRequest (nas : NrUeNas) (guti : Guti) :
    Option (NrUeNas × ProtectedMessage) := do
  let plain ← mmMsgEncode
    (.of .integrityProtectedAndCipheredWithNewSecuCtx fgsDeregistrationRequestUeOriginating)
    (encodeFgsDeregistrationRequestUeOriginating guti)
  protect a nas .deregistrationRequest .integrityProtectedAndCiphered plain

def generatePduSessionEstablishRequest (nas : NrUeNas) (req : NasPduSessionReq) :
    Option (NrUeNas × ProtectedMessage) := do
  let plain ← mmMsgEncode (.of .plain5gsMsg fgsUplinkNasTransport)
    (encodeFgsUplinkNasTransport nas.uicc req)
  protect a nas .pduSessionEstablishmentRequest .integrityProtectedAndCiphered plain

/-! ### Handling downlink messages -/

def handleSecurityModeCommand (nas : NrUeNas) (pdu : List UInt8) :
    Option (NrUeNas × ProtectedMessage) := do
  if pdu.length ≤ 10 then none
  else
    let cipheringAlgorithm := (pdu.getD 10 0).toNat / 16
    let integrityAlgorithm := (pdu.getD 10 0).toNat % 16
    let knasEnc := a.deriveKnas 1 cipheringAlgorithm nas.kamf
    let knasInt := a.deriveKnas 2 integrityAlgorithm nas.kamf
    let container ← streamSecurityContainerInit cipheringAlgorithm integrityAlgorithm knasEnc knasInt
    generateSecurityModeComplete a { nas with securityContainer := some container }

/-- `decode_guti_5gs_mobile_identity` from the octet `i` on; bits 4 to 8 of the first one are fixed. -/
def decodeGuti5gsMobileIdentity (pdu : List UInt8) (i : ℕ) : Option Guti :=
  let octet (j : ℕ) : ℕ := (pdu.getD (i + j) 0).toNat
  let low (j : ℕ) : UInt8 := .ofNat (octet j % 16)
  let high (j : ℕ) : UInt8 := .ofNat (octet j / 16)
  if octet 0 / 8 ≠ 0x1e then none
  else
    let temp := octet 5 * 2 ^ 8 + octet 6
    some
      { mccdigit1 := low 1
        mccdigit2 := high 1
        mccdigit3 := low 2
        mncdigit1 := low 3
        mncdigit2 := high 3
        mncdigit3 := high 2
        amfregionid := .ofNat (octet 4)
        -- a field of 10 bits
        amfsetid := temp / 2 ^ 3 % 2 ^ 10
        amfpointer := temp % 2 ^ 6
        tmsi := ByteOrder.ofBeBytes ((List.range 4).map fun j ↦ pdu.getD (i + 7 + j) 0) }

/-- The GUTI, if there is one. Of its length only the first octet is compared with what is left. -/
def decodeRegistrationAccept (nas : NrUeNas) (pdu : List UInt8) : Option NrUeNas := do
  if pdu.getD 9 0 ≠ registrationAccept then none
  else if pdu.getD 12 0 ≠ 0x77 then some nas
  else if pdu.length - 5 < (pdu.getD 13 0).toNat then none
  else if (pdu.getD 15 0).toNat % 8 ≠ 2 then none
  else
    let guti ← decodeGuti5gsMobileIdentity pdu 15
    some { nas with guti := some guti }

def handleRegistrationAccept (nas : NrUeNas) (pdu : List UInt8) :
    Option (NrUeNas × ProtectedMessage) := do
  let nas ← decodeRegistrationAccept nas pdu
  generateRegistrationComplete a nas

/-- The two messages that carry a downlink NAS PDU. -/
inductive DlEvent
  | connEstabliCnf
  | downlinkDataInd
  deriving DecidableEq, Repr

/-- Only a Deregistration Accept is accepted without protection, and only in `downlinkDataInd`. -/
def acceptsUnprotected (event : DlEvent) (pdu : List UInt8) : Bool :=
  event == .downlinkDataInd && getMsgType pdu == fgsDeregistrationAcceptUeOriginating

/-- Whether the PDU is handled, by what `nas_security_rx_process` found. -/
def isHandled (event : DlEvent) (state : SecurityState) (pdu : List UInt8) : Bool :=
  match state with
  | .integrityPassed | .noSecurityContext => true
  | .unprotected => acceptsUnprotected event pdu
  | .integrityFailed | .badInput => false

/-- What a PDU that is handled does, by its type. -/
def handleDownlink (event : DlEvent) (nas : NrUeNas) (pdu : List UInt8) :
    Option (NrUeNas × Option UlMessage) :=
  let type := getMsgType pdu
  let secured (r : Option (NrUeNas × ProtectedMessage)) : Option (NrUeNas × Option UlMessage) :=
    r.map fun r ↦ (r.1, some (.secured r.2))
  if type = registrationAccept then secured (handleRegistrationAccept a nas pdu)
  else
    match event with
    | .connEstabliCnf => some (nas, none)
    | .downlinkDataInd =>
      if type = fgsIdentityRequest then some (nas, some (.plain 0x5c))
      else if type = fgsAuthenticationRequest then
        some ({ nas with kamf := a.deriveKamf nas.uicc pdu }, some (.plain 0x57))
      else if type = fgsSecurityModeCommand then secured (handleSecurityModeCommand a nas pdu)
      else if type = registrationReject then none
      else some (nas, none)

/-! ### What is sent -/

/-- The security header type that a message is sent with. -/
def ProtectedType.header : ProtectedType → SecurityHeaderType
  | securityModeComplete => .integrityProtectedAndCipheredWithNewSecuCtx
  | registrationComplete => .integrityProtectedAndCiphered
  | serviceRequest => .integrityProtected
  | deregistrationRequest => .integrityProtectedAndCiphered
  | pduSessionEstablishmentRequest => .integrityProtectedAndCiphered

/-- The security header type of the message inside. -/
def ProtectedType.inner : ProtectedType → SecurityHeaderType
  | securityModeComplete => .plain5gsMsg
  | registrationComplete => .plain5gsMsg
  | serviceRequest => .integrityProtected
  | deregistrationRequest => .integrityProtectedAndCipheredWithNewSecuCtx
  | pduSessionEstablishmentRequest => .plain5gsMsg

/-- A protected message is sent: all that can happen to the state is that the COUNT increases. -/
structure Sends (a : NasAlgorithms) (nas nas' : NrUeNas) (m : ProtectedMessage) : Prop where
  container_eq : nas.securityContainer = some m.container
  count_eq : m.count = nas.nasCountUl
  nas_eq : nas' = { nas with nasCountUl := nas.nasCountUl + 1 }
  pdu_eq : m.pdu = protectedPdu a m.container m.count m.type.header m.plain
  plain_eq : ∃ messageType body, m.plain = [0x7e, m.type.inner.toOctet, messageType] ++ body

section Sends

variable {a} {nas nas' : NrUeNas} {m : ProtectedMessage}

variable {pdu plain : List UInt8}

theorem sends_of_protect (type : ProtectedType)
    (h : protect a nas type type.header plain = some (nas', m))
    (hplain : ∃ messageType body, plain = [0x7e, type.inner.toOctet, messageType] ++ body) :
    Sends a nas nas' m := by
  obtain ⟨k, hk, rfl, rfl⟩ := protect_eq_some h
  exact ⟨hk, rfl, rfl, rfl, hplain⟩

theorem generateSecurityModeComplete_sends
    (h : generateSecurityModeComplete a nas = some (nas', m)) : Sends a nas nas' m := by
  exact sends_of_protect .securityModeComplete h ⟨_, _, rfl⟩

theorem generateDeregistrationRequest_sends
    (h : generateDeregistrationRequest a nas guti = some (nas', m)) : Sends a nas nas' m := by
  exact sends_of_protect .deregistrationRequest h ⟨_, _, rfl⟩

theorem generatePduSessionEstablishRequest_sends
    (h : generatePduSessionEstablishRequest a nas req = some (nas', m)) : Sends a nas nas' m := by
  exact sends_of_protect .pduSessionEstablishmentRequest h ⟨_, _, rfl⟩

/-- The octets of a Service Request's header, after the service type and the key set identifier were
written to them. -/
theorem serviceRequest_header : ((MmMsgHeader.of .plain5gsMsg fgsServiceRequest).setServiceType 1
    |>.setNasKeySetIdentifier 0 7) = .of .integrityProtected fgsServiceRequest := by
  decide

/-- A Service Request is sent with protection, or plain. -/
theorem generateServiceRequest_cases (h : generateServiceRequest a nas = some (nas', message)) :
    (nas' = nas ∧ message = .plain fgsServiceRequest) ∨
      ∃ m, message = .secured m ∧ Sends a nas nas' m := by
  rw [generateServiceRequest, serviceRequest_header] at h
  obtain ⟨k, hk, h⟩ := bind_eq_some_iff.1 h
  obtain ⟨guti, hguti, h⟩ := bind_eq_some_iff.1 h
  obtain ⟨plain, hplain, h⟩ := bind_eq_some_iff.1 h
  split at h
  · obtain ⟨⟨nas'', m⟩, hp, h⟩ := bind_eq_some_iff.1 h
    cases h
    exact .inr ⟨m, rfl, sends_of_protect .serviceRequest hp
      ⟨_, _, (some.inj hplain).symm⟩⟩
  · cases h
    exact .inl ⟨rfl, rfl⟩

/-- The state in which a Security Mode Complete is sent has the new context. -/
theorem handleSecurityModeCommand_sends (h : handleSecurityModeCommand a nas pdu = some (nas', m)) :
    ∃ k, Sends a { nas with securityContainer := some k } nas' m := by
  rw [handleSecurityModeCommand] at h
  split at h
  · cases h
  · obtain ⟨k, -, h⟩ := bind_eq_some_iff.1 h
    exact ⟨k, generateSecurityModeComplete_sends h⟩

theorem handleRegistrationAccept_sends (h : handleRegistrationAccept a nas pdu = some (nas', m)) :
    ∃ guti, Sends a { nas with guti := guti } nas' m := by
  obtain ⟨nas'', hdec, h⟩ := bind_eq_some_iff.1 h
  have hguti : ∃ guti, nas'' = { nas with guti := guti } := by
    rw [decodeRegistrationAccept] at hdec
    split at hdec
    · cases hdec
    split at hdec
    · exact ⟨nas.guti, (some.inj hdec).symm⟩
    split at hdec
    · cases hdec
    split at hdec
    · cases hdec
    obtain ⟨guti, -, hdec⟩ := bind_eq_some_iff.1 hdec
    exact ⟨some guti, (some.inj hdec).symm⟩
  obtain ⟨guti, rfl⟩ := hguti
  exact ⟨guti, sends_of_protect .registrationComplete h ⟨_, [], rfl⟩⟩

/-- **All that a PDU that is handled can do**: apart from what is sent, the COUNTs stay as they
are. -/
inductive Handled (a : NasAlgorithms) (nas nas' : NrUeNas) : Option UlMessage → Prop
  | unsent {message : Option UlMessage} (hplain : UlMessage.toList message = [])
    (hcontainer : nas'.securityContainer = nas.securityContainer)
    (hul : nas'.nasCountUl = nas.nasCountUl) (hdl : nas'.nasCountDl = nas.nasCountDl) :
    Handled a nas nas' message
  | sent {mid : NrUeNas} {m : ProtectedMessage} (h : Sends a mid nas' m)
    (hul : mid.nasCountUl = nas.nasCountUl) (hdl : mid.nasCountDl = nas.nasCountDl) :
    Handled a nas nas' (some (.secured m))

theorem handleDownlink_handled
    (h : handleDownlink a event nas pdu = some (nas', message)) : Handled a nas nas' message := by
  unfold handleDownlink at h
  dsimp only at h
  split at h
  · obtain ⟨⟨nas'', m⟩, hreg, h⟩ := map_eq_some_iff.1 h
    cases h
    obtain ⟨guti, hsend⟩ := handleRegistrationAccept_sends hreg
    exact .sent hsend rfl rfl
  · cases event with
    | connEstabliCnf =>
      cases h
      exact .unsent rfl rfl rfl rfl
    | downlinkDataInd =>
      dsimp only at h
      split at h
      · cases h
        exact .unsent rfl rfl rfl rfl
      split at h
      · cases h
        exact .unsent rfl rfl rfl rfl
      split at h
      · obtain ⟨⟨nas'', m⟩, hsmc, h⟩ := map_eq_some_iff.1 h
        cases h
        obtain ⟨k, hsend⟩ := handleSecurityModeCommand_sends hsmc
        exact .sent hsend rfl rfl
      split at h
      · cases h
      · cases h
        exact .unsent rfl rfl rfl rfl

end Sends

/-! ### Runs -/

/-- What the task is given. -/
inductive NasOp
  | registrationRequest (buf : List UInt8)
  | serviceRequest
  | pduSessionReq (req : NasPduSessionReq)
  | deregistrationReq
  | downlink (event : DlEvent) (pdu : List UInt8)
  deriving DecidableEq, Repr

/-- The UE, the COUNTs of the PDUs that were accepted in the current security context, the last one
first, with the value of `nas_count_dl` when the context was set up, and the protected messages that
were sent. -/
structure NasTrace where
  nas : NrUeNas
  accepted : List ℕ := []
  contextStart : ℕ := 0
  sent : List ProtectedMessage := []
  deriving DecidableEq, Repr

def NasTrace.downlink (t : NasTrace) (event : DlEvent) (pdu : List UInt8) : Option NasTrace := do
  let (nas, state, pdu) ← nasSecurityRxProcess a t.nas pdu
  if isHandled event state pdu then
    let accepted :=
      if state = .integrityPassed then (nas.nasCountDl - 1) :: t.accepted else t.accepted
    let (nas', message) ← handleDownlink a event nas pdu
    if nas'.securityContainer = nas.securityContainer then
      some { t with nas := nas', accepted := accepted, sent := t.sent ++ UlMessage.toList message }
    else
      -- a new context
      some ⟨nas', [], nas'.nasCountDl, t.sent ++ UlMessage.toList message⟩
  else some { t with nas := nas }

def NasTrace.send (t : NasTrace) (r : Option (NrUeNas × UlMessage)) : Option NasTrace :=
  r.map fun r ↦ { t with nas := r.1, sent := t.sent ++ UlMessage.toList (some r.2) }

/-- Protected messages only. -/
def NasTrace.sendSecured (t : NasTrace) (r : Option (NrUeNas × ProtectedMessage)) :
    Option NasTrace :=
  t.send (r.map fun r ↦ (r.1, .secured r.2))

def NasTrace.step (t : NasTrace) : NasOp → Option NasTrace
  | .registrationRequest buf => some { t with nas := { t.nas with registrationRequestBuf := buf } }
  | .serviceRequest => t.send (generateServiceRequest a t.nas)
  | .pduSessionReq req => t.sendSecured (generatePduSessionEstablishRequest a t.nas req)
  | .deregistrationReq =>
    match t.nas.guti with
    | some guti => t.sendSecured (generateDeregistrationRequest a t.nas guti)
    | none => some t
  | .downlink event pdu => t.downlink a event pdu

/-- The task of a UE that is switched on. -/
def nasSystem (uicc : Uicc) : StepSystem NasTrace NasOp where
  init := { nas := { uicc } }
  step := NasTrace.step a

end OaiRan.Nas
