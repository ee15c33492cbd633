import OaiRan.Nas.Gate

/-!
# Protected uplink messages

Five generators encode, cipher, authenticate and increment the COUNT in the same way (`Sends`). A
receiver that mirrors `nas_security_rx_process` recovers the plain encoding if the security header
type says what was done to it. It does in every message but the Service Request, which is ciphered
and sent as integrity protected only. And if the network chooses EIA0, which the UE accepts, the
octets of the MAC are those that happened to be in its buffer.

## The results, and what each rests on

* `Sends.consistent_iff`, for one message: it is consistent **if it is authenticated, and neither a
  Service Request nor a Deregistration Request**, whose message inside has no plain security header.
  It is the layout of `protectedPdu`, read octet by octet.
* `uplink_of_reach`, for every run: so is each message that was sent, and **no COUNT is used twice**,
  with the same key or another, as it is never reset (`SentBelow`). What a step can do to the uplink
  side is said once, in `step_sendsOne`.
* `service_and_deregistration_inconsistent`: a UE that registers, asks for service and deregisters.
-/

namespace OaiRan.Nas

variable {a : NasAlgorithms}

/-- The security header types that announce ciphering. -/
def announcesCiphering (securityHeaderType : UInt8) : Bool :=
  securityHeaderType == 2 || securityHeaderType == 4

/-- A receiver with the same keys and COUNT: it checks the MAC and deciphers what is announced as
ciphered. -/
def receiveUplink (a : NasAlgorithms) (k : StreamSecurityContainer) (count : ℕ)
    (pdu : List UInt8) : Option (List UInt8) :=
  if pdu.length < 8 then none
  else if (pdu.drop 2).take 4 ≠ k.integrity a count 0 (pdu.drop 6) then none
  else if announcesCiphering (pdu.getD 1 0) then some (k.encrypt a count 0 (pdu.drop 7))
  else some (pdu.drop 7)

/-- **Header and treatment of a message agree**, and it has a MAC: for algorithm 0 none is computed. -/
structure ProtectedMessage.Consistent (a : NasAlgorithms) (m : ProtectedMessage) : Prop where
  sequenceNumber : m.pdu.getD 6 0 = UInt8.ofNat (m.count % 256)
  authenticated : m.container.integrityAlgorithm ≠ 0
  mac : (m.pdu.drop 2).take 4 = m.container.integrity a m.count 0 (m.pdu.drop 6)
  ciphered : announcesCiphering (m.pdu.getD 1 0) = true →
    m.pdu.drop 7 = m.container.encrypt a m.count 0 m.plain
  clear : announcesCiphering (m.pdu.getD 1 0) = false → m.pdu.drop 7 = m.plain
  inner : m.plain.getD 1 0 = SecurityHeaderType.plain5gsMsg.toOctet
  recovered : receiveUplink a m.container m.count m.pdu = some m.plain

section Message

variable {nas nas' : NrUeNas} {m : ProtectedMessage}

/-- **A message is consistent if and only if it is authenticated, and not a Service Request or a
Deregistration Request.** -/
theorem Sends.consistent_iff (h : Sends a nas nas' m) :
    m.Consistent a ↔ m.container.integrityAlgorithm ≠ 0 ∧
      m.type ≠ .serviceRequest ∧ m.type ≠ .deregistrationRequest := by
  obtain ⟨messageType, body, hplain⟩ := h.plain_eq
  obtain ⟨m₀, m₁, m₂, m₃, hmac⟩ := m.container.exists_integrity_eq (a := a) m.count 0
    (UInt8.ofNat (m.count &&& 0xff) :: m.container.encrypt a m.count 0 m.plain)
  have hpdu : m.pdu = 0x7e :: m.type.header.toOctet :: m₀ :: m₁ :: m₂ :: m₃ ::
      UInt8.ofNat (m.count &&& 0xff) :: m.container.encrypt a m.count 0 m.plain := by
    rw [h.pdu_eq, protectedPdu, hmac]
    rfl
  constructor
  · -- the security header type inside is a plain one in the other three only
    intro hc
    have hinner := hc.inner
    rw [hplain] at hinner
    have hinner : m.type.inner.toOctet = SecurityHeaderType.plain5gsMsg.toOctet := hinner
    refine ⟨hc.authenticated, ?_⟩
    constructor <;> intro htype <;> rw [htype] at hinner <;> exact absurd hinner (by decide)
  · rintro ⟨hauthenticated, hservice, hderegistration⟩
    have hcipher : announcesCiphering m.type.header.toOctet = true := by
      rcases htype : m.type with - | - | - | - | -
      · rfl
      · rfl
      · exact absurd htype hservice
      · rfl
      · rfl
    have hinner : m.type.inner = .plain5gsMsg := by
      rcases htype : m.type with - | - | - | - | -
      · rfl
      · rfl
      · exact absurd htype hservice
      · exact absurd htype hderegistration
      · rfl
    have hlow : m.count &&& 0xff = m.count % 256 := Nat.and_two_pow_sub_one_eq_mod m.count 8
    have hchecked : (m.pdu.drop 2).take 4 =
        m.container.integrity a m.count 0 (m.pdu.drop 6) := by
      rw [hpdu]
      exact hmac.symm
    refine ⟨?_, hauthenticated, hchecked, fun _ ↦ ?_, fun hclear ↦ ?_, ?_, ?_⟩
    · rw [hpdu, ← hlow]
      rfl
    · rw [hpdu]
      rfl
    · rw [hpdu] at hclear
      exact absurd hcipher (Bool.eq_false_iff.1 hclear)
    · rw [hplain, hinner]
      rfl
    · have hlen : ¬m.pdu.length < 8 := by
        rw [hpdu, hplain]
        simp only [List.length_cons, StreamSecurityContainer.length_encrypt, List.cons_append]
        omega
      rw [receiveUplink, if_neg hlen, if_neg (not_not.2 hchecked), hpdu]
      show (if announcesCiphering m.type.header.toOctet = true then
        some (m.container.encrypt a m.count 0 (m.container.encrypt a m.count 0 m.plain)) else _) = _
      rw [if_pos hcipher, StreamSecurityContainer.encrypt_encrypt]

end Message

/-! ### Runs -/

section Runs

variable {t t' : NasTrace} {op : NasOp}

/-- What a step does to the uplink side: nothing, or one message is sent. -/
def SendsOne (a : NasAlgorithms) (t t' : NasTrace) : Prop :=
  (t'.sent = t.sent ∧ t'.nas.nasCountUl = t.nas.nasCountUl) ∨
    ∃ mid m, Sends a mid t'.nas m ∧ mid.nasCountUl = t.nas.nasCountUl ∧ t'.sent = t.sent ++ [m]

theorem sendsOne_of_send (h : t.send r = some t')
    (hr : ∀ x, r = some x → (x.1 = t.nas ∧ UlMessage.toList (some x.2) = []) ∨
      ∃ m, x.2 = .secured m ∧ Sends a t.nas x.1 m) : SendsOne a t t' := by
  obtain ⟨x, hx, rfl⟩ := Option.map_eq_some_iff.1 h
  rcases hr x hx with ⟨hnas, hnil⟩ | ⟨m, hm, hsend⟩
  · refine .inl ⟨?_, ?_⟩
    · show t.sent ++ UlMessage.toList (some x.2) = t.sent
      rw [hnil, List.append_nil]
    · show x.1.nasCountUl = t.nas.nasCountUl
      rw [hnas]
  · refine .inr ⟨t.nas, m, hsend, rfl, ?_⟩
    show t.sent ++ UlMessage.toList (some x.2) = t.sent ++ [m]
    rw [hm]
    rfl

theorem sendsOne_of_sendSecured
    (h : t.sendSecured r = some t') (hr : ∀ x, r = some x → Sends a t.nas x.1 x.2) :
    SendsOne a t t' := by
  refine sendsOne_of_send h fun x hx ↦ .inr ?_
  obtain ⟨y, hy, rfl⟩ := Option.map_eq_some_iff.1 hx
  exact ⟨y.2, rfl, hr y hy⟩

/-- The downlink check leaves the uplink COUNT as it is. -/
theorem rx_nasCountUl {state : SecurityState}
    (h : nasSecurityRxProcess a nas pdu = some (nas', state, pdu')) :
    nas'.nasCountUl = nas.nasCountUl := by
  rcases hk : nas.securityContainer with - | k
  · rw [nasSecurityRxProcess, hk] at h
    rw [← (Prod.mk.inj (Option.some.inj h)).1]
  · have hcases := nasSecurityRxProcess_cases (a := a) hk pdu
    rw [h] at hcases
    cases hcases <;> rfl

theorem step_sendsOne (h : t.step a op = some t') : SendsOne a t t' := by
  cases op with
  | registrationRequest buf =>
    cases h
    exact .inl ⟨rfl, rfl⟩
  | serviceRequest =>
    refine sendsOne_of_send h fun x hx ↦ ?_
    rcases generateServiceRequest_cases (show _ = some (x.1, x.2) from hx) with ⟨heq, hm⟩ | hm
    · refine .inl ⟨heq, ?_⟩
      rw [hm]
      rfl
    · exact .inr hm
  | pduSessionReq req =>
    exact sendsOne_of_sendSecured h fun x hx ↦ generatePduSessionEstablishRequest_sends hx
  | deregistrationReq =>
    rw [NasTrace.step] at h
    split at h
    · exact sendsOne_of_sendSecured h fun x hx ↦ generateDeregistrationRequest_sends hx
    · cases h
      exact .inl ⟨rfl, rfl⟩
  | downlink event pdu =>
    obtain ⟨nas, state, pdu', hrx, hcases⟩ := downlink_cases h
    have hul := rx_nasCountUl hrx
    rcases hcases with ⟨-, rfl⟩ | ⟨-, message, hh, hsent, -⟩
    · exact .inl ⟨rfl, hul⟩
    · rcases hh with ⟨hnil, -, hul', -⟩ | ⟨hsend, hul', -⟩
      · exact .inl ⟨by rw [hsent, hnil, List.append_nil], hul'.trans hul⟩
      · exact .inr ⟨_, _, hsend, hul'.trans hul, hsent⟩

/-- **The COUNTs that were used are increasing and below `nas_count_ul`.** -/
structure SentBelow (a : NasAlgorithms) (t : NasTrace) : Prop where
  below : ∀ m ∈ t.sent, m.count < t.nas.nasCountUl
  increasing : t.sent.Pairwise fun m m' ↦ m.count < m'.count
  sends : ∀ m ∈ t.sent, ∃ nas nas', Sends a nas nas' m

theorem SentBelow.step (hb : SentBelow a t) (h : t.step a op = some t') : SentBelow a t' := by
  rcases step_sendsOne h with ⟨hsent, hul⟩ | ⟨mid, m, hsend, hul, hsent⟩
  · exact ⟨hsent ▸ hul ▸ hb.below, hsent ▸ hb.increasing, hsent ▸ hb.sends⟩
  · have hcount : m.count = t.nas.nasCountUl := hsend.count_eq.trans hul
    have hnext : t'.nas.nasCountUl = t.nas.nasCountUl + 1 := by
      rw [hsend.nas_eq]
      show mid.nasCountUl + 1 = _
      rw [hul]
    refine ⟨fun m' hm' ↦ ?_, ?_, fun m' hm' ↦ ?_⟩
    · rw [hnext]
      rcases List.mem_append.1 (hsent ▸ hm') with hm' | hm'
      · exact Nat.lt_succ_of_lt (hb.below m' hm')
      · rw [List.mem_singleton.1 hm', hcount]
        exact Nat.lt_succ_self _
    · rw [hsent, List.pairwise_append]
      refine ⟨hb.increasing, List.pairwise_singleton _ _, fun m' hm' m'' hm'' ↦ ?_⟩
      rw [List.mem_singleton.1 hm'', hcount]
      exact hb.below m' hm'
    · rcases List.mem_append.1 (hsent ▸ hm') with hm' | hm'
      · exact hb.sends m' hm'
      · rw [List.mem_singleton.1 hm']
        exact ⟨_, _, hsend⟩

theorem sentBelow_of_reach {ok : NasTrace → NasOp → Prop}
    (h : (nasSystem a uicc).Reach ok t) : SentBelow a t :=
  h.invariant (P := SentBelow a)
    ⟨fun m hm ↦ (by cases hm), .nil, fun m hm ↦ (by cases hm)⟩ fun hb _ hs ↦ hb.step hs

/-- **Protected uplink messages**, in every run: no COUNT is used twice, and a message is consistent
if and only if it is authenticated, and not a Service Request or a Deregistration Request. -/
theorem uplink_of_reach {uicc : Uicc} (h : (nasSystem a uicc).Reach (fun _ _ ↦ True) t) :
    t.sent.Pairwise (fun m m' ↦ m.count ≠ m'.count) ∧
      ∀ m ∈ t.sent, m.Consistent a ↔ m.container.integrityAlgorithm ≠ 0 ∧
        m.type ≠ .serviceRequest ∧ m.type ≠ .deregistrationRequest := by
  have hb := sentBelow_of_reach h
  refine ⟨hb.increasing.imp fun hlt ↦ Nat.ne_of_lt hlt, fun m hm ↦ ?_⟩
  obtain ⟨nas, nas', hsend⟩ := hb.sends m hm
  exact hsend.consistent_iff

end Runs

/-! ### A Service Request and a Deregistration Request -/

/-- The sums as MACs, with a constant keystream. -/
def flipAlgorithms : NasAlgorithms := { sumAlgorithms with keystream := fun _ _ _ _ _ ↦ 0xff }

/-- The context of EEA2 and EIA2. -/
def eea2Container : StreamSecurityContainer := ⟨2, 2, [], []⟩

/-- A Registration Accept that assigns a GUTI. -/
def registrationAcceptMessage : List UInt8 :=
  [0x7e, 0, 0x42, 1, 1, 0x77, 0, 11, 0xf2, 0x02, 0xf8, 0x39, 1, 0, 0x40, 0, 0, 0, 1]

/-- The UE registers, asks for service and deregisters. -/
def registeredOps : List NasOp :=
  [.downlink .downlinkDataInd [0x7e, 3, 0, 0, 0, 0, 0, 0x7e, 0, 0x5d, 0x22],
    .downlink .downlinkDataInd
      (genuinePdu flipAlgorithms eea2Container 0 registrationAcceptMessage),
    .serviceRequest, .deregistrationReq]

theorem registered_isSome :
    ((nasSystem flipAlgorithms emptyUicc).exec (fun _ _ ↦ True)
      (nasSystem flipAlgorithms emptyUicc).init registeredOps).isSome := by
  decide

/-- The UE after it. -/
def registered : NasTrace :=
  ((nasSystem flipAlgorithms emptyUicc).exec (fun _ _ ↦ True)
    (nasSystem flipAlgorithms emptyUicc).init registeredOps).get registered_isSome

theorem registered_reach : (nasSystem flipAlgorithms emptyUicc).Reach (fun _ _ ↦ True) registered :=
  StepSystem.reach_get_exec _ _ _ registered_isSome

theorem uplink_registered :
    registered.sent.Pairwise (fun m m' ↦ m.count ≠ m'.count) ∧
      ∀ m ∈ registered.sent, m.Consistent flipAlgorithms ↔ m.container.integrityAlgorithm ≠ 0 ∧
        m.type ≠ .serviceRequest ∧ m.type ≠ .deregistrationRequest :=
  uplink_of_reach registered_reach

/-- **The Service Request is ciphered and says that it is not; neither it nor the Deregistration
Request holds a plain message**: the receiver takes the ciphered octets for the message. -/
theorem service_and_deregistration_inconsistent :
    (nasSystem flipAlgorithms emptyUicc).Reach (fun _ _ ↦ True) registered ∧
      registered.sent.map (·.type) = [.securityModeComplete, .registrationComplete,
        .serviceRequest, .deregistrationRequest] ∧
      (∀ m ∈ registered.sent, m.type = .serviceRequest →
        m.pdu.getD 1 0 = SecurityHeaderType.integrityProtected.toOctet ∧
        m.pdu.drop 7 = m.container.encrypt flipAlgorithms m.count 0 m.plain ∧
        m.plain.getD 1 0 = 1 ∧
        receiveUplink flipAlgorithms m.container m.count m.pdu ≠ some m.plain) ∧
      ∀ m ∈ registered.sent, m.type = .deregistrationRequest → m.plain.getD 1 0 = 4 :=
  ⟨registered_reach, by decide, by decide, by decide⟩

end OaiRan.Nas
