import OaiRan.Nas.Task

/-!
# The downlink gate

Which downlink PDUs the UE acts on once it has a security context. The COUNT is reconstructed from
the 8 bits of the sequence number: `synchronizeSqn` is the first COUNT from `nas_count_dl` on that
ends in them. After a PDU is accepted, `nas_count_dl` is the COUNT after its own, so that **no COUNT
is accepted twice in a context** (`CountsBelow`, in every run).

The reconstructed COUNT is stored before the MAC is checked. A PDU that fails the check leaves the
state alone **if and only if** its sequence number is the one that is expected next
(`leavesStateAlone_iff`). In a run without such failures `nas_count_dl` follows what was accepted
(`CountFollows`), and genuine PDUs are accepted.
-/

namespace OaiRan.Nas

open Option Nat

variable {a : NasAlgorithms}

/-! ### The reconstructed COUNT -/

variable {sqn n : ℕ} {nas nas' : NrUeNas}

theorem synchronizeSqn_eq (count : ℕ) (hsqn : sqn < 256) : synchronizeSqn count sqn =
    if sqn < count % 256 then count / 256 * 256 + 256 + sqn else count / 256 * 256 + sqn := by
  have hlow : count &&& 0xff = count % 256 := and_two_pow_sub_one_eq_mod count 8
  have hor : ∀ n, (n >>> 8) <<< 8 ||| sqn = n / 256 * 256 + sqn := fun n ↦ by
    rw [← shiftLeft_add_eq_or_of_lt (show sqn < 2 ^ 8 from hsqn), shiftLeft_eq,
      shiftRight_eq_div_pow]
  rw [synchronizeSqn, hlow]
  rw [hor]
  split <;> split <;> omega

theorem le_synchronizeSqn (count : ℕ) (hsqn : sqn < 256) : count ≤ synchronizeSqn count sqn := by
  rw [synchronizeSqn_eq count hsqn]
  split <;> omega

/-- It does not move for the sequence number that is expected, and for no other. -/
theorem synchronizeSqn_eq_self_iff (count : ℕ) (hsqn : sqn < 256) :
    synchronizeSqn count sqn = count ↔ sqn = count % 256 := by
  rw [synchronizeSqn_eq count hsqn]
  split <;> omega

/-- **The COUNT is found** if it is among the next 256. -/
theorem synchronizeSqn_of_le {count : ℕ} (hle : count ≤ n) (hlt : n ≤ count + 255) :
    synchronizeSqn count (n % 256) = n := by
  rw [synchronizeSqn_eq count (mod_lt _ (by decide))]
  split <;> omega

/-! ### PDUs, and what the UE does with them -/

/-- The MAC of a PDU is that of a COUNT. -/
def Verifies (a : NasAlgorithms) (k : StreamSecurityContainer) (count : ℕ) (pdu : List UInt8) :
    Prop :=
  (pdu.drop 2).take 4 = k.integrity a count 1 (pdu.drop 6)

/-- A PDU of the network, for a COUNT and a message. -/
def genuinePdu (a : NasAlgorithms) (k : StreamSecurityContainer) (count : ℕ)
    (message : List UInt8) : List UInt8 :=
  let protectedPart := UInt8.ofNat (count % 256) :: k.encrypt a count 1 message
  [0x7e, 2] ++ k.integrity a count 1 protectedPart ++ protectedPart

/-- The UE acts on the PDU. -/
def Acts (a : NasAlgorithms) (event : DlEvent) (nas : NrUeNas) (pdu : List UInt8) : Prop :=
  ∃ r, nasSecurityRxProcess a nas pdu = some r ∧ isHandled event r.2.1 r.2.2 = true

instance (event : DlEvent) (nas : NrUeNas) (pdu : List UInt8) : Decidable (Acts a event nas pdu) :=
  inferInstanceAs (Decidable (∃ r ∈ nasSecurityRxProcess a nas pdu,
    isHandled event r.2.1 r.2.2 = true))

/-- An unprotected Deregistration Accept. -/
def IsDeregistrationAccept (pdu : List UInt8) : Prop :=
  pdu.getD 1 0 = 0 ∧ getMsgType pdu = fgsDeregistrationAcceptUeOriginating

/-- The UE goes on, and if it does not act on the PDU then its state is as before. -/
def LeavesStateAlone (a : NasAlgorithms) (event : DlEvent) (nas : NrUeNas) (pdu : List UInt8) :
    Prop :=
  ∃ r, nasSecurityRxProcess a nas pdu = some r ∧ (isHandled event r.2.1 r.2.2 = false → r.1 = nas)

/-- The COUNT comes after what was accepted, with at most 255 losses in between. -/
def NasTrace.FollowsUp (t : NasTrace) (count : ℕ) : Prop :=
  match t.accepted with
  | [] => t.contextStart ≤ count ∧ count ≤ t.contextStart + 255
  | last :: _ => last < count ∧ count ≤ last + 256

/-- A PDU that gets to the integrity check passes it or carries the sequence number that is expected
next, and the COUNT fits into 24 bits. -/
def Undisturbed (a : NasAlgorithms) (nas : NrUeNas) (pdu : List UInt8) : Prop :=
  ∀ k, nas.securityContainer = some k → pdu.getD 1 0 = 2 → 8 ≤ pdu.length →
    synchronizeSqn nas.nasCountDl (pdu.getD 6 0).toNat ≤ 0xffffff ∧
      (Verifies a k (synchronizeSqn nas.nasCountDl (pdu.getD 6 0).toNat) pdu ∨
        (pdu.getD 6 0).toNat = nas.nasCountDl % 256)

/-- The same for what the task is given. -/
def NasTrace.Undisturbed (a : NasAlgorithms) (t : NasTrace) : NasOp → Prop
  | .downlink _ pdu => Nas.Undisturbed a t.nas pdu
  | _ => True

/-! ### One PDU -/

section Process

variable {nas nas' : NrUeNas} {state : SecurityState} {pdu pdu' : List UInt8}
  {k : StreamSecurityContainer} {event : DlEvent}

/-- **All that `nas_security_rx_process` can do** once there is a context. -/
inductive RxCases (a : NasAlgorithms) (nas : NrUeNas) (k : StreamSecurityContainer)
    (pdu : List UInt8) : Option (NrUeNas × SecurityState × List UInt8) → Prop
  | unprotected (h : pdu.getD 1 0 = 0) : RxCases a nas k pdu (some (nas, .unprotected, pdu))
  | badInput (h : pdu.getD 1 0 ≠ 0) (h' : pdu.length < 8 ∨ pdu.getD 1 0 ≠ 2) :
    RxCases a nas k pdu (some (nas, .badInput, pdu))
  | exits (h : pdu.getD 1 0 = 2) (h' : 8 ≤ pdu.length)
    (hcount : 0xffffff < synchronizeSqn nas.nasCountDl (pdu.getD 6 0).toNat) :
    RxCases a nas k pdu none
  | failed (h : pdu.getD 1 0 = 2) (h' : 8 ≤ pdu.length)
    (hcount : synchronizeSqn nas.nasCountDl (pdu.getD 6 0).toNat ≤ 0xffffff)
    (hmac : ¬Verifies a k (synchronizeSqn nas.nasCountDl (pdu.getD 6 0).toNat) pdu) :
    RxCases a nas k pdu
      (some ({ nas with nasCountDl := synchronizeSqn nas.nasCountDl (pdu.getD 6 0).toNat },
        .integrityFailed, pdu))
  | passed (h : pdu.getD 1 0 = 2) (h' : 8 ≤ pdu.length)
    (hcount : synchronizeSqn nas.nasCountDl (pdu.getD 6 0).toNat ≤ 0xffffff)
    (hmac : Verifies a k (synchronizeSqn nas.nasCountDl (pdu.getD 6 0).toNat) pdu) :
    RxCases a nas k pdu
      (some ({ nas with nasCountDl := synchronizeSqn nas.nasCountDl (pdu.getD 6 0).toNat + 1 },
        .integrityPassed, pdu.take 7 ++
          k.encrypt a (synchronizeSqn nas.nasCountDl (pdu.getD 6 0).toNat) 1 (pdu.drop 7)))

theorem nasSecurityRxProcess_cases (hk : nas.securityContainer = some k) (pdu : List UInt8) :
    RxCases a nas k pdu (nasSecurityRxProcess a nas pdu) := by
  obtain ⟨uicc, kamf, ul, dl, container, guti, buf⟩ := nas
  obtain rfl : container = some k := hk
  rw [nasSecurityRxProcess]
  dsimp only
  split
  · rename_i h
    exact .unprotected h
  · rename_i h
    split
    · rename_i hlen
      exact .badInput h (.inl hlen)
    · rename_i hlen
      split
      · rename_i htype
        exact .badInput h (.inr htype)
      · rename_i htype
        rw [not_not] at htype
        split
        · rename_i hcount
          exact .exits htype (Nat.le_of_not_lt hlen) hcount
        · rename_i hcount
          split
          · rename_i hmac
            exact .failed htype (Nat.le_of_not_lt hlen) (Nat.le_of_not_lt hcount) hmac
          · rename_i hmac
            exact .passed htype (Nat.le_of_not_lt hlen) (Nat.le_of_not_lt hcount) (not_not.1 hmac)

theorem sqn_lt (pdu : List UInt8) : (pdu.getD 6 0).toNat < 256 := UInt8.toNat_lt _

section

variable (hk : nas.securityContainer = some k)
include hk

/-- **A PDU leaves the state alone if and only if the run is not disturbed by it.** -/
theorem leavesStateAlone_iff : LeavesStateAlone a event nas pdu ↔ Undisturbed a nas pdu := by
  have hself := synchronizeSqn_eq_self_iff nas.nasCountDl (sqn_lt pdu)
  have hcases := nasSecurityRxProcess_cases (a := a) hk pdu
  rw [LeavesStateAlone, Undisturbed]
  generalize nasSecurityRxProcess a nas pdu = r at hcases ⊢
  rcases hcases with h | ⟨h, h'⟩ | ⟨h, h', hcount⟩ | ⟨h, h', hcount, hmac⟩ | ⟨h, h', hcount, hmac⟩
  · refine iff_of_true ⟨_, rfl, fun _ ↦ rfl⟩ fun k' _ htype ↦ ?_
    rw [h] at htype
    cases htype
  · exact iff_of_true ⟨_, rfl, fun _ ↦ rfl⟩ fun k' _ htype hlen ↦
      absurd h' (not_or.2 ⟨Nat.not_lt.2 hlen, not_not.2 htype⟩)
  · refine iff_of_false (fun ⟨r, hr, _⟩ ↦ by cases hr) fun hall ↦ ?_
    exact absurd hcount (Nat.not_lt.2 (hall k hk h h').1)
  · -- the state is as before if the COUNT that was stored is the old one
    constructor
    · rintro ⟨r, hr, halone⟩ k' - - -
      cases hr
      exact ⟨hcount, .inr (hself.1 (congrArg NrUeNas.nasCountDl (halone rfl)))⟩
    · intro hall
      rcases (hall k hk h h').2 with hver | hsqn
      · exact absurd hver hmac
      · refine ⟨_, rfl, fun _ ↦ ?_⟩
        rw [hself.2 hsqn]
  · refine iff_of_true ⟨_, rfl, fun hf ↦ by cases hf⟩ fun k' hk' _ _ ↦ ⟨hcount, .inl ?_⟩
    obtain rfl : k = k' := some.inj (hk.symm.trans hk')
    exact hmac

/-- **The UE acts on verified PDUs only**, and on an unprotected Deregistration Accept. -/
theorem verifies_of_acts (h : Acts a event nas pdu) :
    IsDeregistrationAccept pdu ∨ ∃ n, nas.nasCountDl ≤ n ∧ Verifies a k n pdu := by
  obtain ⟨r, hr, hhandled⟩ := h
  have hcases := nasSecurityRxProcess_cases (a := a) hk pdu
  rw [hr] at hcases
  rcases hcases with h | ⟨h, h'⟩ | ⟨h, h', hcount⟩ | ⟨h, h', hcount, hmac⟩ | ⟨h, h', hcount, hmac⟩
  · have htype : acceptsUnprotected event pdu = true := hhandled
    rw [acceptsUnprotected, Bool.and_eq_true, beq_iff_eq, beq_iff_eq] at htype
    exact .inl ⟨h, htype.2⟩
  · cases hhandled
  · cases hhandled
  · exact .inr ⟨_, le_synchronizeSqn _ (sqn_lt pdu), hmac⟩

/-- **A genuine PDU is accepted** if its COUNT is among the next 256. -/
theorem acts_genuinePdu (hne : message ≠ []) (hn : n ≤ 0xffffff) (hle : nas.nasCountDl ≤ n)
    (hlt : n ≤ nas.nasCountDl + 255) (event : DlEvent) :
    Acts a event nas (genuinePdu a k n message) := by
  obtain ⟨m₀, m₁, m₂, m₃, hmac⟩ := k.exists_integrity_eq (a := a) n 1
    (UInt8.ofNat (n % 256) :: k.encrypt a n 1 message)
  have hpdu : genuinePdu a k n message =
      0x7e :: 2 :: m₀ :: m₁ :: m₂ :: m₃ :: UInt8.ofNat (n % 256) :: k.encrypt a n 1 message := by
    rw [genuinePdu, hmac]
    rfl
  have hsync : synchronizeSqn nas.nasCountDl
      ((genuinePdu a k n message).getD 6 0).toNat = n := by
    rw [hpdu]
    show synchronizeSqn nas.nasCountDl (UInt8.ofNat (n % 256)).toNat = n
    rw [UInt8.toNat_ofNat', mod_eq_of_lt (mod_lt _ (by decide)), synchronizeSqn_of_le hle hlt]
  have hver : Verifies a k n (genuinePdu a k n message) := by
    rw [Verifies, hpdu]
    exact hmac.symm
  have hlen : 8 ≤ (genuinePdu a k n message).length := by
    rw [hpdu]
    simp only [List.length_cons, StreamSecurityContainer.length_encrypt]
    have := List.length_pos_iff.2 hne
    omega
  have htype : (genuinePdu a k n message).getD 1 0 = 2 := by
    rfl
  have hcases := nasSecurityRxProcess_cases (a := a) hk (genuinePdu a k n message)
  rw [Acts]
  generalize nasSecurityRxProcess a nas (genuinePdu a k n message) = r at hcases ⊢
  rcases hcases with h | ⟨h, h'⟩ | ⟨h, h', hcount⟩ | ⟨h, h', hcount, hmac⟩ | ⟨h, h', hcount, hmac⟩
  · cases h
  · exact absurd h' (not_or.2 ⟨Nat.not_lt.2 hlen, not_not.2 htype⟩)
  · omega
  · rw [hsync] at hmac
    exact absurd hver hmac
  · exact ⟨_, rfl, rfl⟩

end

end Process

/-! ### Runs -/

/-- The COUNT that is expected next, by what was accepted. -/
def expectedCount (contextStart : ℕ) : List ℕ → ℕ
  | [] => contextStart
  | last :: _ => last + 1

theorem NasTrace.followsUp_iff {t : NasTrace} :
    t.FollowsUp n ↔ expectedCount t.contextStart t.accepted ≤ n ∧
      n ≤ expectedCount t.contextStart t.accepted + 255 := by
  rw [NasTrace.FollowsUp]
  rcases t.accepted with - | ⟨last, rest⟩
  · exact Iff.rfl
  · show last < n ∧ n ≤ last + 256 ↔ last + 1 ≤ n ∧ n ≤ last + 1 + 255
    omega

section Runs

variable {t t' : NasTrace} {event : DlEvent} {pdu : List UInt8} {op : NasOp}

/-- What a downlink PDU does to the trace. -/
theorem downlink_cases (h : t.downlink a event pdu = some t') :
    ∃ nas state pdu', nasSecurityRxProcess a t.nas pdu = some (nas, state, pdu') ∧
      ((isHandled event state pdu' = false ∧ t' = { t with nas := nas }) ∨
        isHandled event state pdu' = true ∧ ∃ message, Handled a nas t'.nas message ∧
          t'.sent = t.sent ++ UlMessage.toList message ∧
          ((t'.nas.securityContainer = nas.securityContainer ∧ t'.contextStart = t.contextStart ∧
              t'.accepted = if state = .integrityPassed then (nas.nasCountDl - 1) :: t.accepted
                else t.accepted) ∨
            t'.accepted = [] ∧ t'.contextStart = t'.nas.nasCountDl)) := by
  obtain ⟨⟨nas, state, pdu'⟩, hrx, h⟩ := bind_eq_some_iff.1 h
  refine ⟨nas, state, pdu', hrx, ?_⟩
  dsimp only at h
  split at h
  · rename_i hhandled
    obtain ⟨⟨nas', message⟩, hdl, h⟩ := bind_eq_some_iff.1 h
    refine .inr ⟨hhandled, message, ?_⟩
    split at h
    · rename_i hsame
      cases h
      exact ⟨handleDownlink_handled hdl, rfl, .inl ⟨hsame, rfl, rfl⟩⟩
    · cases h
      exact ⟨handleDownlink_handled hdl, rfl, .inr ⟨rfl, rfl⟩⟩
  · rename_i hhandled
    exact .inl ⟨Bool.eq_false_iff.2 hhandled, (some.inj h).symm⟩

/-- The downlink side is left alone. -/
def NasTrace.KeepsDownlink (t t' : NasTrace) : Prop :=
  t'.nas.nasCountDl = t.nas.nasCountDl ∧ t'.nas.securityContainer = t.nas.securityContainer ∧
    t'.accepted = t.accepted ∧ t'.contextStart = t.contextStart

theorem send_frame (h : t.send r = some t')
    (hr : ∀ x, r = some x → x.1.nasCountDl = t.nas.nasCountDl ∧
      x.1.securityContainer = t.nas.securityContainer) :
    t.KeepsDownlink t' := by
  obtain ⟨x, hx, rfl⟩ := map_eq_some_iff.1 h
  exact ⟨(hr x hx).1, (hr x hx).2, rfl, rfl⟩

theorem Sends.frame (h : Sends a nas nas' m) :
    nas'.nasCountDl = nas.nasCountDl ∧ nas'.securityContainer = nas.securityContainer := by
  rw [h.nas_eq]
  exact ⟨rfl, rfl⟩

theorem sendSecured_frame
    (h : t.sendSecured r = some t') (hr : ∀ x, r = some x → Sends a t.nas x.1 x.2) :
    t.KeepsDownlink t' := by
  refine send_frame h fun x hx ↦ ?_
  obtain ⟨y, hy, rfl⟩ := map_eq_some_iff.1 hx
  exact (hr y hy).frame

/-- Only a downlink PDU moves the downlink side. -/
theorem step_downlink_cases (h : t.step a op = some t') :
    (∃ event pdu, op = .downlink event pdu ∧ t.downlink a event pdu = some t') ∨
      t.KeepsDownlink t' := by
  cases op with
  | registrationRequest buf =>
    cases h
    exact .inr ⟨rfl, rfl, rfl, rfl⟩
  | serviceRequest =>
    refine .inr (send_frame h fun x hx ↦ ?_)
    rcases generateServiceRequest_cases (show _ = some (x.1, x.2) from hx) with ⟨heq, -⟩ | ⟨m, -, hm⟩
    · rw [heq]
      exact ⟨rfl, rfl⟩
    · exact hm.frame
  | pduSessionReq req =>
    exact .inr (sendSecured_frame h fun x hx ↦ generatePduSessionEstablishRequest_sends hx)
  | deregistrationReq =>
    rw [NasTrace.step] at h
    split at h
    · exact .inr (sendSecured_frame h fun x hx ↦ generateDeregistrationRequest_sends hx)
    · cases h
      exact .inr ⟨rfl, rfl, rfl, rfl⟩
  | downlink event pdu => exact .inl ⟨event, pdu, rfl, h⟩

/-- **Every COUNT that was accepted is below `nas_count_dl`.** -/
def CountsBelow (t : NasTrace) : Prop := ∀ m ∈ t.accepted, m < t.nas.nasCountDl

/-- `nas_count_dl` is the COUNT after the last one that was accepted. -/
def CountFollows (t : NasTrace) : Prop :=
  t.nas.securityContainer ≠ none → t.nas.nasCountDl = expectedCount t.contextStart t.accepted

theorem Handled.nasCountDl_eq
    (h : Handled a nas nas' message) : nas'.nasCountDl = nas.nasCountDl := by
  rcases h with ⟨-, -, -, hdl⟩ | ⟨hsend, -, hdl⟩
  · exact hdl
  · exact hsend.frame.1.trans hdl

/-- What `nas_security_rx_process` does to the COUNT. -/
theorem rx_count {state : SecurityState}
    (h : nasSecurityRxProcess a nas pdu = some (nas', state, pdu')) :
    nas'.securityContainer = nas.securityContainer ∧ nas.nasCountDl ≤ nas'.nasCountDl ∧
      (state = .integrityPassed → nas.nasCountDl < nas'.nasCountDl) ∧
      (Undisturbed a nas pdu → state ≠ .integrityPassed → nas'.nasCountDl = nas.nasCountDl) := by
  rcases hk : nas.securityContainer with - | k
  · rw [nasSecurityRxProcess, hk] at h
    obtain ⟨rfl, rfl, rfl⟩ : nas = nas' ∧ SecurityState.noSecurityContext = state ∧ pdu = pdu' := by
      simpa using h
    exact ⟨hk, Nat.le_refl _, fun hf ↦ (by cases hf), fun _ _ ↦ rfl⟩
  · have hle := le_synchronizeSqn nas.nasCountDl (sqn_lt pdu)
    have hcases := nasSecurityRxProcess_cases (a := a) hk pdu
    rw [h] at hcases
    rcases hcases with hp | ⟨hp, h'⟩ | - | ⟨hp, h', hcount, hmac⟩ | ⟨hp, h', hcount, hmac⟩
    · exact ⟨hk, Nat.le_refl _, fun hf ↦ (by cases hf), fun _ _ ↦ rfl⟩
    · exact ⟨hk, Nat.le_refl _, fun hf ↦ (by cases hf), fun _ _ ↦ rfl⟩
    · refine ⟨hk, hle, fun hf ↦ (by cases hf), fun hun _ ↦ ?_⟩
      rcases (hun k hk hp h').2 with hver | hsqn
      · exact absurd hver hmac
      · exact (synchronizeSqn_eq_self_iff nas.nasCountDl (sqn_lt pdu)).2 hsqn
    · exact ⟨hk, le_succ_of_le hle, fun _ ↦ lt_succ_of_le hle, fun _ hne ↦ absurd rfl hne⟩

theorem CountsBelow.step (hb : CountsBelow t) (h : t.step a op = some t') : CountsBelow t' := by
  rcases step_downlink_cases h with ⟨event, pdu, -, hdl⟩ | ⟨hcount, -, haccepted, -⟩
  · obtain ⟨nas, state, pdu', hrx, hcases⟩ := downlink_cases hdl
    obtain ⟨-, hle, hlt, -⟩ := rx_count hrx
    rcases hcases with ⟨-, rfl⟩ | ⟨-, message, hh, -, ⟨-, -, haccepted⟩ | ⟨haccepted, -⟩⟩
    · exact fun m hm ↦ Nat.lt_of_lt_of_le (hb m hm) hle
    · intro m hm
      rw [hh.nasCountDl_eq]
      rw [haccepted] at hm
      split at hm
      · rename_i hpassed
        have := hlt hpassed
        rcases List.mem_cons.1 hm with rfl | hm
        · omega
        · exact Nat.lt_of_lt_of_le (hb m hm) hle
      · exact Nat.lt_of_lt_of_le (hb m hm) hle
    · intro m hm
      rw [haccepted] at hm
      cases hm
  · intro m hm
    rw [hcount]
    exact hb m (haccepted ▸ hm)

theorem CountFollows.step (hf : CountFollows t) (hun : t.Undisturbed a op)
    (h : t.step a op = some t') : CountFollows t' := by
  intro hne
  rcases step_downlink_cases h with ⟨event, pdu, rfl, hdl⟩ |
    ⟨hcount, hcontainer, haccepted, hstart⟩
  · obtain ⟨nas, state, pdu', hrx, hcases⟩ := downlink_cases hdl
    obtain ⟨hcontainer, -, hlt, hsame⟩ := rx_count hrx
    have hsame := hsame hun
    rcases hcases with ⟨hnot, rfl⟩ | ⟨-, message, hh, -, ⟨hk, hstart, haccepted⟩ | ⟨haccepted, hstart⟩⟩
    · refine (hsame fun hf ↦ ?_).trans (hf (hcontainer ▸ hne))
      rw [hf] at hnot
      cases hnot
    · rw [hh.nasCountDl_eq, haccepted, hstart]
      by_cases hpassed : state = .integrityPassed
      · have := hlt hpassed
        rw [if_pos hpassed]
        show nas.nasCountDl = nas.nasCountDl - 1 + 1
        omega
      · rw [if_neg hpassed, hsame hpassed]
        exact hf (hcontainer ▸ hk ▸ hne)
    · rw [haccepted, hstart]
      rfl
  · rw [hcount, hf (hcontainer ▸ hne), haccepted, hstart]

theorem countsBelow_of_reach {ok : NasTrace → NasOp → Prop}
    (h : (nasSystem a uicc).Reach ok t) : CountsBelow t :=
  h.invariant (P := CountsBelow) (fun m hm ↦ by cases hm) fun hb _ hs ↦ hb.step hs

theorem countFollows_of_reach
    (h : (nasSystem a uicc).Reach (NasTrace.Undisturbed a) t) : CountFollows t :=
  h.invariant (P := CountFollows) (fun hne ↦ absurd rfl hne) fun hf hun hs ↦ hf.step hun hs

end Runs

/-- **The gate.** What the UE acts on was verified under a fresh COUNT, genuine PDUs that follow up
are accepted, and a PDU that it does not act on leaves its state alone. -/
structure NasTrace.GateHolds (a : NasAlgorithms) (t : NasTrace) (k : StreamSecurityContainer)
    (event : DlEvent) (pdu : List UInt8) : Prop where
  fresh : Acts a event t.nas pdu → IsDeregistrationAccept pdu ∨
    ∃ n, Verifies a k n pdu ∧ ∀ m ∈ t.accepted, m < n
  genuine : ∀ n message, message ≠ [] → n ≤ 0xffffff → t.FollowsUp n →
    pdu = genuinePdu a k n message → Acts a event t.nas pdu
  alone : LeavesStateAlone a event t.nas pdu

/-- No keystream, and a MAC that is made of the COUNT and the sum of the octets. -/
def sumAlgorithms : NasAlgorithms where
  keystream _ _ _ _ _ := 0
  mac _ _ count _ message := ByteOrder.beBytes 4 (count + 2 ^ 24 * (message.map UInt8.toNat).sum)
  length_mac _ _ _ _ _ := ByteOrder.length_beBytes _ _
  uninitialised _ _ _ := [0, 0, 0, 0]
  length_uninitialised _ _ _ := rfl
  deriveKamf _ _ := []
  deriveKnas _ _ _ := []

def emptyUicc : Uicc := ⟨[], []⟩

/-- A Security Mode Command that selects EEA0 and EIA2. -/
def securityModeCommandPdu : List UInt8 := [0x7e, 3, 0, 0, 0, 0, 0, 0x7e, 0, 0x5d, 0x02]

/-- The context that it sets up. -/
def eia2Container : StreamSecurityContainer := ⟨0, 2, [], []⟩

/-- The UE gets the Security Mode Command. -/
def securedOp : NasOp := .downlink .downlinkDataInd securityModeCommandPdu

theorem secured_isSome :
    ((nasSystem sumAlgorithms emptyUicc).step (nasSystem sumAlgorithms emptyUicc).init
      securedOp).isSome := by
  decide

/-- The UE after it. -/
def secured : NasTrace :=
  ((nasSystem sumAlgorithms emptyUicc).step (nasSystem sumAlgorithms emptyUicc).init securedOp).get
    secured_isSome

theorem secured_reach : (nasSystem sumAlgorithms emptyUicc).Reach
    (NasTrace.Undisturbed sumAlgorithms) secured :=
  .step (i := securedOp) .init (fun k hk ↦ by cases hk) (some_get secured_isSome).symm

/-- A PDU with the sequence number 5 and a MAC that does not verify. -/
def forgedPdu : List UInt8 := [0x7e, 2, 0xde, 0xad, 0xbe, 0xef, 5, 0]

end OaiRan.Nas
