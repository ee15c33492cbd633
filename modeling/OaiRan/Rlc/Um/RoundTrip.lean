import OaiRan.Rlc.Um.Transmit
import OaiRan.Rlc.Um.InOrder

/-!
# Segmentation and reassembly are inverse on a link that loses nothing

A sender and a receiver of the same SN length, the sender's PDUs being handed to the receiver as
they are generated. The receiver's state is then a function of the head of the sender's `tx_list`
(`InStep`): what it has of an SDU is what the sender has cut off from it. So what was delivered
and what is left to send make up what was submitted, at every moment and however often the SN
wraps (`delivered_append_pending`), and grants that reach the end of `tx_list` deliver all of it.
-/

namespace OaiRan.Rlc.Um

open List Option

variable {c : UmConfig} {sduId size x : ℤ} {buffer data data' pdu : List UInt8}
  {g : NrRlcSduSegment} {rest : List NrRlcSduSegment} {e k : ℕ} {p q : UmParams}

/-- A call on the link: an SDU to send, a grant, or the time. -/
inductive LinkOp
  | submit (buffer : List UInt8) (sduId : ℤ)
  | grant (size : ℤ)
  | setTime (now : UInt64)
  deriving DecidableEq, Repr

/-- Both ends, and the SDUs that the sender took. -/
structure UmLink where
  sender : NrRlcEntityUm := {}
  receiver : NrRlcEntityUm := {}
  submitted : List (List UInt8) := []

/-- Each PDU goes to the receiver at once; nothing goes if `generate_pdu` returns 0. -/
def linkSystem (a b : UmConfig) : StepSystem UmLink LinkOp where
  init := {}
  step l
    | .submit buffer sduId =>
      (recvSdu a l.sender buffer sduId).map fun e ↦
        { l with
          sender := e
          submitted := if acceptsSdu a l.sender.tx buffer then l.submitted ++ [buffer]
            else l.submitted }
    | .grant size =>
      (l.sender.generatePdu a size).map fun (e, pdu) ↦
        { l with
          sender := e
          receiver := if pdu = [] then l.receiver else l.receiver.recvPdu b pdu }
    | .setTime now =>
      some { l with sender := l.sender.setTime a now, receiver := l.receiver.setTime b now }

/-- SDUs of 1 to `NR_SDU_MAX` bytes, grants of at least 5 bytes, times that do not go back. -/
def LinkOp.Admitted (l : UmLink) : LinkOp → Prop
  | .submit buffer _ => 1 ≤ buffer.length ∧ (buffer.length : ℤ) ≤ nrSduMax
  | .grant size => 5 ≤ size
  | .setTime now => l.receiver.tCurrent ≤ now

instance (l : UmLink) (op : LinkOp) : Decidable (op.Admitted l) := by
  unfold LinkOp.Admitted
  cases op <;> infer_instance

/-- The SDUs that the sender still has, the head whole even if part of it is sent. -/
def pending (s : UmTx) : List (List UInt8) := s.txList.map (sduData s.heap)

/-- The two ends agree: the receiver has of the head of `tx_list` what is cut off from it. -/
structure InStep (a b : UmConfig) (s : UmTx) (r : UmRx) : Prop where
  shape : TxShape a s
  data_ne_nil : ∀ g ∈ s.txList, sduData s.heap g ≠ []
  receiving : ∃ data k old cur, Receiving b r s.txNext data k old cur ∧
    (∀ g ∈ s.txList.head?, k = g.so.toNat ∧ (k ≠ 0 → data = sduData s.heap g)) ∧
    (s.txList = [] → k = 0)

/-- With nothing of an SDU received, the receiver is ready for any SDU. -/
theorem Receiving.change (h : Receiving c s x data 0 old cur)
    (hne : data' ≠ []) : Receiving c s x data' 0 old [] := by
  obtain rfl := h.pieces.eq_nil
  exact { h with pieces := .nil, k_lt := length_pos_iff.2 hne }

variable {a b : UmConfig} {s : UmTx} {r : UmRx} {l : UmLink}

/-- The receiver is at the head of `tx_list`. -/
theorem InStep.head (h : InStep a b s r) (hl : s.txList = g :: rest) :
    ∃ old cur, Receiving b r s.txNext (sduData s.heap g) g.so.toNat old cur := by
  obtain ⟨data, k, old, cur, hr, hhead, -⟩ := h.receiving
  obtain ⟨hk, hdata⟩ := hhead g (by simp [hl])
  rcases Nat.eq_zero_or_pos k with rfl | hpos
  · rw [← hk]
    exact ⟨old, [], hr.change (h.data_ne_nil g (by simp [hl]))⟩
  · rw [← hdata hpos.ne', ← hk]
    exact ⟨old, cur, hr⟩

/-! ### One PDU over the link -/

theorem headerBits_congr (h : a.snFieldLength = b.snFieldLength) : headerBits a = headerBits b := by
  funext isFirst isLast sn so
  simp only [headerBits, snBits, h]

/-- The receiver reads what the sender wrote. -/
theorem decodePdu_of_carries (hlen : a.snFieldLength = b.snFieldLength) (hx : 0 ≤ x)
    (hx' : x < 2 ^ b.snFieldLength) (hke : k < e)
    (he : e ≤ data.length) (hmax : (data.length : ℤ) ≤ nrSduMax)
    (h : Carries a x.toNat data k e pdu) :
    decodePdu b pdu = if (k == 0) && (e == data.length) then .complete data
      else .segment (piece x data k e) := by
  obtain ⟨hdr, rfl, hbits⟩ := h
  have hsn : x.toNat < 2 ^ b.snFieldLength := by
    zify
    rwa [Int.toNat_of_nonneg hx]
  have hso : k < 2 ^ 16 := by
    have : nrSduMax = 16000 := rfl
    omega
  have hpay : (data.drop k).take (e - k) ≠ [] := by
    rw [← length_pos_iff, Pieces.length_piece he]
    omega
  rw [headerBits_congr hlen] at hbits
  rw [decodePdu_append hsn hso (by simp) hbits hpay]
  refine if_ctx_congr Iff.rfl (fun hc ↦ ?_) fun _ ↦ ?_
  · obtain ⟨hk, he⟩ := Bool.and_eq_true_iff.1 hc
    rw [beq_iff_eq] at hk he
    rw [hk, he, drop_zero, Nat.sub_zero, take_length]
  · rw [piece, Int.toNat_of_nonneg hx]

/-- The two configurations fit together. -/
structure Matching (a b : UmConfig) : Prop where
  snFieldLength_eq : a.snFieldLength = b.snFieldLength
  snModulus_eq : a.snModulus = b.snModulus
  snModulus_eq_pow : b.snModulus = 2 ^ b.snFieldLength
  sane : b.Sane
  room : nrSduMax ≤ b.rxMaxsize

/-- The next SDU has not been touched. -/
theorem InStep.of_idle (old : List NrRlcPdu) (hs : TxShape a s)
    (hne : ∀ g ∈ s.txList, sduData s.heap g ≠ []) (hso : ∀ g ∈ s.txList, g.so = 0)
    (hr : ∀ data : List UInt8, data ≠ [] → Receiving b r s.txNext data 0 old []) :
    InStep a b s r := by
  refine ⟨hs, hne, [0], 0, old, [], hr [0] (by simp), fun g hg ↦ ⟨?_, by simp⟩, fun _ ↦ rfl⟩
  rw [hso g (mem_of_mem_head? hg)]
  rfl

/-- **The ends stay in step over a PDU**, and the SDU is delivered with its last one. -/
theorem InStep.emitted (hab : Matching a b) {next : Option NrRlcSduSegment}
    (h : InStep a b s r) (hl : s.txList = g :: rest) (hl' : s'.txList = next.toList ++ rest)
    (hem : Emitted a s s' g e next pdu) :
    InStep a b s' (recvPdu b t r pdu) ∧
      (recvPdu b t r pdu).delivered ++ (pending s').map (map some) =
        r.delivered ++ (pending s).map (map some) := by
  obtain ⟨old, cur, hr⟩ := h.head hl
  have hshape := h.shape.emitted hl hl' hem
  have hg := h.shape.segment g (by simp [hl])
  have hrest := h.shape.of_txList hem.sameSdus hl
  have hdata : ∀ g', sduData s'.heap g' = sduData s.heap g' := hem.sameSdus.sduData_eq
  have hrestmap : rest.map (sduData s'.heap) = rest.map (sduData s.heap) :=
    map_congr_left fun g' _ ↦ hdata g'
  have hrestne : ∀ g' ∈ rest, sduData s'.heap g' ≠ [] := fun g' hg' ↦ by
    rw [hdata g']
    exact h.data_ne_nil g' (by simp [hl, hg'])
  have hso := hg.so_nonneg
  have hroom : ((sduData s.heap g).length : ℤ) ≤ b.rxMaxsize := hg.length_le.trans hab.room
  have hlt : g.so.toNat < e := by
    rcases hn : next with - | n
    · rw [hem.next_eq.1 hn]
      exact hr.k_lt
    · have := (hem.next_spec n (by simp [hn])).2.2.1
      omega
  have hdec := decodePdu_of_carries hab.snFieldLength_eq h.shape.txNext_nonneg
    (by rw [← hab.snModulus_eq_pow, ← hab.snModulus_eq]; exact h.shape.txNext_lt) hlt hem.le_length
    hg.length_le hem.carries
  rcases next with - | n
  · obtain rfl := hem.next_eq.1 rfl
    have hpending : (pending s).map (map some) =
        (sduData s.heap g).map some :: (pending s').map (map some) := by
      simp only [pending, hl, hl', toList_none, nil_append, map_cons, hrestmap]
    rw [hpending]
    rw [beq_self_eq_true, Bool.and_true] at hdec
    by_cases h0 : g.so = 0
    · -- the whole SDU in one PDU
      rw [h0, Int.toNat_zero, beq_self_eq_true, if_pos rfl] at hdec
      have hrecv : recvPdu b t r pdu =
          { r with delivered := r.delivered ++ [(sduData s.heap g).map some] } := by
        rw [recvPdu, hdec]
      have hnext : s'.txNext = s.txNext := by rw [hem.txNext_eq, if_neg (by simp [h0])]
      rw [hrecv]
      refine ⟨.of_idle old hshape (hl' ▸ hrestne) (hl' ▸ fun g' hg' ↦ (hrest g' hg').2)
        fun data hne ↦ ?_, by simp⟩
      rw [h0, Int.toNat_zero] at hr
      rw [hnext]
      exact { hr.change hne with cells := hr.cells.congr rfl rfl }
    · -- the last segment
      rw [if_neg (by simp; omega)] at hdec
      obtain ⟨⟨old', hr'⟩, hdel⟩ := hr.recvPdu_last hab.sane t (by omega) hg.length_le hroom hdec
      have hnext : s'.txNext = (s.txNext + 1) % b.snModulus := by
        rw [hem.txNext_eq, if_pos ⟨rfl, h0⟩, hab.snModulus_eq]
      refine ⟨.of_idle old' hshape (hl' ▸ hrestne)
        (hl' ▸ fun g' hg' ↦ (hrest g' hg').2) fun data hne ↦ ?_, ?_⟩
      · rw [hnext]
        exact hr' data hne
      · rw [hdel]
        simp
  · obtain ⟨hsdu, hnso, -, -⟩ := hem.next_spec n rfl
    have hlt' : e < (sduData s.heap g).length :=
      lt_of_le_of_ne hem.le_length fun he ↦ by simpa using hem.next_eq.2 he
    have hn : sduData s'.heap n = sduData s.heap g := by rw [hdata, sduData, hsdu, sduData]
    have hnext : s'.txNext = s.txNext := by rw [hem.txNext_eq, if_neg (by simp)]
    rw [if_neg (by simp; omega)] at hdec
    obtain ⟨old', hr', hdel⟩ := hr.recvPdu_partial hab.sane t hlt hlt' hroom hdec
    rw [toList_some, singleton_append] at hl'
    rw [← hnext] at hr'
    refine ⟨⟨hshape, fun g' hg' ↦ ?_, _, e, old', _, hr', fun g' hg' ↦ ?_, ?_⟩, ?_⟩
    · rw [hl', mem_cons] at hg'
      rcases hg' with rfl | hg'
      · rw [hn]
        exact h.data_ne_nil g (by simp [hl])
      · exact hrestne g' hg'
    · obtain rfl : n = g' := by simpa [hl'] using hg'
      exact ⟨by rw [hnso, Int.toNat_natCast], fun _ ↦ hn.symm⟩
    · simp [hl']
    · rw [hdel]
      simp only [pending, hl, hl', map_cons, hn, hrestmap]

/-! ### Runs -/

/-- What holds between two calls: the ends are in step, and nothing is missing. -/
structure LinkInv (a b : UmConfig) (l : UmLink) : Prop where
  inStep : InStep a b l.sender.tx l.receiver.rx
  complete : l.receiver.rx.delivered ++ (pending l.sender.tx).map (map some) =
    l.submitted.map (map some)

theorem LinkInv.submit {e : NrRlcEntityUm} (h : LinkInv a b l)
    (hne : 1 ≤ buffer.length) (he : recvSdu a l.sender buffer sduId = some e) :
    LinkInv a b { l with
      sender := e
      submitted := if acceptsSdu a l.sender.tx buffer then l.submitted ++ [buffer]
        else l.submitted } := by
  have hshape := h.inStep.shape.recvSdu he
  obtain ⟨-, ⟨hacc, htx⟩ | ⟨hacc, hnext, hheap, hlist⟩⟩ := recvSdu_cases he
  · simp only [hacc, Bool.false_eq_true, if_false]
    exact ⟨htx ▸ h.inStep, htx ▸ h.complete⟩
  · simp only [hacc, if_true]
    have hdata : ∀ g ∈ l.sender.tx.txList, sduData e.tx.heap g = sduData l.sender.tx.heap g :=
      fun g hg ↦ by
        rw [hheap]
        exact sduData_newSdu_of_lt (h.inStep.shape.segment g hg).sdu_lt buffer sduId
    have hnew : sduData e.tx.heap (nrRlcNewSdu l.sender.tx.heap buffer sduId).2 = buffer := by
      rw [hheap]
      simp [sduData, nrRlcNewSdu]
    refine ⟨⟨hshape, fun g hg ↦ ?_, ?_⟩, ?_⟩
    · rw [hlist, mem_append, mem_singleton] at hg
      rcases hg with hg | rfl
      · rw [hdata g hg]
        exact h.inStep.data_ne_nil g hg
      · rw [hnew]
        exact length_pos_iff.1 hne
    · obtain ⟨data, k, old, cur, hr, hhead, hnil⟩ := h.inStep.receiving
      refine ⟨data, k, old, cur, hnext ▸ hr, fun g hg ↦ ?_, fun hl ↦ by simp [hlist] at hl⟩
      rcases hl : l.sender.tx.txList with - | ⟨g₀, rest⟩
      · obtain rfl : (nrRlcNewSdu l.sender.tx.heap buffer sduId).2 = g := by
          simpa [hlist, hl] using hg
        exact ⟨hnil hl, fun hk ↦ absurd (hnil hl) hk⟩
      · obtain rfl : g₀ = g := by simpa [hlist, hl] using hg
        rw [hdata g₀ (by simp [hl])]
        exact hhead g₀ (by simp [hl])
    · have hpending : pending e.tx = pending l.sender.tx ++ [buffer] := by
        rw [pending, hlist, map_append, map_congr_left hdata, map_singleton, hnew]
        rfl
      rw [hpending, map_append, ← append_assoc, h.complete, ← map_append]

theorem not_losesHead (h : 5 ≤ size) : ¬ LosesHead c s size := by
  rintro ⟨-, rfl, -⟩
  omega

/-- The bytes that are still to be sent. -/
def bytesLeft (s : UmTx) : ℕ := (s.txList.map fun g ↦ g.size.toNat).sum

/-- **A grant of at least 5 bytes gets at least one byte across**, if there is one. -/
theorem LinkInv.grant (hab : Matching a b) (ha : a.snFieldLength = 6 ∨ a.snFieldLength = 12)
    (h : LinkInv a b l) (hsize : 5 ≤ size) :
    ∃ l', (linkSystem a b).step l (.grant size) = some l' ∧ LinkInv a b l' ∧
      l'.submitted = l.submitted ∧ bytesLeft l'.sender.tx ≤ bytesLeft l.sender.tx - 1 := by
  have hshape := h.inStep.shape
  rcases generateTxPdu_cases ha hshape (not_losesHead hsize) with ⟨hnone, hroom⟩ |
    ⟨g, rest, s', pdu, e, next, hl, hgen, hl', hem, -⟩
  · -- there is room for a byte, so there was nothing to send
    have hnil : l.sender.tx.txList = [] := by
      rcases hl : l.sender.tx.txList with - | ⟨g, rest⟩
      · rfl
      · have := hroom g (by simp [hl])
        have := computePduHeaderSize_le_four (c := a) g
        omega
    refine ⟨l, ?_, h, rfl, by simp [bytesLeft, hnil]⟩
    simp [linkSystem, NrRlcEntityUm.generatePdu, hnone]
  · obtain ⟨hstep, hdel⟩ := h.inStep.emitted hab (t := l.receiver.tCurrent) hl hl' hem
    refine ⟨{ l with sender := { l.sender with tx := s' }, receiver := l.receiver.recvPdu b pdu },
      ?_, ⟨hstep, hdel.trans h.complete⟩, rfl, ?_⟩
    · simp only [linkSystem, NrRlcEntityUm.generatePdu, hgen, map_some,
        hem.carries.ne_nil, if_false]
    · have hg := hshape.segment g (by simp [hl])
      have hsum := hg.so_add_size
      have hso := hg.so_nonneg
      have hpos : 0 < (sduData l.sender.tx.heap g).length :=
        length_pos_iff.2 (h.inStep.data_ne_nil g (by simp [hl]))
      rcases next with - | n
      · have := hg.size_pos
        simp only [bytesLeft, hl, hl', toList_none, nil_append, map_cons, sum_cons]
        omega
      · obtain ⟨hsdu, hnso, hlt, hn⟩ := hem.next_spec n rfl
        have hnsum := hn.so_add_size
        have hnlen : sduData s'.heap n = sduData l.sender.tx.heap g := by
          rw [hem.sameSdus.sduData_eq, sduData, hsdu, sduData]
        have hnpos := hn.size_pos (by omega)
        rw [hnlen] at hnsum
        simp only [bytesLeft, hl, hl', toList_some, singleton_append, map_cons, sum_cons]
        omega

theorem LinkInv.setTime (h : LinkInv a b l) (now : UInt64) :
    LinkInv a b { l with
      sender := l.sender.setTime a now, receiver := l.receiver.setTime b now } := by
  obtain ⟨data, k, old, cur, hr, -⟩ := h.inStep.receiving
  have hrx : (l.receiver.setTime b now).rx = l.receiver.rx := hr.checkTReassembly_eq now
  exact ⟨hrx ▸ h.inStep, hrx ▸ h.complete⟩

theorem LinkInv.step (hab : Matching a b) (ha : a.snFieldLength = 6 ∨ a.snFieldLength = 12)
    {l' : UmLink} {op : LinkOp} (h : LinkInv a b l) (hok : op.Admitted l)
    (hs : (linkSystem a b).step l op = some l') : LinkInv a b l' := by
  rcases op with ⟨buffer, sduId⟩ | size | now
  · obtain ⟨e, he, rfl⟩ := map_eq_some_iff.1 hs
    exact h.submit hok.1 he
  · obtain ⟨l₁, hl₁, h₁, -⟩ := h.grant hab ha hok
    rwa [← some.inj (hl₁.symm.trans hs)]
  · rw [← some.inj hs]
    exact h.setTime now

/-- Enough grants send everything. -/
theorem LinkInv.drain (hab : Matching a b) (ha : a.snFieldLength = 6 ∨ a.snFieldLength = 12)
    {sizes : List ℤ} (h : LinkInv a b l) (hsizes : ∀ z ∈ sizes, 5 ≤ z)
    (hlen : bytesLeft l.sender.tx ≤ sizes.length) :
    ∃ l', (linkSystem a b).exec (fun l op ↦ op.Admitted l) l (sizes.map .grant) = some l' ∧
      LinkInv a b l' ∧ l'.submitted = l.submitted ∧ bytesLeft l'.sender.tx = 0 := by
  induction sizes generalizing l with
  | nil => exact ⟨l, rfl, h, rfl, by simpa using hlen⟩
  | cons z sizes ih =>
    obtain ⟨l₁, hs, h₁, hsub, hleft⟩ := h.grant hab ha (hsizes z (by simp))
    obtain ⟨l₂, hex, h₂, hsub₂, hzero⟩ := ih h₁ (fun y hy ↦ hsizes y (by simp [hy]))
      (by rw [length_cons] at hlen; omega)
    refine ⟨l₂, ?_, h₂, hsub₂.trans hsub, hzero⟩
    exact StepSystem.exec_cons_eq_some.2 ⟨hsizes z (by simp), l₁, hs, hex⟩

/-- A sender with no byte left has no SDU left. -/
theorem LinkInv.delivered_eq (h : LinkInv a b l) (hzero : bytesLeft l.sender.tx = 0) :
    l.receiver.rx.delivered = l.submitted.map (map some) := by
  have hnil : l.sender.tx.txList = [] := by
    rcases hl : l.sender.tx.txList with - | ⟨g, rest⟩
    · rfl
    · have hg := h.inStep.shape.segment g (by simp [hl])
      have hne := length_pos_iff.2 (h.inStep.data_ne_nil g (by simp [hl]))
      have hsum := hg.so_add_size
      have hpos := hg.size_pos
      simp only [bytesLeft, hl, map_cons, sum_cons] at hzero
      omega
  simpa [pending, hnil] using h.complete

theorem matching_of_params (hlen : p.snFieldLength = q.snFieldLength)
    (hroom : nrSduMax ≤ q.rxMaxsize) : Matching p.config q.config where
  snFieldLength_eq := hlen
  snModulus_eq := by
    rw [p.snModulus_eq, q.snModulus_eq]
    exact congrArg (2 ^ ·) hlen
  snModulus_eq_pow := q.snModulus_eq
  sane := q.sane
  room := hroom

theorem linkInv_init : LinkInv p.config q.config {} where
  inStep := by
    refine .of_idle [] (txShape_init p) (by simp) (by simp) fun data hne ↦ ?_
    have hsn : IsSn q.config.snModulus 0 := ⟨le_rfl, q.sane.pos⟩
    exact ⟨rfl, .nil, length_pos_iff.2 hne, nofun, nofun, ⟨hsn, nofun, nofun, .nil⟩, hsn, rfl, rfl,
      rfl, rfl⟩
  complete := rfl

/-- **On a link that loses nothing, reassembly undoes segmentation.** At every moment the SDUs
delivered are a first part of those submitted, in order and once each, and the others are still
with the sender; enough grants deliver all of them. -/
theorem delivers_submitted_in_order (p q : UmParams) (hlen : p.snFieldLength = q.snFieldLength)
    (hroom : nrSduMax ≤ q.rxMaxsize) {l : UmLink}
    (h : (linkSystem p.config q.config).Reach (fun l op ↦ op.Admitted l) l) :
    l.receiver.rx.delivered ++ (pending l.sender.tx).map (map some) =
        l.submitted.map (map some) ∧
      ∀ sizes : List ℤ, (∀ z ∈ sizes, 5 ≤ z) → bytesLeft l.sender.tx ≤ sizes.length →
        ∃ l', (linkSystem p.config q.config).exec (fun l op ↦ op.Admitted l) l
            (sizes.map .grant) = some l' ∧
          l'.receiver.rx.delivered = l.submitted.map (map some) := by
  have hab := matching_of_params hlen hroom
  have hinv : LinkInv p.config q.config l :=
    h.invariant linkInv_init (LinkInv.step hab p.snFieldLength_eq)
  refine ⟨hinv.complete, fun sizes hsizes hleft ↦ ?_⟩
  obtain ⟨l', hex, hinv', hsub, hzero⟩ := hinv.drain hab p.snFieldLength_eq hsizes hleft
  exact ⟨l', hex, hsub ▸ hinv'.delivered_eq hzero⟩

/-- Eight bytes under a 6-bit SN, of which one grant of five has gone. -/
theorem delivers_eight_bytes :
    ∃ l, (linkSystem shortSnParams.config shortSnParams.config).Reach
        (fun l op ↦ op.Admitted l) l ∧
      l.receiver.rx.delivered = [] ∧ bytesLeft l.sender.tx = 4 ∧
      ∃ l', (linkSystem shortSnParams.config shortSnParams.config).exec
          (fun l op ↦ op.Admitted l) l [.grant 5, .grant 5, .grant 5, .grant 5] = some l' ∧
        l'.receiver.rx.delivered = l.submitted.map (map some) :=
  have h := StepSystem.reach_get_exec
    (linkSystem shortSnParams.config shortSnParams.config) (fun l op ↦ op.Admitted l)
    [.submit [1, 2, 3, 4, 5, 6, 7, 8] 0, .setTime 1, .grant 5] (by decide)
  ⟨_, h, by decide, by decide,
    (delivers_submitted_in_order shortSnParams shortSnParams rfl (by decide) h).2
      [5, 5, 5, 5] (by decide) (by decide)⟩

end OaiRan.Rlc.Um
