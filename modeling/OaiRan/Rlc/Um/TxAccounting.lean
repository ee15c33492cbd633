import OaiRan.Rlc.Um.System
import Mathlib.Algebra.BigOperators.Group.List.Lemmas

/-!
# The transmit accounts of an unacknowledged-mode entity

`tx_size` is what `recv_sdu` checks an SDU against, and `bstatus.tx_size` what the MAC is told. Both
are kept beside `tx_list` and never recomputed. The difference of an account and the sum over the
list (`UmTx.sizeDrift`, `UmTx.statusDrift`) is left alone by every call but one: **`discard_sdu`
takes an SDU out of the list and leaves its bytes in `tx_size`**, so that each discarded SDU takes
its size off the transmit capacity until the entity is re-established.
-/

namespace OaiRan.Rlc.Um

open Option List

variable (c : UmConfig)

variable {e e' : NrRlcEntityUm} {buffer pdu : List UInt8} {sduId size : ℤ} {s s' : UmTx}
  {P : NrRlcSduSegment → Bool} {l : List NrRlcSduSegment} {g : NrRlcSduSegment}

/-! ### Discard and re-establishment -/

/-- The segment belongs to the SDU of the upper layer's `sduId`. -/
def hasUpperLayerId (h : SduHeap) (sduId : ℤ) (g : NrRlcSduSegment) : Bool :=
  (h.cell g.sdu).upperLayerId == sduId

/-- The segment that `discard_sdu` frees: if some bytes have already been 'PDU-ized' then none. -/
def discardedSegment (s : UmTx) (sduId : ℤ) : Option NrRlcSduSegment :=
  (s.txList.find? (hasUpperLayerId s.heap sduId)).filter fun g ↦ g.isFirst && g.isLast

/-- `nr_rlc_entity_um_discard_sdu` -/
def discardSdu (s : UmTx) (sduId : ℤ) : UmTx :=
  match discardedSegment s sduId with
  | none => s
  | some g =>
    { s with
      txList := s.txList.eraseP (hasUpperLayerId s.heap sduId)
      bstatusTxSize := s.bstatusTxSize - (computePduHeaderSize c g + g.size)
      heap := (nrRlcFreeSduSegment s.heap g).1 }

/-- `clear_entity`: what was delivered stays delivered. -/
def clearEntity (e : NrRlcEntityUm) : NrRlcEntityUm where
  rx := { delivered := e.rx.delivered, reassembled := e.rx.reassembled }
  tx := { heap := e.tx.txList.foldl (fun h g ↦ (nrRlcFreeSduSegment h g).1) e.tx.heap }

/-- `nr_rlc_entity_um_available_tx_space` -/
def availableTxSpace (s : UmTx) : ℤ := c.txMaxsize - s.txSize

/-- A call of one of the entity's entry points, discard and re-establishment included. -/
inductive UmCall
  | recvSdu (buffer : List UInt8) (sduId : ℤ)
  | generatePdu (size : ℤ)
  | recvPdu (buffer : List UInt8)
  | setTime (now : UInt64)
  | discardSdu (sduId : ℤ)
  | reestablishment
  deriving DecidableEq, Repr

/-- The entity under any sequence of calls, from its creation on. -/
def umCallSystem : StepSystem NrRlcEntityUm UmCall where
  init := {}
  step e
    | .recvSdu buffer sduId => recvSdu c e buffer sduId
    | .generatePdu size => (e.generatePdu c size).map Prod.fst
    | .recvPdu buffer => some (e.recvPdu c buffer)
    | .setTime now => some (e.setTime c now)
    | .discardSdu sduId => some { e with tx := discardSdu c e.tx sduId }
    | .reestablishment => some (clearEntity e)

/-! ### The drift of the accounts -/

/-- The bytes of the segments in a list. -/
def segmentBytes (l : List NrRlcSduSegment) : ℤ := (l.map NrRlcSduSegment.size).sum

/-- The bytes of the segments and of the headers they get if each is sent whole. -/
def pduBytes (l : List NrRlcSduSegment) : ℤ := (l.map fun g ↦ computePduHeaderSize c g + g.size).sum

/-- By how much `tx_size` is too big. -/
def UmTx.sizeDrift (s : UmTx) : ℤ := s.txSize - segmentBytes s.txList

/-- By how much `bstatus.tx_size` is too big. -/
def UmTx.statusDrift (s : UmTx) : ℤ := s.bstatusTxSize - pduBytes c s.txList

variable {c}

@[simp] theorem segmentBytes_cons (g : NrRlcSduSegment) (l : List NrRlcSduSegment) :
    segmentBytes (g :: l) = g.size + segmentBytes l := by
  simp [segmentBytes]

@[simp] theorem pduBytes_cons (g : NrRlcSduSegment) (l : List NrRlcSduSegment) :
    pduBytes c (g :: l) = computePduHeaderSize c g + g.size + pduBytes c l := by
  simp [pduBytes]

@[simp] theorem segmentBytes_concat (l : List NrRlcSduSegment) (g : NrRlcSduSegment) :
    segmentBytes (l ++ [g]) = segmentBytes l + g.size := by
  simp [segmentBytes]

@[simp] theorem pduBytes_concat (l : List NrRlcSduSegment) (g : NrRlcSduSegment) :
    pduBytes c (l ++ [g]) = pduBytes c l + (computePduHeaderSize c g + g.size) := by
  simp [pduBytes]

/-- Both accounts are off by as much as before. -/
structure SameDrift (c : UmConfig) (s s' : UmTx) : Prop where
  size : s'.sizeDrift = s.sizeDrift
  status : s'.statusDrift c = s.statusDrift c

theorem SameDrift.refl (s : UmTx) : SameDrift c s s := ⟨rfl, rfl⟩

theorem sameDrift_recvSdu (h : recvSdu c e buffer sduId = some e') : SameDrift c e.tx e'.tx := by
  unfold recvSdu at h
  dsimp only at h
  split at h
  · cases h
  · have htx : (if e.sduRejected ≠ 0 ∧ e.tCurrent > e.tLogBufferFull + 1000
        then { e with sduRejected := 0, tLogBufferFull := e.tCurrent } else e).tx = e.tx := by
      split <;> rfl
    generalize (if e.sduRejected ≠ 0 ∧ e.tCurrent > e.tLogBufferFull + 1000
        then { e with sduRejected := 0, tLogBufferFull := e.tCurrent } else e) = e₁ at h htx
    rw [← htx]
    split at h <;> cases h
    · exact .refl _
    · constructor
      · simp only [UmTx.sizeDrift, segmentBytes_concat, nrRlcNewSdu]
        ring
      · simp only [UmTx.statusDrift, pduBytes_concat]
        ring

/-- **`generate_pdu`**, if the grant has room for any header and a byte: what is cut off the head
stays in the list, and the rest is taken off. -/
theorem sameDrift_generateTxPdu (hsize : 5 ≤ size)
    (h : generateTxPdu c s size = some (s', pdu)) : SameDrift c s s' := by
  rw [generateTxPdu] at h
  split at h
  · cases h
    exact .refl _
  · rename_i g rest hl
    dsimp only at h
    split at h
    · cases h
      exact .refl _
    · split at h
      on_goal 1 =>
        -- the head is cut: `resegment` finds room for a byte
        have hhdr := computePduHeaderSize_le_four (c := c) { g with isLast := false }
        rw [resegment, if_neg (by omega)] at h
      all_goals
        obtain ⟨pdu', -, heq⟩ := map_eq_some_iff.1 h
        cases heq
        constructor
        · simp only [UmTx.sizeDrift, takeHead, hl, segmentBytes_cons]
          ring
        · simp only [UmTx.statusDrift, takeHead, hl, pduBytes_cons]
          ring

theorem segmentBytes_eraseP (h : l.find? P = some g) :
    segmentBytes (l.eraseP P) = segmentBytes l - g.size := by
  obtain ⟨hg, as, bs, rfl, has⟩ := find?_eq_some_iff_append.1 h
  rw [eraseP_append_right _ (by simpa using has), eraseP_cons_of_pos hg]
  simp only [segmentBytes, map_append, map_cons, sum_append, sum_cons]
  ring

theorem pduBytes_eraseP (h : l.find? P = some g) :
    pduBytes c (l.eraseP P) = pduBytes c l - (computePduHeaderSize c g + g.size) := by
  obtain ⟨hg, as, bs, rfl, has⟩ := find?_eq_some_iff_append.1 h
  rw [eraseP_append_right _ (by simpa using has), eraseP_cons_of_pos hg]
  simp only [pduBytes, map_append, map_cons, sum_append, sum_cons]
  ring

theorem find?_of_discardedSegment (h : discardedSegment s sduId = some g) :
    s.txList.find? (hasUpperLayerId s.heap sduId) = some g :=
  (filter_eq_some_iff.1 h).1

/-- **`discard_sdu`** keeps the buffer status right. -/
theorem statusDrift_discardSdu (s : UmTx) (sduId : ℤ) :
    (discardSdu c s sduId).statusDrift c = s.statusDrift c := by
  rw [discardSdu]
  split
  · rfl
  · rename_i g hg
    simp only [UmTx.statusDrift, pduBytes_eraseP (find?_of_discardedSegment hg)]
    ring

/-- **The bytes of a discarded SDU stay in `tx_size`.** -/
theorem sizeDrift_discardSdu (s : UmTx) (sduId : ℤ) : (discardSdu c s sduId).sizeDrift =
    s.sizeDrift + ((discardedSegment s sduId).map NrRlcSduSegment.size).getD 0 := by
  rw [discardSdu]
  split
  · rename_i hnone
    rw [hnone]
    exact (add_zero _).symm
  · rename_i g hg
    simp only [hg, UmTx.sizeDrift, segmentBytes_eraseP (find?_of_discardedSegment hg),
      map_some, getD_some]
    ring

/-! ### Runs -/

/-- Grants have at least 5 bytes, and a discard frees no bytes. -/
def DiscardsNoBytes (e : NrRlcEntityUm) : UmCall → Prop
  | .generatePdu size => 5 ≤ size
  | .discardSdu sduId => ∀ g ∈ discardedSegment e.tx sduId, g.size = 0
  | _ => True

instance (e : NrRlcEntityUm) : (call : UmCall) → Decidable (DiscardsNoBytes e call)
  | .generatePdu size => inferInstanceAs (Decidable (5 ≤ size))
  | .discardSdu sduId =>
    inferInstanceAs (Decidable (∀ g ∈ discardedSegment e.tx sduId, g.size = 0))
  | .recvSdu .. | .recvPdu _ | .setTime _ | .reestablishment => isTrue trivial

theorem drift_step (h : e.tx.sizeDrift = 0 ∧ e.tx.statusDrift c = 0) (hok : DiscardsNoBytes e call)
    (hs : (umCallSystem c).step e call = some e') :
    e'.tx.sizeDrift = 0 ∧ e'.tx.statusDrift c = 0 := by
  have hsame : SameDrift c e.tx e'.tx → e'.tx.sizeDrift = 0 ∧ e'.tx.statusDrift c = 0 :=
    fun hd ↦ ⟨hd.size.trans h.1, hd.status.trans h.2⟩
  cases call with
  | recvSdu buffer sduId => exact hsame (sameDrift_recvSdu hs)
  | generatePdu size =>
    obtain ⟨⟨e₁, pdu⟩, hgen, rfl⟩ := map_eq_some_iff.1 hs
    obtain ⟨⟨tx, pdu'⟩, htx, heq⟩ := map_eq_some_iff.1 hgen
    cases heq
    exact hsame (sameDrift_generateTxPdu hok htx)
  | recvPdu buffer =>
    cases hs
    exact h
  | setTime now =>
    cases hs
    exact h
  | discardSdu sduId =>
    cases hs
    refine ⟨(sizeDrift_discardSdu e.tx sduId).trans ?_,
      (statusDrift_discardSdu e.tx sduId).trans h.2⟩
    rcases hg : discardedSegment e.tx sduId with - | g
    · exact (add_zero _).trans h.1
    · show e.tx.sizeDrift + g.size = 0
      rw [h.1, hok g hg, add_zero]
  | reestablishment =>
    cases hs
    exact ⟨rfl, rfl⟩

/-- **The accounts of the transmitting side**, as long as no discard frees bytes: both are the sums
over `tx_list`, and an empty list leaves the whole space. -/
theorem txAccounts_of_discardsNoBytes (p : UmParams) {e : NrRlcEntityUm}
    (h : (umCallSystem p.config).Reach DiscardsNoBytes e) :
    e.tx.txSize = (e.tx.txList.map NrRlcSduSegment.size).sum ∧
    e.tx.bstatusTxSize =
      (e.tx.txList.map fun g ↦ computePduHeaderSize p.config g + g.size).sum ∧
    (e.tx.txList = [] → availableTxSpace p.config e.tx = p.config.txMaxsize) := by
  obtain ⟨hsize, hstatus⟩ := h.invariant
    (P := fun e ↦ e.tx.sizeDrift = 0 ∧ e.tx.statusDrift p.config = 0) ⟨rfl, rfl⟩ drift_step
  refine ⟨sub_eq_zero.1 hsize, sub_eq_zero.1 hstatus, fun hnil ↦ ?_⟩
  have htx : e.tx.txSize = segmentBytes e.tx.txList := sub_eq_zero.1 hsize
  rw [availableTxSpace, htx, hnil]
  exact sub_zero _

/-- **An SDU of two bytes is discarded**: the list is empty, and two bytes of the space are gone. -/
theorem txSize_kept_by_discard :
    ∃ e, (umCallSystem longSnParams.config).exec (fun _ _ ↦ True) {}
        [.recvSdu [0xaa, 0xbb] 7, .discardSdu 7] = some e ∧
      e.tx.txList = [] ∧ e.tx.txSize = 2 ∧
      availableTxSpace longSnParams.config e.tx = longSnParams.config.txMaxsize - 2 :=
  ⟨_, rfl, by decide, by decide, by decide⟩

/-- An SDU is sent in part, and then discarding it does nothing. -/
theorem txAccounts_after_late_discard :
    ∃ e, (umCallSystem longSnParams.config).Reach DiscardsNoBytes e ∧ e.tx.txList.length = 1 ∧
      e.tx.txSize = (e.tx.txList.map NrRlcSduSegment.size).sum :=
  have h := StepSystem.reach_get_exec (umCallSystem longSnParams.config) DiscardsNoBytes
    [.recvSdu [1, 2, 3, 4, 5, 6] 7, .generatePdu 5, .discardSdu 7] (by decide)
  ⟨_, h, by decide, (txAccounts_of_discardsNoBytes longSnParams h).1⟩

end OaiRan.Rlc.Um
