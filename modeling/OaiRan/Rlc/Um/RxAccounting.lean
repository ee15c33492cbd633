import OaiRan.Rlc.Um.Codec
import OaiRan.Rlc.Um.System
import Mathlib.Algebra.Order.BigOperators.Group.List

/-!
# Receive-buffer accounting of the unacknowledged mode

`rx_size` gates all reception, so it must stay the number of bytes held in `rx_list`. Three paths
take bytes out of the list. Delivery (`reassemble_and_deliver`) and leaving the reassembly window
(`reception_actions`) subtract what they take. The expiry of `t_reassembly` unlinks cells without
subtracting them, so the books balance after an expiry exactly when the unlinked cells are all
delivered ones (`accounted_checkTReassembly_iff`), and from then on `rx_size` stays too big.
-/

namespace OaiRan.Rlc.Um

open List

variable {c : UmConfig}

/-- The books balance: `rx_size` is the size of what is in the list, which is never negative. -/
structure Accounted (s : UmRx) : Prop where
  size_eq : s.rxSize = (s.rxList.map NrRlcPdu.size).sum
  size_nonneg : ∀ p ∈ s.rxList, 0 ≤ p.size

/-! ### Reception -/

variable {s : UmRx} {now : UInt64}

section

variable (h : Accounted s)
include h

theorem Accounted.listAdd (snCompare : ℤ → ℤ → ℤ) (hp : 0 ≤ pdu.size) : Accounted { s with
      rxSize := s.rxSize + pdu.size, rxList := nrRlcPduListAdd snCompare s.rxList pdu } := by
  have hperm := perm_nrRlcPduListAdd snCompare s.rxList pdu
  refine ⟨?_, fun q hq ↦ ?_⟩
  · show s.rxSize + pdu.size = _
    rw [(hperm.map NrRlcPdu.size).sum_eq, map_cons, sum_cons, h.size_eq, add_comm]
  · rcases mem_cons.1 (hperm.mem_iff.1 hq) with rfl | hq
    · exact hp
    · exact h.size_nonneg q hq

theorem Accounted.reassembleAndDeliver (sn : ℤ) : Accounted (reassembleAndDeliver s sn) := by
  refine ⟨?_, fun q hq ↦ ?_⟩
  · show s.rxSize - _ = _
    rw [h.size_eq]
    exact (sum_size_mapSnRun (fun _ ↦ rfl) sn s.rxList).symm
  · rcases mem_mapSnRun hq with hq | ⟨p, -, rfl⟩
    · exact h.size_nonneg q hq
    · exact le_rfl

theorem Accounted.actionsSduFull (x : ℤ) : Accounted (actionsSduFull c s x) := by
  have h' := h.reassembleAndDeliver x
  unfold Um.actionsSduFull
  dsimp only
  split
  · exact ⟨h'.size_eq, h'.size_nonneg⟩
  · exact h'

/-- Unlinking a front part of the list keeps the books if its size is subtracted. -/
theorem Accounted.dropWhile (out : NrRlcPdu → Bool) :
    Accounted { s with
      rxSize := s.rxSize - ((s.rxList.takeWhile out).map NrRlcPdu.size).sum
      rxList := s.rxList.dropWhile out } := by
  refine ⟨?_, fun q hq ↦ h.size_nonneg q ((dropWhile_sublist _).subset hq)⟩
  have hsplit := congrArg (fun l ↦ (l.map NrRlcPdu.size).sum)
    (takeWhile_append_dropWhile (p := out) (l := s.rxList))
  simp only [map_append, sum_append] at hsplit
  show s.rxSize - _ = _
  rw [h.size_eq]
  linarith

theorem Accounted.moveWindow (x : ℤ) : Accounted (moveWindow c s x) :=
  Accounted.dropWhile (s := { s with rxNextHighest := (x + 1) % c.snModulus })
    ⟨h.size_eq, h.size_nonneg⟩ _

theorem Accounted.actionsSduNotFull (x : ℤ) : Accounted (actionsSduNotFull c s x) := by
  have h' := h.moveWindow (c := c) x
  unfold Um.actionsSduNotFull
  dsimp only
  split
  · split
    · exact ⟨h'.size_eq, h'.size_nonneg⟩
    · exact h'
  · exact h

theorem Accounted.stopTReassembly : Accounted (stopTReassembly c s) := by
  unfold Um.stopTReassembly
  split
  · exact ⟨h.size_eq, h.size_nonneg⟩
  · exact h

theorem Accounted.startTReassembly (t : UInt64) : Accounted (startTReassembly c t s) := by
  unfold Um.startTReassembly
  split
  · exact ⟨h.size_eq, h.size_nonneg⟩
  · exact h

theorem Accounted.receptionActions (t : UInt64) (x : ℤ) : Accounted (receptionActions c t s x) := by
  refine Accounted.startTReassembly (Accounted.stopTReassembly ?_) t
  split
  · exact h.actionsSduFull x
  · exact h.actionsSduNotFull x

end

theorem size_nonneg_of_decodePdu (h : decodePdu c buffer = .segment pdu) : 0 ≤ pdu.size := by
  obtain ⟨sn, so, isFirst, isLast, payload, rfl, -⟩ := segment_of_decodePdu h
  exact Int.natCast_nonneg _

/-- **Reception keeps the books**, whatever the buffer holds. -/
theorem Accounted.recvPdu (h : Accounted s) (t : UInt64) (buffer : List UInt8) :
    Accounted (recvPdu c t s buffer) := by
  unfold Um.recvPdu
  rcases hd : decodePdu c buffer with - | sdu | pdu
  · exact h
  · exact ⟨h.size_eq, h.size_nonneg⟩
  · have hp := size_nonneg_of_decodePdu hd
    dsimp only
    split
    · exact h
    · split
      · exact h
      · exact (h.listAdd _ hp).receptionActions t pdu.sn

/-! ### Expiry of `t_reassembly` -/

/-- An expiry that this step brings discards only cells that were already emptied. -/
def ExpiryDiscardsNoData (c : UmConfig) (now : UInt64) (s : UmRx) : Prop :=
  tReassemblyExpired c now s = true → ∀ p ∈ discardedOnExpiry c s, p.size = 0

instance (now : UInt64) (s : UmRx) : Decidable (ExpiryDiscardsNoData c now s) :=
  inferInstanceAs (Decidable (_ → _))

/-- What an expiry does to the two sides of the account. -/
theorem checkTReassembly_of_expired (h : tReassemblyExpired c now s = true) :
    (checkTReassembly c now s).rxSize = s.rxSize ∧
      discardedOnExpiry c s ++ (checkTReassembly c now s).rxList = s.rxList := by
  have hsplit : discardedOnExpiry c s ++ s.rxList.dropWhile
      (fun p ↦ snCompareRx c s p.sn (nextReassemblyAfterExpiry c s) < 0) = s.rxList :=
    takeWhile_append_dropWhile
  unfold checkTReassembly
  rw [h, Bool.not_true, if_neg Bool.false_ne_true]
  dsimp only
  split <;> exact ⟨rfl, hsplit⟩

theorem sum_eq_zero_iff_of_nonneg {l : List NrRlcPdu} (h : ∀ p ∈ l, 0 ≤ p.size) :
    (l.map NrRlcPdu.size).sum = 0 ↔ ∀ p ∈ l, p.size = 0 := by
  induction l with
  | nil => simp
  | cons p l ih =>
    have hp := h p (by simp)
    have hl : 0 ≤ (l.map NrRlcPdu.size).sum :=
      sum_nonneg fun x hx ↦ by
        obtain ⟨q, hq, rfl⟩ := mem_map.1 hx
        exact h q (by simp [hq])
    have ih := ih fun q hq ↦ h q (by simp [hq])
    rw [map_cons, sum_cons, forall_mem_cons, ← ih]
    omega

theorem mem_rxList_of_mem_checkTReassembly
    (hp : p ∈ (checkTReassembly c now s).rxList) : p ∈ s.rxList := by
  rcases hexp : tReassemblyExpired c now s with - | -
  · simpa [checkTReassembly, hexp] using hp
  · rw [← (checkTReassembly_of_expired hexp).2]
    exact mem_append_right _ hp

/-- **The books survive the clock exactly when no data is discarded by it.** -/
theorem accounted_checkTReassembly_iff (h : Accounted s) :
    Accounted (checkTReassembly c now s) ↔ ExpiryDiscardsNoData c now s := by
  rcases hexp : tReassemblyExpired c now s with - | -
  · have hid : checkTReassembly c now s = s := by simp [checkTReassembly, hexp]
    simp [hid, h, ExpiryDiscardsNoData, hexp]
  · obtain ⟨hsize, hlist⟩ := checkTReassembly_of_expired hexp
    have hmem : ∀ p ∈ discardedOnExpiry c s, 0 ≤ p.size := fun p hp ↦
      h.size_nonneg p (by rw [← hlist]; simp [hp])
    have hsum := h.size_eq
    rw [← hlist, map_append, sum_append] at hsum
    constructor
    · intro h' _
      have := h'.size_eq
      exact (sum_eq_zero_iff_of_nonneg hmem).1 (by omega)
    · intro hno
      have hzero := (sum_eq_zero_iff_of_nonneg hmem).2 (hno hexp)
      refine ⟨by rw [hsize]; omega, fun p hp ↦ h.size_nonneg p (by rw [← hlist]; simp [hp])⟩

/-! ### Runs -/

/-- The clock is only set when nothing received is discarded by it. -/
def NoExpiryLoss (c : UmConfig) (t : UmTrace) : UmOp → Prop
  | .setTime now => ExpiryDiscardsNoData c now t.entity.rx
  | _ => True

instance (t : UmTrace) : (op : UmOp) → Decidable (NoExpiryLoss c t op)
  | .setTime now => inferInstanceAs (Decidable (ExpiryDiscardsNoData c now t.entity.rx))
  | .recvSdu .. | .generatePdu _ | .recvPdu _ => isTrue trivial

theorem Accounted.step (h : Accounted t.entity.rx)
    (hok : NoExpiryLoss c t op) (hs : (umSystem c).step t op = some t') :
    Accounted t'.entity.rx := by
  rcases step_cases hs with ⟨buffer, id, e, rfl, he, rfl⟩ | ⟨size, e, pdu, rfl, he, rfl⟩ |
    ⟨buffer, rfl, rfl⟩ | ⟨now, rfl, rfl⟩
  · rwa [recvSdu_rx he]
  · rwa [generatePdu_rx he]
  · exact h.recvPdu _ _
  · exact (accounted_checkTReassembly_iff h).2 hok

/-- **Along every run on which no expiry of `t_reassembly` discards data, `rx_size` is the size of
what is in `rx_list`**; and the first expiry that does discard data makes them differ. -/
theorem rxSize_eq_sum_of_noExpiryLoss (p : UmParams) {t : UmTrace}
    (h : (umSystem p.config).Reach (NoExpiryLoss p.config) t) :
    t.entity.rx.rxSize = (t.entity.rx.rxList.map NrRlcPdu.size).sum ∧
      ∀ now, ¬ ExpiryDiscardsNoData p.config now t.entity.rx →
        (t.entity.setTime p.config now).rx.rxSize ≠
          ((t.entity.setTime p.config now).rx.rxList.map NrRlcPdu.size).sum := by
  have hacc : Accounted t.entity.rx :=
    h.invariant ⟨rfl, nofun⟩ Accounted.step
  refine ⟨hacc.size_eq, fun now hloss heq ↦ hloss ?_⟩
  rw [← accounted_checkTReassembly_iff hacc]
  refine ⟨heq, fun p hp ↦ hacc.size_nonneg p ?_⟩
  exact mem_rxList_of_mem_checkTReassembly hp

/-- The first segment of SN 1 arrives, the rest of it and all of SN 0 do not. -/
def segmentThenExpiry : List UmOp := [.setTime 1, .recvPdu [0x41, 0xaa], .setTime 100]

/-- The expiry takes the segment out of `rx_list` and leaves its byte in `rx_size`. -/
theorem rxSize_ne_sum_after_expiry :
    ∃ t, (umSystem shortSnParams.config).exec (fun _ _ ↦ True) {} segmentThenExpiry = some t ∧
      t.entity.rx.rxList = [] ∧ t.entity.rx.rxSize = 1 :=
  ⟨_, rfl, by decide, by decide⟩

/-- The same segment, then the second and last one, then the clock: nothing is lost. -/
theorem rxSize_eq_sum_after_delivery :
    ∃ t, (umSystem shortSnParams.config).Reach (NoExpiryLoss shortSnParams.config) t ∧
      t.entity.rx.rxList.length = 2 ∧
      t.entity.rx.rxSize = (t.entity.rx.rxList.map NrRlcPdu.size).sum :=
  have h := StepSystem.reach_get_exec (umSystem shortSnParams.config)
    (NoExpiryLoss shortSnParams.config)
    [.setTime 1, .recvPdu [0x40, 0xaa], .recvPdu [0x80, 0, 1, 0xbb], .setTime 100]
    (by decide)
  ⟨_, h, by decide, (rxSize_eq_sum_of_noExpiryLoss shortSnParams h).1⟩

end OaiRan.Rlc.Um
