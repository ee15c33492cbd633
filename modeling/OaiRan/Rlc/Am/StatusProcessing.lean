import OaiRan.Rlc.Am.ControlWalk
import OaiRan.Rlc.Am.System
import OaiRan.Rlc.RxOrder

/-!
# What a status report does to the transmitting side

**Bad reports.** A report that cannot be decoded, an ACK_SN above `tx_next` and a NACK above ACK_SN
change nothing. NACKs that do not increase are processed like any others: the source compares each
NACK with a previous one that the validation never sets (`badStatus_rejected_iff`).

**Good reports.** With both lists in order and increasing NACKs, the walk hands out every segment
once: to the retransmit list if a NACK hits it, to `nr_rlc_free_sdu_segment` if it is acknowledged,
and back to its own list otherwise (`status_classified_iff`). The exception is a NACK for ACK_SN
that comes after a segment of the retransmit list, when no segment of the wait list comes after that
segment: then **that segment and the rest of the list are lost** (`Strands`).
-/

namespace OaiRan.Rlc.Am

open Option List

variable {c : AmConfig} {s s' : AmTx} {g h : NrRlcSduSegment} {k k' : ControlState}
  {n m : NackSn} {ackSn : ℤ} {ns done todo : List NackSn}

variable {buffer : List UInt8} {g₁ g₂ g₃ r' : NrRlcSduSegment} {l : List NrRlcSduSegment}
  {n₁ n₂ n₃ : NackSn}

/-- The order of NACKs that the source asks for. -/
def NackLt (c : AmConfig) (s : AmTx) (n m : NackSn) : Prop :=
  snCompareTx c s n.sn m.sn < 0 ∨
    snCompareTx c s n.sn m.sn = 0 ∧ n.soEnd ≠ -1 ∧ n.soEnd < m.soStart

instance (n m : NackSn) : Decidable (NackLt c s n m) := inferInstanceAs (Decidable (_ ∨ _))

/-! ### Bad reports -/

variable {nacks : List Nack} {w r : NrRlcSduSegment}

/-- ACK_SN is one of the SNs. -/
theorem isSn_of_decodeControl (hc : c.Sane)
    (h : decodeControl c buffer = some (ackSn, nacks)) : IsSn c.snModulus ackSn := by
  obtain ⟨⟨a, e1, d⟩, hack, h⟩ := bind_eq_some_iff.1 h
  obtain ⟨ns, -, h⟩ := bind_eq_some_iff.1 h
  cases h
  simp only [decodeAck, bind_eq_bind, bind_eq_some_iff, Prod.exists] at hack
  obtain ⟨_, _, -, _, _, -, a', _, ha, _, _, -, _, _, -, hack⟩ := hack
  split at hack
  · cases hack
    refine ⟨Int.natCast_nonneg _, ?_⟩
    rw [hc.snModulus_eq_pow]
    exact_mod_cast getBits_lt ha
  · cases hack

theorem isSn_of_mem_expand (hc : c.Sane) (h : n ∈ nacks.flatMap (Nack.expand c)) :
    IsSn c.snModulus n.sn := by
  obtain ⟨nack, -, h⟩ := mem_flatMap.1 h
  obtain ⟨i, -, rfl⟩ := mem_map.1 h
  exact isSn_emod hc.pos _

/-- SNs that the code takes for equal are equal. -/
theorem eq_of_snCompareTx (ha : IsSn c.snModulus a) (hb : IsSn c.snModulus b)
    (h : snCompareTx c s a b = 0) : a = b := by
  obtain ⟨ha, ha'⟩ := ha
  obtain ⟨hb, hb'⟩ := hb
  simp only [snCompareTx, modulusTx, wrap] at h
  split at h <;> split at h <;> omega

/-- What is wrong with a report: it is truncated or of another type, or its numbers are. -/
def Malformed (c : AmConfig) (s : AmTx) (buffer : List UInt8) : Prop :=
  match decodeControl c buffer with
  | none => True
  | some (ackSn, nacks) => snCompareTx c s ackSn s.txNext > 0 ∨
      (∃ n ∈ nacks.flatMap (Nack.expand c), snCompareTx c s n.sn ackSn > 0) ∨
      ¬(nacks.flatMap (Nack.expand c)).IsChain (NackLt c s)

/-- Nothing else is wrong than the order of the NACKs. -/
def OnlyOutOfOrder (c : AmConfig) (s : AmTx) (buffer : List UInt8) : Prop :=
  ∃ ackSn nacks, decodeControl c buffer = some (ackSn, nacks) ∧ snCompareTx c s ackSn s.txNext ≤ 0 ∧
    (∀ n ∈ nacks.flatMap (Nack.expand c), snCompareTx c s n.sn ackSn ≤ 0) ∧
    ¬(nacks.flatMap (Nack.expand c)).IsChain (NackLt c s)

/-- The lists and counters that a report may change. -/
structure SameTransmit (s s' : AmTx) : Prop where
  waitList : s'.waitList = s.waitList
  retransmitList : s'.retransmitList = s.retransmitList
  txList : s'.txList = s.txList
  txNextAck : s'.txNextAck = s.txNextAck
  txSize : s'.txSize = s.txSize
  bstatusTxSize : s'.bstatusTxSize = s.bstatusTxSize
  bstatusRetxSize : s'.bstatusRetxSize = s.bstatusRetxSize
  tPollRetransmitStart : s'.tPollRetransmitStart = s.tPollRetransmitStart

theorem validControl_iff : validControl c s ackSn nacks = true ↔
    snCompareTx c s ackSn s.txNext ≤ 0 ∧
      ∀ n ∈ nacks.flatMap (Nack.expand c), snCompareTx c s n.sn ackSn ≤ 0 := by
  rw [validControl, Bool.and_eq_true, List.all_eq_true, decide_eq_true_eq]
  exact and_congr_right fun _ ↦ forall₂_congr fun _ _ ↦ decide_eq_true_iff

/-- **A report with any other fault is refused.** -/
theorem processControlPdu_of_malformed (hbad : Malformed c s buffer)
    (horder : ¬OnlyOutOfOrder c s buffer) : processControlPdu c s buffer = s := by
  rw [processControlPdu]
  rcases hdec : decodeControl c buffer with - | ⟨ackSn, nacks⟩
  · rfl
  · dsimp only
    rw [if_neg]
    intro hvalid
    obtain ⟨hack, hle⟩ := validControl_iff.1 hvalid
    rw [Malformed, hdec] at hbad
    rcases hbad with hgt | ⟨n, hn, hgt⟩ | hchain
    · omega
    · exact absurd (hle n hn) (by omega)
    · exact horder ⟨ackSn, nacks, hdec, hack, hle, hchain⟩

/-- A wait list of one byte, under the SN and at the SO of the NACK. -/
def waitsForNack (txNextAck txNext : ℤ) (n : NackSn) : AmTx where
  txNextAck := txNextAck
  txNext := txNext
  waitList := [⟨0, 0, 1, n.soStart, false, false⟩]
  waitEnd := some 0
  heap := ⟨fun _ ↦ ⟨n.sn, 0, [], -1, 1, 0⟩, 1⟩

/-- With nothing left in the lists a NACK does nothing. -/
theorem foldl_processNack_of_nil (hw : k.curWaitList = []) (hr : k.curRetransmitList = [])
    (ackSn : ℤ) (ns : List NackSn) : ns.foldl (processNack c ackSn) k = k := by
  induction ns with
  | nil => rfl
  | cons n ns ih =>
    have hstep : processNack c ackSn k n = k := by
      rw [processNack, hw, hr]
      rfl
    rw [foldl_cons, hstep, ih]

/-- **The first NACK takes a segment that it hits out of the wait list**, whatever follows. -/
theorem waitList_walkLists_of_hits (hw : s.waitList = [g]) (hr : s.retransmitList = [])
    (hhit : n.hits s.heap g = true) (ns : List NackSn) :
    (walkLists c s ackSn (n :: ns)).finish.waitList = [] := by
  have hfirst : processNack c ackSn ⟨s, [], [g], [], [], none⟩ n =
      hitWait c ⟨s, [], [g], [], [], none⟩ g [] := by
    have hnext : processNextPdu c ⟨s, [], [g], [], [], none⟩ ackSn n =
        some (hitWait c ⟨s, [], [g], [], [], none⟩ g []) := by
      show processWaitListHead c _ ackSn n g [] = _
      rw [processWaitListHead, if_pos hhit]
      rfl
    show processNackLoop c ackSn n 1 _ = _
    rw [processNackLoop, hnext]
    rfl
  rw [walkLists, hw, hr, foldl_cons, hfirst, foldl_processNack_of_nil rfl rfl]
  rfl

theorem stopPollTimer_eq (s : AmTx) (ackSn : ℤ) (nacks : List Nack) :
    ∃ t, stopPollTimer c s ackSn nacks = { s with tPollRetransmitStart := t } := by
  rw [stopPollTimer]
  split
  · exact ⟨0, rfl⟩
  · exact ⟨s.tPollRetransmitStart, rfl⟩

theorem waitList_waitsForNack (txNextAck txNext : ℤ)
    (hns : nacks.flatMap (Nack.expand c) = n :: ns) :
    (applyControl c (waitsForNack txNextAck txNext n) ackSn nacks).waitList = [] := by
  obtain ⟨t, ht⟩ := stopPollTimer_eq (c := c) (waitsForNack txNextAck txNext n) ackSn nacks
  have hhit : n.hits (waitsForNack txNextAck txNext n).heap
      ⟨0, 0, 1, n.soStart, false, false⟩ = true := by
    rw [NackSn.hits, soOverlap, if_neg (lt_irrefl _)]
    simp [SduHeap.sn, waitsForNack]
  rw [applyControl, ht, hns]
  exact waitList_walkLists_of_hits
    (s := { waitsForNack txNextAck txNext n with tPollRetransmitStart := t }) rfl rfl hhit ns

theorem malformed_congr (hack : s'.txNextAck = s.txNextAck) (hnext : s'.txNext = s.txNext)
    (buffer : List UInt8) : OnlyOutOfOrder c s' buffer ↔ OnlyOutOfOrder c s buffer := by
  have hlt : NackLt c s' = NackLt c s := by
    funext n m
    rw [NackLt, NackLt, snCompareTx_congr hack]
  simp only [OnlyOutOfOrder, hlt, hnext, snCompareTx_congr hack]

/-- **Which bad reports are refused** in every state with the given window: those that have another
fault than the order of their NACKs. -/
theorem badStatus_rejected_iff (p : AmParams) (buffer : List UInt8) (w : AmTx) :
    (∀ s : AmTx, s.txNextAck = w.txNextAck → s.txNext = w.txNext →
      Malformed p.config s buffer → SameTransmit s (processControlPdu p.config s buffer)) ↔
    ¬OnlyOutOfOrder p.config w buffer := by
  constructor
  · intro hsame horder
    obtain ⟨ackSn, nacks, hdec, hack, hle, hchain⟩ := id horder
    rcases hns : nacks.flatMap (Nack.expand p.config) with - | ⟨n, ns⟩
    · exact hchain (hns ▸ isChain_nil)
    · have hs : OnlyOutOfOrder p.config (waitsForNack w.txNextAck w.txNext n) buffer :=
        (malformed_congr rfl rfl buffer).2 horder
      obtain ⟨ackSn', nacks', hdec', hack', hle', hchain'⟩ := hs
      obtain ⟨rfl, rfl⟩ := Prod.mk.inj (some.inj (hdec.symm.trans hdec'))
      have hbad : Malformed p.config (waitsForNack w.txNextAck w.txNext n) buffer := by
        rw [Malformed, hdec]
        exact .inr (.inr hchain')
      have hwait := (hsame (waitsForNack w.txNextAck w.txNext n) rfl rfl hbad).waitList
      rw [processControlPdu, hdec] at hwait
      dsimp only at hwait
      rw [if_pos (validControl_iff.2 ⟨hack', hle'⟩), waitList_waitsForNack _ _ hns] at hwait
      cases hwait
  · intro horder s hta htn hbad
    rw [processControlPdu_of_malformed hbad fun h ↦ horder ((malformed_congr hta htn buffer).1 h)]
    exact ⟨rfl, rfl, rfl, rfl, rfl, rfl, rfl, rfl⟩

/-- Two SDUs of a byte are sent. -/
def twoSdusSent : List AmOp := [.recvSdu [1] 0, .recvSdu [2] 1, .generatePdu 10, .generatePdu 10]

theorem twoSdusSent_isSome :
    ((amSystem shortSnParams.config).exec (fun _ _ ↦ True) {} twoSdusSent).isSome := by
  decide

/-- **NACKs for SN 1 and then SN 0**: SN 0 is taken for acknowledged, and freed. -/
theorem outOfOrder_processed :
    ∃ t, (amSystem shortSnParams.config).exec (fun _ _ ↦ True) {} twoSdusSent = some t ∧
      Malformed shortSnParams.config t.entity.tx [0, 2, 0x80, 0, 0x18, 0, 0] ∧
      t.entity.tx.waitList.length = 2 ∧
      (processControlPdu shortSnParams.config t.entity.tx
        [0, 2, 0x80, 0, 0x18, 0, 0]).waitList = [] ∧
      (processControlPdu shortSnParams.config t.entity.tx
        [0, 2, 0x80, 0, 0x18, 0, 0]).acked = [0] := by
  refine ⟨_, (some_get twoSdusSent_isSome).symm, ?_, by decide, by decide, by decide⟩
  exact .inr (.inr (by decide))

/-! ### Good reports -/

/-- Order by SN, then by SO. -/
def SegLe (c : AmConfig) (s : AmTx) (g h : NrRlcSduSegment) : Prop :=
  snCompareTx c s (s.heap.sn g) (s.heap.sn h) < 0 ∨
    snCompareTx c s (s.heap.sn g) (s.heap.sn h) = 0 ∧ g.so ≤ h.so

instance (g h : NrRlcSduSegment) : Decidable (SegLe c s g h) := inferInstanceAs (Decidable (_ ∨ _))

instance (m a : ℤ) : Decidable (IsSn m a) := inferInstanceAs (Decidable (_ ∧ _))

/-- A transmitting side with both lists in order and `wait_end` at the end of its list. -/
structure OrderedLists (c : AmConfig) (s : AmTx) : Prop where
  isSn : ∀ g ∈ s.waitList ++ s.retransmitList, IsSn c.snModulus (s.heap.sn g)
  wait : s.waitList.Pairwise (SegLe c s)
  retransmit : s.retransmitList.Pairwise (SegLe c s)
  ptr_nodup : (s.waitList.map NrRlcSduSegment.ptr).Nodup
  waitEnd_eq : s.waitEnd = s.waitList.getLast?.map NrRlcSduSegment.ptr

/-- Increasing NACKs, none above ACK_SN. -/
structure OrderedNacks (c : AmConfig) (s : AmTx) (ackSn : ℤ) (ns : List NackSn) : Prop where
  isSn : ∀ n ∈ ns, IsSn c.snModulus n.sn
  le_ackSn : ∀ n ∈ ns, snCompareTx c s n.sn ackSn ≤ 0
  increasing : ns.Pairwise (NackLt c s)
  range : ∀ n ∈ ns, n.soEnd = -1 ∨ n.soStart ≤ n.soEnd

/-- Some NACK hits the segment. -/
def nacked (h : SduHeap) (ns : List NackSn) (g : NrRlcSduSegment) : Bool :=
  ns.any fun n ↦ n.hits h g

/-- The SN of the segment is before ACK_SN. -/
def beforeAck (c : AmConfig) (s : AmTx) (ackSn : ℤ) (g : NrRlcSduSegment) : Bool :=
  snCompareTx c s (s.heap.sn g) ackSn < 0

/-- What becomes of the segments: those that a NACK hits are in the retransmit list, the others are
freed if they are before ACK_SN and else stay where they were, and `wait_end` is the last one of the
wait list. -/
structure Classified (c : AmConfig) (s : AmTx) (ackSn : ℤ) (ns : List NackSn) (s' : AmTx) : Prop where
  waitList : s'.waitList = s.waitList.filter fun g ↦ !nacked s.heap ns g && !beforeAck c s ackSn g
  retransmitList : s'.retransmitList.Perm (s.waitList.filter (nacked s.heap ns) ++
    s.retransmitList.filter fun g ↦ nacked s.heap ns g || !beforeAck c s ackSn g)
  freed : ∀ a, (s'.heap.cell a).freeCount = (s.heap.cell a).freeCount +
    (s.waitList ++ s.retransmitList).countP fun g ↦
      g.sdu == a && (!nacked s.heap ns g && beforeAck c s ackSn g)
  waitEnd : s'.waitEnd = s'.waitList.getLast?.map NrRlcSduSegment.ptr

/-- A NACK for ACK_SN comes after a segment of that SN which no NACK hits, and no segment of the
wait list comes after that segment. -/
def Strands (c : AmConfig) (s : AmTx) (ackSn : ℤ) (ns : List NackSn) : Prop :=
  ∃ g ∈ s.retransmitList, s.heap.sn g = ackSn ∧ nacked s.heap ns g = false ∧
    (∃ n ∈ ns, n.sn = ackSn ∧ g.so ≤ n.soStart) ∧
    ∀ w ∈ s.waitList, waitListFirst c s w g = true

/-! #### Before and after a NACK -/

theorem hits_eq_false_iff (n : NackSn) (g : NrRlcSduSegment) : n.hits s.heap g = false ↔
    (s.heap.sn g = n.sn → if n.soStart < g.so then n.soEnd ≠ -1 ∧ n.soEnd < g.so
      else g.so + g.size - 1 ≠ -1 ∧ g.so + g.size - 1 < n.soStart) := by
  rw [NackSn.hits, Bool.and_eq_false_imp, beq_iff_eq, soOverlap]
  refine imp_congr_right fun _ ↦ ?_
  split <;> simp

theorem beyondNack_iff (n : NackSn) (g : NrRlcSduSegment) : beyondNack c s n g = true ↔
    snCompareTx c s (s.heap.sn g) n.sn > 0 ∨
      snCompareTx c s (s.heap.sn g) n.sn = 0 ∧ g.so > n.soStart := by
  simp [beyondNack]

theorem waitListFirst_iff (w r : NrRlcSduSegment) : waitListFirst c s w r = true ↔
    snCompareTx c s (s.heap.sn w) (s.heap.sn r) < 0 ∨
      snCompareTx c s (s.heap.sn w) (s.heap.sn r) = 0 ∧ w.so < r.so := by
  simp [waitListFirst]

theorem SegLe.trans (h₁ : SegLe c s g₁ g₂) (h₂ : SegLe c s g₂ g₃) : SegLe c s g₁ g₃ := by
  simp only [SegLe, snCompareTx] at *
  omega

theorem segLe_of_waitListFirst (hfirst : waitListFirst c s w r = true) : SegLe c s w r := by
  rw [waitListFirst_iff] at hfirst
  rw [SegLe]
  omega

theorem segLe_of_not_waitListFirst (hfirst : waitListFirst c s w r = false) : SegLe c s r w := by
  rw [← Bool.not_eq_true, waitListFirst_iff] at hfirst
  simp only [SegLe, snCompareTx] at *
  omega

theorem waitListFirst_of_segLe (hfirst : waitListFirst c s w r = true)
    (hle : SegLe c s r r') : waitListFirst c s w r' = true := by
  rw [waitListFirst_iff] at hfirst ⊢
  simp only [SegLe, snCompareTx] at *
  omega

/-- **What comes after a segment beyond the NACK** is beyond it too. -/
theorem beyond_of_segLe (hg : IsSn c.snModulus (s.heap.sn g)) (hh : IsSn c.snModulus (s.heap.sn h))
    (hn : IsSn c.snModulus n.sn) (hle : SegLe c s g h) (hhit : n.hits s.heap g = false)
    (hb : beyondNack c s n g = true) : n.hits s.heap h = false ∧ beyondNack c s n h = true := by
  rw [beyondNack_iff] at hb ⊢
  rw [hits_eq_false_iff] at hhit ⊢
  rcases hle with hlt | ⟨heq, hso⟩
  · have hgt : snCompareTx c s (s.heap.sn h) n.sn > 0 := by
      simp only [snCompareTx] at *
      omega
    refine ⟨fun hsn ↦ ?_, .inl hgt⟩
    rw [hsn, snCompareTx, sub_self] at hgt
    exact absurd hgt (lt_irrefl 0)
  · have hsn := eq_of_snCompareTx hg hh heq
    rw [← hsn]
    rcases hb with hgt | ⟨hzero, hso'⟩
    · refine ⟨fun hsn' ↦ ?_, .inl hgt⟩
      rw [hsn', snCompareTx, sub_self] at hgt
      exact absurd hgt (lt_irrefl 0)
    · have hend := hhit (eq_of_snCompareTx hg hn hzero)
      rw [if_pos hso'] at hend
      refine ⟨fun _ ↦ ?_, .inr ⟨hzero, by omega⟩⟩
      rw [if_pos (by omega)]
      omega

/-- **What comes before a NACK** is not hit by a later one. -/
theorem not_hits_of_before (hg : IsSn c.snModulus (s.heap.sn g)) (hn : IsSn c.snModulus n.sn)
    (hrange : n.soEnd = -1 ∨ n.soStart ≤ n.soEnd) (hlt : NackLt c s n m)
    (hhit : n.hits s.heap g = false) (hb : beyondNack c s n g = false) :
    m.hits s.heap g = false := by
  rw [← Bool.not_eq_true, beyondNack_iff, not_or] at hb
  rw [hits_eq_false_iff] at hhit ⊢
  intro hm
  have hle : snCompareTx c s m.sn n.sn ≤ 0 := by
    rw [← hm]
    exact not_lt.1 hb.1
  rcases hlt with hlt | ⟨hzero, hend, hso⟩
  · simp only [snCompareTx] at *
    omega
  · have hcmp : snCompareTx c s (s.heap.sn g) n.sn = 0 := by
      rw [hm]
      simp only [snCompareTx] at hzero ⊢
      omega
    have hsn : s.heap.sn g = n.sn := eq_of_snCompareTx hg hn hcmp
    have hso' : ¬n.soStart < g.so := fun hgt ↦ hb.2 ⟨by rw [hsn, snCompareTx, sub_self], hgt⟩
    have hend' := hhit hsn
    rw [if_neg hso'] at hend'
    rw [if_neg (by omega)]
    omega

/-! #### The walk -/

/-- The SNs and the modulus base that the walk compares do not change. -/
structure SameSns (s s' : AmTx) : Prop where
  sn : ∀ a, (s'.heap.cell a).sn = (s.heap.cell a).sn
  txNextAck : s'.txNextAck = s.txNextAck

section

variable (hs : SameSns s s')
include hs

theorem SameSns.heap_sn (g : NrRlcSduSegment) : s'.heap.sn g = s.heap.sn g := hs.sn g.sdu

theorem SameSns.hits (n : NackSn) (g : NrRlcSduSegment) : n.hits s'.heap g = n.hits s.heap g := by
  rw [NackSn.hits, NackSn.hits, hs.heap_sn]

theorem SameSns.beyondNack (n : NackSn) (g : NrRlcSduSegment) :
    beyondNack c s' n g = beyondNack c s n g := by
  rw [Am.beyondNack, Am.beyondNack, hs.heap_sn, snCompareTx_congr hs.txNextAck]

theorem SameSns.waitListFirst (w r : NrRlcSduSegment) :
    waitListFirst c s' w r = waitListFirst c s w r := by
  rw [Am.waitListFirst, Am.waitListFirst, hs.heap_sn, hs.heap_sn, snCompareTx_congr hs.txNextAck]

theorem SameSns.beforeAck (ackSn : ℤ) (g : NrRlcSduSegment) :
    snCompareTx c s' (s'.heap.sn g) ackSn < 0 ↔ beforeAck c s ackSn g = true := by
  rw [Am.beforeAck, decide_eq_true_iff, hs.heap_sn, snCompareTx_congr hs.txNextAck]

end

/-- The lists during the walk: `pw` and `pr` are the parts of the two lists that it has gone through
and handed out. -/
structure HandedOut (c : AmConfig) (s : AmTx) (ackSn : ℤ) (ns : List NackSn) (k : ControlState)
    (pw pr : List NrRlcSduSegment) : Prop where
  same : SameSns s k.tx
  wait : s.waitList = pw ++ k.curWaitList
  retransmit : s.retransmitList = pr ++ k.curRetransmitList
  kept : k.kept = pw.filter fun g ↦ !nacked s.heap ns g && !beforeAck c s ackSn g
  new : k.newRetransmitList.Perm (pw.filter (nacked s.heap ns) ++
    pr.filter fun g ↦ nacked s.heap ns g || !beforeAck c s ackSn g)
  freed : ∀ a, (k.tx.heap.cell a).freeCount = (s.heap.cell a).freeCount +
    (pw ++ pr).countP fun g ↦ g.sdu == a && (!nacked s.heap ns g && beforeAck c s ackSn g)
  waitEnd_of_ne : k.curWaitList ≠ [] → k.endWaitList = none ∧ k.tx.waitEnd = s.waitEnd
  waitEnd_of_eq : k.curWaitList = [] →
    k.endWaitList.getD k.tx.waitEnd = k.kept.getLast?.map NrRlcSduSegment.ptr

/-- The walk after the NACKs `done`: what is left is beyond them, and in order after what was handed
out. -/
structure Walked (c : AmConfig) (s : AmTx) (ackSn : ℤ) (ns done : List NackSn) (k : ControlState)
    (pw pr : List NrRlcSduSegment) : Prop extends HandedOut c s ackSn ns k pw pr where
  beyond : ∀ n ∈ done, ∀ g ∈ k.curWaitList ++ k.curRetransmitList,
    n.hits s.heap g = false ∧ beyondNack c s n g = true
  first : ∀ w ∈ pw, ∀ r ∈ k.curRetransmitList, waitListFirst c s w r = true
  guarded : ∀ g ∈ pr, nacked s.heap ns g = false → beforeAck c s ackSn g = false →
    ∃ w ∈ s.waitList, waitListFirst c s w g = false

/-- The walk has dropped what was left of the retransmit list, with at least one segment that should
have stayed. -/
structure Stranded (c : AmConfig) (s : AmTx) (ackSn : ℤ) (ns : List NackSn) (k : ControlState) :
    Prop where
  curWaitList : k.curWaitList = []
  curRetransmitList : k.curRetransmitList = []
  strands : Strands c s ackSn ns
  lost : ∃ pr g rest, s.retransmitList = pr ++ g :: rest ∧ nacked s.heap ns g = false ∧
    beforeAck c s ackSn g = false ∧
    k.newRetransmitList.Perm (s.waitList.filter (nacked s.heap ns) ++
      pr.filter fun g ↦ nacked s.heap ns g || !beforeAck c s ackSn g)

theorem walked_init (hs : OrderedLists c s) :
    Walked c s ackSn ns [] ⟨s, [], s.waitList, [], s.retransmitList, none⟩ [] [] where
  same := ⟨fun _ ↦ rfl, rfl⟩
  wait := rfl
  retransmit := rfl
  kept := rfl
  new := .nil
  freed _ := (add_zero _).symm
  waitEnd_of_ne _ := ⟨rfl, rfl⟩
  waitEnd_of_eq hnil := by
    show s.waitEnd = none
    rw [hs.waitEnd_eq, show s.waitList = [] from hnil]
    rfl
  beyond _ hn := absurd hn not_mem_nil
  first _ hw := absurd hw not_mem_nil
  guarded _ hg := absurd hg not_mem_nil

theorem nacked_of_hits (hn : n ∈ ns) (hhit : n.hits s.heap g = true) : nacked s.heap ns g = true :=
  any_eq_true.2 ⟨n, hn, hhit⟩

/-- A segment before a NACK, and beyond the NACKs before that one, is hit by none. -/
theorem not_nacked_of_before (hns : OrderedNacks c s ackSn ns) (hsplit : ns = done ++ n :: todo)
    (hg : IsSn c.snModulus (s.heap.sn g)) (hdone : ∀ m ∈ done, m.hits s.heap g = false)
    (hhit : n.hits s.heap g = false) (hb : beyondNack c s n g = false) :
    nacked s.heap ns g = false := by
  have hn : n ∈ ns := by simp [hsplit]
  have hinc := hns.increasing
  rw [hsplit, List.pairwise_append, List.pairwise_cons] at hinc
  rw [nacked, hsplit, List.any_eq_false]
  intro m hm
  rw [Bool.not_eq_true]
  rcases List.mem_append.1 hm with hm | hm
  · exact hdone m hm
  · rcases List.mem_cons.1 hm with rfl | hm
    · exact hhit
    · exact not_hits_of_before hg (hns.isSn n hn) (hns.range n hn) (hinc.2.1.1 m hm) hhit hb

variable {pw pr rest : List NrRlcSduSegment}

theorem Walked.isSn (h : Walked c s ackSn ns done k pw pr) (hs : OrderedLists c s) :
    ∀ g ∈ k.curWaitList ++ k.curRetransmitList, IsSn c.snModulus (s.heap.sn g) := by
  intro g hg
  refine hs.isSn g ?_
  rw [h.wait, h.retransmit]
  rcases mem_append.1 hg with hg | hg <;> simp [hg]

/-- The segment to process next comes before all others. -/
theorem Walked.firstWait_le (h : Walked c s ackSn ns done k pw pr) (hs : OrderedLists c s)
    (hfirst : FirstWait c k g rest) : (∀ r ∈ k.curRetransmitList, waitListFirst c s g r = true) ∧
      ∀ h ∈ k.curWaitList ++ k.curRetransmitList, SegLe c s g h ∨ h = g := by
  have hr : ∀ r ∈ k.curRetransmitList, waitListFirst c s g r = true := by
    rcases hcur : k.curRetransmitList with - | ⟨r₀, rs⟩
    · exact nofun
    · have hr₀ : waitListFirst c s g r₀ = true := by
        rw [← h.same.waitListFirst]
        exact hfirst.2 r₀ (by rw [hcur]; rfl)
      have hsorted := hs.retransmit
      rw [h.retransmit, hcur, pairwise_append, pairwise_cons] at hsorted
      intro r hr
      rcases mem_cons.1 hr with rfl | hr
      · exact hr₀
      · exact waitListFirst_of_segLe hr₀ (hsorted.2.1.1 r hr)
  refine ⟨hr, fun h' hh' ↦ ?_⟩
  rcases mem_append.1 hh' with hh' | hh'
  · rw [hfirst.1] at hh'
    have hsorted := hs.wait
    rw [h.wait, hfirst.1, pairwise_append, pairwise_cons] at hsorted
    rcases mem_cons.1 hh' with rfl | hh'
    · exact .inr rfl
    · exact .inl (hsorted.2.1.1 h' hh')
  · exact .inl (segLe_of_waitListFirst (hr h' hh'))

theorem Walked.firstRetransmit_le (h : Walked c s ackSn ns done k pw pr) (hs : OrderedLists c s)
    (hfirst : FirstRetransmit c k g rest) :
    ∀ h ∈ k.curWaitList ++ k.curRetransmitList, SegLe c s g h ∨ h = g := by
  intro h' hh'
  rcases mem_append.1 hh' with hh' | hh'
  · rcases hcur : k.curWaitList with - | ⟨w₀, ws⟩
    · rw [hcur] at hh'
      exact absurd hh' not_mem_nil
    · have hw₀ : SegLe c s g w₀ := by
        refine segLe_of_not_waitListFirst ?_
        rw [← h.same.waitListFirst]
        exact hfirst.2 w₀ (by rw [hcur]; rfl)
      have hsorted := hs.wait
      rw [h.wait, hcur, pairwise_append, pairwise_cons] at hsorted
      rw [hcur] at hh'
      rcases mem_cons.1 hh' with rfl | hh'
      · exact .inl hw₀
      · exact .inl (hw₀.trans (hsorted.2.1.1 h' hh'))
  · rw [hfirst.1] at hh'
    have hsorted := hs.retransmit
    rw [h.retransmit, hfirst.1, pairwise_append, pairwise_cons] at hsorted
    rcases mem_cons.1 hh' with rfl | hh'
    · exact .inr rfl
    · exact .inl (hsorted.2.1.1 h' hh')

/-- `wait_end` while there is something left of the wait list. -/
theorem HandedOut.waitEnd_head (h : HandedOut c s ackSn ns k pw pr) (hs : OrderedLists c s)
    (hl : k.curWaitList = g :: rest) : k.endWaitList = none ∧
      k.tx.waitEnd = (g :: rest).getLast?.map NrRlcSduSegment.ptr ∧
      (rest ≠ [] → k.tx.waitEnd ≠ some g.ptr) := by
  obtain ⟨hnone, hend⟩ := h.waitEnd_of_ne (by rw [hl]; simp)
  have hlast : k.tx.waitEnd = (g :: rest).getLast?.map NrRlcSduSegment.ptr := by
    rw [hend, hs.waitEnd_eq, h.wait, hl, getLast?_append_of_ne_nil _ (by simp)]
  refine ⟨hnone, hlast, fun hne heq ↦ ?_⟩
  rw [hlast, getLast?_cons_of_ne_nil hne] at heq
  obtain ⟨e, he, hptr⟩ := map_eq_some_iff.1 heq
  have hnodup := hs.ptr_nodup
  rw [h.wait, hl, map_append, map_cons, nodup_append, nodup_cons] at hnodup
  exact hnodup.2.1.1 (hptr ▸ mem_map_of_mem (mem_of_getLast? he))

/-- Where a segment goes that the walk takes from the wait list. -/
structure TakesWait (c : AmConfig) (s : AmTx) (ackSn : ℤ) (ns : List NackSn) (k : ControlState)
    (g : NrRlcSduSegment) (rest : List NrRlcSduSegment) (k' : ControlState) : Prop where
  same : SameSns s k'.tx
  curWaitList : k'.curWaitList = rest
  curRetransmitList : k'.curRetransmitList = k.curRetransmitList
  kept : k'.kept = k.kept ++ [g].filter fun g ↦ !nacked s.heap ns g && !beforeAck c s ackSn g
  new : k'.newRetransmitList = k.newRetransmitList ++ [g].filter (nacked s.heap ns)
  freed : ∀ a, (k'.tx.heap.cell a).freeCount = (k.tx.heap.cell a).freeCount +
    [g].countP fun g ↦ g.sdu == a && (!nacked s.heap ns g && beforeAck c s ackSn g)
  waitEnd : k'.tx.waitEnd = k.tx.waitEnd
  endWaitList_of_ne : rest ≠ [] → k'.endWaitList = none
  endWaitList_of_eq : rest = [] →
    k'.endWaitList.getD k'.tx.waitEnd = k'.kept.getLast?.map NrRlcSduSegment.ptr

theorem HandedOut.takesWait (h : HandedOut c s ackSn ns k pw pr)
    (hl : k.curWaitList = g :: rest) (ht : TakesWait c s ackSn ns k g rest k') :
    HandedOut c s ackSn ns k' (pw ++ [g]) pr where
  same := ht.same
  wait := by rw [h.wait, hl, ht.curWaitList, append_assoc, singleton_append]
  retransmit := by rw [h.retransmit, ht.curRetransmitList]
  kept := by rw [ht.kept, h.kept, filter_append]
  new := by
    rw [ht.new, filter_append, append_assoc]
    refine (h.new.append_right _).trans ?_
    rw [append_assoc]
    exact perm_append_comm.append_left _
  freed a := by
    rw [ht.freed, h.freed]
    simp only [countP_append]
    push_cast
    ring
  waitEnd_of_ne hne := by
    rw [ht.curWaitList] at hne
    exact ⟨ht.endWaitList_of_ne hne, ht.waitEnd.trans (h.waitEnd_of_ne (by simp [hl])).2⟩
  waitEnd_of_eq heq := ht.endWaitList_of_eq (ht.curWaitList ▸ heq)

theorem Walked.takesWait (h : Walked c s ackSn ns done k pw pr) (hs : OrderedLists c s)
    (hfirst : FirstWait c k g rest) (ht : TakesWait c s ackSn ns k g rest k') :
    Walked c s ackSn ns done k' (pw ++ [g]) pr where
  toHandedOut := h.toHandedOut.takesWait hfirst.1 ht
  beyond n hn g' hg' := by
    refine h.beyond n hn g' ?_
    rw [ht.curWaitList, ht.curRetransmitList] at hg'
    rw [hfirst.1]
    exact mem_cons_of_mem _ hg'
  first w hw r hr := by
    rw [ht.curRetransmitList] at hr
    rcases mem_append.1 hw with hw | hw
    · exact h.first w hw r hr
    · rw [mem_singleton.1 hw]
      exact (h.firstWait_le hs hfirst).1 r hr
  guarded := h.guarded

/-- Where a segment goes that the walk takes from the retransmit list. -/
structure TakesRetransmit (c : AmConfig) (s : AmTx) (ackSn : ℤ) (ns : List NackSn)
    (k : ControlState) (g : NrRlcSduSegment) (rest : List NrRlcSduSegment) (k' : ControlState) :
    Prop where
  same : SameSns s k'.tx
  curWaitList : k'.curWaitList = k.curWaitList
  curRetransmitList : k'.curRetransmitList = rest
  kept : k'.kept = k.kept
  new : k'.newRetransmitList = k.newRetransmitList ++
    [g].filter fun g ↦ nacked s.heap ns g || !beforeAck c s ackSn g
  freed : ∀ a, (k'.tx.heap.cell a).freeCount = (k.tx.heap.cell a).freeCount +
    [g].countP fun g ↦ g.sdu == a && (!nacked s.heap ns g && beforeAck c s ackSn g)
  waitEnd : k'.tx.waitEnd = k.tx.waitEnd
  endWaitList : k'.endWaitList = k.endWaitList

theorem HandedOut.takesRetransmit (h : HandedOut c s ackSn ns k pw pr)
    (hl : k.curRetransmitList = g :: rest) (ht : TakesRetransmit c s ackSn ns k g rest k') :
    HandedOut c s ackSn ns k' pw (pr ++ [g]) where
  same := ht.same
  wait := by rw [h.wait, ht.curWaitList]
  retransmit := by
    rw [h.retransmit, hl, ht.curRetransmitList, append_assoc, singleton_append]
  kept := by rw [ht.kept, h.kept]
  new := by
    rw [ht.new, filter_append, ← append_assoc]
    exact h.new.append_right _
  freed a := by
    rw [ht.freed, h.freed]
    simp only [countP_append]
    push_cast
    ring
  waitEnd_of_ne hne := by
    rw [ht.curWaitList] at hne
    rw [ht.endWaitList, ht.waitEnd]
    exact h.waitEnd_of_ne hne
  waitEnd_of_eq heq := by
    rw [ht.curWaitList] at heq
    rw [ht.endWaitList, ht.waitEnd, ht.kept]
    exact h.waitEnd_of_eq heq

theorem Walked.takesRetransmit (h : Walked c s ackSn ns done k pw pr)
    (hl : k.curRetransmitList = g :: rest) (ht : TakesRetransmit c s ackSn ns k g rest k')
    (hguard : nacked s.heap ns g = false → beforeAck c s ackSn g = false →
      ∃ w ∈ s.waitList, waitListFirst c s w g = false) :
    Walked c s ackSn ns done k' pw (pr ++ [g]) where
  toHandedOut := h.toHandedOut.takesRetransmit hl ht
  beyond n hn g' hg' := by
    refine h.beyond n hn g' ?_
    rw [ht.curWaitList, ht.curRetransmitList] at hg'
    rw [hl]
    rcases mem_append.1 hg' with hg' | hg' <;> simp [hg']
  first w hw r hr := by
    rw [ht.curRetransmitList] at hr
    exact h.first w hw r (by rw [hl]; exact mem_cons_of_mem _ hr)
  guarded g' hg' := by
    rcases mem_append.1 hg' with hg' | hg'
    · exact h.guarded g' hg'
    · rw [mem_singleton.1 hg']
      exact hguard

/-! #### One turn -/

theorem sameSns_countRetx (hs : SameSns s k.tx) (g : NrRlcSduSegment) :
    SameSns s (countRetx c k.tx g) := by
  refine ⟨fun a ↦ ?_, hs.txNextAck⟩
  rw [← hs.sn a]
  by_cases ha : a = g.sdu
  · simp [countRetx, ha]
  · simp [countRetx, SduHeap.update_cell_of_ne _ _ ha]

theorem freeCount_countRetx (s : AmTx) (g : NrRlcSduSegment) (a : ℕ) :
    ((countRetx c s g).heap.cell a).freeCount = (s.heap.cell a).freeCount := by
  by_cases ha : a = g.sdu
  · simp [countRetx, ha]
  · simp [countRetx, SduHeap.update_cell_of_ne _ _ ha]

theorem sameSns_freeAcked (hs : SameSns s s') (g : NrRlcSduSegment) :
    SameSns s (freeAcked s' g) := by
  rw [freeAcked_eq]
  refine ⟨fun a ↦ ?_, hs.txNextAck⟩
  rw [← hs.sn a]
  by_cases ha : a = g.sdu
  · simp [ha]
  · simp [free_cell_of_ne ha]

theorem sameSns_freeRetransmit (hs : SameSns s k.tx) (g : NrRlcSduSegment)
    (rest : List NrRlcSduSegment) : SameSns s (freeRetransmit c k g rest).tx := by
  have hbstatus : SameSns s { k.tx with
      bstatusRetxSize := k.tx.bstatusRetxSize - (computePduHeaderSize c g + g.size) } :=
    ⟨hs.sn, hs.txNextAck⟩
  exact sameSns_freeAcked hbstatus g

theorem freeCount_freeAcked (s : AmTx) (g : NrRlcSduSegment) (a : ℕ) :
    ((freeAcked s g).heap.cell a).freeCount =
      (s.heap.cell a).freeCount + if g.sdu = a then 1 else 0 := by
  rw [freeAcked_eq]
  by_cases ha : a = g.sdu
  · simp [ha]
  · simp [free_cell_of_ne ha, Ne.symm ha]

/-- Unlinking the head of the wait list moves `wait_end` back to what was kept. -/
theorem HandedOut.unlinkWait (h : HandedOut c s ackSn ns k pw pr) (hs : OrderedLists c s)
    (hl : k.curWaitList = g :: rest) : (rest ≠ [] → (unlinkWait k g rest).endWaitList = none) ∧
      (rest = [] → (unlinkWait k g rest).endWaitList.getD k.tx.waitEnd =
        k.kept.getLast?.map NrRlcSduSegment.ptr) := by
  obtain ⟨hnone, hlast, hne⟩ := h.waitEnd_head hs hl
  refine ⟨fun hr ↦ ?_, fun hr ↦ ?_⟩
  · rw [Am.unlinkWait, if_neg (hne hr), hnone]
  · rw [hr] at hlast
    rw [Am.unlinkWait, if_pos (show k.tx.waitEnd = some g.ptr from hlast)]
    rfl

/-- A segment of the wait list that no NACK hits is acknowledged. -/
theorem HandedOut.takesWait_freeWait (h : HandedOut c s ackSn ns k pw pr) (hs : OrderedLists c s)
    (hl : k.curWaitList = g :: rest) (hnack : nacked s.heap ns g = false)
    (hacked : beforeAck c s ackSn g = true) :
    TakesWait c s ackSn ns k g rest (freeWait k g rest) := by
  obtain ⟨hne, heq⟩ := h.unlinkWait hs hl
  have hend : (freeAcked k.tx g).waitEnd = k.tx.waitEnd := by rw [freeAcked_eq]
  refine ⟨sameSns_freeAcked h.same g, rfl, rfl, ?_, ?_, fun a ↦ ?_, hend, hne, fun hr ↦ ?_⟩
  · simp [freeWait, Am.unlinkWait, hacked]
  · simp [freeWait, Am.unlinkWait, hnack]
  · show ((freeAcked k.tx g).heap.cell a).freeCount = _
    rw [freeCount_freeAcked]
    simp [hnack, hacked, countP_cons]
  · show (Am.unlinkWait k g rest).endWaitList.getD (freeAcked k.tx g).waitEnd = _
    rw [hend]
    exact heq hr

/-- The same for a segment of the retransmit list. -/
theorem HandedOut.takesRetransmit_freeRetransmit (h : HandedOut c s ackSn ns k pw pr)
    (g : NrRlcSduSegment) (rest : List NrRlcSduSegment) (hnack : nacked s.heap ns g = false)
    (hacked : beforeAck c s ackSn g = true) :
    TakesRetransmit c s ackSn ns k g rest (freeRetransmit c k g rest) := by
  have hend : ∀ tx : AmTx, (freeAcked tx g).waitEnd = tx.waitEnd := fun tx ↦ by
    rw [freeAcked_eq]
  refine ⟨sameSns_freeRetransmit h.same g rest, rfl, rfl, rfl, ?_, fun a ↦ ?_, hend _, rfl⟩
  · simp [freeRetransmit, hnack, hacked]
  · show ((freeAcked _ g).heap.cell a).freeCount = _
    rw [freeCount_freeAcked]
    simp [hnack, hacked, countP_cons]

/-- **A turn of the walk** for the NACK `n`. -/
theorem Walked.visit (hs : OrderedLists c s) (hns : OrderedNacks c s ackSn ns)
    (hack : IsSn c.snModulus ackSn) (hsplit : ns = done ++ n :: todo)
    (h : Walked c s ackSn ns done k pw pr) (hv : Visit c ackSn n k k') :
    (∃ pw' pr', Walked c s ackSn ns done k' pw' pr') ∨ Stranded c s ackSn ns k' := by
  have hn : n ∈ ns := by simp [hsplit]
  -- a segment that the turn passes over is hit by no NACK at all
  have hpassed : ∀ g ∈ k.curWaitList ++ k.curRetransmitList, n.hits k.tx.heap g = false →
      beyondNack c k.tx n g = false → nacked s.heap ns g = false := by
    intro g hg hhit hb
    rw [h.same.hits] at hhit
    rw [h.same.beyondNack] at hb
    exact not_nacked_of_before hns hsplit (h.isSn hs g hg) (fun m hm ↦ (h.beyond m hm g hg).1)
      hhit hb
  cases hv with
  | @hitWait g rest first hhit =>
    rw [h.same.hits] at hhit
    have hnack := nacked_of_hits hn hhit
    obtain ⟨hne, heq⟩ := h.toHandedOut.unlinkWait hs first.1
    refine .inl ⟨_, _, h.takesWait hs first ⟨sameSns_countRetx h.same g, rfl, rfl, ?_, ?_,
      fun a ↦ ?_, rfl, hne, heq⟩⟩
    · simp [hitWait, Am.unlinkWait, hnack]
    · simp [hitWait, hnack]
    · simp [hitWait, freeCount_countRetx, hnack]
  | @freeWait g rest first hhit hb hacked =>
    have hnack := hpassed g (by simp [first.1]) hhit hb
    rw [h.same.beforeAck] at hacked
    exact .inl ⟨_, _, h.takesWait hs first
      (h.toHandedOut.takesWait_freeWait hs first.1 hnack hacked)⟩
  | @keepWait g rest first hhit hb hacked =>
    have hnack := hpassed g (by simp [first.1]) hhit hb
    rw [h.same.beforeAck, Bool.not_eq_true] at hacked
    obtain ⟨hnone, hlast, -⟩ := h.toHandedOut.waitEnd_head hs first.1
    refine .inl ⟨_, _, h.takesWait hs first ⟨h.same, rfl, rfl, ?_, ?_, fun a ↦ ?_, rfl,
      fun _ ↦ hnone, fun hr ↦ ?_⟩⟩
    · simp [keepWait, hnack, hacked]
    · simp [keepWait, hnack]
    · simp [keepWait, hacked]
    · show k.endWaitList.getD k.tx.waitEnd = (k.kept ++ [g]).getLast?.map _
      rw [hnone, hlast, hr, getLast?_concat]
      rfl
  | @hitRetransmit g rest first hhit =>
    rw [h.same.hits] at hhit
    have hnack := nacked_of_hits hn hhit
    refine .inl ⟨_, _, h.takesRetransmit first.1 ⟨h.same, rfl, rfl, rfl, ?_, fun a ↦ ?_, rfl,
      rfl⟩ fun hno ↦ ?_⟩
    · simp [hitRetransmit, hnack]
    · simp [hitRetransmit, hnack]
    · rw [hnack] at hno
      cases hno
  | @freeRetransmit g rest first hhit hb hacked =>
    have hnack := hpassed g (by simp [first.1]) hhit hb
    rw [h.same.beforeAck] at hacked
    refine .inl ⟨_, _, h.takesRetransmit first.1
      (h.toHandedOut.takesRetransmit_freeRetransmit g rest hnack hacked) fun _ hno ↦ ?_⟩
    rw [hacked] at hno
    cases hno
  | @keepRetransmit g rest first hhit hb hacked hne =>
    rw [h.same.beforeAck, Bool.not_eq_true] at hacked
    refine .inl ⟨_, _, h.takesRetransmit first.1 ⟨h.same, rfl, rfl, rfl, ?_, fun a ↦ ?_, rfl,
      rfl⟩ fun _ _ ↦ ?_⟩
    · simp [hitRetransmit, hacked]
    · simp [hitRetransmit, hacked]
    · -- the head of the wait list comes after the segment
      obtain ⟨w, ws, hw⟩ := exists_cons_of_ne_nil hne
      refine ⟨w, by rw [h.wait, hw]; simp, ?_⟩
      rw [← h.same.waitListFirst]
      exact first.2 w (by rw [hw]; rfl)
  | @strand g rest first hhit hb hacked hnil =>
    have hg : g ∈ k.curWaitList ++ k.curRetransmitList := by simp [first.1]
    have hnack := hpassed g hg hhit hb
    rw [h.same.beyondNack, ← Bool.not_eq_true, beyondNack_iff, not_or] at hb
    have hack' : beforeAck c s ackSn g = false := by
      rw [← Bool.not_eq_true, ← h.same.beforeAck]
      exact hacked
    have hcmp := hns.le_ackSn n hn
    have hge : ¬snCompareTx c s (s.heap.sn g) ackSn < 0 := by
      rwa [beforeAck, decide_eq_false_iff_not] at hack'
    have hzero : snCompareTx c s (s.heap.sn g) n.sn = 0 ∧ snCompareTx c s n.sn ackSn = 0 := by
      simp only [snCompareTx] at *
      omega
    have hsn : s.heap.sn g = n.sn := eq_of_snCompareTx (h.isSn hs g hg) (hns.isSn n hn) hzero.1
    have hsn' : n.sn = ackSn := eq_of_snCompareTx (hns.isSn n hn) hack hzero.2
    have hwait : s.waitList = pw := by rw [h.wait, hnil, append_nil]
    refine .inr ⟨hnil, rfl, ⟨g, by simp [h.retransmit, first.1], hsn.trans hsn', hnack,
      ⟨n, hn, hsn', not_lt.1 fun hgt ↦ hb.2 ⟨hzero.1, hgt⟩⟩, fun w hw ↦ ?_⟩,
      pr, g, rest, by rw [h.retransmit, first.1], hnack, hack', ?_⟩
    · exact h.first w (hwait ▸ hw) g (by simp [first.1])
    · rw [hwait]
      exact h.new

/-! #### All NACKs -/

/-- Where the walk stops, everything left is beyond the NACK. -/
theorem Walked.stopped (hs : OrderedLists c s) (hn : IsSn c.snModulus n.sn)
    (h : Walked c s ackSn ns done k pw pr) (hstop : Stopped c n k) :
    Walked c s ackSn ns (done ++ [n]) k pw pr := by
  -- it is enough to look at the smaller head
  have hall : ∀ g, n.hits k.tx.heap g = false ∧ beyondNack c k.tx n g = true →
      g ∈ k.curWaitList ++ k.curRetransmitList →
      (∀ h ∈ k.curWaitList ++ k.curRetransmitList, SegLe c s g h ∨ h = g) →
      ∀ h ∈ k.curWaitList ++ k.curRetransmitList,
        n.hits s.heap h = false ∧ beyondNack c s n h = true := by
    intro g hg hmem hle h' hh'
    rw [h.same.hits, h.same.beyondNack] at hg
    rcases hle h' hh' with hle | rfl
    · exact beyond_of_segLe (h.isSn hs g hmem) (h.isSn hs h' hh') hn hle hg.1 hg.2
    · exact hg
  have hn' : ∀ g ∈ k.curWaitList ++ k.curRetransmitList,
      n.hits s.heap g = false ∧ beyondNack c s n g = true := by
    rcases processNextPdu_cases c k ackSn n with ⟨hw, hr, -⟩ | ⟨g, rest, hg, -⟩ | ⟨g, rest, hg, -⟩
    · intro g hg
      rw [hw, hr] at hg
      exact absurd hg not_mem_nil
    · exact hall g (hstop.1 g rest hg) (by simp [hg.1]) (h.firstWait_le hs hg).2
    · exact hall g (hstop.2 g rest hg) (by simp [hg.1]) (h.firstRetransmit_le hs hg)
  refine { h with beyond := fun m hm ↦ ?_ }
  rcases mem_append.1 hm with hm | hm
  · exact h.beyond m hm
  · rw [mem_singleton.1 hm]
    exact hn'

theorem Walked.foldl (hs : OrderedLists c s) (hns : OrderedNacks c s ackSn ns)
    (hack : IsSn c.snModulus ackSn) (h : Walked c s ackSn ns done k pw pr)
    (hsplit : ns = done ++ todo) :
    (∃ pw' pr', Walked c s ackSn ns ns (todo.foldl (processNack c ackSn) k) pw' pr') ∨
      Stranded c s ackSn ns (todo.foldl (processNack c ackSn) k) := by
  induction todo generalizing done k pw pr with
  | nil =>
    rw [append_nil] at hsplit
    rw [hsplit] at h ⊢
    exact .inl ⟨pw, pr, h⟩
  | cons n todo ih =>
    have hn : n ∈ ns := by simp [hsplit]
    have hle : snCompareTx c k.tx n.sn ackSn ≤ 0 := by
      rw [snCompareTx_congr h.same.txNextAck]
      exact hns.le_ackSn n hn
    have hvisit : ∀ k k', ((∃ pw pr, Walked c s ackSn ns done k pw pr) ∨ Stranded c s ackSn ns k) →
        Visit c ackSn n k k' →
        (∃ pw pr, Walked c s ackSn ns done k' pw pr) ∨ Stranded c s ackSn ns k' := by
      rintro k k' (⟨pw', pr', hw⟩ | hstrand) hv
      · exact hw.visit hs hns hack hsplit hv
      · -- there is nothing left to take
        have hlen := hv.length_lt
        rw [hstrand.curWaitList, hstrand.curRetransmitList] at hlen
        exact absurd hlen (Nat.not_lt_zero _)
    obtain ⟨hloop, hstop, -⟩ := processNackLoop_visits hvisit _ le_rfl hle (.inl ⟨pw, pr, h⟩)
    rw [foldl_cons]
    rcases hloop with ⟨pw', pr', hw⟩ | hstrand
    · exact ih (hw.stopped hs (hns.isSn n hn) hstop) (by rw [hsplit]; simp)
    · have hend := foldl_processNack_of_nil (c := c) hstrand.curWaitList
        hstrand.curRetransmitList ackSn todo
      rw [processNack, hend]
      exact .inr hstrand

/-! #### The end of the walk -/

/-- What is left of a sorted list: the segments before ACK_SN come first. -/
theorem beforeAck_of_segLe (hle : SegLe c s g h) (hg : beforeAck c s ackSn g = false) :
    beforeAck c s ackSn h = false := by
  rw [beforeAck, decide_eq_false_iff_not] at hg ⊢
  simp only [SegLe, snCompareTx] at *
  omega

theorem Walked.not_nacked (h : Walked c s ackSn ns ns k pw pr)
    (hg : g ∈ k.curWaitList ++ k.curRetransmitList) : nacked s.heap ns g = false := by
  rw [nacked, List.any_eq_false]
  exact fun n hn ↦ by rw [(h.beyond n hn g hg).1]; exact Bool.false_ne_true

theorem stays_of_head (hnack : ∀ g' ∈ g :: l, nacked s.heap ns g' = false)
    (hacked : beforeAck c s ackSn g = false) (hle : ∀ g' ∈ l, SegLe c s g g') :
    ∀ g' ∈ g :: l, nacked s.heap ns g' = false ∧ beforeAck c s ackSn g' = false := by
  refine fun g' hg' ↦ ⟨hnack g' hg', ?_⟩
  rcases mem_cons.1 hg' with rfl | hg'
  · exact hacked
  · exact beforeAck_of_segLe (hle g' hg') hacked

/-- The wait list after the NACKs: what is before ACK_SN is freed. -/
theorem HandedOut.finishWaitList (hs : OrderedLists c s)
    (h : HandedOut c s ackSn ns k pw pr) (hl : k.curWaitList = l)
    (hnack : ∀ g ∈ l, nacked s.heap ns g = false) (hsorted : l.Pairwise (SegLe c s)) :
    (∃ pw', HandedOut c s ackSn ns (finishWaitList c ackSn l k) pw' pr) ∧
      (finishWaitList c ackSn l k).curRetransmitList = k.curRetransmitList ∧
      ∀ g ∈ (finishWaitList c ackSn l k).curWaitList,
        nacked s.heap ns g = false ∧ beforeAck c s ackSn g = false := by
  induction l generalizing k pw with
  | nil => exact ⟨⟨pw, h⟩, rfl, fun g hg ↦ absurd (hl ▸ hg) not_mem_nil⟩
  | cons g l ih =>
    obtain ⟨hg, hsorted⟩ := pairwise_cons.1 hsorted
    rw [Am.finishWaitList]
    split
    · rename_i hacked
      rw [h.same.beforeAck] at hacked
      have ht := h.takesWait_freeWait hs hl (hnack g mem_cons_self) hacked
      exact ih (h.takesWait hl ht) rfl (fun g' hg' ↦ hnack g' (mem_cons_of_mem _ hg')) hsorted
    · rename_i hacked
      rw [h.same.beforeAck, Bool.not_eq_true] at hacked
      exact ⟨⟨pw, h⟩, rfl, hl ▸ stays_of_head hnack hacked hg⟩

/-- The retransmit list after the NACKs. -/
theorem HandedOut.finishRetransmitList
    (h : HandedOut c s ackSn ns k pw pr) (hl : k.curRetransmitList = l)
    (hnack : ∀ g ∈ l, nacked s.heap ns g = false) (hsorted : l.Pairwise (SegLe c s)) :
    (∃ pr', HandedOut c s ackSn ns (finishRetransmitList c ackSn l k) pw pr') ∧
      (finishRetransmitList c ackSn l k).curWaitList = k.curWaitList ∧
      ∀ g ∈ (finishRetransmitList c ackSn l k).curRetransmitList,
        nacked s.heap ns g = false ∧ beforeAck c s ackSn g = false := by
  induction l generalizing k pr with
  | nil => exact ⟨⟨pr, h⟩, rfl, fun g hg ↦ absurd (hl ▸ hg) not_mem_nil⟩
  | cons g l ih =>
    obtain ⟨hg, hsorted⟩ := pairwise_cons.1 hsorted
    rw [Am.finishRetransmitList]
    split
    · rename_i hacked
      rw [h.same.beforeAck] at hacked
      have ht := h.takesRetransmit_freeRetransmit g l (hnack g mem_cons_self) hacked
      exact ih (h.takesRetransmit hl ht) rfl (fun g' hg' ↦ hnack g' (mem_cons_of_mem _ hg')) hsorted
    · rename_i hacked
      rw [h.same.beforeAck, Bool.not_eq_true] at hacked
      exact ⟨⟨pr, h⟩, rfl, hl ▸ stays_of_head hnack hacked hg⟩

/-- When everything left stays where it is, every segment is where it belongs. -/
theorem HandedOut.finish (hs : OrderedLists c s) (h : HandedOut c s ackSn ns k pw pr)
    (hstay : ∀ g ∈ k.curWaitList ++ k.curRetransmitList,
      nacked s.heap ns g = false ∧ beforeAck c s ackSn g = false) :
    Classified c s ackSn ns k.finish := by
  have hw : ∀ g ∈ k.curWaitList, nacked s.heap ns g = false ∧ beforeAck c s ackSn g = false :=
    fun g hg ↦ hstay g (mem_append_left _ hg)
  have hr : ∀ g ∈ k.curRetransmitList, nacked s.heap ns g = false ∧ beforeAck c s ackSn g = false :=
    fun g hg ↦ hstay g (mem_append_right _ hg)
  have hwait : k.finish.waitList =
      s.waitList.filter fun g ↦ !nacked s.heap ns g && !beforeAck c s ackSn g := by
    show k.kept ++ k.curWaitList = _
    rw [h.wait, filter_append, ← h.kept, filter_eq_self.2 fun g hg ↦ ?_]
    simp [hw g hg]
  refine ⟨hwait, ?_, fun a ↦ ?_, ?_⟩
  · show (k.newRetransmitList ++ k.curRetransmitList).Perm _
    have hnone : k.curWaitList.filter (nacked s.heap ns) = [] :=
      filter_eq_nil_iff.2 fun g hg ↦ by simp [hw g hg]
    have hall : (k.curRetransmitList.filter fun g ↦
        nacked s.heap ns g || !beforeAck c s ackSn g) = k.curRetransmitList :=
      filter_eq_self.2 fun g hg ↦ by simp [hr g hg]
    rw [h.wait, h.retransmit, filter_append, filter_append, hnone, hall, append_nil, ← append_assoc]
    exact h.new.append_right _
  · show (k.tx.heap.cell a).freeCount = _
    have hzero : (k.curWaitList ++ k.curRetransmitList).countP (fun g ↦
        g.sdu == a && (!nacked s.heap ns g && beforeAck c s ackSn g)) = 0 :=
      countP_eq_zero.2 fun g hg ↦ by simp [hstay g hg]
    rw [countP_append] at hzero
    rw [h.freed, h.wait, h.retransmit]
    simp only [countP_append]
    omega
  · show k.endWaitList.getD k.tx.waitEnd = (k.kept ++ k.curWaitList).getLast?.map _
    rcases hcur : k.curWaitList with - | ⟨g, rest⟩
    · rw [append_nil]
      exact h.waitEnd_of_eq hcur
    · obtain ⟨hnone, hlast, -⟩ := h.waitEnd_head hs hcur
      rw [hnone, hlast, getLast?_append_of_ne_nil _ (cons_ne_nil _ _)]
      rfl

/-- A walk that goes through to the end. -/
theorem Walked.classified (hs : OrderedLists c s) (h : Walked c s ackSn ns ns k pw pr) :
    Classified c s ackSn ns (finishRetransmitList c ackSn
      (finishWaitList c ackSn k.curWaitList k).curRetransmitList
      (finishWaitList c ackSn k.curWaitList k)).finish := by
  have hwait := hs.wait
  have hretransmit := hs.retransmit
  rw [h.wait, pairwise_append] at hwait
  rw [h.retransmit, pairwise_append] at hretransmit
  obtain ⟨⟨pw', h₁⟩, hr, hstay⟩ := h.toHandedOut.finishWaitList hs rfl
    (fun g hg ↦ h.not_nacked (mem_append_left _ hg)) hwait.2.1
  obtain ⟨⟨pr', h₂⟩, hw, hstay'⟩ := h₁.finishRetransmitList rfl
    (fun g hg ↦ h.not_nacked (mem_append_right _ (hr ▸ hg))) (hr ▸ hretransmit.2.1)
  refine h₂.finish hs fun g hg ↦ ?_
  rcases mem_append.1 hg with hg | hg
  · exact hstay g (hw ▸ hg)
  · exact hstay' g hg

/-- A walk that goes through to the end strands nothing. -/
theorem Walked.not_strands (h : Walked c s ackSn ns ns k pw pr) : ¬Strands c s ackSn ns := by
  rintro ⟨g, hg, hsn, hnack, ⟨n, hn, hnsn, hso⟩, hall⟩
  have hcmp : snCompareTx c s (s.heap.sn g) ackSn = 0 := by rw [hsn, snCompareTx, sub_self]
  rw [h.retransmit] at hg
  rcases mem_append.1 hg with hg | hg
  · have hack : beforeAck c s ackSn g = false := by
      rw [beforeAck, hcmp]
      rfl
    obtain ⟨w, hw, hfirst⟩ := h.guarded g hg hnack hack
    rw [hall w hw] at hfirst
    cases hfirst
  · have hb := (h.beyond n hn g (mem_append_right _ hg)).2
    rw [beyondNack_iff, hnsn, hcmp] at hb
    omega

/-- A walk that strands segments loses one. -/
theorem Stranded.not_classified (h : Stranded c s ackSn ns k) :
    ¬Classified c s ackSn ns k.finish := by
  intro hc
  obtain ⟨pr, g, rest, hlist, hnack, hack, hnew⟩ := h.lost
  have hperm := hc.retransmitList
  rw [show k.finish.retransmitList = k.newRetransmitList ++ k.curRetransmitList from rfl,
    h.curRetransmitList, append_nil] at hperm
  have hlen := (hnew.symm.trans hperm).length_eq
  rw [hlist] at hlen
  simp [hnack, hack] at hlen

/-- **The walk as a whole.** -/
theorem classified_walkLists_iff (hs : OrderedLists c s) (hns : OrderedNacks c s ackSn ns)
    (hack : IsSn c.snModulus ackSn) :
    Classified c s ackSn ns (walkLists c s ackSn ns).finish ↔ ¬Strands c s ackSn ns := by
  rcases (walked_init hs).foldl hs hns hack (nil_append ns).symm with ⟨pw, pr, hw⟩ | hstrand
  · exact ⟨fun _ ↦ hw.not_strands, fun _ ↦ hw.classified hs⟩
  · refine ⟨fun hc ↦ absurd hc ?_, fun hno ↦ absurd hstrand.strands hno⟩
    have heq : walkLists c s ackSn ns = ns.foldl (processNack c ackSn)
        ⟨s, [], s.waitList, [], s.retransmitList, none⟩ := by
      rw [walkLists, hstrand.curWaitList, Am.finishWaitList, hstrand.curRetransmitList,
        Am.finishRetransmitList]
    rw [heq]
    exact hstrand.not_classified

/-! #### The report -/

theorem NackLt.trans (hrange : n₂.soEnd = -1 ∨ n₂.soStart ≤ n₂.soEnd)
    (h₁ : NackLt c s n₁ n₂) (h₂ : NackLt c s n₂ n₃) : NackLt c s n₁ n₃ := by
  simp only [NackLt, snCompareTx] at *
  omega

/-- NACKs that increase from one to the next increase throughout. -/
theorem pairwise_nackLt (hrange : ∀ n ∈ ns, n.soEnd = -1 ∨ n.soStart ≤ n.soEnd)
    (hchain : ns.IsChain (NackLt c s)) : ns.Pairwise (NackLt c s) := by
  induction ns with
  | nil => exact List.Pairwise.nil
  | cons n ns ih =>
    have hpw := ih (fun m hm ↦ hrange m (mem_cons_of_mem _ hm)) hchain.tail
    refine pairwise_cons.2 ⟨fun m hm ↦ ?_, hpw⟩
    rcases ns with - | ⟨n', ns⟩
    · cases hm
    · have hn' := (isChain_cons_cons.1 hchain).1
      rcases mem_cons.1 hm with rfl | hm
      · exact hn'
      · exact NackLt.trans (hrange n' (by simp)) hn' ((pairwise_cons.1 hpw).1 m hm)

/-- The poll timer and `tx_next_ack` have no part in the classification. -/
theorem classified_applyControl_iff :
    Classified c s ackSn ns (applyControl c s ackSn nacks) ↔
      Classified c (stopPollTimer c s ackSn nacks) ackSn ns
        (walkLists c (stopPollTimer c s ackSn nacks) ackSn
          (nacks.flatMap (Nack.expand c))).finish := by
  rw [applyControl]
  obtain ⟨t, ht⟩ := stopPollTimer_eq (c := c) s ackSn nacks
  rw [ht]
  exact ⟨fun h ↦ ⟨h.waitList, h.retransmitList, h.freed, h.waitEnd⟩,
    fun h ↦ ⟨h.waitList, h.retransmitList, h.freed, h.waitEnd⟩⟩

/-- **When a report classifies every segment**: unless it strands the retransmit list. -/
theorem status_classified_iff (p : AmParams) (s : AmTx) (buffer : List UInt8) (ackSn : ℤ)
    (nacks : List Nack) (hs : OrderedLists p.config s)
    (hdec : decodeControl p.config buffer = some (ackSn, nacks))
    (hvalid : validControl p.config s ackSn nacks = true)
    (hrange : ∀ n ∈ nacks.flatMap (Nack.expand p.config), n.soEnd = -1 ∨ n.soStart ≤ n.soEnd)
    (hinc : (nacks.flatMap (Nack.expand p.config)).IsChain (NackLt p.config s)) :
    Classified p.config s ackSn (nacks.flatMap (Nack.expand p.config))
      (processControlPdu p.config s buffer) ↔
    ¬Strands p.config s ackSn (nacks.flatMap (Nack.expand p.config)) := by
  have happly : processControlPdu p.config s buffer = applyControl p.config s ackSn nacks := by
    rw [processControlPdu, hdec]
    exact if_pos hvalid
  rw [happly, classified_applyControl_iff]
  obtain ⟨t, ht⟩ := stopPollTimer_eq (c := p.config) s ackSn nacks
  rw [ht]
  exact classified_walkLists_iff (s := { s with tPollRetransmitStart := t })
    ⟨hs.isSn, hs.wait, hs.retransmit, hs.ptr_nodup, hs.waitEnd_eq⟩
    ⟨fun n hn ↦ isSn_of_mem_expand p.sane hn, (validControl_iff.1 hvalid).2,
      pairwise_nackLt hrange hinc, hrange⟩ (isSn_of_decodeControl p.sane hdec)

/-- SN 0 is sent again and SN 1 is freed: the report of a receiver that lost SN 0. -/
theorem sn_zero_classified :
    ∃ t, (amSystem shortSnParams.config).exec (fun _ _ ↦ True) {} twoSdusSent = some t ∧
      t.entity.tx.waitList.length = 2 ∧
      Classified shortSnParams.config t.entity.tx 2 ([⟨0, 0, -1, 1⟩].flatMap
        (Nack.expand shortSnParams.config))
        (processControlPdu shortSnParams.config t.entity.tx [0, 2, 0x80, 0, 0]) := by
  refine ⟨_, (some_get twoSdusSent_isSome).symm, by decide, ?_⟩
  refine (status_classified_iff shortSnParams _ _ 2 [⟨0, 0, -1, 1⟩] ⟨?_, ?_, ?_, ?_, ?_⟩ ?_ ?_ ?_
    ?_).2 ?_
  · decide
  · decide
  · decide
  · decide
  · decide
  · decide
  · decide
  · decide
  · decide
  · rintro ⟨g, hg, -⟩
    rw [show (((amSystem shortSnParams.config).exec (fun _ _ ↦ True) {} twoSdusSent).get
      twoSdusSent_isSome).entity.tx.retransmitList = [] by decide] at hg
    cases hg

/-- An SDU of three bytes is sent in three segments, and NACKed as a whole. -/
def sduNacked : List AmOp :=
  [.recvSdu [1, 2, 3] 0, .generatePdu 3, .generatePdu 5, .generatePdu 5,
    .recvPdu [0, 0, 0x80, 0, 0]]

/-- **A NACK for the second byte of SN 0 under ACK_SN 0** empties the retransmit list. -/
theorem retransmitList_stranded :
    ∃ t, (amSystem shortSnParams.config).exec (fun _ _ ↦ True) {} sduNacked = some t ∧
      OrderedLists shortSnParams.config t.entity.tx ∧
      decodeControl shortSnParams.config [0, 0, 0x80, 0, 4, 0, 1, 0, 1] = some (0, [⟨0, 1, 1, 1⟩]) ∧
      validControl shortSnParams.config t.entity.tx 0 [⟨0, 1, 1, 1⟩] = true ∧
      t.entity.tx.waitList = [] ∧ t.entity.tx.retransmitList.map (·.so) = [0, 1, 2] ∧
      (processControlPdu shortSnParams.config t.entity.tx
        [0, 0, 0x80, 0, 4, 0, 1, 0, 1]).retransmitList = [] := by
  refine ⟨_, (some_get (by decide)).symm, ⟨?_, ?_, ?_, ?_, ?_⟩, ?_, ?_, ?_, ?_, ?_⟩ <;> decide

end OaiRan.Rlc.Am
