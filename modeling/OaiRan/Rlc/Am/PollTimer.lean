import OaiRan.Rlc.Am.StatusProcessing

/-!
# The poll timer and the wait list

When `t_poll_retransmit` expires and there is nothing new to send, `check_t_poll_retransmit` takes
the head of the wait list **without looking whether there is one**. The timer is started by a PDU
that has just been put in the wait list, so a segment waits when it starts. What takes segments out
again is a status report, and it stops the timer if it answers `poll_sn`. But `poll_sn` is the
highest SN sent, not the SN of the PDU with the poll: after a retransmission a report can
acknowledge all that waits and leave the timer running (`pollTimeout_without_waitList`).
-/

namespace OaiRan.Rlc.Am

open Option List NrRlcEntityAm

variable {c : AmConfig} {s s' : AmTx} {g : NrRlcSduSegment} {k k' : ControlState}
  {n : NackSn} {ackSn : ℤ} {ns todo : List NackSn} {rest : List NrRlcSduSegment}

/-- While the timer runs a segment waits. -/
def PollWaits (s : AmTx) : Prop := s.tPollRetransmitStart ≠ 0 → s.waitList ≠ []

/-! ### PDUs -/

theorem putWait_ne_nil (h : putWait c s g = some s') : s'.waitList ≠ [] := by
  have happend : ∀ {u : AmTx}, appendWait s g = some u → u.waitList ≠ [] := by
    intro u hu
    rw [appendWait] at hu
    split at hu
    · cases hu
      exact cons_ne_nil _ _
    · rename_i hne
      split at hu
      · cases hu
      · split at hu
        · cases hu
          exact append_ne_nil_of_right_ne_nil _ (cons_ne_nil _ _)
        · cases hu
          exact hne
        · cases hu
  rw [putWait] at h
  split at h
  · exact happend h
  · split at h
    · cases h
    · split at h
      · exact happend h
      · cases h
        exact ne_nil_of_mem (OrderedChain.mem_insertBefore.2 (.inl rfl))

variable {t : UInt64} {size : ℤ} {pdu : List UInt8}

theorem emitPdu_waitList
    (h : emitPdu c t s g size p = some (s', pdu)) : s'.waitList = s.waitList := by
  obtain ⟨pdu', -, h⟩ := map_eq_some_iff.1 h
  cases h
  split <;> rfl

/-- **A PDU that is sent waits.** -/
theorem generateRetxPdu_waitList
    (h : generateRetxPdu c t s size = some (s', pdu)) : s' = s ∨ s'.waitList ≠ [] := by
  rw [generateRetxPdu] at h
  split at h
  · exact .inl (Prod.mk.inj (some.inj h)).1.symm
  · split at h
    · exact .inl (Prod.mk.inj (some.inj h)).1.symm
    · obtain ⟨⟨u, first⟩, htake, hemit⟩ := bind_eq_some_iff.1 h
      obtain ⟨v, hput, heq⟩ := map_eq_some_iff.1 htake
      cases heq
      rw [emitPdu_waitList hemit]
      exact .inr (putWait_ne_nil hput)

theorem generateTxPdu_waitList
    (h : generateTxPdu c t s size = some (s', pdu)) : s' = s ∨ s'.waitList ≠ [] := by
  rw [generateTxPdu] at h
  split at h
  · exact .inl (Prod.mk.inj (some.inj h)).1.symm
  · split at h
    · exact .inl (Prod.mk.inj (some.inj h)).1.symm
    · split at h
      · exact .inl (Prod.mk.inj (some.inj h)).1.symm
      · obtain ⟨⟨u, first⟩, htake, hemit⟩ := bind_eq_some_iff.1 h
        obtain ⟨v, hput, heq⟩ := map_eq_some_iff.1 htake
        obtain ⟨rfl, rfl⟩ := Prod.mk.inj heq
        rw [emitPdu_waitList hemit]
        exact .inr (show v.waitList ≠ [] from putWait_ne_nil hput)

theorem PollWaits.generateDataPdu (h : PollWaits s)
    (hgen : generateDataPdu c t s size = some (s', pdu)) : PollWaits s' := by
  have hcases : ∀ {u v : AmTx}, PollWaits u → (v = u ∨ v.waitList ≠ []) → PollWaits v := by
    rintro u v hu (rfl | hne)
    · exact hu
    · exact fun _ ↦ hne
  rw [Am.generateDataPdu] at hgen
  split at hgen
  · cases hgen
  · rename_i hretx
    exact hcases (hcases h (generateRetxPdu_waitList hretx)) (generateTxPdu_waitList hgen)
  · rename_i hretx
    cases hgen
    exact hcases h (generateRetxPdu_waitList hretx)

/-! ### Reports -/

/-- The walk leaves the timer alone, and a segment of the wait list that no NACK hits and that is
not before ACK_SN stays. Nothing is asked of the order of lists and NACKs. -/
structure Waiting (c : AmConfig) (s : AmTx) (ackSn : ℤ) (ns : List NackSn) (k : ControlState) :
    Prop where
  same : SameSns s k.tx
  timer : k.tx.tPollRetransmitStart = s.tPollRetransmitStart
  stays : ∀ g ∈ s.waitList, nacked s.heap ns g = false → beforeAck c s ackSn g = false →
    g ∈ k.kept ++ k.curWaitList

theorem tPollRetransmitStart_freeAcked (s : AmTx) (g : NrRlcSduSegment) :
    (freeAcked s g).tPollRetransmitStart = s.tPollRetransmitStart := by
  rw [freeAcked_eq]

/-- A segment that leaves the wait list is not one of those that stay. -/
theorem Waiting.stays_tail (h : Waiting c s ackSn ns k) (hl : k.curWaitList = g :: rest)
    (hg : nacked s.heap ns g = true ∨ beforeAck c s ackSn g = true) :
    ∀ g' ∈ s.waitList, nacked s.heap ns g' = false → beforeAck c s ackSn g' = false →
      g' ∈ k.kept ++ rest := by
  intro g' hg' hnack hack
  have hmem := h.stays g' hg' hnack hack
  rw [hl] at hmem
  rcases mem_append.1 hmem with hmem | hmem
  · exact mem_append_left _ hmem
  · rcases mem_cons.1 hmem with rfl | hmem
    · rw [hnack, hack] at hg
      rcases hg with hg | hg <;> cases hg
    · exact mem_append_right _ hmem

theorem Waiting.freeWait (h : Waiting c s ackSn ns k) (hl : k.curWaitList = g :: rest)
    (hack : beforeAck c s ackSn g = true) : Waiting c s ackSn ns (freeWait k g rest) where
  same := sameSns_freeAcked h.same g
  timer := (tPollRetransmitStart_freeAcked _ _).trans h.timer
  stays := h.stays_tail hl (.inr hack)

theorem Waiting.freeRetransmit (h : Waiting c s ackSn ns k) (g : NrRlcSduSegment)
    (rest : List NrRlcSduSegment) : Waiting c s ackSn ns (freeRetransmit c k g rest) where
  same := sameSns_freeRetransmit h.same g rest
  timer := (tPollRetransmitStart_freeAcked _ _).trans h.timer
  stays := h.stays

theorem Waiting.visit (hn : n ∈ ns) (h : Waiting c s ackSn ns k) (hv : Visit c ackSn n k k') :
    Waiting c s ackSn ns k' := by
  cases hv with
  | @hitWait g rest first hhit =>
    rw [h.same.hits] at hhit
    exact ⟨sameSns_countRetx h.same g, h.timer,
      h.stays_tail first.1 (.inl (any_eq_true.2 ⟨n, hn, hhit⟩))⟩
  | freeWait first _ _ acked => exact h.freeWait first.1 ((h.same.beforeAck _ _).1 acked)
  | @keepWait g rest first =>
    refine ⟨h.same, h.timer, fun g' hg' hnack hack ↦ ?_⟩
    have hmem := h.stays g' hg' hnack hack
    rw [first.1] at hmem
    show g' ∈ (k.kept ++ [g]) ++ rest
    rwa [append_assoc]
  | hitRetransmit => exact ⟨h.same, h.timer, h.stays⟩
  | @freeRetransmit g rest => exact h.freeRetransmit g rest
  | keepRetransmit => exact ⟨h.same, h.timer, h.stays⟩
  | strand => exact ⟨h.same, h.timer, h.stays⟩

theorem Waiting.foldl (hle : ∀ n ∈ ns, snCompareTx c s n.sn ackSn ≤ 0) (hsub : todo ⊆ ns)
    (h : Waiting c s ackSn ns k) : Waiting c s ackSn ns (todo.foldl (processNack c ackSn) k) := by
  induction todo generalizing k with
  | nil => exact h
  | cons n todo ih =>
    have hn : n ∈ ns := hsub mem_cons_self
    have hle' : snCompareTx c k.tx n.sn ackSn ≤ 0 := by
      rw [snCompareTx_congr h.same.txNextAck]
      exact hle n hn
    exact ih (fun m hm ↦ hsub (mem_cons_of_mem _ hm))
      (processNackLoop_visits (fun _ _ hk hv ↦ hk.visit hn hv) _ le_rfl hle' h).1

theorem Waiting.finishWaitList (h : Waiting c s ackSn ns k)
    (hl : k.curWaitList = l) : Waiting c s ackSn ns (finishWaitList c ackSn l k) := by
  induction l generalizing k with
  | nil => exact h
  | cons g l ih =>
    rw [Am.finishWaitList]
    split
    · rename_i hack
      exact ih (h.freeWait hl ((h.same.beforeAck _ _).1 hack)) rfl
    · exact h

theorem Waiting.finishRetransmitList (h : Waiting c s ackSn ns k) :
    Waiting c s ackSn ns (finishRetransmitList c ackSn l k) := by
  induction l generalizing k with
  | nil => exact h
  | cons g l ih =>
    rw [Am.finishRetransmitList]
    split
    · exact ih (h.freeRetransmit g l)
    · exact h

theorem waiting_walkLists (hle : ∀ n ∈ ns, snCompareTx c s n.sn ackSn ≤ 0) :
    Waiting c s ackSn ns (walkLists c s ackSn ns) := by
  have hinit : Waiting c s ackSn ns ⟨s, [], s.waitList, [], s.retransmitList, none⟩ :=
    ⟨⟨fun _ ↦ rfl, rfl⟩, rfl, fun _ hg _ _ ↦ hg⟩
  exact ((hinit.foldl hle (List.Subset.refl ns)).finishWaitList rfl).finishRetransmitList

/-- **The report answers the poll or leaves a segment waiting**: one that no NACK hits and that is
not before ACK_SN. -/
def LeavesWaiting (c : AmConfig) (s : AmTx) (buffer : List UInt8) : Prop :=
  ∀ r ∈ decodeControl c buffer, validControl c s r.1 r.2 = true →
    s.tPollRetransmitStart = 0 ∨ pollAnswered c s r.1 r.2 = true ∨
      ∃ g ∈ s.waitList, nacked s.heap (r.2.flatMap (Nack.expand c)) g = false ∧
        beforeAck c s r.1 g = false

instance (buffer : List UInt8) : Decidable (LeavesWaiting c s buffer) :=
  inferInstanceAs (Decidable (∀ r ∈ decodeControl c buffer, _))

theorem PollWaits.processControlPdu (h : PollWaits s)
    (hok : LeavesWaiting c s buffer) : PollWaits (processControlPdu c s buffer) := by
  rw [Am.processControlPdu]
  rcases hdec : decodeControl c buffer with - | ⟨ackSn, nacks⟩
  · exact h
  · dsimp only
    split
    · rename_i hvalid
      have hle := (validControl_iff.1 hvalid).2
      have hcases := hok (ackSn, nacks) hdec hvalid
      show PollWaits (updateTxNextAck c (walkLists c (stopPollTimer c s ackSn nacks) ackSn
        (nacks.flatMap (Nack.expand c))).finish ackSn)
      intro hstart
      rw [stopPollTimer] at hstart ⊢
      split at hstart
      · exact absurd (waiting_walkLists (s := { s with tPollRetransmitStart := 0 }) hle).timer hstart
      · rename_i hans
        rw [if_neg hans]
        have hw := waiting_walkLists (c := c) (s := s) hle
        rcases hcases with hzero | hans' | ⟨g, hg, hnack, hack⟩
        · exact absurd (hw.timer.trans hzero) hstart
        · exact absurd hans' hans
        · exact ne_nil_of_mem (hw.stays g hg hnack hack)
    · exact h

/-! ### Runs -/

theorem tPollRetransmitStart_foldl (l : List NrRlcSduSegment) (s : AmTx) :
    (l.foldl (moveToRetransmit c) s).tPollRetransmitStart =
      s.tPollRetransmitStart := by
  induction l generalizing s with
  | nil => rfl
  | cons g l ih => exact ih _

theorem PollWaits.checkTPollRetransmit (h : PollWaits s)
    (hcheck : checkTPollRetransmit c now s = some s') : PollWaits s' := by
  rw [NrRlcEntityAm.checkTPollRetransmit] at hcheck
  split at hcheck
  · cases hcheck
    exact h
  · -- the timer has expired, and is stopped
    dsimp only at hcheck
    split at hcheck
    · cases hcheck
      exact fun hne ↦ absurd rfl hne
    · split at hcheck
      · cases hcheck
      · cases hcheck
        exact fun hne ↦ absurd (tPollRetransmitStart_foldl _ _) hne

theorem PollWaits.discardSdu {e : NrRlcEntityAm} (h : PollWaits e.tx) (sduId : ℤ) :
    PollWaits (e.discardSdu c sduId).tx := by
  rw [NrRlcEntityAm.discardSdu]
  split
  · exact h
  · split <;> exact h

/-- Every report that is received leaves a segment waiting or answers the poll. -/
def AnswersPoll (c : AmConfig) (t : AmTrace) : AmOp → Prop
  | .recvPdu buffer => decodePdu c buffer = .control → LeavesWaiting c t.entity.tx buffer
  | _ => True

theorem PollWaits.step {t t' : AmTrace} {op : AmOp} (h : PollWaits t.entity.tx)
    (hok : AnswersPoll c t op) (hstep : (amSystem c).step t op = some t') :
    PollWaits t'.entity.tx := by
  have htx := step_tx hstep
  generalize t'.entity.tx = tx at htx
  cases htx with
  | same => exact h
  | addSdu => exact h
  | data made => exact h.generateDataPdu made
  | control isControl => exact h.processControlPdu (hok isControl)
  | pollTimer checked => exact h.checkTPollRetransmit checked
  | discard sduId => exact h.discardSdu sduId
  | clear => exact fun hne ↦ absurd rfl hne

/-- **No poll timeout crashes** a run whose reports leave a segment waiting or answer the poll. -/
theorem pollTimeout_safe (p : AmParams) {t : AmTrace}
    (h : (amSystem p.config).Reach (AnswersPoll p.config) t) (now : UInt64) :
    (tPollRetransmitExpired p.config now t.entity.tx = true →
      checkPollAfterPduAssembly p.config t.entity.tx = true → t.entity.tx.waitList ≠ []) ∧
    (t.entity.setTime p.config now).isSome = true := by
  have hwaits : PollWaits t.entity.tx :=
    h.invariant (P := fun t ↦ PollWaits t.entity.tx) (fun hne ↦ absurd rfl hne)
      fun hs hok hstep ↦ hs.step hok hstep
  have hne : tPollRetransmitExpired p.config now t.entity.tx = true →
      t.entity.tx.waitList ≠ [] := by
    intro hexp
    refine hwaits fun hzero ↦ ?_
    simp [tPollRetransmitExpired, hzero] at hexp
  refine ⟨fun hexp _ ↦ hne hexp, ?_⟩
  rw [setTime, isSome_map, checkTPollRetransmit]
  split
  · rfl
  · rename_i hexp
    dsimp only
    split
    · rfl
    · split
      · rename_i hnil
        exact absurd hnil (hne (by simpa using hexp))
      · rfl

instance (t : AmTrace) (op : AmOp) : Decidable (AnswersPoll c t op) :=
  match op with
  | .recvPdu buffer =>
    inferInstanceAs (Decidable (decodePdu c buffer = .control → LeavesWaiting c t.entity.tx buffer))
  | .recvSdu .. | .generatePdu _ | .setTime _ | .discardSdu _ | .reestablishment => isTrue trivial

/-- Two SDUs are sent and a report acknowledges the first one. -/
def firstSduAcked : List AmOp :=
  [.setTime 10, .recvSdu [1] 0, .recvSdu [2] 1, .generatePdu 10, .generatePdu 10,
    .recvPdu [0, 1, 0]]

theorem pollTimeout_safe_firstSduAcked :
    ∃ t, (amSystem shortSnParams.config).Reach (AnswersPoll shortSnParams.config) t ∧
      tPollRetransmitExpired shortSnParams.config 100 t.entity.tx = true ∧
      checkPollAfterPduAssembly shortSnParams.config t.entity.tx = true ∧
      t.entity.tx.waitList ≠ [] := by
  have hreach := (amSystem shortSnParams.config).reach_get_exec
    (AnswersPoll shortSnParams.config) firstSduAcked (by decide)
  refine ⟨_, hreach, by decide, by decide, ?_⟩
  exact (pollTimeout_safe shortSnParams hreach 100).1 (by decide) (by decide)

/-- Two SDUs are sent; a report acknowledges SN 1 and NACKs SN 0, SN 0 is sent again with a poll
for SN 1, and a report acknowledges SN 0 only. -/
def retransmissionAcked : List AmOp :=
  [.setTime 10, .recvSdu [1] 0, .recvSdu [2] 1, .generatePdu 10, .generatePdu 10,
    .recvPdu [0, 2, 0x80, 0, 0], .generatePdu 10, .recvPdu [0, 1, 0]]

/-- **The timer expires with nothing in the wait list.** -/
theorem pollTimeout_without_waitList :
    ∃ t, (amSystem shortSnParams.config).exec (fun _ _ ↦ True) {} retransmissionAcked = some t ∧
      tPollRetransmitExpired shortSnParams.config 100 t.entity.tx = true ∧
      checkPollAfterPduAssembly shortSnParams.config t.entity.tx = true ∧
      t.entity.tx.waitList = [] ∧ (t.entity.setTime shortSnParams.config 100).isNone = true :=
  ⟨_, (some_get (by decide)).symm, by decide, by decide,
    by decide, by decide⟩

end OaiRan.Rlc.Am
