import OaiRan.Mac.HarqPartition

/-!
# HARQ bits on PUCCH formats 2, 3 and 4

With these formats a UE acknowledges several transport blocks at once, one bit for each process of
the feedback list. `handle_nr_uci_pucch_2_3_4` finds the byte of a bit but shifts it by the number
of the bit in the payload: **from the ninth bit on every process is taken as not acknowledged**.

What the bits should do is `applyHarqBits`, which hands each process its bit. The code does the same
with the bits it reads (`handleNrUciPucch234_eq`), and a run of `applyHarqBits` shows how many
processes were not acknowledged: each of them is in the retransmission list or counted as an error.
-/

namespace OaiRan.Mac

open List Nat

variable {i q : ℕ} {ack ack' : ℕ → Bool}

/-- The feedback of the process is expected in this slot. -/
def HarqProcess.DueAt (harq : HarqProcess) (frame slot : UInt32) : Prop :=
  harq.feedbackFrame.toUInt32 = frame ∧ harq.feedbackSlot.toUInt32 = slot

instance (harq : HarqProcess) (frame slot : UInt32) : Decidable (harq.DueAt frame slot) :=
  inferInstanceAs (Decidable (_ ∧ _))

/-- Bit `i` of a payload. -/
def payloadBit (harqPayload : List UInt8) (i : ℕ) : Bool :=
  (harqPayload.getD (i / 8) 0).toNat.testBit (i % 8)

/-- Whether bit `i` acknowledges its process. -/
def ackBit (harqCrc : UInt8) (harqPayload : List UInt8) (i : ℕ) : Bool :=
  harqCrc != 1 && payloadBit harqPayload i

/-- Whether `handle_nr_uci_pucch_2_3_4` takes bit `i` as an acknowledgement. -/
def readAckBit (harqCrc : UInt8) (harqPayload : List UInt8) (i : ℕ) : Bool :=
  harqCrc != 1 && ((harqPayload.getD (i >>> 3) 0).toNat >>> i) &&& 1 != 0

/-- Each process of a list, which is the front of the feedback list, gets its value. -/
def applyHarqBits (harqRoundMax : ℕ) :
    List (ℕ × Bool) → NrUeSchedCtrl → Except Abort NrUeSchedCtrl
  | [], s => .ok s
  | (pid, success) :: rest, s => do
    let dl ← s.dl.popFeedback
    applyHarqBits harqRoundMax rest (handleDlHarq { s with dl } pid success harqRoundMax)

/-- The processes of the feedback list with the values of the bits `ack`, the first of them being
bit `i`. -/
def withBits (ack : ℕ → Bool) : ℕ → List ℕ → List (ℕ × Bool)
  | _, [] => []
  | i, pid :: pids => (pid, ack i) :: withBits ack (i + 1) pids

/-- **The bits reach their processes**: the `i`-th process of the feedback list `fb` gets bit `i` of
the payload. -/
def HarqBitsReach (g : HarqConfig) (frame slot : UInt32) (harqCrc : UInt8)
    (harqPayload : List UInt8) (harqBitLen : ℕ) (fb : List ℕ) (s : NrUeSchedCtrl) : Prop :=
  handleNrUciPucch234 g frame slot harqCrc harqPayload harqBitLen 0 s =
    applyHarqBits g.dlHarqRoundMax (withBits (ackBit harqCrc harqPayload) 0 (fb.take harqBitLen)) s

variable {g : HarqConfig} {s : NrUeSchedCtrl} {frame slot : UInt32} {crc : UInt8}
  {payload : List UInt8} {pid roundMax : ℕ} {av fb re pids : List ℕ}

/-! ### Reading a bit -/

theorem readAckBit_of_lt (hi : i < 8) : readAckBit crc payload i = ackBit crc payload i := by
  rw [readAckBit, ackBit, payloadBit, Nat.mod_eq_of_lt hi, Nat.testBit, Nat.and_comm,
    shiftRight_eq_div_pow i 3]

/-- No bit after the eighth is read as an acknowledgement. -/
theorem readAckBit_of_le (hi : 8 ≤ i) : readAckBit crc payload i = false := by
  have hbyte : (payload.getD (i >>> 3) 0).toNat < 2 ^ i :=
    (UInt8.toNat_lt _).trans_le (Nat.pow_le_pow_right (by decide) hi)
  rw [readAckBit, shiftRight_eq_div_pow _ i, div_eq_of_lt hbyte, zero_and]
  exact Bool.and_false _

theorem ackBit_of_readAckBit (h : readAckBit crc payload i = true) :
    ackBit crc payload i = true := by
  rcases lt_or_ge i 8 with hi | hi
  · rwa [readAckBit_of_lt hi] at h
  · rw [readAckBit_of_le hi] at h
    cases h

/-! ### One process -/

/-- The bits of the other processes do not change a process. -/
theorem handleDlHarq_processes (hq : q ≠ pid) :
    (handleDlHarq s pid success roundMax).dl.processes q = s.dl.processes q := by
  have hset : ∀ (h : HarqLists) p, (h.setProcess pid p).processes q = h.processes q :=
    fun h p ↦ Function.update_of_ne hq _ _
  rw [handleDlHarq]
  split
  · exact (hset _ _).trans (hset _ _)
  split <;> exact (hset _ _).trans (hset _ _)

/-- **A process that is not acknowledged** is in the retransmission list or counted as an error. -/
theorem handleDlHarq_counts (success : Bool) (hmax : roundMax < 2 ^ 8)
    (hs : s.dl.Sorted roundMax [pid] av fb re) :
    ∃ av' re', (handleDlHarq s pid success roundMax).dl.Sorted roundMax [] av' fb re' ∧
      re'.length + (handleDlHarq s pid success roundMax).dlErrors =
        re.length + s.dlErrors + if success then 0 else 1 := by
  have hset := hs.setProcess { s.dl.processes pid with feedbackSlot := 0xffff, isWaiting := false }
  have hfinish := (hset.setProcess
    { s.dl.processes pid with
      feedbackSlot := 0xffff, isWaiting := false, ndi := (s.dl.processes pid).ndi ^^^ 1,
      round := 0 }).put_available (by simp) (by simp)
  rw [handleDlHarq]
  cases success with
  | true => exact ⟨_, _, by simpa [finishNrDlHarq, HarqLists.finish] using hfinish, rfl⟩
  | false =>
    rw [if_neg Bool.false_ne_true, if_neg Bool.false_ne_true]
    split
    · refine ⟨_, _, by simpa [abortNrDlHarq, finishNrDlHarq, HarqLists.finish] using hfinish, ?_⟩
      rw [abortNrDlHarq, add_assoc]
    · rename_i hround
      dsimp only at hround
      have hmod : ((s.dl.processes pid).round + 1) % 2 ^ 8 = (s.dl.processes pid).round + 1 :=
        mod_eq_of_lt (by omega)
      have hretrans := (hset.setProcess
        { s.dl.processes pid with
          feedbackSlot := 0xffff, isWaiting := false,
          round := ((s.dl.processes pid).round + 1) % 2 ^ 8 }).put_retrans (by simp)
        (by simp only [HarqLists.setProcess_self, hmod]; omega)
      refine ⟨_, _, by simpa [HarqLists.retransmit] using hretrans, ?_⟩
      rw [length_append, length_singleton, add_right_comm]

/-- The process at the front of the feedback list, taken out of it. -/
theorem popFeedback_sorted (hs : s.dl.Sorted roundMax [] av (pid :: fb) re) :
    ∃ dl, s.dl.popFeedback = .ok dl ∧ dl.Sorted roundMax [pid] av fb re ∧
      dl.processes = s.dl.processes := by
  obtain ⟨l, hl, hrep, hlen⟩ := hs.feedback.removeFrontNrList
  rw [HarqLists.popFeedback, hl]
  exact ⟨_, rfl, hs.take_feedback hrep hlen, rfl⟩

/-! ### All processes -/

/-- The number of processes that are not acknowledged can be read off the result. -/
theorem applyHarqBits_counts (ack : ℕ → Bool) (i : ℕ) (hmax : roundMax < 2 ^ 8)
    (hs : s.dl.Sorted roundMax [] av (pids ++ fb) re) :
    ∃ s' av' re', applyHarqBits roundMax (withBits ack i pids) s = .ok s' ∧
      s'.dl.Sorted roundMax [] av' fb re' ∧
      re'.length + s'.dlErrors = re.length + s.dlErrors +
        (range' i pids.length).countP (!ack ·) := by
  induction pids generalizing s av re i with
  | nil => exact ⟨s, av, re, rfl, hs, rfl⟩
  | cons pid pids ih =>
    obtain ⟨dl, hpop, hheld, -⟩ := popFeedback_sorted hs
    obtain ⟨av₁, re₁, hs₁, hcount₁⟩ :=
      handleDlHarq_counts (s := { s with dl }) (ack i) hmax hheld
    obtain ⟨s', av', re', hrun, hs', hcount⟩ := ih (i + 1) hs₁
    refine ⟨s', av', re', ?_, hs', ?_⟩
    · rw [withBits, applyHarqBits, hpop]
      exact hrun
    · rw [hcount, hcount₁, length_cons, range'_succ, countP_cons]
      cases ack i <;> simp [add_assoc, add_comm 1]

/-- `find_harq` stops at once at a process whose feedback is due. -/
theorem findHarq_of_due (hs : s.dl.Sorted roundMax [] av (pid :: fb) re)
    (hdue : (s.dl.processes pid).DueAt frame slot) :
    findHarq s frame slot roundMax = .ok (s, some pid) := by
  have hhead : s.dl.feedback.head = pid := hs.feedback.head_eq
  obtain ⟨hframe, hslot⟩ := hdue
  have hpast : (s.dl.processes pid).isPast frame slot = false := by
    simp [HarqProcess.isPast, hframe, hslot]
  have hfuture : (s.dl.processes pid).isFuture frame slot = false := by
    simp [HarqProcess.isFuture, hframe, hslot]
  rw [findHarq, findHarqLoop, hhead, if_neg (by omega), Int.toNat_natCast]
  dsimp only
  rw [hpast, hfuture]
  rfl

/-- **The code hands out the bits it reads** in the order of the list. -/
theorem handleNrUciPucch234_eq (crc : UInt8) (payload : List UInt8) (i : ℕ)
    (hs : s.dl.Sorted g.dlHarqRoundMax [] av (pids ++ fb) re)
    (hdue : ∀ pid ∈ pids, (s.dl.processes pid).DueAt frame slot) :
    handleNrUciPucch234 g frame slot crc payload pids.length i s =
      applyHarqBits g.dlHarqRoundMax (withBits (readAckBit crc payload) i pids) s := by
  induction pids generalizing s av re i with
  | nil => rfl
  | cons pid pids ih =>
    have hfind := findHarq_of_due hs (hdue pid (by simp))
    have hwait := (hs.waiting pid (by simp)).2 (by simp)
    have hhead : s.dl.feedback.head = pid := hs.feedback.head_eq
    obtain ⟨dl, hpop, hheld, hprocs⟩ := popFeedback_sorted hs
    have hbit : handleHarqBit frame slot g.dlHarqRoundMax s (readAckBit crc payload i) =
        .ok (handleDlHarq { s with dl } pid (readAckBit crc payload i) g.dlHarqRoundMax,
          some ()) := by
      rw [handleHarqBit, hfind]
      change (if (s.dl.processes pid).isWaiting = true then _ else _) = _
      rw [if_pos hwait, hpop, hhead, Int.toNat_natCast]
      rfl
    obtain ⟨av₁, re₁, hs₁, -⟩ := handleDlHarq_counts (s := { s with dl })
      (readAckBit crc payload i) g.dlHarqRoundMax_lt hheld
    have hnodup : pid ∉ pids := fun hmem ↦
      (nodup_cons.1 hs.feedback.nodup).1 (mem_append_left _ hmem)
    have hnext := ih (i + 1) hs₁ fun q hq ↦ by
      have hne : q ≠ pid := fun heq ↦ hnodup (heq ▸ hq)
      rw [handleDlHarq_processes hne, hprocs]
      exact hdue q (mem_cons_of_mem _ hq)
    rw [length_cons, handleNrUciPucch234, withBits, applyHarqBits, hpop]
    rw [readAckBit] at hbit
    rw [hbit]
    exact hnext

/-- The values are the same where the bits are. -/
theorem withBits_congr (i : ℕ) (pids : List ℕ)
    (h : ∀ j, i ≤ j → j < i + pids.length → ack j = ack' j) :
    withBits ack i pids = withBits ack' i pids := by
  induction pids generalizing i with
  | nil => rfl
  | cons pid pids ih =>
    rw [length_cons] at h
    rw [withBits, withBits, h i le_rfl (by omega),
      ih (i + 1) fun j hj hj' ↦ h j (by omega) (by omega)]

/-- Fewer acknowledgements are as many only if they are the same. -/
theorem eq_of_countP_eq {l : List ℕ} (hle : ∀ i, ack i = true → ack' i = true)
    (hcount : l.countP (!ack ·) = l.countP (!ack' ·)) : ∀ i ∈ l, ack i = ack' i := by
  induction l with
  | nil => simp
  | cons i l ih =>
    have hrest : l.countP (!ack' ·) ≤ l.countP (!ack ·) := by
      refine countP_mono_left fun j _ hj ↦ ?_
      rw [Bool.not_eq_true'] at hj ⊢
      exact Bool.eq_false_iff.2 fun h ↦ Bool.eq_false_iff.1 hj (hle j h)
    rcases hi : ack i with - | - <;> rcases hi' : ack' i with - | - <;> simp [hi, hi'] at hcount
    · exact forall_mem_cons.2 ⟨hi.trans hi'.symm, ih hcount⟩
    · omega
    · rw [hle i hi] at hi'
      cases hi'
    · exact forall_mem_cons.2 ⟨hi.trans hi'.symm, ih hcount⟩

/-- **When the bits reach their processes**: the CRC failed, so that none is acknowledged, or no bit
after the eighth is an acknowledgement. -/
theorem harqBitsReach_iff {n : ℕ} (hs : s.dl.Sorted g.dlHarqRoundMax [] av fb re)
    (hdue : ∀ pid ∈ fb, (s.dl.processes pid).DueAt frame slot) (hn : n ≤ fb.length) :
    HarqBitsReach g frame slot crc payload n fb s ↔
      crc = 1 ∨ ∀ i, 8 ≤ i → i < n → payloadBit payload i = false := by
  have hlen : (fb.take n).length = n := length_take_of_le hn
  have hs' : s.dl.Sorted g.dlHarqRoundMax [] av (fb.take n ++ fb.drop n) re := by
    rwa [take_append_drop]
  have hcode : handleNrUciPucch234 g frame slot crc payload n 0 s = applyHarqBits g.dlHarqRoundMax
      (withBits (readAckBit crc payload) 0 (fb.take n)) s := by
    have h := handleNrUciPucch234_eq crc payload 0 hs'
      fun pid hpid ↦ hdue pid (mem_of_mem_take hpid)
    rwa [hlen] at h
  rw [HarqBitsReach, hcode]
  constructor
  · intro heq
    obtain ⟨s₁, av₁, re₁, hrun₁, hs₁, hcount₁⟩ :=
      applyHarqBits_counts (readAckBit crc payload) 0 g.dlHarqRoundMax_lt hs'
    obtain ⟨s₂, av₂, re₂, hrun₂, hs₂, hcount₂⟩ :=
      applyHarqBits_counts (ackBit crc payload) 0 g.dlHarqRoundMax_lt hs'
    obtain rfl : s₁ = s₂ := Except.ok.inj (hrun₁.symm.trans (heq.trans hrun₂))
    obtain rfl := hs₁.retrans.unique hs₂.retrans
    have hsame := eq_of_countP_eq (fun i ↦ ackBit_of_readAckBit)
      (add_left_cancel (hcount₁.symm.trans hcount₂))
    refine or_iff_not_imp_left.2 fun hcrc i hi hlt ↦ ?_
    have hbit := hsame i (by rw [mem_range'_1, hlen]; omega)
    rw [readAckBit_of_le hi, ackBit, bne_iff_ne.2 hcrc, Bool.true_and] at hbit
    exact hbit.symm
  · intro hbits
    rw [withBits_congr 0 _ fun j _ hj ↦ ?_]
    rcases lt_or_ge j 8 with hj8 | hj8
    · exact readAckBit_of_lt hj8
    · rw [readAckBit_of_le hj8, ackBit]
      rcases hbits with rfl | hbits
      · rfl
      · rw [hbits j hj8 (by omega), Bool.and_false]

/-- Nine transport blocks of a UE with 16 processes, to be acknowledged in slot 4 of frame 10. -/
def nineScheduledRun : Option NrUeSchedCtrl :=
  let m := harqSystem fourRounds (some ⟨false, some 5, false⟩)
  m.exec (fun _ _ ↦ True) m.init (replicate 9 (.scheduleDl .newData (some (10, 4))))

theorem nineScheduledRun_isSome : nineScheduledRun.isSome := by decide +kernel

theorem nineScheduledRun_awaits :
    let s := nineScheduledRun.get nineScheduledRun_isSome
    s.dl.feedback.Represents (range 9) ∧
      ∀ pid ∈ range 9, (s.dl.processes pid).DueAt 10 4 := by
  decide +kernel

/-- All are acknowledged but the ninth. -/
theorem nineScheduled_bits_reach :
    HarqBitsReach fourRounds 10 4 0 [0xff, 0x00] 9 (range 9)
      (nineScheduledRun.get nineScheduledRun_isSome) := by
  obtain ⟨hfb, hdue⟩ := nineScheduledRun_awaits
  have hreach : (harqSystem fourRounds _).Reach (fun _ _ ↦ True)
      (nineScheduledRun.get nineScheduledRun_isSome) :=
    StepSystem.reach_get_exec _ _ _ nineScheduledRun_isSome
  obtain ⟨fb, av, re, hs⟩ := (NrUeSchedCtrl.Partitioned.of_reach hreach).dl
  obtain rfl := hfb.unique hs.feedback
  exact (harqBitsReach_iff hs hdue (by decide)).2 (.inr (by decide))

/-- **The ninth bit is lost**: with all nine bits set, process 8 is sent again. -/
theorem ninth_bit_lost :
    let s := nineScheduledRun.get nineScheduledRun_isSome
    (s.dl.feedback.Represents (range 9) ∧
      ∀ pid ∈ range 9, (s.dl.processes pid).DueAt 10 4) ∧
    payloadBit [0xff, 0x01] 8 = true ∧
    (handleNrUciPucch234 fourRounds 10 4 0 [0xff, 0x01] 9 0 s).map (·.dl.retrans.head) = .ok 8 ∧
    ¬ HarqBitsReach fourRounds 10 4 0 [0xff, 0x01] 9 (range 9) s := by
  have hcode : (handleNrUciPucch234 fourRounds 10 4 0 [0xff, 0x01] 9 0
      (nineScheduledRun.get nineScheduledRun_isSome)).map (·.dl.retrans.head) = .ok 8 := by
    decide +kernel
  refine ⟨nineScheduledRun_awaits, by decide, hcode, fun hreach ↦ ?_⟩
  rw [hreach] at hcode
  revert hcode
  decide +kernel

end OaiRan.Mac
