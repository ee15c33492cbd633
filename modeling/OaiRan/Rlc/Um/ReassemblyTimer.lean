import OaiRan.Rlc.Um.InOrder
import OaiRan.Rlc.Um.System

/-!
# The reassembly timer of an unacknowledged-mode entity

Whatever buffers arrive, the receive list holds only SNs of the reassembly window, oldest first, and
`rx_next_reassembly` is not beyond `rx_next_highest` (`Window`). So the tests at the end of
`reception_actions` leave the timer running for an SN ahead of `rx_next_reassembly`, or there is
nothing to wait for (`Timed`).

The same test after an expiry compares `rx_next_highest` with `rx_next_reassembly + 1` **without the
modulus**: when `rx_next_reassembly` is the last SN and `rx_next_highest` is 0, a gap in the SDU
does not start the timer again (`StallsAtWrap`). A PDU that comes before the first `set_time` starts
the timer at time 0, which is the mark of a timer that is off.
-/

namespace OaiRan.Rlc.Um

open CircularSeq List OrderedChain Int

variable {c : UmConfig}

variable {d m m' x : ℤ} {P : NrRlcPdu → Bool} {l : List NrRlcPdu}

/-! ### Segments that arrive -/

/-- A segment as `recv_pdu` takes it from a buffer. -/
structure Arrived (c : UmConfig) (pdu : NrRlcPdu) : Prop where
  isSn : IsSn c.snModulus pdu.sn
  /-- A segment that starts an SDU does not end it. -/
  not_whole : pdu.so ≤ 0 → pdu.isLast = false

variable {pdu : NrRlcPdu} {s s' s₁ : UmRx} {t : UInt64}

theorem arrived_of_decodePdu (hmod : c.snModulus = 2 ^ c.snFieldLength)
    (h : decodePdu c buffer = .segment pdu) : Arrived c pdu := by
  rw [decodePdu] at h
  split at h
  · cases h
  · dsimp only at h
    split at h
    · split at h <;> cases h
    · rename_i hwhole
      split at h
      · cases h
      · rename_i sn so d' hseg
        split at h
        · cases h
        · obtain rfl := UmPdu.segment.inj h
          obtain ⟨d₁, -, hseg⟩ := Option.bind_eq_some_iff.1 hseg
          obtain ⟨⟨sn', d₂⟩, hsn, hseg⟩ := Option.bind_eq_some_iff.1 hseg
          obtain ⟨⟨so', d₃⟩, hso, hseg⟩ := Option.bind_eq_some_iff.1 hseg
          obtain ⟨rfl, rfl, -⟩ : sn' = sn ∧ so' = so ∧ d₃ = d' := by simpa using hseg
          have hlt := getBits_lt hsn
          refine ⟨⟨natCast_nonneg _, ?_⟩, fun hle ↦ ?_⟩
          · show (sn' : ℤ) < c.snModulus
            rw [hmod]
            exact_mod_cast hlt
          · have hzero : so' = 0 := by
              have : (so' : ℤ) ≤ 0 := hle
              omega
            -- only a first segment has no SO field
            rw [decodeSo] at hso
            split at hso
            · rename_i hfirst
              rw [hfirst] at hwhole
              simpa [nrRlcNewPdu] using hwhole
            · simp [Option.filter_eq_some_iff, hzero] at hso

/-! ### The window -/

/-- The cells, and `rx_next_reassembly` not beyond `rx_next_highest`. -/
structure Window (c : UmConfig) (s : UmRx) : Prop where
  cells : WindowCells c s
  isSn_next : IsSn c.snModulus s.rxNextReassembly
  age_next : age c s s.rxNextReassembly ≤ c.windowSize
  isSn_trigger : IsSn c.snModulus s.rxTimerTrigger

/-! ### The timer -/

/-- The timer runs for an SN ahead of `rx_next_reassembly`, or there is nothing to wait for. -/
structure Timed (c : UmConfig) (s : UmRx) : Prop where
  running : s.tReassemblyStart ≠ 0 → snCompareRx c s s.rxNextReassembly s.rxTimerTrigger < 0 ∧
    snCompareRx c s s.rxTimerTrigger s.rxNextHighest ≤ 0
  off : s.tReassemblyStart = 0 →
    snCompareRx c s s.rxNextHighest ((s.rxNextReassembly + 1) % c.snModulus) ≤ 0 ∧
    (s.rxNextHighest = (s.rxNextReassembly + 1) % c.snModulus →
      sduHasMissingBytes s.rxList s.rxNextReassembly = false)

/-- There is something to wait for: the test before the timer is started. -/
def Waits (c : UmConfig) (s : UmRx) : Prop :=
  snCompareRx c s s.rxNextHighest ((s.rxNextReassembly + 1) % c.snModulus) > 0 ∨
    (s.rxNextHighest = (s.rxNextReassembly + 1) % c.snModulus ∧
      sduHasMissingBytes s.rxList s.rxNextReassembly)

/-- Something to wait for is behind `rx_next_highest`. -/
theorem Waits.age_pos (hc : c.Sane) (h : Waits c s) (hw : Window c s) :
    1 ≤ age c s s.rxNextReassembly := by
  have h₁ := age_nonneg hc s s.rxNextReassembly
  rcases lt_or_ge 0 (age c s s.rxNextReassembly) with hpos | hle
  · omega
  · -- `rx_next_reassembly` is `rx_next_highest`, and one further is the oldest age there is
    have heq : s.rxNextHighest = s.rxNextReassembly := by
      have hzero : off c.snModulus s.rxNextReassembly s.rxNextHighest = 0 := by
        show age c s s.rxNextReassembly = 0
        omega
      exact (off_eq_zero_iff hw.isSn_next.1 hw.isSn_next.2 hw.cells.isSn_highest.1
        hw.cells.isSn_highest.2).1 hzero
    have hidle := startTReassembly_of_idle hc (s := { s with tReassemblyStart := 0 }) 1 heq
    rw [startTReassembly, if_pos ⟨rfl, h⟩] at hidle
    have hone : (1 : UInt64) = 0 := congrArg UmRx.tReassemblyStart hidle
    exact absurd hone (by decide)

/-- Once started, the timer waits for `rx_next_highest`. -/
theorem Waits.timed (hc : c.Sane) (h : Waits c s) (hw : Window c s) (ht : t ≠ 0) :
    Timed c { s with tReassemblyStart := t, rxTimerTrigger := s.rxNextHighest } := by
  have hpos := h.age_pos hc hw
  refine ⟨fun _ ↦ ⟨?_, ?_⟩, fun hzero ↦ absurd hzero ht⟩
  · show snCompareRx c s s.rxNextReassembly s.rxNextHighest < 0
    have hW := hc.two_le
    rw [snCompareRx_eq hc hw.age_next (by rw [age_rxNextHighest]; omega), age_rxNextHighest]
    omega
  · show snCompareRx c s s.rxNextHighest s.rxNextHighest ≤ 0
    rw [snCompareRx, sub_self]

theorem not_waits_iff : ¬Waits c s ↔
    snCompareRx c s s.rxNextHighest ((s.rxNextReassembly + 1) % c.snModulus) ≤ 0 ∧
    (s.rxNextHighest = (s.rxNextReassembly + 1) % c.snModulus →
      sduHasMissingBytes s.rxList s.rxNextReassembly = false) := by
  rw [Waits, not_or, not_and, Bool.not_eq_true, gt_iff_lt, not_lt]

/-- **The end of `reception_actions`.** -/
theorem timed_timerActions (hc : c.Sane) (hw : Window c s) (ht : t ≠ 0) :
    Timed c (startTReassembly c t (stopTReassembly c s)) := by
  have hstart : ∀ s : UmRx, Window c s → s.tReassemblyStart = 0 →
      Timed c (startTReassembly c t s) := by
    intro s hw hoff
    rw [startTReassembly]
    split
    · rename_i hcond
      exact Waits.timed hc hcond.2 hw ht
    · rename_i hcond
      have hnot : ¬Waits c s := fun hwaits ↦ hcond ⟨hoff, hwaits⟩
      exact ⟨fun hne ↦ absurd hoff hne, fun _ ↦ not_waits_iff.1 hnot⟩
  rw [stopTReassembly]
  split
  · exact hstart _ ⟨hw.cells.congr rfl rfl, hw.isSn_next, hw.age_next, hw.isSn_trigger⟩ rfl
  · rename_i hkeep
    by_cases hoff : s.tReassemblyStart = 0
    · exact hstart s hw hoff
    · rw [startTReassembly, if_neg fun hcond ↦ hoff hcond.1]
      refine ⟨fun _ ↦ ?_, fun hzero ↦ absurd hzero hoff⟩
      rw [not_and, not_or, not_or] at hkeep
      obtain ⟨htrigger, hhighest, -⟩ := hkeep hoff
      rw [snCompareRx] at htrigger hhighest
      rw [snCompareRx, snCompareRx]
      omega

theorem Window.timerActions (hw : Window c s) (t : UInt64) :
    Window c (startTReassembly c t (stopTReassembly c s)) := by
  have hstop : Window c (stopTReassembly c s) := by
    rw [stopTReassembly]
    split
    · exact ⟨hw.cells.congr rfl rfl, hw.isSn_next, hw.age_next, hw.isSn_trigger⟩
    · exact hw
  rw [startTReassembly]
  split
  · exact ⟨hstop.cells.congr rfl rfl, hstop.isSn_next, hstop.age_next, hstop.cells.isSn_highest⟩
  · exact hstop

/-! ### A segment arrives -/

/-- The first segment of an SN does not make the SDU full. -/
theorem sduFull_listAdd_of_ne (cmp : ℤ → ℤ → ℤ) (hpdu : Arrived c pdu)
    (hne : ∀ q ∈ l, q.sn ≠ pdu.sn) : sduFull (nrRlcPduListAdd cmp l pdu) pdu.sn = false := by
  rw [sduFull]
  split
  · rfl
  · rw [nrRlcPduListAdd, insertBefore_eq]
    generalize (fun y : NrRlcPdu ↦ !(decide (cmp y.sn pdu.sn > 0) ||
      (y.sn == pdu.sn && decide (y.so > pdu.so)))) = go
    have hfront : ∀ q ∈ l.takeWhile go, q.sn ≠ pdu.sn :=
      fun q hq ↦ hne q ((takeWhile_sublist _).subset hq)
    have hback : ∀ last, sduFullLoop pdu.sn last (l.dropWhile go) = false := by
      intro last
      rcases hdrop : l.dropWhile go with - | ⟨q, qs⟩
      · rfl
      · have hq : q ∈ l.dropWhile go := hdrop ▸ mem_cons_self
        rw [sduFullLoop, if_pos (hne q ((dropWhile_sublist _).subset hq))]
    rw [fromSn_append_of_ne hfront, fromSn, dropWhile_cons_of_neg (by simp), sduFullLoop,
      if_neg (by simp)]
    split
    · rfl
    · rw [hpdu.not_whole (by omega), if_neg (by simp), hback]

/-- A segment of an SDU that is not full yet. -/
theorem Window.actionsSduNotFull (hc : c.Sane) (h : Window c s) (hsn : IsSn c.snModulus pdu.sn)
    (heq : s₁ = { s with
      rxSize := s.rxSize + pdu.size
      rxList := nrRlcPduListAdd (snCompareRx c s) s.rxList pdu }) :
    Window c (actionsSduNotFull c s₁ pdu.sn) := by
  have hW := hc.two_le
  have hM := hc.snModulus_eq
  have hcmp : snCompareRx c s₁ pdu.sn s₁.rxNextHighest ≥ 0 ↔
      age c s pdu.sn = 0 ∨ c.windowSize < age c s pdu.sn := by
    rw [snCompareRx_rxNextHighest_nonneg_iff hc, heq]
    rfl
  rw [Um.actionsSduNotFull]
  split
  · rename_i hout
    have hcells : WindowCells c (moveWindow c s₁ pdu.sn) := h.cells.moveWindow hc hsn (hcmp.1 hout)
      (by rw [heq, h.cells.listAdd_of_out hc (hcmp.1 hout)])
    have htrigger : (moveWindow c s₁ pdu.sn).rxTimerTrigger = s.rxTimerTrigger := by rw [heq]; rfl
    have hnext : (moveWindow c s₁ pdu.sn).rxNextReassembly = s.rxNextReassembly := by rw [heq]; rfl
    dsimp only
    generalize moveWindow c s₁ pdu.sn = s₂ at hcells htrigger hnext
    split
    · -- `rx_next_reassembly` becomes the oldest SN of the window that is not delivered
      have hoff : age c s₂ ((s₂.rxNextHighest - c.windowSize + c.snModulus) % c.snModulus) =
          c.windowSize := by
        rw [age, off, sub_emod_emod,
          show s₂.rxNextHighest - (s₂.rxNextHighest - c.windowSize + c.snModulus) =
            c.windowSize - c.snModulus by ring, sub_emod_right]
        exact emod_eq_of_lt (by omega) (by omega)
      obtain ⟨hsn', hage', -⟩ := skipDelivered_age hc hcells (isSn_emod hc.pos
        (s₂.rxNextHighest - c.windowSize + c.snModulus)) rfl
      exact ⟨hcells.congr rfl rfl, hsn', hage'.trans hoff.le, htrigger ▸ h.isSn_trigger⟩
    · rename_i hin
      rw [snCompareRx_rxNextHighest_nonneg_iff hc, not_or, not_lt] at hin
      exact ⟨hcells, hnext ▸ h.isSn_next, hin.2, htrigger ▸ h.isSn_trigger⟩
  · rename_i hin
    rw [hcmp, not_or, not_lt] at hin
    have hnonneg := age_nonneg hc s pdu.sn
    refine ⟨h.cells.listAdd hc hsn ⟨by omega, hin.2⟩ (by rw [heq]) (by rw [heq]), ?_, ?_, ?_⟩
    · rw [heq]
      exact h.isSn_next
    · rw [heq]
      exact h.age_next
    · rw [heq]
      exact h.isSn_trigger

/-- A segment that makes its SDU full is inside the window. -/
theorem Window.actionsSduFull (hc : c.Sane) (h : Window c s) (hpdu : Arrived c pdu)
    (heq : s₁ = { s with
      rxSize := s.rxSize + pdu.size
      rxList := nrRlcPduListAdd (snCompareRx c s) s.rxList pdu })
    (hfull : sduFull s₁.rxList pdu.sn = true) : Window c (actionsSduFull c s₁ pdu.sn) := by
  -- another segment of the SDU is there
  have hin : 1 ≤ age c s pdu.sn ∧ age c s pdu.sn ≤ c.windowSize := by
    by_contra hout
    have hne : ∀ q ∈ s.rxList, q.sn ≠ pdu.sn := fun q hq hsn ↦ hout (hsn ▸ h.cells.inWindow q hq)
    rw [heq, sduFull_listAdd_of_ne (snCompareRx c s) hpdu hne] at hfull
    cases hfull
  have hcells : WindowCells c s₁ := h.cells.listAdd hc hpdu.isSn hin (by rw [heq]) (by rw [heq])
  have hw : Window c (reassembleAndDeliver s₁ pdu.sn) := by
    have hsns : (reassembleAndDeliver s₁ pdu.sn).rxList.map NrRlcPdu.sn =
        s₁.rxList.map NrRlcPdu.sn :=
      map_mapSnRun (f := fun p ↦ { p with data := none, size := 0 }) (fun _ ↦ rfl) _ _
    refine ⟨hcells.of_map_sn hsns rfl, ?_, ?_, ?_⟩ <;> rw [heq]
    · exact h.isSn_next
    · exact h.age_next
    · exact h.isSn_trigger
  rw [Um.actionsSduFull]
  generalize reassembleAndDeliver s₁ pdu.sn = s₂ at hw
  split
  · obtain ⟨hsn', hage', -⟩ := skipDelivered_age hc hw.cells hw.isSn_next rfl
    exact ⟨hw.cells.congr rfl rfl, hsn', hage'.trans hw.age_next, hw.isSn_trigger⟩
  · exact hw

/-- What holds between two calls. -/
structure TimedWindow (c : UmConfig) (s : UmRx) : Prop where
  window : Window c s
  timed : Timed c s

/-- **Any buffer**, once a time is set. -/
theorem TimedWindow.recvPdu (hc : c.Sane) (hmod : c.snModulus = 2 ^ c.snFieldLength)
    (h : TimedWindow c s) (ht : t ≠ 0) (buffer : List UInt8) :
    TimedWindow c (recvPdu c t s buffer) := by
  rw [Um.recvPdu]
  split
  · exact h
  · exact ⟨⟨h.window.cells.congr rfl rfl, h.window.isSn_next, h.window.age_next,
      h.window.isSn_trigger⟩, h.timed.running, h.timed.off⟩
  · rename_i pdu hdec
    have hpdu := arrived_of_decodePdu hmod hdec
    split
    · exact h
    · split
      · exact h
      · have hw : Window c (if sduFull (nrRlcPduListAdd (snCompareRx c s) s.rxList pdu) pdu.sn then
            Um.actionsSduFull c { s with
              rxSize := s.rxSize + pdu.size
              rxList := nrRlcPduListAdd (snCompareRx c s) s.rxList pdu } pdu.sn
            else Um.actionsSduNotFull c { s with
              rxSize := s.rxSize + pdu.size
              rxList := nrRlcPduListAdd (snCompareRx c s) s.rxList pdu } pdu.sn) := by
          split
          · rename_i hfull
            exact h.window.actionsSduFull hc hpdu rfl hfull
          · exact h.window.actionsSduNotFull hc hpdu.isSn rfl
        exact ⟨hw.timerActions t, timed_timerActions hc hw ht⟩

/-! ### The timer expires -/

/-- At an expiry `rx_next_highest` is 0, everything from `rx_timer_trigger` on is delivered up to
the last SN, and the SDU of the last SN has a gap. -/
def StallsAtWrap (c : UmConfig) (now : UInt64) (s : UmRx) : Prop :=
  tReassemblyExpired c now s = true ∧ s.rxNextHighest = 0 ∧
    sduHasMissingBytes s.rxList (c.snModulus - 1) = true ∧
    ∀ i < (c.snModulus - 1 - s.rxTimerTrigger).toNat,
      sduDelivered s.rxList (s.rxTimerTrigger + i) = true

instance (now : UInt64) (s : UmRx) : Decidable (StallsAtWrap c now s) :=
  inferInstanceAs (Decidable (_ ∧ _ ∧ _ ∧ _))

theorem sduHasMissingBytes_dropWhile (hP : ∀ p, P p = true → p.sn ≠ x) :
    sduHasMissingBytes (l.dropWhile P) x = sduHasMissingBytes l x := by
  have hfrom : fromSn x l = fromSn x (l.dropWhile P) := by
    conv_lhs => rw [← takeWhile_append_dropWhile (p := P) (l := l)]
    exact fromSn_append_of_ne (fun p hp ↦ hP p (mem_takeWhile_imp hp)) _
  rw [sduHasMissingBytes, sduHasMissingBytes, firstProcessed, firstProcessed, hfrom]

/-- `rx_timer_trigger` of a running timer is in the window. -/
theorem Timed.age_trigger (hc : c.Sane) (h : Timed c s) (hrun : s.tReassemblyStart ≠ 0) :
    age c s s.rxTimerTrigger ≤ c.windowSize := by
  have hM := hc.snModulus_eq
  have h₁ := age_lt hc s s.rxTimerTrigger
  have hcmp := (h.running hrun).2
  rw [snCompareRx, modulusRx_eq_age hc, modulusRx_eq_age hc, age_rxNextHighest,
    if_neg (show ¬c.windowSize < 0 by omega)] at hcmp
  split at hcmp <;> omega

/-- Without the modulus, the test after an expiry misses one case. -/
theorem not_waits_of_test (hw : Window c s)
    (htest : ¬(snCompareRx c s s.rxNextHighest ((s.rxNextReassembly + 1) % c.snModulus) > 0 ∨
      (s.rxNextHighest = s.rxNextReassembly + 1 ∧
        sduHasMissingBytes s.rxList s.rxNextReassembly)))
    (hwrap : s.rxNextHighest = 0 → s.rxNextReassembly = c.snModulus - 1 →
      sduHasMissingBytes s.rxList s.rxNextReassembly = false) : ¬Waits c s := by
  rintro (hcmp | ⟨hnext, hmissing⟩)
  · exact htest (.inl hcmp)
  · obtain ⟨hlo, hhi⟩ := hw.isSn_next
    rcases eq_or_lt_of_le (show s.rxNextReassembly + 1 ≤ c.snModulus by omega) with heq | hlt
    · rw [heq, emod_self] at hnext
      rw [hwrap hnext (by omega)] at hmissing
      cases hmissing
    · rw [emod_eq_of_lt (by omega) hlt] at hnext
      exact htest (.inr ⟨hnext, hmissing⟩)

/-- **The clock**, unless the timer stalls. -/
theorem TimedWindow.checkTReassembly (hc : c.Sane) (h : TimedWindow c s)
    (hnow : now ≠ 0) (hstall : ¬StallsAtWrap c now s) :
    TimedWindow c (checkTReassembly c now s) := by
  rw [Um.checkTReassembly]
  split
  · exact h
  · rename_i hexp
    rw [Bool.not_eq_true, Bool.not_eq_false'] at hexp
    have hrun : s.tReassemblyStart ≠ 0 := by
      intro hzero
      simp [tReassemblyExpired, hzero] at hexp
    obtain ⟨hsn, hage, hdel⟩ := skipDelivered_age hc h.window.cells h.window.isSn_trigger
      (show _ = nextReassemblyAfterExpiry c s from rfl)
    dsimp only
    generalize hnext : nextReassemblyAfterExpiry c s = next at hsn hage hdel
    set s₁ : UmRx := { s with
      tReassemblyStart := 0
      rxNextReassembly := next
      rxList := s.rxList.dropWhile fun p ↦ snCompareRx c s p.sn next < 0 } with hs₁
    have hw : Window c s₁ := ⟨h.window.cells.dropWhile rfl rfl, hsn,
      hage.trans (h.timed.age_trigger hc hrun), h.window.isSn_trigger⟩
    split
    · rename_i htest
      have hwaits : Waits c s₁ := by
        rcases htest with hcmp | ⟨hsucc, hmissing⟩
        · exact .inl hcmp
        · refine .inr ⟨?_, hmissing⟩
          rw [← hsucc]
          exact (emod_eq_of_lt hw.cells.isSn_highest.1 hw.cells.isSn_highest.2).symm
      exact ⟨⟨hw.cells.congr rfl rfl, hw.isSn_next, hw.age_next, hw.cells.isSn_highest⟩,
        hwaits.timed hc hw hnow⟩
    · rename_i htest
      refine ⟨hw, fun hne ↦ absurd rfl hne, fun _ ↦ not_waits_iff.1 (not_waits_of_test hw htest ?_)⟩
      intro hzero hlast
      have hzero : s.rxNextHighest = 0 := hzero
      have hlast : next = c.snModulus - 1 := hlast
      by_contra hmissing
      have hsame : sduHasMissingBytes s₁.rxList next = sduHasMissingBytes s.rxList next :=
        sduHasMissingBytes_dropWhile fun p hp heq ↦ by
          rw [heq, snCompareRx, sub_self] at hp
          exact absurd hp (by decide)
      refine hstall ⟨hexp, hzero, ?_, fun i hi ↦ ?_⟩
      · rw [← hlast, ← hsame]
        rwa [Bool.not_eq_false] at hmissing
      · -- the ages of the trigger and of the last SN, with `rx_next_highest` at 0
        obtain ⟨hlo, hhi⟩ := h.window.isSn_trigger
        have hnextAge : age c s next = 1 := by
          rw [age, hzero, hlast, off_eq_ite (by omega) (by omega) le_rfl hc.pos, if_pos (by omega)]
          ring
        have hpos : 0 < s.rxTimerTrigger := by
          refine lt_of_le_of_ne hlo fun htrig ↦ ?_
          rw [hnextAge, age, hzero, ← htrig, off_self] at hage
          omega
        have htrig : age c s s.rxTimerTrigger = c.snModulus - s.rxTimerTrigger := by
          rw [age, hzero, off_eq_ite hlo hhi le_rfl hc.pos, if_pos hpos]
          ring
        have hk := hdel (s.rxTimerTrigger + i) (by omega) (by rw [htrig, hnextAge]; omega)
        rwa [emod_eq_of_lt (by omega) (by omega)] at hk

/-! ### Runs -/

/-- A time is set before a PDU comes, times are not 0, and no expiry stalls. -/
def KeepsTimer (c : UmConfig) (t : UmTrace) : UmOp → Prop
  | .recvPdu _ => t.entity.tCurrent ≠ 0
  | .setTime now => now ≠ 0 ∧ ¬StallsAtWrap c now t.entity.rx
  | _ => True

instance (t : UmTrace) : (op : UmOp) → Decidable (KeepsTimer c t op)
  | .recvPdu _ => inferInstanceAs (Decidable (t.entity.tCurrent ≠ 0))
  | .setTime now => inferInstanceAs (Decidable (now ≠ 0 ∧ ¬StallsAtWrap c now t.entity.rx))
  | .recvSdu .. | .generatePdu _ => isTrue trivial

theorem timedWindow_init (p : UmParams) : TimedWindow p.config {} := by
  have hc := p.sane
  have hW := hc.two_le
  have hsn : IsSn p.config.snModulus 0 := ⟨le_rfl, hc.pos⟩
  have hw : Window p.config {} := by
    refine ⟨⟨hsn, nofun, nofun,
      .nil⟩, hsn, ?_, hsn⟩
    show off p.config.snModulus 0 0 ≤ _
    rw [off_self]
    omega
  have hidle := startTReassembly_of_idle hc (s := {}) 1 rfl
  have htimed := timed_timerActions hc hw (t := 1) (by decide)
  rw [stopTReassembly_of_off rfl, hidle] at htimed
  exact ⟨hw, htimed⟩

theorem timedWindow_step (p : UmParams) {t t' : UmTrace} {op : UmOp}
    (h : TimedWindow p.config t.entity.rx) (hok : KeepsTimer p.config t op)
    (hs : (umSystem p.config).step t op = some t') : TimedWindow p.config t'.entity.rx := by
  rcases step_cases hs with ⟨buffer, id, e, rfl, he, rfl⟩ | ⟨size, e, pdu, rfl, he, rfl⟩ |
    ⟨buffer, rfl, rfl⟩ | ⟨now, rfl, rfl⟩
  · show TimedWindow p.config e.rx
    rw [recvSdu_rx he]
    exact h
  · show TimedWindow p.config e.rx
    rw [generatePdu_rx he]
    exact h
  · exact h.recvPdu p.sane p.snModulus_eq hok buffer
  · exact h.checkTReassembly p.sane hok.1 hok.2

/-- **The reassembly timer is never left off**, as long as no expiry stalls at the wrap. -/
theorem timer_running_of_keepsTimer (p : UmParams) {t : UmTrace}
    (h : (umSystem p.config).Reach (KeepsTimer p.config) t) :
    (t.entity.rx.tReassemblyStart ≠ 0 ∧
      snCompareRx p.config t.entity.rx t.entity.rx.rxNextReassembly
        t.entity.rx.rxTimerTrigger < 0 ∧
      snCompareRx p.config t.entity.rx t.entity.rx.rxTimerTrigger
        t.entity.rx.rxNextHighest ≤ 0) ∨
    (snCompareRx p.config t.entity.rx t.entity.rx.rxNextHighest
        ((t.entity.rx.rxNextReassembly + 1) % p.config.snModulus) ≤ 0 ∧
      (t.entity.rx.rxNextHighest = (t.entity.rx.rxNextReassembly + 1) % p.config.snModulus →
        sduHasMissingBytes t.entity.rx.rxList t.entity.rx.rxNextReassembly = false)) := by
  have hinv : TimedWindow p.config t.entity.rx :=
    h.invariant (P := fun t ↦ TimedWindow p.config t.entity.rx) (timedWindow_init p)
      (timedWindow_step p)
  by_cases hoff : t.entity.rx.tReassemblyStart = 0
  · exact .inr (hinv.timed.off hoff)
  · exact .inl ⟨hoff, hinv.timed.running hoff⟩

/-- Segments of the SNs 31 and 62, and after the first expiry one of SN 63 without its start. -/
def gapAtLastSn : List UmOp :=
  [.setTime 1, .recvPdu [0x5f, 0xaa], .recvPdu [0x7e, 0xaa], .setTime 100,
    .recvPdu [0xff, 0, 1, 0xaa]]

/-- **The timer is off** after the second expiry, although SN 63 has a gap. -/
theorem timer_off_at_wrap :
    ∃ t, (umSystem shortSnParams.config).exec (fun _ _ ↦ True) {}
        (gapAtLastSn ++ [.setTime 200]) = some t ∧
      t.entity.rx.tReassemblyStart = 0 ∧ t.entity.rx.rxNextReassembly = 63 ∧
      t.entity.rx.rxNextHighest = 0 ∧ sduHasMissingBytes t.entity.rx.rxList 63 = true :=
  ⟨_, rfl, by decide, by decide, by decide, by decide⟩

/-- Before that expiry it is running. -/
theorem timer_running_before_wrap :
    ∃ t, (umSystem shortSnParams.config).Reach (KeepsTimer shortSnParams.config) t ∧
      t.entity.rx.rxNextReassembly = 32 ∧ t.entity.rx.rxTimerTrigger = 63 ∧
      ((t.entity.rx.tReassemblyStart ≠ 0 ∧
        snCompareRx shortSnParams.config t.entity.rx t.entity.rx.rxNextReassembly
          t.entity.rx.rxTimerTrigger < 0 ∧
        snCompareRx shortSnParams.config t.entity.rx t.entity.rx.rxTimerTrigger
          t.entity.rx.rxNextHighest ≤ 0) ∨
      (snCompareRx shortSnParams.config t.entity.rx t.entity.rx.rxNextHighest
          ((t.entity.rx.rxNextReassembly + 1) % shortSnParams.config.snModulus) ≤ 0 ∧
        (t.entity.rx.rxNextHighest =
            (t.entity.rx.rxNextReassembly + 1) % shortSnParams.config.snModulus →
          sduHasMissingBytes t.entity.rx.rxList t.entity.rx.rxNextReassembly = false))) :=
  have h := StepSystem.reach_get_exec (umSystem shortSnParams.config)
    (KeepsTimer shortSnParams.config) gapAtLastSn (by decide)
  ⟨_, h, by decide, by decide, timer_running_of_keepsTimer shortSnParams h⟩

end OaiRan.Rlc.Um
