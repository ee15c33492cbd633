import OaiRan.Rlc.Um.Codec
import OaiRan.Rlc.RxOrder

/-!
# The reassembly window of an unacknowledged-mode entity

The receive list keeps the cells of delivered SDUs, so what is in it is described by age: how far an
SN is behind `rx_next_highest`. Inside the window the code compares SNs by age (`snCompareRx_eq`), and
the list is sorted by it (`WindowCells`). A segment inside the window goes to its place, and one ahead
of it moves the window, which drops exactly the cells that get too old (`WindowCells.moveWindow`): so
an SN has left the list long before it is used again.
-/

namespace OaiRan.Rlc.Um

open CircularSeq List OrderedChain Int

variable {c : UmConfig}

/-- The window is half of the SN space. -/
structure UmConfig.Sane (c : UmConfig) : Prop where
  snModulus_eq : c.snModulus = 2 * c.windowSize
  two_le : 2 ≤ c.windowSize

theorem UmParams.sane (p : UmParams) : p.config.Sane := by
  rcases p.snFieldLength_eq with h | h <;> constructor <;> simp [UmParams.config, h]

theorem UmConfig.Sane.pos (h : c.Sane) : 0 < c.snModulus := by
  have := h.two_le
  rw [h.snModulus_eq]
  omega

/-! ### Comparing SNs by age -/

/-- How far `sn` is behind `rx_next_highest`. -/
def age (c : UmConfig) (s : UmRx) (sn : ℤ) : ℤ := off c.snModulus sn s.rxNextHighest

theorem age_nonneg (hc : c.Sane) (s : UmRx) (sn : ℤ) : 0 ≤ age c s sn := off_nonneg hc.pos _ _

theorem age_lt (hc : c.Sane) (s : UmRx) (sn : ℤ) : age c s sn < c.snModulus := off_lt hc.pos _ _

theorem modulusRx_eq_age (hc : c.Sane) (s : UmRx) (a : ℤ) :
    modulusRx c s a = if c.windowSize < age c s a then c.windowSize - age c s a + c.snModulus
      else c.windowSize - age c s a := by
  have h₁ := age_nonneg hc s a
  have h₂ := age_lt hc s a
  have hW := hc.snModulus_eq
  have hmod : modulusRx c s a = (c.windowSize - age c s a) % c.snModulus := by
    rw [modulusRx, age, off, sub_emod c.windowSize, emod_emod_of_dvd _ dvd_rfl,
      ← sub_emod]
    split
    · rw [add_emod_right]
      ring_nf
    · ring_nf
  rw [hmod, emod_eq_ite (by omega) (by omega)]
  exact if_congr (by omega) rfl rfl

variable {s : UmRx} {b : ℕ} {buffer : List UInt8}

/-- Inside the window, younger SNs compare higher. -/
theorem snCompareRx_eq (hc : c.Sane) {a b : ℤ} (ha : age c s a ≤ c.windowSize)
    (hb : age c s b ≤ c.windowSize) : snCompareRx c s a b = age c s b - age c s a := by
  rw [snCompareRx, modulusRx_eq_age hc, modulusRx_eq_age hc, if_neg (by omega), if_neg (by omega)]
  ring

theorem age_rxNextHighest (s : UmRx) : age c s s.rxNextHighest = 0 := off_self _

/-- A cell is below `rx_next_highest` exactly when it is in the window behind it. -/
theorem snCompareRx_rxNextHighest_nonneg_iff (hc : c.Sane) (s : UmRx) (a : ℤ) :
    snCompareRx c s a s.rxNextHighest ≥ 0 ↔ age c s a = 0 ∨ c.windowSize < age c s a := by
  have h₁ := age_nonneg hc s a
  have h₂ := age_lt hc s a
  rw [snCompareRx, modulusRx_eq_age hc, modulusRx_eq_age hc, age_rxNextHighest]
  have := hc.snModulus_eq
  split <;> split <;> omega

/-! ### The cells of the window -/

/-- The cells of the receive list: the SNs of the window, oldest first. -/
structure WindowCells (c : UmConfig) (s : UmRx) : Prop where
  isSn_highest : IsSn c.snModulus s.rxNextHighest
  isSn : ∀ p ∈ s.rxList, IsSn c.snModulus p.sn
  inWindow : ∀ p ∈ s.rxList, 1 ≤ age c s p.sn ∧ age c s p.sn ≤ c.windowSize
  sorted : s.rxList.Pairwise fun p q ↦ age c s q.sn ≤ age c s p.sn

variable {d m m' x : ℤ} {P : NrRlcPdu → Bool} {pdu : NrRlcPdu} {s' s₁ : UmRx}

/-- Ages add up. -/
theorem age_of_highest (hc : c.Sane)
    (hd : off c.snModulus s.rxNextHighest s'.rxNextHighest = d) (sn : ℤ) :
    age c s' sn = if age c s sn + d < c.snModulus then age c s sn + d
      else age c s sn + d - c.snModulus := by
  have h₁ := age_nonneg hc s sn
  have h₂ := age_lt hc s sn
  have h₃ := off_nonneg hc.pos s.rxNextHighest s'.rxNextHighest
  have h₄ := off_lt hc.pos s.rxNextHighest s'.rxNextHighest
  have hadd : age c s' sn = (age c s sn + d) % c.snModulus := by
    rw [← hd, age, age, off, off, off, ← add_emod]
    congr 1
    ring
  rw [hadd]
  split
  · exact emod_eq_of_lt (by omega) (by assumption)
  · rw [← sub_emod_right]
    exact emod_eq_of_lt (by omega) (by omega)

theorem WindowCells.sn_ne_highest (h : WindowCells c s) : ∀ p ∈ s.rxList, p.sn ≠ s.rxNextHighest := by
  intro p hp heq
  have hage := (h.inWindow p hp).1
  rw [heq, age_rxNextHighest] at hage
  omega

/-- Cells may be emptied, as long as they keep their SN. -/
theorem WindowCells.of_map_sn (h : WindowCells c s)
    (hlist : s'.rxList.map NrRlcPdu.sn = s.rxList.map NrRlcPdu.sn)
    (hnext : s'.rxNextHighest = s.rxNextHighest) : WindowCells c s' := by
  have hage : ∀ sn, age c s' sn = age c s sn := fun sn ↦ by rw [age, age, hnext]
  have hmem : ∀ p ∈ s'.rxList, ∃ q ∈ s.rxList, q.sn = p.sn := fun p hp ↦
    mem_map.1 (hlist ▸ mem_map_of_mem hp)
  refine ⟨hnext ▸ h.isSn_highest, fun p hp ↦ ?_, fun p hp ↦ ?_, ?_⟩
  · obtain ⟨q, hq, hsn⟩ := hmem p hp
    exact hsn ▸ h.isSn q hq
  · obtain ⟨q, hq, hsn⟩ := hmem p hp
    rw [hage, ← hsn]
    exact h.inWindow q hq
  · have hsorted := pairwise_map (f := NrRlcPdu.sn)
      (R := fun a b ↦ age c s' b ≤ age c s' a) (l := s'.rxList)
    rw [← hsorted, hlist, pairwise_map]
    exact h.sorted.imp fun hle ↦ by rwa [hage, hage]

theorem WindowCells.congr (h : WindowCells c s) (hlist : s'.rxList = s.rxList)
    (hnext : s'.rxNextHighest = s.rxNextHighest) : WindowCells c s' :=
  h.of_map_sn (congrArg _ hlist) hnext

theorem WindowCells.dropWhile (h : WindowCells c s)
    (hlist : s'.rxList = s.rxList.dropWhile P) (hnext : s'.rxNextHighest = s.rxNextHighest) :
    WindowCells c s' := by
  have hsub : (s.rxList.dropWhile P).Sublist s.rxList := dropWhile_sublist _
  have hdrop : WindowCells c { s with rxList := s.rxList.dropWhile P } :=
    ⟨h.isSn_highest, fun p hp ↦ h.isSn p (hsub.subset hp), fun p hp ↦ h.inWindow p (hsub.subset hp),
      h.sorted.sublist hsub⟩
  exact hdrop.congr hlist hnext

/-- **A segment inside the window** goes to its place in the list. -/
theorem WindowCells.listAdd (hc : c.Sane) (h : WindowCells c s) (hsn : IsSn c.snModulus pdu.sn)
    (hage : 1 ≤ age c s pdu.sn ∧ age c s pdu.sn ≤ c.windowSize)
    (hlist : s'.rxList = nrRlcPduListAdd (snCompareRx c s) s.rxList pdu)
    (hnext : s'.rxNextHighest = s.rxNextHighest) : WindowCells c s' := by
  have hmem : ∀ p ∈ nrRlcPduListAdd (snCompareRx c s) s.rxList pdu, p = pdu ∨ p ∈ s.rxList :=
    fun p hp ↦ mem_cons.1 ((perm_nrRlcPduListAdd _ _ _).mem_iff.1 hp)
  have hadd : WindowCells c { s with rxList := nrRlcPduListAdd (snCompareRx c s) s.rxList pdu } := by
    refine ⟨h.isSn_highest, fun p hp ↦ ?_, fun p hp ↦ ?_, ?_⟩
    · rcases hmem p hp with rfl | hp
      · exact hsn
      · exact h.isSn p hp
    · rcases hmem p hp with rfl | hp
      · exact hage
      · exact h.inWindow p hp
    · refine pairwise_insertBefore h.sorted (fun q hq hstop ↦ ?_) fun q hq hpass ↦ ?_
      · rw [snCompareRx_eq hc (h.inWindow q hq).2 hage.2, Bool.or_eq_true, Bool.and_eq_true,
          decide_eq_true_eq, beq_iff_eq] at hstop
        rcases hstop with hlt | ⟨heq, -⟩
        · show age c s q.sn ≤ age c s pdu.sn
          omega
        · rw [heq]
      · rw [snCompareRx_eq hc (h.inWindow q hq).2 hage.2, Bool.or_eq_false_iff,
          decide_eq_false_iff_not] at hpass
        show age c s pdu.sn ≤ age c s q.sn
        omega
  exact hadd.congr hlist hnext

/-- The loop that skips delivered SNs ends before `rx_next_highest`, of which there is no cell. -/
theorem skipDelivered_age (hc : c.Sane) (h : WindowCells c s) (hm : IsSn c.snModulus m)
    (heq : skipDelivered c.snModulus s.rxList c.snModulus.toNat m = m') :
    IsSn c.snModulus m' ∧ age c s m' ≤ age c s m ∧
      ∀ k, m ≤ k → k < m + (age c s m - age c s m') →
        sduDelivered s.rxList (k % c.snModulus) = true := by
  have h₁ := age_nonneg hc s m
  have h₂ := age_lt hc s m
  have hstop : (m + age c s m) % c.snModulus = s.rxNextHighest := by
    rw [age, off, add_emod_emod, show m + (s.rxNextHighest - m) = s.rxNextHighest by ring]
    exact emod_eq_of_lt h.isSn_highest.1 h.isSn_highest.2
  have hnot : sduDelivered s.rxList ((m + age c s m) % c.snModulus) = false :=
    hstop ▸ sduDelivered_eq_false_of_ne h.sn_ne_highest
  obtain ⟨k, hk, hle, hle', -, hall⟩ := skipDelivered_spec c.snModulus.toNat hnot
    (show m ≤ m + age c s m by omega) (by omega)
  rw [emod_eq_of_lt hm.1 hm.2, heq] at hk
  have hage : age c s m' = age c s m - (k - m) := by
    rw [hk, age, off, ← hstop, emod_sub_emod, sub_emod_emod,
      show m + age c s m - k = age c s m - (k - m) by ring]
    exact emod_eq_of_lt (by omega) (by omega)
  exact ⟨hk ▸ isSn_emod hc.pos k, by omega, fun j hj hj' ↦ hall j hj (by omega)⟩

/-! ### The window moves -/

/-- The SN of a segment that is not in the window comes after `rx_next_highest`. -/
theorem off_highest_succ (hc : c.Sane) (hout : age c s x = 0 ∨ c.windowSize < age c s x) :
    1 ≤ off c.snModulus s.rxNextHighest ((x + 1) % c.snModulus) ∧
      off c.snModulus s.rxNextHighest ((x + 1) % c.snModulus) ≤ c.windowSize := by
  have hM := hc.snModulus_eq
  have h₂ := age_lt hc s x
  have hx : off c.snModulus s.rxNextHighest x =
      if 0 < age c s x then c.snModulus - age c s x else 0 := by
    have hneg : off c.snModulus s.rxNextHighest x = (0 - age c s x) % c.snModulus := by
      rw [age, off, off, sub_emod_emod]
      congr 1
      ring
    rw [hneg, emod_eq_ite (by omega) (by omega)]
    split <;> split <;> omega
  rw [off_succ hc.pos, hx]
  split <;> split <;> omega

theorem outOfWindow_eq_false_iff (hc : c.Sane) (s : UmRx) (p : NrRlcPdu) :
    outOfWindow c s p = false ↔ age c s p.sn ≠ 0 ∧ age c s p.sn ≤ c.windowSize := by
  rw [outOfWindow, decide_eq_false_iff_not, snCompareRx_rxNextHighest_nonneg_iff hc, not_or, not_lt]

/-- The segment that the window is moved to is the youngest. -/
theorem age_newest (hc : c.Sane) (hnext : s.rxNextHighest = (x + 1) % c.snModulus) :
    age c s x = 1 := by
  have hM := hc.snModulus_eq
  have hW := hc.two_le
  rw [age, hnext, off_succ hc.pos, off_self, if_neg (by omega), zero_add]

theorem not_outOfWindow_newest (hc : c.Sane) (hnext : s.rxNextHighest = (pdu.sn + 1) % c.snModulus) :
    outOfWindow c s pdu = false := by
  have hW := hc.two_le
  rw [outOfWindow_eq_false_iff hc, age_newest hc hnext]
  omega

/-- **The window moves** up to a segment that is ahead of it. -/
theorem WindowCells.moveWindow (hc : c.Sane) (h : WindowCells c s) (hsn : IsSn c.snModulus pdu.sn)
    (hout : age c s pdu.sn = 0 ∨ c.windowSize < age c s pdu.sn)
    (hlist : s₁.rxList = s.rxList ++ [pdu]) : WindowCells c (moveWindow c s₁ pdu.sn) := by
  have hM := hc.snModulus_eq
  obtain ⟨hd₁, hd₂⟩ := off_highest_succ hc hout
  set d := off c.snModulus s.rxNextHighest ((pdu.sn + 1) % c.snModulus) with hd
  set s₂ : UmRx := { s₁ with rxNextHighest := (pdu.sn + 1) % c.snModulus } with hs₂
  have hage : ∀ sn, age c s₂ sn = if age c s sn + d < c.snModulus then age c s sn + d
      else age c s sn + d - c.snModulus := fun sn ↦ age_of_highest hc rfl sn
  have hpdu : age c s₂ pdu.sn = 1 := age_newest hc rfl
  have hout_iff := outOfWindow_eq_false_iff hc s₂
  have hsub : ∀ p ∈ s.rxList.dropWhile (outOfWindow c s₂), p ∈ s.rxList :=
    fun p hp ↦ (dropWhile_sublist _).subset hp
  -- the list is sorted, so all cells that are out of the window are at its front
  have hyoung : ∀ p ∈ s.rxList.dropWhile (outOfWindow c s₂), outOfWindow c s₂ p = false := by
    refine dropWhile_eq_false_of_pairwise ?_
    refine h.sorted.imp_of_mem fun {p q} hp hq hle hp' ↦ ?_
    have hp₁ := h.inWindow p hp
    have hq₁ := h.inWindow q hq
    have hp₂ := (hout_iff p).1 hp'
    rw [hage] at hp₂
    rw [hout_iff, hage]
    split at hp₂ <;> split <;> omega
  have hold : ∀ p ∈ s.rxList.dropWhile (outOfWindow c s₂), age c s₂ p.sn = age c s p.sn + d := by
    intro p hp
    have hp₁ := h.inWindow p (hsub p hp)
    have hp₂ := (hout_iff p).1 (hyoung p hp)
    rw [hage] at hp₂ ⊢
    split at hp₂ <;> omega
  have hmoved : WindowCells c { s₂ with rxList := s.rxList.dropWhile (outOfWindow c s₂) ++ [pdu] } := by
    refine ⟨isSn_emod hc.pos _, fun p hp ↦ ?_, fun p hp ↦ ?_, ?_⟩
    · rcases mem_append.1 hp with hp | hp
      · exact h.isSn p (hsub p hp)
      · exact mem_singleton.1 hp ▸ hsn
    · show 1 ≤ age c s₂ p.sn ∧ age c s₂ p.sn ≤ c.windowSize
      rcases mem_append.1 hp with hp | hp
      · have hp₂ := (hout_iff p).1 (hyoung p hp)
        have hp₃ := age_nonneg hc s₂ p.sn
        omega
      · rw [mem_singleton.1 hp, hpdu]
        omega
    · refine pairwise_append.2 ⟨?_, pairwise_singleton _ _, fun p hp q hq ↦ ?_⟩
      · refine (h.sorted.sublist (dropWhile_sublist _)).imp_of_mem fun {p q} hp hq hle ↦ ?_
        show age c s₂ q.sn ≤ age c s₂ p.sn
        rw [hold p hp, hold q hq]
        omega
      · show age c s₂ q.sn ≤ age c s₂ p.sn
        have hp₂ := (hout_iff p).1 (hyoung p hp)
        have hp₃ := age_nonneg hc s₂ p.sn
        rw [mem_singleton.1 hq, hpdu]
        omega
  refine hmoved.congr ?_ rfl
  show s₁.rxList.dropWhile (outOfWindow c s₂) = _
  rw [hlist, dropWhile_append_singleton (not_outOfWindow_newest hc rfl)]

/-- A segment ahead of the window is put at the end of the list. -/
theorem WindowCells.listAdd_of_out (hc : c.Sane) (h : WindowCells c s)
    (hout : age c s pdu.sn = 0 ∨ c.windowSize < age c s pdu.sn) :
    nrRlcPduListAdd (snCompareRx c s) s.rxList pdu = s.rxList ++ [pdu] := by
  have h₁ := age_lt hc s pdu.sn
  refine nrRlcPduListAdd_eq_append fun q hq ↦ ⟨?_, fun heq ↦ ?_⟩
  · have hq₁ := h.inWindow q hq
    rw [snCompareRx, modulusRx_eq_age hc, modulusRx_eq_age hc, if_neg (by omega)]
    split <;> omega
  · have hq₁ := h.inWindow q hq
    rw [heq] at hq₁
    omega

end OaiRan.Rlc.Um
