import OaiRan.Pdcp.Entity

/-!
# The receive window of PDCP

`rx_deliv` and `rx_next` bound the list of received SDUs, and `t_reordering` runs when there is a
gap (`InRxWindow`). Whatever buffers arrive, every call keeps it so, except for three kinds of PDU
that no check stops (`KeepsWindow`): one whose SN points behind the first HFN, which the code takes
for the last one; the one with the last COUNT, after which `rx_next` is 0 again; and one that leaves
a gap before any `set_time`, when the timer is started at time 0.
-/

namespace OaiRan.Pdcp

open Nat

variable {a : PdcpAlgorithms} {c : PdcpConfig} {e : NrPdcpEntity}

/-! ### SNs and COUNTs -/

theorem PdcpConfig.snMax_eq (c : PdcpConfig) : c.snMax = 2 ^ c.snSize - 1 := by
  rw [PdcpConfig.snMax, one_shiftLeft]

/-- The window is half of the SN space. -/
theorem PdcpConfig.two_mul_windowSize (c : PdcpConfig) : 2 * c.windowSize = 2 ^ c.snSize := by
  rcases c.snSize_eq with h | h <;> simp [PdcpConfig.windowSize, h]

variable {sn rxDeliv count : ℕ} {l : List NrPdcpSdu} {sdu : NrPdcpSdu} {buffer : List UInt8}

/-- The upper part of a COUNT, put back in place. -/
theorem hfn_shiftLeft_or (c : PdcpConfig) (hfn : ℕ) (hsn : sn < 2 ^ c.snSize) :
    ((hfn <<< c.snSize) % 2 ^ 32) ||| sn = hfn * 2 ^ c.snSize % 2 ^ 32 + sn := by
  have hle : c.snSize ≤ 32 := by rcases c.snSize_eq with h | h <;> omega
  obtain ⟨k, hk⟩ : ∃ k, 32 = k + c.snSize := ⟨32 - c.snSize, by omega⟩
  have hmod : hfn * 2 ^ c.snSize % 2 ^ 32 = (hfn % 2 ^ k) * 2 ^ c.snSize := by
    rw [hk, pow_add, mul_mod_mul_right]
  rw [shiftLeft_eq, hmod, ← shiftLeft_eq, shiftLeft_add_eq_or_of_lt hsn]

/-- The COUNT, for an `rx_deliv` of SN `r` and HFN `q`. -/
theorem rcvdCount_eq (hsn : sn < 2 ^ c.snSize) (hr : r < 2 ^ c.snSize) :
    rcvdCount c (q * 2 ^ c.snSize + r) sn =
      (if sn + c.windowSize < r then ((q + 1) % 2 ^ 32 * 2 ^ c.snSize) % 2 ^ 32
      else if r + c.windowSize ≤ sn then ((q + (2 ^ 32 - 1)) % 2 ^ 32 * 2 ^ c.snSize) % 2 ^ 32
      else (q * 2 ^ c.snSize) % 2 ^ 32) + sn := by
  have hmod : (q * 2 ^ c.snSize + r) % 2 ^ c.snSize = r := by
    rw [mul_comm, mul_add_mod, mod_eq_of_lt hr]
  have hdiv : (q * 2 ^ c.snSize + r) / 2 ^ c.snSize = q := by
    rw [Nat.mul_comm, Nat.mul_add_div (Nat.two_pow_pos _), Nat.div_eq_of_lt hr, Nat.add_zero]
  have hlt : ((sn : ℤ) < (r : ℤ) - c.windowSize) ↔ sn + c.windowSize < r := by omega
  rw [rcvdCount, PdcpConfig.snMax_eq, and_two_pow_sub_one_eq_mod, shiftRight_eq_div_pow, hmod, hdiv]
  simp only [hlt, ge_iff_le]
  split
  · exact hfn_shiftLeft_or c _ hsn
  · split <;> exact hfn_shiftLeft_or c _ hsn

theorem rcvdSn_lt (c : PdcpConfig) (buffer : List UInt8) : rcvdSn c buffer < 2 ^ c.snSize := by
  have hbyte : ∀ b : UInt8, b.toNat < 2 ^ 8 := fun b ↦ b.toNat_lt
  rw [rcvdSn]
  rcases c.snSize_eq with h | h
  · simp only [h, if_true]
    refine or_lt_two_pow ?_ ((hbyte _).trans (by decide))
    have : (buffer.getD 0 0).toNat &&& 0xf < 2 ^ 4 := and_lt_two_pow _ (by decide)
    omega
  · simp only [h, show ¬ (18 = 12) by decide, if_false]
    refine or_lt_two_pow (or_lt_two_pow ?_ ?_) ((hbyte _).trans (by decide))
    · have : (buffer.getD 0 0).toNat &&& 0x3 < 2 ^ 2 := and_lt_two_pow _ (by decide)
      omega
    · have := hbyte (buffer.getD 1 0)
      omega

/-- How far an SN is ahead of `rx_deliv`. -/
def snAhead (c : PdcpConfig) (rxDeliv sn : ℕ) : ℕ :=
  (sn + (2 ^ c.snSize - rxDeliv % 2 ^ c.snSize)) % 2 ^ c.snSize

/-- The SN is not taken for one of the HFN before the first. -/
def NotBehindFirstHfn (c : PdcpConfig) (rxDeliv sn : ℕ) : Prop :=
  rxDeliv < 2 ^ c.snSize → sn < rxDeliv + c.windowSize

theorem exists_hfn_sn (c : PdcpConfig) (n : ℕ) :
    ∃ q r, r < 2 ^ c.snSize ∧ n = q * 2 ^ c.snSize + r ∧ n % 2 ^ c.snSize = r :=
  ⟨n / 2 ^ c.snSize, n % 2 ^ c.snSize, Nat.mod_lt _ (Nat.two_pow_pos _),
    (Nat.div_add_mod' _ _).symm, rfl⟩

/-- **The COUNT of an SN** is that many ahead of `rx_deliv`, or behind it. -/
theorem rcvdCount_cases (hdeliv : rxDeliv < 2 ^ 32) (hsn : sn < 2 ^ c.snSize)
    (hfirst : NotBehindFirstHfn c rxDeliv sn) :
    rcvdCount c rxDeliv sn < rxDeliv ∨
      (snAhead c rxDeliv sn < c.windowSize ∧ rxDeliv + snAhead c rxDeliv sn < 2 ^ 32 ∧
        rcvdCount c rxDeliv sn = rxDeliv + snAhead c rxDeliv sn) := by
  have hw := c.two_mul_windowSize
  obtain ⟨q, r, hr, rfl, hmod⟩ := exists_hfn_sn c rxDeliv
  rw [rcvdCount_eq hsn hr, snAhead, hmod]
  unfold NotBehindFirstHfn at hfirst
  clear hmod
  rcases c.snSize_eq with h | h <;> rw [h] at hw hsn hr hdeliv hfirst ⊢
  all_goals
    split
    · have : (q + 1) % 2 ^ 32 = q + 1 := by omega
      omega
    · split
      · have : (q + (2 ^ 32 - 1)) % 2 ^ 32 = q - 1 := by omega
        omega
      · omega

/-- **Every COUNT in the window is found again from its SN.** -/
theorem rcvdCount_of_window (hdeliv : rxDeliv < 2 ^ 32) (hcount : count < 2 ^ 32)
    (hge : rxDeliv ≤ count + c.windowSize) (hlt : count < rxDeliv + c.windowSize) :
    rcvdCount c rxDeliv (count % 2 ^ c.snSize) = count := by
  have hw := c.two_mul_windowSize
  obtain ⟨q, r, hr, rfl, -⟩ := exists_hfn_sn c rxDeliv
  obtain ⟨q', sn, hsn, rfl, hmod⟩ := exists_hfn_sn c count
  rw [hmod, rcvdCount_eq hsn hr]
  clear hmod
  rcases c.snSize_eq with h | h <;> rw [h] at hw hsn hr hdeliv hcount hge hlt ⊢
  all_goals
    split
    · have : (q + 1) % 2 ^ 32 = q + 1 := by omega
      omega
    · split
      · have : (q + (2 ^ 32 - 1)) % 2 ^ 32 = q - 1 := by omega
        omega
      · omega

theorem add_snAhead_mod (hsn : sn < 2 ^ c.snSize) :
    (rxDeliv + snAhead c rxDeliv sn) % 2 ^ c.snSize = sn := by
  have hr : rxDeliv % 2 ^ c.snSize ≤ 2 ^ c.snSize := (Nat.mod_lt _ (Nat.two_pow_pos _)).le
  rw [snAhead, Nat.add_mod_mod, ← Nat.mod_add_mod, ← Nat.add_assoc, Nat.add_right_comm,
    Nat.add_sub_cancel' hr, Nat.add_comm, Nat.add_mod_right, Nat.mod_eq_of_lt hsn]

/-- An SN behind the first HFN is taken for one of the last. -/
theorem rcvdCount_of_behind (hsn : sn < 2 ^ c.snSize) (hfirst : ¬ NotBehindFirstHfn c rxDeliv sn) :
    rxDeliv < 2 ^ c.snSize ∧ 2 ^ 32 - 2 ^ c.snSize ≤ rcvdCount c rxDeliv sn ∧
      rcvdCount c rxDeliv sn < 2 ^ 32 := by
  unfold NotBehindFirstHfn at hfirst
  push Not at hfirst
  obtain ⟨hlt, hge⟩ := hfirst
  have heq := rcvdCount_eq (q := 0) hsn hlt
  rw [zero_mul, zero_add, if_neg (by omega), if_pos hge] at heq
  rw [heq]
  rcases c.snSize_eq with h | h <;> rw [h] at hsn hlt ⊢ <;> omega

/-! ### The list -/

/-- The list is in order of COUNT, without repetition. -/
def Increasing (l : List NrPdcpSdu) : Prop := l.Pairwise fun x y ↦ x.count < y.count

theorem deliverRun_cons (count : ℕ) (cur : NrPdcpSdu) (l : List NrPdcpSdu) :
    deliverRun count (cur :: l) =
      if count = cur.count then
        (cur :: (deliverRun ((count + 1) % 2 ^ 32) l).1, (deliverRun ((count + 1) % 2 ^ 32) l).2)
      else ([], count, cur :: l) := rfl

/-- **A run of SDUs**: those from `count` on up to the first gap. -/
theorem deliverRun_spec (count : ℕ) (hl : Increasing l) (hge : ∀ x ∈ l, count ≤ x.count)
    (hlt : ∀ x ∈ l, x.count < bound) (hbound : bound < 2 ^ 32) (hle : count ≤ bound) :
    (deliverRun count l).1 ++ (deliverRun count l).2.2 = l ∧
      count ≤ (deliverRun count l).2.1 ∧ (deliverRun count l).2.1 ≤ bound ∧
      (∀ x ∈ (deliverRun count l).1, x.count < (deliverRun count l).2.1) ∧
      ∀ x ∈ (deliverRun count l).2.2, (deliverRun count l).2.1 < x.count := by
  induction l generalizing count with
  | nil => simp [deliverRun, hle]
  | cons y l ih =>
    obtain ⟨hy, hl'⟩ := List.pairwise_cons.1 hl
    rw [deliverRun_cons]
    split
    · have hyb := hlt y (by simp)
      have hmod : (count + 1) % 2 ^ 32 = count + 1 := mod_eq_of_lt (by omega)
      obtain ⟨h₁, h₂, h₃, h₄, h₅⟩ := ih (count + 1) hl'
        (fun x hx ↦ by have := hy x hx; omega) (fun x hx ↦ hlt x (by simp [hx])) (by omega)
      rw [hmod]
      refine ⟨by simp [h₁], by dsimp only; omega, h₃, ?_, h₅⟩
      intro x hx
      rcases List.mem_cons.1 hx with rfl | hx
      · dsimp only
        omega
      · exact h₄ x hx
    · have hyc := hge y (by simp)
      refine ⟨rfl, le_rfl, hle, by simp, fun x hx ↦ ?_⟩
      rcases List.mem_cons.1 hx with rfl | hx
      · dsimp only
        omega
      · have := hy x hx
        dsimp only
        omega

theorem mem_nrPdcpSduListAdd : x ∈ nrPdcpSduListAdd l sdu ↔ x = sdu ∨ x ∈ l :=
  OrderedChain.mem_insertBefore

theorem not_inList_iff : nrPdcpSduInList l count = false ↔ ∀ x ∈ l, x.count ≠ count := by
  simp [nrPdcpSduInList, List.any_eq_false]

theorem Increasing.add (hl : Increasing l) (hnew : ∀ x ∈ l, x.count ≠ sdu.count) :
    Increasing (nrPdcpSduListAdd l sdu) := by
  refine OrderedChain.pairwise_insertBefore hl (fun y _ hy ↦ by simpa using hy) fun y hy hpass ↦ ?_
  have := hnew y hy
  simp only [decide_eq_false_iff_not] at hpass
  omega

/-! ### The window -/

/-- **The receive window**: the stored SDUs are between `rx_deliv` and `rx_next`, in order, and
`t_reordering` runs when there is a gap. -/
structure InRxWindow (c : PdcpConfig) (e : NrPdcpEntity) : Prop where
  deliv_le_next : e.rxDeliv ≤ e.rxNext
  next_le : e.rxNext ≤ e.rxDeliv + c.windowSize
  increasing : Increasing e.rxList
  mem_bounds : ∀ x ∈ e.rxList, e.rxDeliv < x.count ∧ x.count < e.rxNext
  running_iff : e.tReorderingStart ≠ 0 ↔ e.rxDeliv < e.rxNext
  reord_bounds : e.tReorderingStart ≠ 0 → e.rxDeliv < e.rxReord ∧ e.rxReord ≤ e.rxNext

/-- What holds of the list and the COUNTs before the timer is looked after. -/
structure RxCore (c : PdcpConfig) (e : NrPdcpEntity) : Prop where
  deliv_le_next : e.rxDeliv ≤ e.rxNext
  next_le : e.rxNext ≤ e.rxDeliv + c.windowSize
  next_lt : e.rxNext < 2 ^ 32
  increasing : Increasing e.rxList
  mem_bounds : ∀ x ∈ e.rxList, e.rxDeliv < x.count ∧ x.count < e.rxNext
  reord_le : e.tReorderingStart ≠ 0 → e.rxReord ≤ e.rxNext
  start_eq_zero : e.tCurrent = 0 → e.tReorderingStart = 0

/-- The window, and what it takes to keep it. -/
structure RxInv (c : PdcpConfig) (e : NrPdcpEntity) : Prop extends RxCore c e where
  running_iff : e.tReorderingStart ≠ 0 ↔ e.rxDeliv < e.rxNext
  deliv_lt_reord : e.tReorderingStart ≠ 0 → e.rxDeliv < e.rxReord

theorem RxInv.inRxWindow (h : RxInv c e) : InRxWindow c e where
  deliv_le_next := h.deliv_le_next
  next_le := h.next_le
  increasing := h.increasing
  mem_bounds := h.mem_bounds
  running_iff := h.running_iff
  reord_bounds hs := ⟨h.deliv_lt_reord hs, h.reord_le hs⟩

/-- Without a gap nothing is stored. -/
theorem RxInv.rxList_eq_nil (h : RxInv c e) (hs : e.tReorderingStart = 0) :
    e.rxDeliv = e.rxNext ∧ e.rxList = [] := by
  have hgap : ¬ e.rxDeliv < e.rxNext := fun hlt ↦ h.running_iff.2 hlt hs
  have := h.deliv_le_next
  refine ⟨by omega, List.eq_nil_iff_forall_not_mem.2 fun x hx ↦ ?_⟩
  have := h.mem_bounds x hx
  omega

/-- With nothing stored and no gap. -/
theorem RxInv.empty (hdeliv : e.rxDeliv = e.rxNext) (hlt : e.rxNext < 2 ^ 32)
    (hlist : e.rxList = []) (hs : e.tReorderingStart = 0) : RxInv c e where
  deliv_le_next := hdeliv.le
  next_le := by omega
  next_lt := hlt
  increasing := by rw [hlist]; exact List.Pairwise.nil
  mem_bounds := by simp [hlist]
  reord_le h := absurd hs h
  start_eq_zero _ := hs
  running_iff := by simp [hs, hdeliv]
  deliv_lt_reord h := absurd hs h

/-- The timer is stopped when its gap is closed, and started when it does not run. -/
theorem updateTReordering_cases {P : NrPdcpEntity → Prop}
    (hidle : e.tReorderingStart = 0 → P (startTReordering e))
    (hstop : P (startTReordering { e with tReorderingStart := 0 }))
    (hrun : e.tReorderingStart ≠ 0 → e.rxDeliv < e.rxReord → P e) : P (updateTReordering e) := by
  rw [updateTReordering, stopTReordering]
  split
  · exact hstop
  · rename_i hgap
    split
    · exact hidle ‹_›
    · rename_i hs
      exact hrun hs (not_le.1 fun hle ↦ hgap ⟨hs, hle⟩)

/-- The timer is started while time is known. -/
theorem RxCore.startTReordering (h : RxCore c e) (htime : e.rxDeliv < e.rxNext → e.tCurrent ≠ 0)
    (hs : e.tReorderingStart = 0) : RxInv c (startTReordering e) := by
  rw [Pdcp.startTReordering]
  split
  · rename_i hgap
    exact ⟨⟨h.deliv_le_next, h.next_le, h.next_lt, h.increasing, h.mem_bounds, fun _ ↦ le_rfl, id⟩,
      ⟨fun _ ↦ hgap, fun _ ↦ htime hgap⟩, fun _ ↦ hgap⟩
  · rename_i hgap
    exact ⟨h, ⟨fun hne ↦ absurd hs hne, fun hlt ↦ absurd hlt hgap⟩, fun hne ↦ absurd hs hne⟩

theorem RxCore.updateTReordering (h : RxCore c e)
    (htime : e.rxDeliv < e.rxNext → e.tCurrent ≠ 0) : RxInv c (updateTReordering e) := by
  refine updateTReordering_cases (h.startTReordering htime) ?_ fun hs hlt ↦ ?_
  · have h' : RxCore c { e with tReorderingStart := 0 } :=
      ⟨h.deliv_le_next, h.next_le, h.next_lt, h.increasing, h.mem_bounds, fun hne ↦ absurd rfl hne,
        fun _ ↦ rfl⟩
    exact h'.startTReordering htime rfl
  · exact ⟨h, ⟨fun _ ↦ hlt.trans_le (h.reord_le hs), fun _ ↦ hs⟩, fun _ ↦ hlt⟩

/-! ### Receiving -/

/-- Delivering a run leaves `rx_deliv` behind it. -/
theorem deliverFrom_core (hnext : e.rxNext < 2 ^ 32) (hwindow : e.rxNext ≤ count + c.windowSize)
    (hle : count ≤ e.rxNext) (hinc : Increasing e.rxList)
    (hmem : ∀ x ∈ e.rxList, count ≤ x.count ∧ x.count < e.rxNext)
    (hreord : e.tReorderingStart ≠ 0 → e.rxReord ≤ e.rxNext)
    (hstart : e.tCurrent = 0 → e.tReorderingStart = 0) :
    RxCore c (deliverFrom e count) ∧ count ≤ (deliverFrom e count).rxDeliv := by
  obtain ⟨happ, hmono, hbound, -, hrest⟩ := deliverRun_spec _ hinc (fun x hx ↦ (hmem x hx).1)
    (fun x hx ↦ (hmem x hx).2) hnext hle
  have hsub : (deliverRun count e.rxList).2.2.Sublist e.rxList :=
    (List.sublist_append_right _ _).trans (by rw [happ])
  refine ⟨⟨hbound, hwindow.trans (by gcongr; exact hmono), hnext, hinc.sublist hsub,
    fun x hx ↦ ⟨hrest x hx, (hmem x (hsub.subset hx)).2⟩, hreord, hstart⟩, hmono⟩

theorem storeSdu_rxNext (e : NrPdcpEntity) (hlast : sdu.count + 1 < 2 ^ 32) :
    (storeSdu e sdu).rxNext = max e.rxNext (sdu.count + 1) := by
  rw [storeSdu, mod_eq_of_lt hlast]
  dsimp only
  split <;> omega

theorem storeSdu_bounds (hge : e.rxDeliv ≤ sdu.count) (hlast : sdu.count + 1 < 2 ^ 32)
    (hmem : ∀ x ∈ e.rxList, e.rxDeliv < x.count ∧ x.count < e.rxNext) :
    ∀ x ∈ (storeSdu e sdu).rxList,
      (e.rxDeliv ≤ x.count ∧ x.count < (storeSdu e sdu).rxNext) ∧
        (sdu.count ≠ e.rxDeliv → e.rxDeliv < x.count ∧ x.count < (storeSdu e sdu).rxNext) := by
  intro x hx
  rw [storeSdu_rxNext e hlast]
  rcases mem_nrPdcpSduListAdd.1 hx with rfl | hx
  · omega
  · have := hmem x hx
    omega

theorem RxInv.receiveSdu (h : RxInv c e) (hge : e.rxDeliv ≤ sdu.count)
    (hlt : sdu.count < e.rxDeliv + c.windowSize) (hnew : ∀ x ∈ e.rxList, x.count ≠ sdu.count)
    (hlast : sdu.count + 1 < 2 ^ 32) : RxCore c (receiveSdu e sdu) := by
  have hnext := storeSdu_rxNext e hlast
  have hle := h.next_le
  have hlt' := h.next_lt
  have hbounds := storeSdu_bounds hge hlast h.mem_bounds
  have hreord : (storeSdu e sdu).tReorderingStart ≠ 0 →
      (storeSdu e sdu).rxReord ≤ (storeSdu e sdu).rxNext := fun hs ↦ by
    rw [hnext]
    exact (h.reord_le hs).trans (le_max_left _ _)
  rw [Pdcp.receiveSdu]
  split
  · rename_i heq
    exact (deliverFrom_core (by omega) (by omega) (by omega) (h.increasing.add hnew)
      (fun x hx ↦ (hbounds x hx).1) hreord h.start_eq_zero).1
  · rename_i hne
    refine ⟨?_, ?_, by omega, h.increasing.add hnew, fun x hx ↦ (hbounds x hx).2 hne, hreord,
      h.start_eq_zero⟩
    · rw [hnext]
      exact h.deliv_le_next.trans (le_max_left _ _)
    · rw [hnext]
      exact max_le hle hlt

theorem receiveSdu_tCurrent (e : NrPdcpEntity) (sdu : NrPdcpSdu) :
    (receiveSdu e sdu).tCurrent = e.tCurrent := by
  rw [receiveSdu]
  split <;> rfl

/-- The next SDU, with nothing stored: it is delivered at once. -/
theorem RxInv.receiveSdu_next (h : RxInv c e) (heq : sdu.count = e.rxDeliv)
    (hs : e.tReorderingStart = 0) : Pdcp.receiveSdu e sdu =
      { e with
        rxList := [], rxNext := (sdu.count + 1) % 2 ^ 32, rxDeliv := (sdu.count + 1) % 2 ^ 32
        delivered := e.delivered ++ [sdu] } := by
  obtain ⟨hnext, hlist⟩ := h.rxList_eq_nil hs
  have hstore : storeSdu e sdu =
      { e with rxList := [sdu], rxNext := (sdu.count + 1) % 2 ^ 32 } := by
    rw [storeSdu, hlist, if_pos (by omega)]
    rfl
  rw [Pdcp.receiveSdu, if_pos heq, hstore, deliverFrom]
  rw [deliverRun_cons, if_pos heq.symm, ← heq]
  rfl

/-- The very last COUNT, when it is the next one: everything starts at 0 again. -/
theorem RxInv.receiveSdu_last (h : RxInv c e) (heq : sdu.count = e.rxDeliv)
    (hlast : sdu.count + 1 = 2 ^ 32) :
    RxInv c (Pdcp.updateTReordering (Pdcp.receiveSdu e sdu)) := by
  have hlt := h.next_lt
  have hs : e.tReorderingStart = 0 := by
    by_contra hne
    have := h.running_iff.1 hne
    omega
  rw [h.receiveSdu_next heq hs]
  refine RxCore.updateTReordering (RxInv.toRxCore ?_) fun hgap ↦ ?_
  · exact RxInv.empty rfl (Nat.mod_lt _ (Nat.two_pow_pos _)) rfl hs
  · exact absurd hgap (lt_irrefl _)

/-- The PDU keeps the window: its SN is not taken for one of the last HFN, and if it leaves a gap
then its COUNT is not the very last one and time is known. -/
def KeepsWindow (c : PdcpConfig) (e : NrPdcpEntity) (sn : ℕ) : Prop :=
  NotBehindFirstHfn c e.rxDeliv sn ∧
    (0 < snAhead c e.rxDeliv sn → snAhead c e.rxDeliv sn < c.windowSize →
      e.rxDeliv + snAhead c e.rxDeliv sn < 2 ^ 32 →
        e.rxDeliv + snAhead c e.rxDeliv sn + 1 ≠ 2 ^ 32 ∧ e.tCurrent ≠ 0)

instance (e : NrPdcpEntity) (sn : ℕ) : Decidable (KeepsWindow c e sn) := by
  unfold KeepsWindow NotBehindFirstHfn
  infer_instance

/-- The entity reads the PDU: it is not suspended, the PDU is not too small and MAC-I agrees, if
there is integrity. -/
def Readable (a : PdcpAlgorithms) (c : PdcpConfig) (e : NrPdcpEntity) (buffer : List UInt8) : Prop :=
  e.entitySuspended = false ∧ longEnough c e.security (forceDcBit c buffer) = true ∧
    (readPdu a c e.security e.rxDeliv (forceDcBit c buffer)).isSome

theorem readPdu_count (h : readPdu a c s rxDeliv buffer = some sdu) :
    sdu.count = rcvdCount c rxDeliv (rcvdSn c buffer) := by
  rw [readPdu] at h
  split at h
  · cases h
    rfl
  · cases h

/-- **All that `recv_pdu` can do.** -/
theorem recvPdu_cases (a : PdcpAlgorithms) (c : PdcpConfig) (e : NrPdcpEntity)
    (buffer : List UInt8) :
    (¬ Readable a c e buffer ∧ e.recvPdu a c buffer = e) ∨
      ∃ sdu, Readable a c e buffer ∧
        readPdu a c e.security e.rxDeliv (forceDcBit c buffer) = some sdu ∧
        e.recvPdu a c buffer =
          if sdu.count < e.rxDeliv || nrPdcpSduInList e.rxList sdu.count then e
          else updateTReordering (receiveSdu e sdu) := by
  rw [NrPdcpEntity.recvPdu, Readable]
  rcases hsus : e.entitySuspended with - | -
  · rcases hlong : longEnough c e.security (forceDcBit c buffer) with - | -
    · left
      simp [hlong]
    · have hlen : ¬ buffer.length < 1 := by
        intro hlt
        have hnil : buffer = [] := List.length_eq_zero_iff.1 (by omega)
        simp [hnil, longEnough, forceDcBit] at hlong
      rcases hread : readPdu a c e.security e.rxDeliv (forceDcBit c buffer) with - | sdu
      · left
        simp [hlong, hread]
      · right
        exact ⟨sdu, by simp, rfl, by simp [hlong, hread, hlen]⟩
  · left
    simp

/-- A PDU that keeps the window. -/
theorem RxInv.recvPdu (h : RxInv c e)
    (hok : Readable a c e buffer → KeepsWindow c e (rcvdSn c (forceDcBit c buffer))) :
    RxInv c (e.recvPdu a c buffer) := by
  rcases recvPdu_cases a c e buffer with ⟨-, heq⟩ | ⟨sdu, hreadable, hread, heq⟩
  · rwa [heq]
  · rw [heq]
    split
    · exact h
    · rename_i hnew
      obtain ⟨hfirst, hgap⟩ := hok hreadable
      have hlist : nrPdcpSduInList e.rxList sdu.count = false := by
        rcases hin : nrPdcpSduInList e.rxList sdu.count with - | -
        · rfl
        · simp [hin] at hnew
      have hge : e.rxDeliv ≤ sdu.count := by
        by_contra hlt
        simp [show sdu.count < e.rxDeliv by omega] at hnew
      have hdeliv : e.rxDeliv < 2 ^ 32 := lt_of_le_of_lt h.deliv_le_next h.next_lt
      have hcount := readPdu_count hread
      rcases rcvdCount_cases hdeliv (rcvdSn_lt c _) hfirst with hlt | ⟨hw, hmax, hahead⟩
      · omega
      · rw [hahead] at hcount
        generalize snAhead c e.rxDeliv (rcvdSn c (forceDcBit c buffer)) = d at *
        rcases Nat.eq_zero_or_pos d with rfl | hd
        · -- the next SDU: only here the very last COUNT does no harm
          rcases lt_or_ge (sdu.count + 1) (2 ^ 32) with hlast | hlast
          · refine (h.receiveSdu hge (by omega) (not_inList_iff.1 hlist) hlast).updateTReordering ?_
            -- with time unknown nothing is stored, so there is no gap afterwards
            rw [receiveSdu_tCurrent]
            intro hgap htime
            rw [h.receiveSdu_next hcount (h.start_eq_zero htime)] at hgap
            exact absurd hgap (lt_irrefl _)
          · exact h.receiveSdu_last hcount (by omega)
        · have := hgap hd hw hmax
          refine (h.receiveSdu hge (by omega) (not_inList_iff.1 hlist)
            (by omega)).updateTReordering fun _ ↦ ?_
          rw [receiveSdu_tCurrent]
          exact this.2

/-- What looking after the timer leaves alone. -/
theorem updateTReordering_frame (e : NrPdcpEntity) :
    (updateTReordering e).rxList = e.rxList ∧ (updateTReordering e).rxDeliv = e.rxDeliv ∧
      (updateTReordering e).rxNext = e.rxNext ∧
      (e.tReorderingStart = 0 → e.tCurrent = 0 → (updateTReordering e).tReorderingStart = 0) := by
  rw [updateTReordering, stopTReordering]
  by_cases hstop : e.tReorderingStart ≠ 0 ∧ e.rxDeliv ≥ e.rxReord
  · simp only [if_pos hstop, if_true, startTReordering]
    split <;> exact ⟨rfl, rfl, rfl, fun hs ↦ absurd hs hstop.1⟩
  · simp only [if_neg hstop, startTReordering]
    split
    · split
      · exact ⟨rfl, rfl, rfl, fun _ ht ↦ ht⟩
      · exact ⟨rfl, rfl, rfl, fun hs _ ↦ hs⟩
    · exact ⟨rfl, rfl, rfl, fun hs _ ↦ hs⟩

/-- **The condition is exact**: any other PDU that is read breaks the window at once. -/
theorem RxInv.not_inRxWindow_recvPdu (h : RxInv c e) (hread : Readable a c e buffer)
    (hbad : ¬ KeepsWindow c e (rcvdSn c (forceDcBit c buffer))) :
    ¬ InRxWindow c (e.recvPdu a c buffer) := by
  rcases recvPdu_cases a c e buffer with ⟨hno, -⟩ | ⟨sdu, -, hsdu, heq⟩
  · exact absurd hread hno
  have hcount := readPdu_count hsdu
  have hsn := rcvdSn_lt c (forceDcBit c buffer)
  generalize rcvdSn c (forceDcBit c buffer) = sn at *
  have hw := c.two_mul_windowSize
  have hpow : 2 ^ c.snSize + 2 ^ c.snSize ≤ 2 ^ 32 - 2 ^ c.snSize := by
    rcases c.snSize_eq with h | h <;> rw [h] <;> decide
  have hle := h.deliv_le_next
  have hnext := h.next_le
  -- the SDU is stored, ahead of `rx_deliv`, and `rx_next` or the timer is wrong then
  have hahead : e.rxDeliv < sdu.count ∧ (∀ x ∈ e.rxList, x.count ≠ sdu.count) ∧
      (sdu.count + 1 = 2 ^ 32 ∨ e.rxDeliv + c.windowSize ≤ sdu.count ∨ e.tCurrent = 0) := by
    by_cases hfirst : NotBehindFirstHfn c e.rxDeliv sn
    · rw [KeepsWindow] at hbad
      push Not at hbad
      obtain ⟨hpos, hlt, hmax, hlast⟩ := hbad hfirst
      have hfound := rcvdCount_of_window (c := c) (lt_of_le_of_lt hle h.next_lt) hmax (by omega)
        (by omega)
      rw [add_snAhead_mod hsn] at hfound
      refine ⟨by omega, fun x hx ↦ ?_, ?_⟩
      · -- a stored SDU is not the very last one, and nothing is stored while time is unknown
        have hbounds := h.mem_bounds x hx
        have hnext_lt := h.next_lt
        by_cases hlast' : e.rxDeliv + snAhead c e.rxDeliv sn + 1 = 2 ^ 32
        · omega
        · have hnil := (h.rxList_eq_nil (h.start_eq_zero (hlast hlast'))).2
          simp [hnil] at hx
      · by_cases hlast' : e.rxDeliv + snAhead c e.rxDeliv sn + 1 = 2 ^ 32
        · left
          omega
        · exact .inr (.inr (hlast hlast'))
    · obtain ⟨hdeliv, hge, hlt⟩ := rcvdCount_of_behind hsn hfirst
      refine ⟨by omega, fun x hx ↦ ?_, by omega⟩
      have := h.mem_bounds x hx
      omega
  obtain ⟨hgt, hnew, hbreak⟩ := hahead
  have hstore : e.recvPdu a c buffer = updateTReordering (storeSdu e sdu) := by
    have hin : nrPdcpSduInList e.rxList sdu.count = false := not_inList_iff.2 hnew
    rw [heq, Pdcp.receiveSdu, if_neg (by omega : ¬ sdu.count = e.rxDeliv)]
    simp only [hin, Bool.or_false, decide_eq_true_eq, if_neg (show ¬ sdu.count < e.rxDeliv by omega)]
  intro hwin
  rw [hstore] at hwin
  obtain ⟨hlist, hdeliv, hrx, htime⟩ := updateTReordering_frame (storeSdu e sdu)
  have hmem := hwin.mem_bounds sdu (by rw [hlist]; exact mem_nrPdcpSduListAdd.2 (.inl rfl))
  have hnext' := hwin.next_le
  rw [hdeliv, hrx] at hmem hnext'
  rcases hbreak with hlast | hfar | htime0
  · -- `rx_next` is 0 again
    rw [storeSdu, hlast] at hmem
    have := hmem.2
    simp only [show sdu.count ≥ e.rxNext by have := h.next_lt; omega, if_true] at this
    omega
  · have hfar' : (storeSdu e sdu).rxNext ≤ e.rxDeliv + c.windowSize := hnext'
    omega
  · -- the timer is started at time 0
    refine absurd (htime (h.start_eq_zero htime0) htime0) (hwin.running_iff.2 ?_)
    rw [hdeliv, hrx]
    exact hmem.1.trans hmem.2

/-! ### Timers, suspension and re-establishment -/

theorem tReorderingStart_ne_zero_of_expired (h : ¬(!e.tReorderingExpired c) = true) :
    e.tReorderingStart ≠ 0 := by
  rintro hs
  simp [NrPdcpEntity.tReorderingExpired, hs] at h

theorem Increasing.le_of_mem_dropWhile (h : Increasing l)
    (hx : x ∈ l.dropWhile fun sdu ↦ decide (sdu.count < count)) : count ≤ x.count := by
  have := OrderedChain.dropWhile_eq_false_of_pairwise (h.imp fun hxy hx ↦ ?_) x hx
  · simpa using this
  · simp only [decide_eq_false_iff_not] at hx ⊢
    omega

theorem RxInv.setTime (h : RxInv c e) (hnow : now ≠ 0) : RxInv c (e.setTime c now) := by
  have hcore : RxCore c { e with tCurrent := now } :=
    ⟨h.deliv_le_next, h.next_le, h.next_lt, h.increasing, h.mem_bounds, h.reord_le,
      fun h0 ↦ absurd h0 hnow⟩
  rw [NrPdcpEntity.setTime, NrPdcpEntity.checkTReordering]
  split
  · exact ⟨hcore, h.running_iff, h.deliv_lt_reord⟩
  · rename_i hexp
    have hs := tReorderingStart_ne_zero_of_expired hexp
    have hreord := h.reord_le hs
    have hlt := h.deliv_lt_reord hs
    have hsub : (e.rxList.dropWhile fun sdu ↦ decide (sdu.count < e.rxReord)).Sublist e.rxList :=
      List.dropWhile_sublist _
    refine (deliverFrom_core (c := c) (e := NrPdcpEntity.deliverBelow
      { e with tCurrent := now, tReorderingStart := 0 }) h.next_lt ?_ hreord
      (h.increasing.sublist hsub) (fun x hx ↦ ⟨h.increasing.le_of_mem_dropWhile hx, ?_⟩)
      (fun hne ↦ absurd rfl hne) fun _ ↦ rfl).1.startTReordering (fun _ ↦ hnow) rfl
    · have := h.next_le
      show e.rxNext ≤ _
      omega
    · exact (h.mem_bounds x (hsub.subset hx)).2

theorem RxInv.suspend (h : RxInv c e) : RxInv c e.suspend := by
  rw [NrPdcpEntity.suspend]
  split
  · exact RxInv.empty rfl (Nat.two_pow_pos 32) rfl rfl
  · rename_i hs
    have hs : e.tReorderingStart = 0 := by simpa using hs
    exact RxInv.empty rfl (Nat.two_pow_pos 32) (h.rxList_eq_nil hs).2 hs

theorem RxInv.reestablishState (h : RxInv c e) : RxInv c (e.reestablishState c) := by
  rw [NrPdcpEntity.reestablishState]
  rcases c.type with - | - | -
  · exact h
  · dsimp only
    split
    · exact RxInv.empty rfl (Nat.two_pow_pos 32) rfl rfl
    · rename_i hs
      have hs : e.tReorderingStart = 0 := by simpa using hs
      exact RxInv.empty rfl (Nat.two_pow_pos 32) (h.rxList_eq_nil hs).2 rfl
  · exact RxInv.empty rfl (Nat.two_pow_pos 32) rfl rfl

/-! ### Runs -/

/-- A call of one of the entity's entry points. -/
inductive PdcpOp
  | recvPdu (buffer : List UInt8)
  | processSdu (buffer : List UInt8)
  | setTime (now : UInt64)
  | suspend
  | reestablish (parameters : SecurityKeysAndAlgos)
  deriving DecidableEq, Repr

/-- The entity under any sequence of calls, from its creation with some security on. -/
def pdcpSystem (a : PdcpAlgorithms) (c : PdcpConfig) (security : PdcpSecurity) :
    StepSystem NrPdcpEntity PdcpOp where
  init := { security := security }
  step e
    | .recvPdu buffer => some (e.recvPdu a c buffer)
    | .processSdu buffer => some (e.processSdu a c buffer).1
    | .setTime now => some (e.setTime c now)
    | .suspend => some e.suspend
    | .reestablish parameters => e.reestablish c parameters

/-- Times are not zero. -/
def TimesNonzero (_ : NrPdcpEntity) : PdcpOp → Prop
  | .setTime now => now ≠ 0
  | _ => True

instance (e : NrPdcpEntity) (op : PdcpOp) : Decidable (TimesNonzero e op) := by
  unfold TimesNonzero
  split <;> infer_instance

/-- Times are not zero, and every PDU that is read keeps the window. -/
def StaysInWindow (a : PdcpAlgorithms) (c : PdcpConfig) (e : NrPdcpEntity) : PdcpOp → Prop
  | .recvPdu buffer =>
    Readable a c e buffer → KeepsWindow c e (rcvdSn c (forceDcBit c buffer))
  | .setTime now => now ≠ 0
  | _ => True

instance (a : PdcpAlgorithms) (e : NrPdcpEntity) (op : PdcpOp) :
    Decidable (StaysInWindow a c e op) := by
  unfold StaysInWindow Readable
  split <;> infer_instance

theorem RxInv.step (h : RxInv c e)
    (hok : StaysInWindow a c e op) (hstep : (pdcpSystem a c security).step e op = some e') :
    RxInv c e' := by
  rcases op with buffer | buffer | now | - | parameters
  · cases hstep
    exact h.recvPdu hok
  · cases hstep
    rw [NrPdcpEntity.processSdu]
    split
    · exact h
    · exact ⟨⟨h.deliv_le_next, h.next_le, h.next_lt, h.increasing, h.mem_bounds, h.reord_le,
        h.start_eq_zero⟩, h.running_iff, h.deliv_lt_reord⟩
  · cases hstep
    exact h.setTime hok
  · cases hstep
    exact h.suspend
  · have h := h.reestablishState
    obtain ⟨security, -, rfl⟩ := Option.map_eq_some_iff.1 hstep
    exact ⟨⟨h.deliv_le_next, h.next_le, h.next_lt, h.increasing, h.mem_bounds, h.reord_le,
        h.start_eq_zero⟩, h.running_iff, h.deliv_lt_reord⟩

/-- **The receive window is kept** by every run without a PDU that breaks it, and any such PDU
breaks it at once. -/
theorem inRxWindow_of_staysInWindow (a : PdcpAlgorithms) (c : PdcpConfig) (security : PdcpSecurity)
    {e : NrPdcpEntity} (h : (pdcpSystem a c security).Reach (StaysInWindow a c) e) :
    InRxWindow c e ∧ ∀ buffer, Readable a c e buffer →
      ¬ KeepsWindow c e (rcvdSn c (forceDcBit c buffer)) →
        ¬ InRxWindow c (e.recvPdu a c buffer) := by
  have hinv : RxInv c e :=
    h.invariant (RxInv.empty rfl (Nat.two_pow_pos 32) rfl rfl) fun h hok hstep ↦ h.step hok hstep
  exact ⟨hinv.inRxWindow, fun _ hread hbad ↦ hinv.not_inRxWindow_recvPdu hread hbad⟩

/-- No ciphering and no integrity. -/
def nullAlgorithms : PdcpAlgorithms where
  keystream _ _ _ _ _ _ := 0
  macI _ _ _ _ _ _ := [0, 0, 0, 0]
  length_macI _ _ _ _ _ _ := rfl

theorem shortSn_allowed : 12 = 12 ∨ 12 = 18 := .inl rfl

/-- A DRB with 12-bit SNs and no SDAP header. -/
def shortSnDrb : PdcpConfig := ⟨.drbUm, true, 1, false, false, 12, 100, shortSn_allowed⟩

/-- A gap, and a timer that expires on it. -/
theorem inRxWindow_after_expiry :
    ∃ e, (pdcpSystem nullAlgorithms shortSnDrb {}).Reach (StaysInWindow nullAlgorithms shortSnDrb) e ∧
      e.rxDeliv = 2 ∧ InRxWindow shortSnDrb e :=
  ⟨_, (pdcpSystem nullAlgorithms shortSnDrb {}).reach_get_exec (StaysInWindow nullAlgorithms shortSnDrb)
    [.setTime 1, .recvPdu [0x80, 0x01, 0xaa], .setTime 200] (by decide), by decide,
    (inRxWindow_of_staysInWindow nullAlgorithms shortSnDrb {}
      ((pdcpSystem nullAlgorithms shortSnDrb {}).reach_get_exec
        (StaysInWindow nullAlgorithms shortSnDrb)
        [.setTime 1, .recvPdu [0x80, 0x01, 0xaa], .setTime 200] (by decide))).1⟩

/-- **One PDU with SN 2048** makes `rx_next` almost `2 ^ 32`. -/
theorem not_inRxWindow_after_farSn :
    ∃ e, (pdcpSystem nullAlgorithms shortSnDrb {}).Reach TimesNonzero e ∧
      e.security.hasIntegrity = false ∧ ¬ InRxWindow shortSnDrb e := by
  refine ⟨_, (pdcpSystem nullAlgorithms shortSnDrb {}).reach_get_exec TimesNonzero
    [.setTime 1, .recvPdu [0x88, 0x00, 0xaa]] (by decide), by decide, fun h ↦ ?_⟩
  have := h.next_le
  revert this
  decide

end OaiRan.Pdcp
