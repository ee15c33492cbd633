import Mathlib.Algebra.Order.BigOperators.Group.List
import OaiRan.Rlc.Am.RxWindow

/-!
# What `rx_size` counts in the acknowledged mode

`rx_size` is to be the size of the cells of `rx_list` that still have their data. Reception adds a
cell, reassembly takes the data off all the cells of an SN. But a segment of an SDU that has been
delivered and is still listed may be received again, if some of its bytes are new, and then its
cell has data. When `rx_next` passes that SDU all its cells are freed, and nothing is taken off
`rx_size` for them.

So the count goes wrong exactly when a PDU completes the SDU of `rx_next` while a cell with data is
in the stretch of delivered SDUs that follows it (`ReleasesData`).
-/

namespace OaiRan.Rlc.Am

open CircularSeq List

variable {c : AmConfig} {l : List NrRlcPdu} {s : AmRx} {rn rh rnh x : ℤ}

variable {r rn' y : ℤ} {cmp : ℤ → ℤ → ℤ}

/-- The bytes of the cells that have their data. -/
def heldSize (l : List NrRlcPdu) : ℤ :=
  ((l.filter fun p ↦ p.data.isSome).map NrRlcPdu.size).sum

theorem heldSize_perm (h : l.Perm l') : heldSize l = heldSize l' :=
  ((h.filter _).map _).sum_eq

theorem heldSize_cons (hp : p.data ≠ none) : heldSize (p :: l) = p.size + heldSize l := by
  rw [heldSize, filter_cons_of_pos (by simpa [Option.isSome_iff_ne_none] using hp),
    map_cons, sum_cons, heldSize]

theorem heldSize_filter_add (f : NrRlcPdu → Bool) (l : List NrRlcPdu) :
    heldSize (l.filter f) + heldSize (l.filter fun p ↦ !f p) = heldSize l := by
  have hperm := (filter_append_perm f l).filter fun p ↦ p.data.isSome
  rw [filter_append] at hperm
  rw [heldSize, heldSize, heldSize, ← sum_append, ← map_append]
  exact (hperm.map _).sum_eq

/-- Cells have at least one byte each, so nothing is held when no cell has data. -/
theorem heldSize_eq_zero_iff (hpos : ∀ p ∈ l, 0 < p.size) :
    heldSize l = 0 ↔ ∀ p ∈ l, p.data = none := by
  constructor
  · intro h p hp
    by_contra hdata
    have hmem : p.size ∈ (l.filter fun p ↦ p.data.isSome).map NrRlcPdu.size :=
      mem_map_of_mem (mem_filter.2 ⟨hp, by simpa [Option.isSome_iff_ne_none] using hdata⟩)
    have hle := single_le_sum (fun y hy ↦ by
      obtain ⟨q, hq, rfl⟩ := mem_map.1 hy
      exact (hpos q (mem_filter.1 hq).1).le) _ hmem
    have := hpos p hp
    rw [heldSize] at h
    omega
  · intro h
    rw [heldSize, filter_eq_nil_iff.2 fun p hp ↦ by simp [h p hp]]
    rfl

/-- `rx_size` is what is held. -/
def Counted (s : AmRx) : Prop := s.rxSize = heldSize s.rxList

/-! ### Delivering -/

/-- Reassembling an SDU takes exactly its bytes off both. -/
theorem Counted.reassembleAndDeliver (h : Counted s) (hcells : RxCells c s.rxList rn rnh)
    (hx : IsSn c.snModulus x) (hfull : sduFull s.rxList x = true) :
    Counted (reassembleAndDeliver s x) := by
  have hall : (s.rxList.filter fun p ↦ p.sn == x).filter (fun p ↦ p.data.isSome) =
      s.rxList.filter fun p ↦ p.sn == x := by
    refine filter_eq_self.2 fun p hp ↦ ?_
    obtain ⟨hmem, hpx⟩ := mem_filter.1 hp
    rw [Option.isSome_iff_ne_none]
    exact hcells.data_ne_of_sduFull hfull hmem (by simpa using hpx)
  have hrun : ((snRun x s.rxList).map NrRlcPdu.size).sum =
      heldSize (s.rxList.filter fun p ↦ p.sn == x) := by
    rw [snRun_eq_filter hcells.sorted hcells.isSn hx, heldSize, hall]
  have hrest : heldSize (dropData x s.rxList) = heldSize (s.rxList.filter fun p ↦ !(p.sn == x)) := by
    rw [heldSize, heldSize, dropData]
    induction s.rxList with
    | nil => rfl
    | cons p l ih =>
      by_cases hp : p.sn = x
      · simpa [hp] using ih
      · rcases hd : p.data with - | d <;> simp [hp, hd, ih]
  have hsum := heldSize_filter_add (fun p ↦ p.sn == x) s.rxList
  rw [Counted] at h ⊢
  rw [show (Am.reassembleAndDeliver s x).rxList = dropData x s.rxList from
    mapSnRun_eq_map hcells.sorted hcells.isSn hx _]
  show s.rxSize - ((snRun x s.rxList).map NrRlcPdu.size).sum = _
  rw [hrun, hrest]
  omega

/-- Freeing keeps the count if and only if all that is freed was delivered. -/
theorem counted_cellsFrom_iff (hpos : ∀ p ∈ s.rxList, 0 < p.size) (h : Counted s) :
    Counted { s with rxList := cellsFrom c.snModulus rn rn' s.rxList, rxNext := r } ↔
      ∀ p ∈ s.rxList, lift c.snModulus rn p.sn < rn' → p.data = none := by
  have hsum := heldSize_filter_add (fun p ↦ decide (rn' ≤ lift c.snModulus rn p.sn)) s.rxList
  have hzero := heldSize_eq_zero_iff
    (l := s.rxList.filter fun p ↦ !decide (rn' ≤ lift c.snModulus rn p.sn))
    fun p hp ↦ hpos p (mem_filter.1 hp).1
  have hfreed : (∀ p ∈ s.rxList.filter (fun p ↦ !decide (rn' ≤ lift c.snModulus rn p.sn)),
      p.data = none) ↔ ∀ p ∈ s.rxList, lift c.snModulus rn p.sn < rn' → p.data = none := by
    simp [mem_filter]
  rw [← hfreed, ← hzero]
  rw [Counted] at h
  simp only [Counted, cellsFrom]
  omega

/-! ### The condition -/

/-- A cell with data follows `rx_next` in a stretch of delivered SDUs. -/
def HeldBehind (c : AmConfig) (s : AmRx) (q : NrRlcPdu) : Prop :=
  q.data ≠ none ∧ q.sn ≠ s.rxNext ∧
    ∀ k ∈ range (off c.snModulus s.rxNext q.sn).toNat,
      sduDelivered s.rxList ((s.rxNext + 1 + k) % c.snModulus) = true

/-- The PDU is accepted and completes the SDU of `rx_next`, and a cell with data is freed with it. -/
def ReleasesData (c : AmConfig) (s : AmRx) (pdu : NrRlcPdu) : Prop :=
  acceptsPdu c s pdu = true ∧ pdu.sn = s.rxNext ∧
    sduFull (putPdu c s pdu).rxList pdu.sn = true ∧ ∃ q ∈ s.rxList, HeldBehind c s q

instance (q : NrRlcPdu) : Decidable (HeldBehind c s q) :=
  inferInstanceAs (Decidable (_ ∧ _ ∧ _))

instance (pdu : NrRlcPdu) : Decidable (ReleasesData c s pdu) :=
  inferInstanceAs (Decidable (_ ∧ _ ∧ _ ∧ _))

/-! ### Receiving -/

variable {pdu : NrRlcPdu}

theorem find?_listAdd_of_ne (h : pdu.sn ≠ y) :
    (nrRlcPduListAdd cmp l pdu).find? (fun p ↦ p.sn == y) = l.find? fun p ↦ p.sn == y := by
  rw [nrRlcPduListAdd, OrderedChain.insertBefore_eq, find?_append,
    find?_cons_of_neg (by simpa using h), ← find?_append, takeWhile_append_dropWhile]

/-- Completing an SDU changes nothing about the other ones. -/
theorem sduDelivered_dropData_listAdd (cmp : ℤ → ℤ → ℤ) (h : y ≠ pdu.sn) :
    sduDelivered (dropData pdu.sn (nrRlcPduListAdd cmp l pdu)) y = sduDelivered l y := by
  rw [sduDelivered_dropData_of_ne h, sduDelivered_eq_find, sduDelivered_eq_find,
    find?_listAdd_of_ne h.symm]

/-- The cells with data that are passed with `rx_next` are those that follow it in a stretch of
delivered SDUs. -/
theorem freed_iff (hc : c.Sane) (hs : s.rxNext = rn % c.snModulus) (hp : pdu.sn = s.rxNext)
    (hbelow : ∀ p ∈ s.rxList, lift c.snModulus rn p.sn < rn + c.snModulus)
    (hle : rn ≤ rn') (hlt : rn' < rn + c.snModulus) (hall : ∀ k, rn ≤ k → k < rn' → sduDelivered
      (dropData pdu.sn (nrRlcPduListAdd cmp s.rxList pdu)) (k % c.snModulus) = true)
    (hopen : sduDelivered (cellsFrom c.snModulus rn rn'
      (dropData pdu.sn (nrRlcPduListAdd cmp s.rxList pdu))) (rn' % c.snModulus) = false) :
    (∀ p ∈ dropData pdu.sn (nrRlcPduListAdd cmp s.rxList pdu),
      lift c.snModulus rn p.sn < rn' → p.data = none) ↔ ¬ ∃ q ∈ s.rxList, HeldBehind c s q := by
  have hM := hc.pos
  have hoff : ∀ a, off c.snModulus s.rxNext a = lift c.snModulus rn a - rn := fun a ↦ by
    rw [hs, lift, off, off, Int.sub_emod_emod]
    ring
  -- the SNs in question, as absolute numbers
  have hsn : ∀ k : ℕ, (s.rxNext + 1 + k) % c.snModulus = (rn + 1 + k) % c.snModulus := fun k ↦ by
    rw [hs, Int.add_assoc, Int.emod_add_emod, Int.add_assoc]
  have hother : ∀ m, rn < m → m < rn + c.snModulus → m % c.snModulus ≠ pdu.sn := by
    intro m h₁ h₂ heq
    have h₃ := lift_emod_self (M := c.snModulus) (n := rn) (m := m) h₁.le h₂
    rw [heq, hp, hs, lift_emod_self le_rfl (by omega)] at h₃
    omega
  constructor
  · rintro hnone ⟨q, hq, hdata, hne, hrun⟩
    have hq' : q ∈ dropData pdu.sn (nrRlcPduListAdd cmp s.rxList pdu) :=
      mem_map.2 ⟨q, mem_listAdd.2 (.inr hq), if_neg (hp ▸ hne)⟩
    refine hdata (hnone q hq' ?_)
    by_contra hge
    rw [sduDelivered_cellsFrom (by rw [lift_emod_self hle hlt])] at hopen
    rcases eq_or_lt_of_le hle with rfl | hlt'
    · rw [← hs, ← hp, sduDelivered_dropData_self ⟨pdu, mem_listAdd.2 (.inl rfl), rfl⟩] at hopen
      cases hopen
    · have := hrun (rn' - rn - 1).toNat (mem_range.2 (by have := hoff q.sn; omega))
      rw [hsn, show rn + 1 + ((rn' - rn - 1).toNat : ℤ) = rn' by omega,
        ← sduDelivered_dropData_listAdd cmp (hother rn' hlt' hlt), hopen] at this
      cases this
  · intro hno p hmem hlt'
    by_contra hdata
    obtain ⟨q, hq, hpq, -, -, ⟨hd, hne⟩ | ⟨hd, -⟩⟩ := mem_dropData hmem
    · rcases mem_listAdd.1 hq with rfl | hq
      · exact hne rfl
      · refine hno ⟨q, hq, hd ▸ hdata, hp ▸ hne, fun k hk ↦ ?_⟩
        have h₁ := hoff q.sn
        have h₂ := hbelow q hq
        rw [mem_range] at hk
        rw [hpq] at hlt'
        rw [hsn, ← sduDelivered_dropData_listAdd cmp (hother _ (by omega) (by omega))]
        exact hall _ (by omega) (by omega)
    · exact hdata hd

theorem Counted.congr (h : s'.data = s.data) : Counted s' ↔ Counted s := by
  simp only [AmRx.data, Prod.mk.injEq] at h
  rw [Counted, Counted, h.1, h.2.1]

/-- **Delivering a full SDU keeps the count**, unless it frees cells with data. -/
theorem counted_updateRxNext_iff (hc : c.Sane) (hp : Fresh c pdu) (hs : s.rxNext = rn % c.snModulus)
    (hle : rn ≤ rnh) (hlt : rnh < rn + c.snModulus)
    (hcells : RxCells c (putPdu c s pdu).rxList rn rnh) (h : Counted (putPdu c s pdu))
    (hfull : sduFull (putPdu c s pdu).rxList pdu.sn = true) :
    Counted (updateRxNext c (reassembleAndDeliver (putPdu c s pdu) pdu.sn) pdu.sn) ↔
      ¬ (pdu.sn = s.rxNext ∧ ∃ q ∈ s.rxList, HeldBehind c s q) := by
  have h₂ := h.reassembleAndDeliver hcells hp.isSn hfull
  have hlist : (reassembleAndDeliver (putPdu c s pdu) pdu.sn).rxList =
      dropData pdu.sn (putPdu c s pdu).rxList :=
    mapSnRun_eq_map hcells.sorted hcells.isSn hp.isSn _
  have hcells₂ := hlist ▸ hcells.dropData hfull
  rw [updateRxNext, show (reassembleAndDeliver (putPdu c s pdu) pdu.sn).rxNext = s.rxNext from rfl]
  split
  · rename_i hpx
    obtain ⟨rn', heq, hle', hle'', hall, hopen⟩ := freeDelivered_spec hc le_rfl hcells₂.sorted
      hcells₂.isSn hcells₂.below hle hlt.le
    rw [hs, heq, counted_cellsFrom_iff hcells₂.size_pos h₂]
    rw [hlist] at hall hopen ⊢
    refine (freed_iff hc hs hpx (fun p hp ↦ lift_lt hc.pos _ _) hle' (by omega) hall hopen).trans ?_
    simp [hpx.trans hs]
  · rename_i hpx
    exact ⟨fun _ h ↦ hpx h.1, fun _ ↦ h₂⟩

/-- **Receiving a data PDU keeps the count**, unless it makes the receiver free cells with data. -/
theorem counted_recvDataPdu_iff (hc : c.Sane) (hinv : RxInv c s) (h : Counted s) (hp : Fresh c pdu)
    (t : UInt64) (p : Bool) : Counted (recvDataPdu c t s p pdu) ↔ ¬ ReleasesData c s pdu := by
  have hdata := recvDataPdu_data (c := c) t s p pdu
  rw [ReleasesData]
  by_cases hacc : acceptsPdu c s pdu = true
  · have hput : Counted (putPdu c s pdu) := by
      rw [Counted] at h ⊢
      rw [putPdu, heldSize_perm (perm_nrRlcPduListAdd _ _ _), heldSize_cons hp.data_ne, h, add_comm]
    by_cases hfull : sduFull (putPdu c s pdu).rxList pdu.sn = true
    · obtain ⟨rn, rh, rnh, hw, -⟩ := hinv
      have hin : snInRecvWindow c s pdu.sn = true := by
        simp only [acceptsPdu, Bool.and_eq_true] at hacc
        exact hacc.1.2
      have hw' := hw.putPdu hc hp hin
      have hcells := hw'.cells
      rw [show (updateNextHighest c (putPdu c s pdu) pdu.sn).rxList = (putPdu c s pdu).rxList from
        congrArg Prod.fst (updateNextHighest_data _ _)] at hcells
      rw [if_pos (by simp [completes, hacc, hfull])] at hdata
      rw [Counted.congr hdata, counted_updateRxNext_iff hc hp hw.rxNext_eq
        (hw'.rn_le_rh.trans hw'.rh_le_rnh) (hw'.rnh_lt hc) hcells hput hfull]
      simp [hacc, hfull]
    · rw [if_neg (by simp [completes, hfull]), if_pos hacc] at hdata
      rw [Counted.congr hdata]
      simp [hfull, hput]
  · rw [if_neg (by simp [completes, hacc]), if_neg hacc] at hdata
    rw [Counted.congr hdata]
    simp [hacc, h]

/-! ### Runs -/

/-- The PDU does not make the receiver free a cell with data. -/
def AmPdu.ReleasesNoData (c : AmConfig) (s : AmRx) : AmPdu → Prop
  | .segment _ pdu => ¬ ReleasesData c s pdu
  | _ => True

instance : (m : AmPdu) → Decidable (m.ReleasesNoData c s)
  | .segment _ pdu => inferInstanceAs (Decidable (¬ ReleasesData c s pdu))
  | .discard _ => inferInstanceAs (Decidable True)
  | .control => inferInstanceAs (Decidable True)

/-- No PDU received in the step does. -/
def ReleasesNoData (c : AmConfig) (t : AmTrace) : AmOp → Prop
  | .recvPdu buffer => (decodePdu c buffer).ReleasesNoData c t.entity.rx
  | _ => True

instance (t : AmTrace) : (op : AmOp) → Decidable (ReleasesNoData c t op)
  | .recvPdu buffer => inferInstanceAs (Decidable ((decodePdu c buffer).ReleasesNoData c t.entity.rx))
  | .recvSdu .. | .generatePdu _ | .setTime _ | .discardSdu _ | .reestablishment => isTrue trivial

theorem Counted.step (hc : c.Sane)
    (h : RxInv c t.entity.rx ∧ Counted t.entity.rx) (hok : ReleasesNoData c t op)
    (hs : (amSystem c).step t op = some t') : RxInv c t'.entity.rx ∧ Counted t'.entity.rx := by
  refine ⟨h.1.step hc hs, ?_⟩
  rcases step_rx_cases hs with ⟨b, u, heq⟩ | ⟨buffer, p, pdu, rfl, hdec, heq⟩ | ⟨now, -, heq⟩ |
    ⟨-, heq⟩
  · rw [heq]
    exact h.2
  · rw [heq, counted_recvDataPdu_iff hc h.1 h.2 (fresh_of_decodePdu hc hdec)]
    simpa only [ReleasesNoData, AmPdu.ReleasesNoData, hdec] using hok
  · rw [heq]
    exact (Counted.congr (checkTReassembly_data now _)).2 h.2
  · rw [heq]
    rfl

/-- Nothing is listed when `rx_next` has caught up. -/
theorem RxInv.rxList_eq_nil (hc : c.Sane) (h : RxInv c s) (heq : s.rxNext = s.rxNextHighest) :
    s.rxList = [] := by
  refine eq_nil_iff_forall_not_mem.2 fun p hp ↦ ?_
  have h₁ := ((h.inWindow hc).stored p hp).2.2
  rw [← heq, off_self] at h₁
  have := off_nonneg hc.pos s.rxNext p.sn
  omega

/-- **Along every run on which no reception frees cells with data, `rx_size` is the size of the
cells with data**, and 0 when everything has been delivered; and the first reception that does free
such cells makes them differ. -/
theorem rxSize_eq_heldSize_of_releasesNoData (p : AmParams) {t : AmTrace}
    (h : (amSystem p.config).Reach (ReleasesNoData p.config) t) :
    t.entity.rx.rxSize = heldSize t.entity.rx.rxList ∧
      (t.entity.rx.rxNext = t.entity.rx.rxNextHighest → t.entity.rx.rxSize = 0) ∧
      ∀ buffer, ¬ ReleasesNoData p.config t (.recvPdu buffer) →
        (t.entity.recvPdu p.config buffer).rx.rxSize ≠
          heldSize (t.entity.recvPdu p.config buffer).rx.rxList := by
  have hinv := h.invariant (P := fun t ↦ RxInv p.config t.entity.rx ∧ Counted t.entity.rx)
    ⟨.init p.sane [] [], show Counted {} from rfl⟩ (Counted.step p.sane)
  refine ⟨hinv.2, fun heq ↦ ?_, fun buffer hrel heq ↦ hrel ?_⟩
  · rw [hinv.2, hinv.1.rxList_eq_nil p.sane heq]
    rfl
  · rw [ReleasesNoData]
    rcases hdec : decodePdu p.config buffer with - | - | ⟨poll, pdu⟩
    · trivial
    · trivial
    · rw [AmPdu.ReleasesNoData, ← counted_recvDataPdu_iff p.sane hinv.1 hinv.2
        (fresh_of_decodePdu p.sane hdec) t.entity.tCurrent poll]
      simpa only [Counted, NrRlcEntityAm.recvPdu, hdec] using heq

/-- SN 1 is delivered while SN 0 is missing, a byte beyond its end comes, then SN 0. -/
def lateSegment : List AmOp :=
  [.recvPdu [0x80, 1, 0xaa], .recvPdu [0xb0, 1, 0, 5, 0xbb], .recvPdu [0x80, 0, 0xcc]]

/-- Both SDUs are delivered and freed, and the late byte is still counted. -/
theorem rxSize_ne_heldSize_after_lateSegment :
    ∃ t, (amSystem shortSnParams.config).exec (fun _ _ ↦ True) {} lateSegment = some t ∧
      t.entity.rx.rxList = [] ∧ t.entity.rx.rxNext = t.entity.rx.rxNextHighest ∧
      t.entity.rx.rxSize = 1 :=
  ⟨_, rfl, by decide, by decide, by decide⟩

/-- SN 1 comes in two segments, the first one twice over different bytes, then SN 0. -/
theorem rxSize_eq_heldSize_after_overlap :
    ∃ t, (amSystem shortSnParams.config).Reach (ReleasesNoData shortSnParams.config) t ∧
      t.entity.rx.delivered = [[some 1, some 2, some 3], [some 9]] ∧
      t.entity.rx.rxSize = heldSize t.entity.rx.rxList :=
  have h := StepSystem.reach_get_exec (amSystem shortSnParams.config)
    (ReleasesNoData shortSnParams.config)
    [.recvPdu [0x90, 1, 1], .recvPdu [0x90, 1, 1, 2], .recvPdu [0xa0, 1, 0, 1, 2, 3],
      .recvPdu [0x80, 0, 9]] (by decide)
  ⟨_, h, by decide, (rxSize_eq_heldSize_of_releasesNoData shortSnParams h).1⟩

end OaiRan.Rlc.Am
