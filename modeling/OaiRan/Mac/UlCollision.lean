import OaiRan.Mac.UlScheduler

/-!
# Do uplink grants collide?

Three defects meet in `pf_ul`. Its marking loops run from `bwpStart` to `rbSize` instead of
`bwpStart + rbSize`, so that they mark the whole grant only in a BWP that starts at block 0. A
retransmission that keeps its time domain allocation, and a grant without data, look only at their
first block: the others may be taken. `UlTurn.TakesFree` says of a turn that it runs into neither,
and it is exactly what keeps grants from colliding; that grants lie in the BWP holds in any case.
-/

namespace OaiRan.Mac

open RbMap Option List Nat

/-! ### What is safe -/

/-- A retransmission is put on free blocks of a BWP that starts at block 0, if it is put anywhere. -/
def UlUe.RetransmissionOnFree (ue : UlUe) (m : RbMap) : Prop :=
  let b := ue.currentUlBwp
  ue.tdaInfo.validTda = true → ue.cce = true →
    if ue.reusesOldTda then
      let sl := ue.retInfo.tdaInfo.slbitmap
      ∀ s, b.FirstFree m sl s → s + ue.retInfo.rbSize ≤ b.start + b.size → 0 < ue.retInfo.rbSize →
        b.start = 0 ∧ m.Free sl s (s + ue.retInfo.rbSize)
    else
      ∀ s n q, b.FirstFree m ue.tdaInfo.slbitmap s → b.RunAt m ue.tdaInfo.slbitmap s n →
        nrFindNbRb ue.retTbsParams.tbs ue.transformPrecoding ue.retInfo.tbSize 1 n = some q →
        q.success = true → q.tbs = ue.retInfo.tbSize → b.start = 0

/-- So is a grant without data. -/
def UlUe.NoDataOnFree (cell : UlCell) (ue : UlUe) (m : RbMap) : Prop :=
  let b := ue.currentUlBwp
  let sl := ue.tdaInfo.slbitmap
  ∀ s, b.FirstFree m sl s → s + cell.minGrantPrb < b.start + b.size → 0 < cell.minGrantPrb →
    b.start = 0 ∧ m.Free sl s (s + cell.minGrantPrb)

/-- New data is only put on free blocks; the BWP has to start at block 0 if it gets any. -/
def UlUe.NewDataFromZero (cell : UlCell) (ue : UlUe) (m : RbMap) : Prop :=
  let b := ue.currentUlBwp
  let sl := ue.tdaInfo.slbitmap
  ∀ s n q, b.FirstFree m sl s → b.RunAt m sl s n → s + cell.minGrantPrb < b.start + b.size →
    cell.minGrantPrb ≤ n →
    nrFindNbRb ue.tbsParams.tbs ue.transformPrecoding ue.bytes cell.minGrantPrb
      (ue.limitRb cell.minGrantPrb n) = some q →
    0 < q.nbRb → b.start = 0

/-- What the turn takes, if it takes something, is free and will be marked. -/
def UlTurn.TakesFree (cell : UlCell) (s : UlSlot) : UlTurn → Prop
  | .first ue => ue.msg4MsgBAcked = true → ue.ulFailure = false → s.remainUes ≠ 0 →
      if 0 ≤ ue.retransUlHarqHead then ue.RetransmissionOnFree s.vrbMapUl
      else 0 ≤ ue.availableUlHarqHead → ue.bytes = 0 → ue.doSched = true →
        ue.transmInterrupt = false → ue.cce = true → ue.NoDataOnFree cell s.vrbMapUl
  | .second ue => s.remainUes ≠ 0 → cell.minGrantPrb ≤ s.nRbSched → ue.cce = true →
      ue.NewDataFromZero cell s.vrbMapUl

/-- The UE of a turn. -/
def UlTurn.ue : UlTurn → UlUe
  | .first ue => ue
  | .second ue => ue

/-! ### The placements -/

/-- The blocks of a placement are free and the BWP starts at block 0, unless there are no blocks. -/
def SchedPusch.OnFree (p : SchedPusch) (b : Bwp) (m : RbMap) : Prop :=
  p.rbSize = 0 ∨ b.start = 0 ∧
    m.Free p.tdaInfo.slbitmap (b.start + p.rbStart) (b.start + p.rbStart + p.rbSize)

variable {cell : UlCell} {ue : UlUe} {m : RbMap} {b : Bwp} {sl : ℕ} {p : SchedPusch}

/-- The search ends at the first free block, or behind the BWP. -/
theorem firstFreeRb_spec (m : RbMap) (b : Bwp) (sl : ℕ) :
    b.FirstFree m sl (b.start + firstFreeRb m b sl) ∨ firstFreeRb m b sl = b.size := by
  obtain ⟨h₁, h₂, h₃, h₄⟩ := m.skipBusy_spec sl b.size b.start
  rw [firstFreeRb]
  generalize m.skipBusy sl b.size b.start = s at *
  have hs : b.start + (s - b.start) = s := by omega
  by_cases hend : s = b.start + b.size
  · exact .inr (by omega)
  · left
    rw [hs]
    exact ⟨h₁, by omega, h₄ (by omega), h₃⟩

theorem Bwp.FirstFree.firstFreeRb (hs : b.FirstFree m sl s) : b.start + firstFreeRb m b sl = s := by
  have h₁ := hs.1
  have h₂ := hs.2.1
  rw [Mac.firstFreeRb, hs.skipBusy (by omega)]
  omega

/-- What is said of the first free block is said of the one found. -/
theorem forall_firstFree_iff {n : ℕ} {Fits P : ℕ → Prop}
    (hfits : 0 < n → firstFreeRb m b sl ≠ b.size ∧ Fits (b.start + firstFreeRb m b sl)) :
    (∀ s, b.FirstFree m sl s → Fits s → 0 < n → P s) ↔
      n = 0 ∨ P (b.start + firstFreeRb m b sl) := by
  constructor
  · intro hfree
    rcases Nat.eq_zero_or_pos n with hn | hn
    · exact .inl hn
    · obtain ⟨hne, hfit⟩ := hfits hn
      exact .inr (hfree _ ((firstFreeRb_spec m b sl).resolve_right hne) hfit hn)
  · rintro (hn | hfree) s hs hfit hpos
    · omega
    · rwa [hs.firstFreeRb] at hfree

/-- A free block and the run behind it. -/
theorem Bwp.FirstFree.runAt (hs : b.FirstFree m sl s) :
    b.RunAt m sl s (m.freeRun sl (b.start + b.size - s) s) := by
  obtain ⟨h₁, h₂, h₃⟩ := m.freeRun_spec sl (b.start + b.size - s) s
  generalize m.freeRun sl (b.start + b.size - s) s = n at *
  have hlt := hs.2.1
  refine ⟨by omega, h₂, ?_⟩
  by_cases hend : s + n = b.start + b.size
  · exact .inl hend
  · exact .inr (h₃ (by omega))

theorem Bwp.RunAt.freeRun (hn : b.RunAt m sl s n) : m.freeRun sl (b.start + b.size - s) s = n := by
  obtain ⟨h₁, h₂, h₃⟩ := hn
  refine freeRun_eq (by omega) h₂ ?_
  rcases h₃ with h₃ | h₃
  · exact .inl (by omega)
  · exact .inr h₃

section

variable (hvalid : ue.tdaInfo.validTda = true)
include hvalid

/-- With the old time domain allocation. -/
theorem UlUe.placement_reuse (hreuse : ue.reusesOldTda = true)
    (h : ue.placement m = some (some p)) :
    let rbStart := firstFreeRb m ue.currentUlBwp ue.retInfo.tdaInfo.slbitmap
    p = { ue.retInfo with rbStart } ∧ rbStart + ue.retInfo.rbSize ≤ ue.currentUlBwp.size := by
  rw [UlUe.placement, hvalid, if_neg (by simp), if_pos hreuse] at h
  dsimp only at h ⊢
  split at h
  · simp at h
  · simp only [some.injEq] at h
    exact ⟨h.symm, by omega⟩

/-- With a new one. -/
theorem UlUe.placement_new (hreuse : ue.reusesOldTda = false) (h : ue.placement m = some (some p)) :
    let b := ue.currentUlBwp
    let rbStart := firstFreeRb m b ue.tdaInfo.slbitmap
    ∃ q, nrFindNbRb ue.retTbsParams.tbs ue.transformPrecoding ue.retInfo.tbSize 1
        (m.freeRun ue.tdaInfo.slbitmap (b.size - rbStart) (b.start + rbStart)) = some q ∧
      q.success = true ∧ q.tbs = ue.retInfo.tbSize ∧ p.rbStart = rbStart ∧ p.rbSize = q.nbRb ∧
      p.tdaInfo = ue.tdaInfo := by
  rw [UlUe.placement, hvalid, if_neg (by simp), hreuse, if_neg (by simp)] at h
  obtain ⟨q, hq, hp⟩ := map_eq_some_iff.1 h
  split at hp
  · rename_i hok
    simp only [Bool.and_eq_true, beq_iff_eq] at hok
    cases hp
    exact ⟨q, hq, hok.1, hok.2, rfl, rfl, rfl⟩
  · simp at hp

/-- A retransmission with its old time domain allocation takes free blocks exactly if the condition
on the first free block holds. -/
theorem UlUe.reuse_onFree_iff (hcce : ue.cce = true)
    (hreuse : ue.reusesOldTda = true) (h : ue.placement m = some (some p)) :
    p.rbStart + p.rbSize ≤ ue.currentUlBwp.size ∧
      (ue.RetransmissionOnFree m ↔ p.OnFree ue.currentUlBwp m) := by
  obtain ⟨rfl, hle⟩ := ue.placement_reuse hvalid hreuse h
  refine ⟨hle, ?_⟩
  rw [UlUe.RetransmissionOnFree, SchedPusch.OnFree]
  simp only [hvalid, hcce, hreuse, if_true, forall_const]
  exact forall_firstFree_iff fun hpos ↦ ⟨by omega, by omega⟩

/-- With a new one it takes free blocks exactly if the BWP starts at block 0. -/
theorem UlUe.new_onFree_iff (hcce : ue.cce = true)
    (hreuse : ue.reusesOldTda = false) (h : ue.placement m = some (some p)) :
    p.rbStart + p.rbSize ≤ ue.currentUlBwp.size ∧
      (ue.RetransmissionOnFree m ↔ p.OnFree ue.currentUlBwp m) := by
  obtain ⟨q, hq, hok, htbs, hstart, hsize, htda⟩ := ue.placement_new hvalid hreuse h
  rw [UlUe.RetransmissionOnFree, SchedPusch.OnFree, hstart, hsize, htda]
  simp only [hvalid, hcce, hreuse, Bool.false_eq_true, if_false, forall_const]
  generalize ue.currentUlBwp = b at *
  rcases firstFreeRb_spec m b ue.tdaInfo.slbitmap with hs | hs
  · have hcount : b.size - firstFreeRb m b ue.tdaInfo.slbitmap =
        b.start + b.size - (b.start + firstFreeRb m b ue.tdaInfo.slbitmap) := by omega
    rw [hcount] at hq
    have hrun := hs.runAt
    generalize m.freeRun _ _ _ = n at *
    have hpos := hs.run_pos hrun
    have hle := nrFindNbRb_le hq hpos (le_refl n)
    have hq₀ : 0 < q.nbRb := by
      obtain ⟨k, -, hk, -, rfl⟩ := nrFindNbRb_eq_some hq
      exact le_findNbRb _ _ _ (hk hpos)
    have hend := hrun.1
    refine ⟨by omega, fun hzero ↦ .inr ⟨hzero _ n q hs hrun hq hok htbs, ?_⟩, ?_⟩
    · exact hrun.2.1.mono (le_refl _) (by omega)
    · rintro (hnone | hfree) s k q' - - - - -
      · omega
      · exact hfree.1
  · -- without a free block, no other number of blocks has the size of the transport block
    rw [hs, Nat.sub_self, freeRun] at hq
    have hnone : q.nbRb = 0 := by
      obtain ⟨k, -, -, hk, rfl⟩ := nrFindNbRb_eq_some hq
      obtain ⟨heq, hle⟩ := findNbRb_le ue.retTbsParams.tbs ue.transformPrecoding ue.retInfo.tbSize 1 k
      have hmono := ue.retTbsParams.tbs_zero_le 1
      rw [hk rfl] at heq hle htbs ⊢
      rcases hle with hle | ⟨hone, hlt⟩
      · omega
      · rw [hone, htbs] at heq
        omega
    refine ⟨by omega, fun _ ↦ .inl hnone, fun _ s n q' hs' ↦ ?_⟩
    have hbehind := hs'.firstFreeRb
    have hlt := hs'.2.1
    omega

end

/-- What `allocate_ul_retransmission` returns. -/
theorem allocateUlRetransmission_cases (h : allocateUlRetransmission ue m = some r) :
    (r = none ∧ ue.RetransmissionOnFree m) ∨
      ∃ p, r = some p ∧ p.rbStart + p.rbSize ≤ ue.currentUlBwp.size ∧
        (ue.RetransmissionOnFree m ↔ p.OnFree ue.currentUlBwp m) := by
  obtain ⟨r', hr', hr⟩ := map_eq_some_iff.1 h
  by_cases hvalid : ue.tdaInfo.validTda = true
  swap
  · rw [UlUe.placement, if_pos (by simpa using hvalid), some.injEq] at hr'
    subst hr'
    exact .inl ⟨by rw [← hr]; simp, fun hvalid' ↦ absurd hvalid' hvalid⟩
  by_cases hcce : ue.cce = true
  swap
  · rw [if_neg hcce] at hr
    exact .inl ⟨hr.symm, fun _ hcce' ↦ absurd hcce' hcce⟩
  rw [if_pos hcce] at hr
  subst hr
  cases r' with
  | some p =>
    refine .inr ⟨p, rfl, ?_⟩
    cases hreuse : ue.reusesOldTda with
    | true => exact ue.reuse_onFree_iff hvalid hcce hreuse hr'
    | false => exact ue.new_onFree_iff hvalid hcce hreuse hr'
  | none =>
    refine .inl ⟨rfl, fun _ _ ↦ ?_⟩
    rw [UlUe.placement, hvalid, if_neg (by simp)] at hr'
    split at hr' <;> rename_i hreuse
    · rw [if_pos hreuse]
      intro sl s hs hend hpos
      have hfirst : _ + firstFreeRb m ue.currentUlBwp ue.retInfo.tdaInfo.slbitmap = s :=
        hs.firstFreeRb
      rw [if_neg (by omega)] at hr'
      simp at hr'
    · rw [if_neg hreuse]
      intro s n q hs hn hq hok htbs
      dsimp only at hr'
      have hfirst := hs.firstFreeRb
      have hcount : ue.currentUlBwp.size - firstFreeRb m ue.currentUlBwp ue.tdaInfo.slbitmap =
        ue.currentUlBwp.start + ue.currentUlBwp.size - s := by omega
      rw [hcount, hfirst, hn.freeRun, hq, map_some, hok, htbs, if_pos (by simp)] at hr'
      simp at hr'

/-- What a UE without data gets. -/
theorem allocateUlNoData_cases (cell : UlCell) (ue : UlUe) (m : RbMap) :
    (allocateUlNoData cell ue m = none ∧ ue.NoDataOnFree cell m) ∨
      ∃ p, allocateUlNoData cell ue m = some p ∧ p.rbStart + p.rbSize ≤ ue.currentUlBwp.size ∧
        (ue.NoDataOnFree cell m ↔ p.OnFree ue.currentUlBwp m) := by
  rw [allocateUlNoData]
  split
  · refine .inl ⟨rfl, fun s hs hend hpos ↦ ?_⟩
    have hfirst := hs.firstFreeRb
    omega
  · refine .inr ⟨_, rfl, by dsimp only; omega, ?_⟩
    rw [SchedPusch.OnFree, UlUe.NoDataOnFree]
    exact forall_firstFree_iff fun hpos ↦ ⟨by omega, by omega⟩

theorem lowerRb_le (exceeds : ℕ → Bool) (minRb rb : ℕ) : lowerRb exceeds minRb rb ≤ rb := by
  induction rb with
  | zero => exact le_refl 0
  | succ rb ih =>
    rw [lowerRb]
    split
    · omega
    · exact le_refl _

theorem UlUe.limitRb_le (ue : UlUe)
    (minRb maxRbSize : ℕ) : ue.limitRb minRb maxRbSize ≤ maxRbSize := by
  rw [UlUe.limitRb]
  split
  · exact le_refl _
  · exact lowerRb_le _ _ _

/-- The loop that starts at the block behind the first free one finds the same run. -/
theorem Bwp.FirstFree.one_add_freeRun (hs : b.FirstFree m sl s) :
    1 + m.freeRun sl (b.size - (s - b.start + 1)) (b.start + (s - b.start + 1)) =
      m.freeRun sl (b.start + b.size - s) s := by
  obtain ⟨h₁, h₂, h₃, -⟩ := hs
  obtain ⟨n, hn⟩ : ∃ n, b.start + b.size - s = n + 1 := ⟨b.start + b.size - s - 1, by omega⟩
  have hcount : b.size - (s - b.start + 1) = n := by omega
  have hnext : b.start + (s - b.start + 1) = s + 1 := by omega
  rw [hn, hcount, hnext, freeRun, h₃, if_neg (by simp), add_comm]

/-- What a UE with data gets. -/
theorem allocateUlNewData_cases (h : allocateUlNewData cell ue m = some r) :
    (r = none ∧ ue.NewDataFromZero cell m) ∨
      ∃ p, r = some p ∧ p.rbStart + p.rbSize ≤ ue.currentUlBwp.size ∧
        (ue.NewDataFromZero cell m ↔ p.OnFree ue.currentUlBwp m) := by
  rw [allocateUlNewData] at h
  rw [UlUe.NewDataFromZero]
  generalize ue.currentUlBwp = b at *
  rcases firstFreeRb_spec m b ue.tdaInfo.slbitmap with hs | hs
  swap
  · rw [if_pos (by omega), some.injEq] at h
    refine .inl ⟨h.symm, fun s n q hs' ↦ ?_⟩
    have hfirst := hs'.firstFreeRb
    omega
  have hone := hs.one_add_freeRun
  have hrun := hs.runAt
  rw [Nat.add_sub_cancel_left] at hone
  rw [hone] at h
  have hsame : ∀ s n, b.FirstFree m ue.tdaInfo.slbitmap s → b.RunAt m ue.tdaInfo.slbitmap s n →
      s = b.start + firstFreeRb m b ue.tdaInfo.slbitmap ∧
        n = m.freeRun ue.tdaInfo.slbitmap
          (b.start + b.size - (b.start + firstFreeRb m b ue.tdaInfo.slbitmap))
          (b.start + firstFreeRb m b ue.tdaInfo.slbitmap) := by
    intro s n hs' hn
    have hfirst := hs'.firstFreeRb
    subst hfirst
    exact ⟨rfl, hn.freeRun.symm⟩
  generalize m.freeRun _ _ _ = n at *
  split at h
  · rw [some.injEq] at h
    refine .inl ⟨h.symm, fun s k q hs' hk hend hmin ↦ ?_⟩
    obtain ⟨rfl, rfl⟩ := hsame s k hs' hk
    omega
  · obtain ⟨q, hq, rfl⟩ := map_eq_some_iff.1 h
    have hend := hrun.1
    have hle := nrFindNbRb_le hq (by omega) (ue.limitRb_le cell.minGrantPrb n)
    refine .inr ⟨_, rfl, by dsimp only; omega, fun hzero ↦ ?_, ?_⟩
    · rcases Nat.eq_zero_or_pos q.nbRb with hnone | hsome
      · exact .inl hnone
      · refine .inr ⟨hzero _ n q hs hrun (by omega) (by omega) hq hsome, ?_⟩
        exact hrun.2.1.mono (le_refl _) (by dsimp only; omega)
    · rintro (hnone | hfree) s k q' hs' hk hend' hmin hq' hsome
      · obtain ⟨rfl, rfl⟩ := hsame s k hs' hk
        rw [hq, some.injEq] at hq'
        subst hq'
        exact absurd hnone (by dsimp only; omega)
      · exact hfree.1

/-! ### One turn -/

/-- **What a turn can do**: leave the map as it is, or make one grant in the BWP. The condition
says of that grant that it is on free blocks. -/
theorem ulTurn_cases (h : ulTurn cell s t = some s') :
    (s'.vrbMapUl = s.vrbMapUl ∧ s'.grants = s.grants ∧ t.TakesFree cell s) ∨
      ∃ p used, s' = s.take t.ue p used ∧ p.rbStart + p.rbSize ≤ t.ue.currentUlBwp.size ∧
        (t.TakesFree cell s ↔ p.OnFree t.ue.currentUlBwp s.vrbMapUl) := by
  cases t with
  | first ue =>
    rw [ulTurn, UlSlot.first] at h
    split at h
    · rename_i hskip
      cases h
      refine .inl ⟨rfl, rfl, fun hacked hfail hremain ↦ ?_⟩
      simp [hacked, hfail, hremain] at hskip
    rename_i hue
    simp only [Bool.or_eq_true, Bool.not_eq_true', beq_iff_eq, not_or, Bool.not_eq_false,
      Bool.not_eq_true] at hue
    obtain ⟨⟨hacked, hfail⟩, hremain⟩ := hue
    simp only [UlTurn.TakesFree, hacked, hfail, forall_const, ne_eq, hremain, not_false_eq_true]
    split at h
    · rename_i hhead
      rw [if_pos hhead]
      obtain ⟨r, hr, rfl⟩ := map_eq_some_iff.1 h
      rcases allocateUlRetransmission_cases hr with ⟨rfl, hfree⟩ | ⟨p, rfl, hin, hfree⟩
      · exact .inl ⟨rfl, rfl, hfree⟩
      · exact .inr ⟨p, 0, rfl, hin, hfree⟩
    rename_i hhead
    rw [if_neg hhead]
    split at h
    · cases h
      exact .inl ⟨rfl, rfl, fun havail' ↦ by omega⟩
    rename_i havail
    split at h
    · rename_i hidle
      cases h
      refine .inl ⟨rfl, rfl, fun _ hbytes hsched hinterrupt ↦ ?_⟩
      simp [hbytes, hsched, hinterrupt] at hidle
    rename_i hidle
    split at h
    · rename_i hbytes
      simp only [beq_iff_eq] at hbytes
      have hsched : ue.doSched = true ∧ ue.transmInterrupt = false := by
        simpa [hbytes] using hidle
      simp only [hbytes, hsched, forall_const, Int.not_lt.1 havail]
      split at h
      · rename_i hcce
        cases h
        refine .inl ⟨rfl, rfl, fun hcce' ↦ ?_⟩
        simp [hcce'] at hcce
      rename_i hcce
      simp only [Bool.not_eq_true', Bool.not_eq_false] at hcce
      simp only [hcce, forall_const]
      split at h
      · simp at h
      cases h
      rcases allocateUlNoData_cases cell ue s.vrbMapUl with ⟨hr, hfree⟩ | ⟨p, hr, hin, hfree⟩
      · rw [hr]
        exact .inl ⟨rfl, rfl, hfree⟩
      · rw [hr]
        exact .inr ⟨p, p.rbSize, rfl, hin, hfree⟩
    · rename_i hbytes
      cases h
      refine .inl ⟨rfl, rfl, fun _ hbytes' ↦ ?_⟩
      simp [hbytes'] at hbytes
  | second ue =>
    rw [ulTurn, UlSlot.second] at h
    split at h
    · rename_i hstop
      cases h
      refine .inl ⟨rfl, rfl, fun hremain hrb ↦ ?_⟩
      simp only [Bool.or_eq_true, beq_iff_eq, decide_eq_true_eq] at hstop
      omega
    rename_i hgo
    simp only [Bool.or_eq_true, beq_iff_eq, decide_eq_true_eq, not_or, Int.not_lt] at hgo
    split at h
    · rename_i hcce
      cases h
      refine .inl ⟨rfl, rfl, fun _ _ hcce' ↦ ?_⟩
      simp [hcce'] at hcce
    rename_i hcce
    simp only [Bool.not_eq_true', Bool.not_eq_false] at hcce
    simp only [UlTurn.TakesFree, ne_eq, hgo, not_false_eq_true, forall_const, hcce]
    split at h
    · simp at h
    obtain ⟨r, hr, rfl⟩ := map_eq_some_iff.1 h
    rcases allocateUlNewData_cases hr with ⟨rfl, hfree⟩ | ⟨p, rfl, hin, hfree⟩
    · exact .inl ⟨rfl, rfl, hfree⟩
    · exact .inr ⟨p, p.rbSize, rfl, hin, hfree⟩

/-! ### The slot -/

/-- What `pf_ul` has to keep. -/
structure UlSlot.Kept (entry : RbMap) (s : UlSlot) : Prop where
  reserved : Reserved entry.cells s.vrbMapUl.cells (s.grants.map fun g ↦ g.rect.cells)
  inBwp : ∀ g ∈ s.grants, g.schedPusch.rbStart + g.schedPusch.rbSize ≤ g.bwp.size

/-- What it keeps in any case: nothing but grants has been set. -/
structure UlSlot.OnlyGrants (entry : RbMap) (s : UlSlot) : Prop where
  kept : entry.cells ⊆ s.vrbMapUl.cells
  only : ∀ c ∈ s.vrbMapUl.cells,
    c ∈ entry.cells ∨ ∃ a ∈ s.grants.map fun g ↦ g.rect.cells, c ∈ a

/-- The loop marks nothing but blocks of the grant. -/
theorem markPusch_subset (m : RbMap) (b : Bwp) (p : SchedPusch) (rnti : ℕ) :
    (markPusch m b p).cells ⊆ m.cells ∪ (UlGrant.rect ⟨rnti, b, p⟩).cells :=
  mark_subset (r := UlGrant.rect ⟨rnti, b, p⟩) (by simp only [UlGrant.rect]; omega)
    (by simp only [UlGrant.rect]; omega)

/-- A grant is on free blocks and marked by the loop exactly if it is free and the BWP starts at
block 0. -/
theorem SchedPusch.onFree_iff (m : RbMap) (b : Bwp) (p : SchedPusch) (rnti : ℕ) :
    p.OnFree b m ↔ Disjoint (UlGrant.rect ⟨rnti, b, p⟩).cells m.cells ∧
      (UlGrant.rect ⟨rnti, b, p⟩).cells ⊆ (markPusch m b p).cells := by
  constructor
  · rintro (hsize | ⟨hstart, hfree⟩)
    · have hempty : (UlGrant.rect ⟨rnti, b, p⟩).cells = ∅ := Rect.cells_of_size_zero hsize
      simp [hempty]
    · refine ⟨RbMap.Free.disjoint (r := UlGrant.rect ⟨rnti, b, p⟩) hfree, ?_⟩
      exact rect_subset_mark (r := UlGrant.rect ⟨rnti, b, p⟩)
        (by simp only [UlGrant.rect]; omega) (by simp only [UlGrant.rect]; omega)
  · rintro ⟨hfree, hset⟩
    rcases Nat.eq_zero_or_pos p.rbSize with hsize | hsize
    · exact .inl hsize
    have hpos := p.tdaInfo.pos_symbols
    refine .inr ⟨?_, fun rb h₁ h₂ ↦ ?_⟩
    · -- the last block of the grant is one that the loop reaches
      have hmem : (b.start + p.rbStart + p.rbSize - 1, p.tdaInfo.startSymbolIndex) ∈
          (UlGrant.rect ⟨rnti, b, p⟩).cells := by
        refine ⟨⟨?_, ?_⟩, Nat.le_refl _, ?_⟩ <;> simp only [UlGrant.rect] <;> omega
      refine Nat.eq_zero_of_not_pos fun hstart ↦ Set.disjoint_left.1 hfree hmem ?_
      have hmark : ((markPusch m b p) (b.start + p.rbStart + p.rbSize - 1)).testBit
        p.tdaInfo.startSymbolIndex = true := hset hmem
      rwa [markPusch, mark, if_neg (by omega)] at hmark
    · -- a busy block has a symbol of the grant
      refine Bool.eq_false_iff.2 fun hbusy ↦ ?_
      obtain ⟨i, hi⟩ := Nat.exists_testBit_of_ne_zero (bne_iff_ne.1 hbusy)
      rw [Nat.testBit_and, Bool.and_eq_true, p.tdaInfo.testBit_slbitmap, decide_eq_true_eq] at hi
      have hmem : (rb, i) ∈ (UlGrant.rect ⟨rnti, b, p⟩).cells := ⟨⟨h₁, h₂⟩, hi.2⟩
      exact Set.disjoint_left.1 hfree hmem hi.1

variable {entry : RbMap} {s s' : UlSlot} {t : UlTurn}

theorem UlSlot.OnlyGrants.ulTurn (hs : s.OnlyGrants entry) (h : ulTurn cell s t = some s') :
    s'.OnlyGrants entry := by
  rcases ulTurn_cases h with ⟨hmap, hgrants, -⟩ | ⟨p, used, rfl, -, -⟩
  · exact ⟨hmap ▸ hs.kept, by rw [hmap, hgrants]; exact hs.only⟩
  · refine ⟨hs.kept.trans (subset_mark _ _ _ _ _), fun c hc ↦ ?_⟩
    rcases markPusch_subset s.vrbMapUl t.ue.currentUlBwp p t.ue.rnti hc with hc | hc
    · rcases hs.only c hc with hentry | ⟨a, ha, hca⟩
      · exact .inl hentry
      · exact .inr ⟨a, mem_cons_of_mem _ ha, hca⟩
    · exact .inr ⟨_, mem_cons_self .., hc⟩

/-- A turn that takes free blocks keeps the slot. -/
theorem UlSlot.Kept.ulTurn (hs : s.Kept entry) (ht : t.TakesFree cell s)
    (h : ulTurn cell s t = some s') : s'.Kept entry := by
  rcases ulTurn_cases h with ⟨hmap, hgrants, -⟩ | ⟨p, used, rfl, hin, hfree⟩
  · exact ⟨by rw [hmap, hgrants]; exact hs.reserved, by rw [hgrants]; exact hs.inBwp⟩
  · obtain ⟨hdis, hset⟩ := (p.onFree_iff s.vrbMapUl t.ue.currentUlBwp t.ue.rnti).1 (hfree.1 ht)
    exact ⟨hs.reserved.grant hdis (subset_mark _ _ _ _ _) hset,
      forall_mem_cons.2 ⟨hin, hs.inBwp⟩⟩

/-- A slot that is kept was kept by a turn that took free blocks. -/
theorem UlSlot.Kept.before (hs : s.OnlyGrants entry) (h : Mac.ulTurn cell s t = some s')
    (hs' : s'.Kept entry) : s.Kept entry ∧ t.TakesFree cell s := by
  rcases ulTurn_cases h with ⟨hmap, hgrants, hfree⟩ | ⟨p, used, rfl, hin, hfree⟩
  · refine ⟨⟨?_, ?_⟩, hfree⟩
    · rw [← hmap, ← hgrants]
      exact hs'.reserved
    · rw [← hgrants]
      exact hs'.inBwp
  · have hmark := markPusch_subset s.vrbMapUl t.ue.currentUlBwp p t.ue.rnti
    refine ⟨⟨hs'.reserved.before_grant hs.kept hmark, ?_⟩, hfree.2 ?_⟩
    · exact (forall_mem_cons.1 hs'.inBwp).2
    · refine (p.onFree_iff s.vrbMapUl t.ue.currentUlBwp t.ue.rnti).2 ⟨?_, ?_⟩
      · exact hs'.reserved.disjoint_last hs.only
      · exact hs'.reserved.grant_subset _ (mem_cons_self ..)

/-- Every turn of both loops of `pf_ul` takes free blocks, if any, and marks them. -/
def PfUlTakesFree (cell : UlCell) (qsort : List UlUe → List UlUe) (vrbMapUl : RbMap)
    (ueList : List UlUe) (maxNumUe : ℕ) (nRbSched : ℤ) : Prop :=
  let init := UlSlot.init vrbMapUl maxNumUe nRbSched
  AdmittedAlong (ulTurn cell) (fun s t ↦ t.TakesFree cell s) init (ueList.map .first) ∧
    ∀ s, (ueList.map UlTurn.first).foldlM (ulTurn cell) init = some s →
      AdmittedAlong (ulTurn cell) (fun s t ↦ t.TakesFree cell s) s ((qsort s.ueSched).map .second)

/-- **Uplink grants do not collide exactly when every turn takes free blocks in a BWP from block
0.** Then they are pairwise disjoint, meet nothing that was taken on entry, lie in their BWPs, and
the map has them all. -/
theorem pfUl_reserves_iff_takesFree {cell : UlCell} {qsort : List UlUe → List UlUe}
    {vrbMapUl : RbMap} {ueList : List UlUe} {maxNumUe : ℕ} {nRbSched : ℤ} {s : UlSlot}
    (h : pfUl cell qsort vrbMapUl ueList maxNumUe nRbSched = some s) :
    (Reserved vrbMapUl.cells s.vrbMapUl.cells (s.grants.map fun g ↦ g.rect.cells) ∧
      ∀ g ∈ s.grants, g.schedPusch.rbStart + g.schedPusch.rbSize ≤ g.bwp.size) ↔
    PfUlTakesFree cell qsort vrbMapUl ueList maxNumUe nRbSched := by
  obtain ⟨s₁, h₁, h₂⟩ := bind_eq_some_iff.1 h
  constructor
  · rintro ⟨hreserved, hin⟩
    have hinit : (UlSlot.init vrbMapUl maxNumUe nRbSched).OnlyGrants vrbMapUl :=
      ⟨subset_rfl, fun c hc ↦ .inl hc⟩
    have honly : s₁.OnlyGrants vrbMapUl :=
      foldlM_invariant (fun hs h ↦ UlSlot.OnlyGrants.ulTurn hs h) hinit h₁
    obtain ⟨hadm₂, hs₁⟩ := AdmittedAlong.of_backward
      (fun hs h ↦ UlSlot.OnlyGrants.ulTurn hs h) (fun _ hs h ↦ UlSlot.Kept.before hs h)
      honly h₂ ⟨hreserved, hin⟩
    obtain ⟨hadm₁, -⟩ := AdmittedAlong.of_backward
      (fun hs h ↦ UlSlot.OnlyGrants.ulTurn hs h) (fun _ hs h ↦ UlSlot.Kept.before hs h)
      hinit h₁ hs₁
    refine ⟨hadm₁, fun s₂ hs₂ ↦ ?_⟩
    rw [h₁, some.injEq] at hs₂
    exact hs₂ ▸ hadm₂
  · intro hfree
    have hinit : (UlSlot.init vrbMapUl maxNumUe nRbSched).Kept vrbMapUl :=
      ⟨Reserved.nil _, nofun⟩
    have hs₁ : s₁.Kept vrbMapUl :=
      hfree.1.invariant (fun hs ht h ↦ UlSlot.Kept.ulTurn hs ht h) hinit h₁
    have hs := (hfree.2 s₁ h₁).invariant (fun hs ht h ↦ UlSlot.Kept.ulTurn hs ht h) hs₁ h₂
    exact ⟨hs.reserved, hs.inBwp⟩

/-! ### Two UEs -/

/-- All symbols of a slot. -/
def wholeSlot : TdaInfo := { startSymbolIndex := 0, nrOfSymbols := 14 }

/-- A UE with five blocks to be sent again, in a BWP of 50 blocks. -/
def ulRetransmissionUe : UlUe where
  rnti := 1
  retransUlHarqHead := 0
  currentUlBwp := ⟨0, 50⟩
  retInfo := { rbSize := 5, tdaInfo := wholeSlot }
  schedPusch := { tdaInfo := wholeSlot }
  tda := 0
  tdaInfo := wholeSlot

/-- A UE that has sent a scheduling request. -/
def schedulingRequestUe (rnti bwpStart : ℕ) : UlUe where
  rnti := rnti
  currentUlBwp := ⟨bwpStart, 50⟩
  retInfo := { tdaInfo := wholeSlot }
  schedPusch := { qm := 2, r := 1200, tdaInfo := wholeSlot }
  tda := 0
  tdaInfo := wholeSlot
  doSched := true

theorem emptyUlMap_isSome :
    (pfUl ⟨5⟩ id (fun _ ↦ 0) [ulRetransmissionUe, schedulingRequestUe 2 0] 2 50).isSome := by
  decide

/-- In an empty slot the retransmission is at block 0, and the grant for the scheduling request
behind it. -/
theorem pfUl_reserves_in_empty_slot :
    let s := (pfUl ⟨5⟩ id (fun _ ↦ 0) [ulRetransmissionUe, schedulingRequestUe 2 0] 2 50).get
      emptyUlMap_isSome
    s.grants.map (·.rect) = [⟨5, 5, wholeSlot⟩, ⟨0, 5, wholeSlot⟩] ∧
      Reserved (cells fun _ ↦ 0) s.vrbMapUl.cells (s.grants.map fun g ↦ g.rect.cells) := by
  refine ⟨by decide, ((pfUl_reserves_iff_takesFree
    (some_get emptyUlMap_isSome).symm).2 ⟨⟨?_, ?_⟩, ?_⟩).1⟩
  · intro _ _ _
    rw [if_pos (by decide)]
    intro _ _
    exact fun s _ _ _ ↦ ⟨rfl, fun rb _ _ ↦ by simp [busy, UlSlot.init]⟩
  · rintro s ⟨⟩
    refine ⟨fun _ _ _ ↦ ?_, fun _ _ ↦ trivial⟩
    intro _ _ _ _ _ s hs _ _
    have hfirst := hs.firstFreeRb
    subst hfirst
    refine ⟨rfl, fun rb h₁ h₂ ↦ ?_⟩
    have hmark : ∀ rb < 10, 5 ≤ rb → busy (markPusch (fun _ ↦ 0) ⟨0, 50⟩
      { rbSize := 5, tdaInfo := wholeSlot }) wholeSlot.slbitmap rb = false := by decide
    exact hmark rb h₂ h₁
  · rintro s ⟨⟩
    trivial

/-- Block 12 is taken. -/
def block12Taken : RbMap := fun rb ↦ if rb = 12 then 0x3fff else 0

/-- In a BWP that starts at block 10, with block 12 taken, two scheduling requests are both answered
with blocks 10 to 14: the third of them was taken, and none of them is marked. -/
theorem pfUl_grants_collide :
    let s := (pfUl ⟨5⟩ id block12Taken [schedulingRequestUe 1 10, schedulingRequestUe 2 10] 2 50).get
      (by decide)
    s.grants.map (·.rect) = [⟨10, 5, wholeSlot⟩, ⟨10, 5, wholeSlot⟩] ∧
      ¬Reserved block12Taken.cells s.vrbMapUl.cells (s.grants.map fun g ↦ g.rect.cells) ∧
      ∃ g ∈ s.grants, ¬Disjoint g.rect.cells block12Taken.cells := by
  intro s
  have hgrants : s.grants.map (·.rect) = [⟨10, 5, wholeSlot⟩, ⟨10, 5, wholeSlot⟩] := by
    decide
  have hmem : ((12, 0) : ℕ × ℕ) ∈ Rect.cells ⟨10, 5, wholeSlot⟩ := ⟨by decide, by decide⟩
  have htaken : ((12, 0) : ℕ × ℕ) ∈ block12Taken.cells := by
    change (block12Taken 12).testBit 0 = true
    decide
  obtain ⟨g, hg, hrect⟩ : ∃ g ∈ s.grants, g.rect = ⟨10, 5, wholeSlot⟩ := by
    refine mem_map.1 ?_
    exact mem_cons_self ..
  rw [← hrect] at hmem
  exact ⟨hgrants, fun h ↦ Set.disjoint_left.1
    (h.disjoint_entry _ (mem_map_of_mem (f := fun g : UlGrant ↦ g.rect.cells) hg)) hmem htaken,
    g, hg, fun h ↦ Set.disjoint_left.1 h hmem htaken⟩

end OaiRan.Mac
