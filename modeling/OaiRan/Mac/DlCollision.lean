import OaiRan.Mac.DlScheduler

/-!
# Do downlink grants collide?

The search for free blocks counts from the first block of the carrier, and so does `vrb_map`; the
loops that mark what is taken stop at `rbSize`, which counts from the first block of the grant. They
mark the whole grant only if the blocks before it are none: new data in a BWP that starts at block
0, and a retransmission placed at block 0 (`DlTurn.MarksGrant`). Then no grant meets another one or
anything taken on entry, and the map has them all. Otherwise the blocks that are not marked are
given out again.
-/

namespace OaiRan.Mac

open Option DlGrant Nat RbMap

variable {fuel hi layers lo offset pmIndex : ℕ}

/-! ### Where there is room -/

/-- The retransmission will be at block 0 if there is room for it at all, or there is no control
channel for it. -/
def DlUe.RetransmissionAtZero (cell : DlCell) (ue : DlUe) (m : RbMap) : Prop :=
  let b := getBwpStartSize cell ue
  ue.tdaInfo.validTda = true → ue.controlChannels ≠ none →
    if ue.reusesOldTda then
      ∀ s, 0 < ue.retInfo.rbSize →
        b.RoomAt m ue.retInfo.tdaInfo.slbitmap ue.retInfo.rbSize s →
        b.RoomAt m ue.retInfo.tdaInfo.slbitmap ue.retInfo.rbSize 0
    else
      ∀ s n, b.FirstFree m ue.tdaInfo.slbitmap s → b.RunAt m ue.tdaInfo.slbitmap s n →
        let q := findNbRb (ue.retTbsParams ue.retLayers).tbs false ue.retInfo.tbSize 1 n
        q.success = true → q.tbs = ue.retInfo.tbSize → s = 0

/-- The BWP starts at block 0 if there is room for new data in it, or there is no control channel
for it. -/
def DlUe.NewDataFromZero (cell : DlCell) (ue : DlUe) (m : RbMap) : Prop :=
  let b := getBwpStartSize cell ue
  ue.controlChannels ≠ none → ∀ s, b.FirstFree m ue.tdaInfo.slbitmap s →
    s + minRbSize ≤ b.start + b.size → m.Free ue.tdaInfo.slbitmap s (s + minRbSize) → b.start = 0

/-- What the turn takes, if it takes something, starts where the marking loop starts. -/
def DlTurn.MarksGrant (cell : DlCell) (s : DlSlot) : DlTurn → Prop
  | .first ue => ue.msg4MsgBAcked = true → ue.ulFailure = false → s.remainUes ≠ 0 →
      0 ≤ ue.retransDlHarqHead → ue.RetransmissionAtZero cell s.vrbMap
  | .second ue => s.remainUes ≠ 0 → minRbSize ≤ s.nRbSched → 0 ≤ ue.availableDlHarqHead →
      ue.NewDataFromZero cell s.vrbMap

/-- The UE of a turn. -/
def DlTurn.ue : DlTurn → DlUe
  | .first ue => ue
  | .second ue => ue

/-! ### The search -/

variable {cell : DlCell} {ue : DlUe} {m : RbMap} {b : Bwp} {sl : ℕ}

variable {need rbEnd rbStart k : ℕ} {s s' : DlSlot} {p : SchedPdsch} {r : RbMap × SchedPdsch}
  {entry : RbMap} {t : DlTurn} {words : List (ℕ × ℕ)}

/-- The blocks found are free. -/
theorem searchRun_sound {fuel s : ℕ} (h : searchRun m sl need rbEnd fuel rbStart = some s) :
    rbStart ≤ s ∧ s + 1 < rbEnd ∧ s + need ≤ rbEnd ∧ m.Free sl s (s + need) := by
  induction fuel generalizing rbStart with
  | zero => simp [searchRun] at h
  | succ fuel ih =>
    rw [searchRun] at h
    obtain ⟨hle, -, -, -⟩ := m.skipBusy_spec sl (rbEnd - 1 - rbStart) rbStart
    generalize m.skipBusy sl (rbEnd - 1 - rbStart) rbStart = s₁ at h hle
    dsimp only at h
    split at h
    · simp at h
    obtain ⟨hn, hfree, -⟩ := m.freeRun_spec sl (min need (rbEnd - s₁)) s₁
    generalize m.freeRun sl (min need (rbEnd - s₁)) s₁ = n at h hn hfree
    split at h
    · obtain ⟨h₁, h₂⟩ := ih h
      exact ⟨by omega, h₂⟩
    · cases h
      exact ⟨hle, by omega, by omega, hfree.mono (le_refl _) (by omega)⟩

/-- With enough free blocks at the start, the search ends there. -/
theorem searchRun_start (hneed : 0 < need) (hlt : rbStart + 1 < rbEnd)
    (hle : rbStart + need ≤ rbEnd) (hfree : m.Free sl rbStart (rbStart + need)) :
    searchRun m sl need rbEnd (fuel + 1) rbStart = some rbStart := by
  have hskip : m.skipBusy sl (rbEnd - 1 - rbStart) rbStart = rbStart := by
    obtain ⟨n, hn⟩ : ∃ n, rbEnd - 1 - rbStart = n + 1 := ⟨rbEnd - 2 - rbStart, by omega⟩
    rw [hn, skipBusy, hfree rbStart (le_refl _) (by omega)]
    rfl
  have hrun : m.freeRun sl (min need (rbEnd - rbStart)) rbStart = need := by
    obtain ⟨h₁, -, h₃⟩ := m.freeRun_spec sl (min need (rbEnd - rbStart)) rbStart
    by_contra hne
    have := h₃ (by omega)
    rw [hfree _ (by omega) (by omega)] at this
    exact Bool.false_ne_true this
  rw [searchRun, hskip, if_neg (by omega), hrun, if_neg (by omega)]

/-- The search finds room where there is some. -/
theorem searchRun_complete {s : ℕ} (rbStart fuel : ℕ) (hneed : 0 < need) (hle : rbStart ≤ s)
    (hlt : s + 1 < rbEnd) (hend : s + need ≤ rbEnd) (hfree : m.Free sl s (s + need))
    (hfuel : s < rbStart + fuel) : ∃ s', searchRun m sl need rbEnd fuel rbStart = some s' := by
  induction fuel generalizing rbStart with
  | zero => omega
  | succ fuel ih =>
    rw [searchRun]
    obtain ⟨h₁, h₂, h₃, h₄⟩ := m.skipBusy_spec sl (rbEnd - 1 - rbStart) rbStart
    generalize m.skipBusy sl (rbEnd - 1 - rbStart) rbStart = s₁ at *
    have hs₁ : s₁ ≤ s := by
      by_contra hgt
      have := h₃ s hle (by omega)
      rw [hfree s (le_refl _) (by omega)] at this
      exact Bool.false_ne_true this
    have hs₁free : m.busy sl s₁ = false := h₄ (by omega)
    dsimp only
    rw [if_neg (by omega)]
    obtain ⟨hn, hrun, hstop⟩ := m.freeRun_spec sl (min need (rbEnd - s₁)) s₁
    have hpos : 1 ≤ m.freeRun sl (min need (rbEnd - s₁)) s₁ :=
      le_freeRun (by omega) fun q h₁ h₂ ↦ by rwa [show q = s₁ by omega]
    generalize m.freeRun sl (min need (rbEnd - s₁)) s₁ = n at *
    split
    · -- the stretch is too short, and the room is behind it
      refine ih _ ?_ (by omega)
      by_contra hgt
      have := hstop (by omega)
      rw [hfree _ (by omega) (by omega)] at this
      exact Bool.false_ne_true this
    · exact ⟨s₁, rfl⟩

/-! ### One placement -/

/-- With the old time domain allocation: the grant is empty, or there is room for it. -/
theorem placeWithOldTda_spec (h : placeWithOldTda b ue m = some (rbStart, p)) :
    p = ue.retInfo ∧ (p.rbSize = 0 ∧ rbStart = b.start ∨
      b.RoomAt m p.tdaInfo.slbitmap p.rbSize rbStart) := by
  rw [placeWithOldTda] at h
  split at h
  · rename_i hsize
    obtain ⟨rfl, rfl⟩ := h
    exact ⟨rfl, .inl ⟨hsize, rfl⟩⟩
  · obtain ⟨s, hs, heq⟩ := map_eq_some_iff.1 h
    obtain ⟨rfl, rfl⟩ := heq
    exact ⟨rfl, .inr (searchRun_sound hs)⟩

/-- Room at block 0 is taken. -/
theorem placeWithOldTda_of_roomAt_zero (hsize : 0 < ue.retInfo.rbSize)
    (h : b.RoomAt m ue.retInfo.tdaInfo.slbitmap ue.retInfo.rbSize 0) :
    placeWithOldTda b ue m = some (0, ue.retInfo) := by
  obtain ⟨hstart, hlt, hle, hfree⟩ := h
  have hstart : b.start = 0 := by omega
  obtain ⟨n, hn⟩ : ∃ n, b.size = n + 1 := ⟨b.size - 1, by omega⟩
  rw [placeWithOldTda, if_neg (by omega), hstart, hn,
    searchRun_start hsize (by omega) (by omega) hfree, map_some]

/-- With a new one: the blocks are among the free ones from the first free block on. -/
theorem placeWithNewTda_spec (h : placeWithNewTda b ue layers pmIndex m = some (rbStart, p)) :
    p.tdaInfo = ue.tdaInfo ∧ b.start ≤ rbStart ∧ ∃ n, p.rbSize ≤ n ∧
      m.Free ue.tdaInfo.slbitmap rbStart (rbStart + n) ∧
      (0 < n → b.FirstFree m ue.tdaInfo.slbitmap rbStart ∧
        b.RunAt m ue.tdaInfo.slbitmap rbStart n) ∧
      (findNbRb (ue.retTbsParams layers).tbs false ue.retInfo.tbSize 1 n).success = true ∧
      (findNbRb (ue.retTbsParams layers).tbs false ue.retInfo.tbSize 1 n).tbs =
        ue.retInfo.tbSize := by
  have hcount : b.start + b.size - 1 - b.start = b.size - 1 := by omega
  rw [placeWithNewTda, hcount] at h
  obtain ⟨h₁, h₂, h₃, h₄⟩ := m.skipBusy_spec ue.tdaInfo.slbitmap (b.size - 1) b.start
  generalize m.skipBusy ue.tdaInfo.slbitmap (b.size - 1) b.start = s at *
  obtain ⟨hrun, hfree, hstop⟩ := m.freeRun_spec ue.tdaInfo.slbitmap (b.start + b.size - s) s
  generalize m.freeRun ue.tdaInfo.slbitmap (b.start + b.size - s) s = n at *
  split at h
  · rename_i hq
    simp only [Bool.and_eq_true, beq_iff_eq] at hq
    simp only [some.injEq, Prod.mk.injEq] at h
    obtain ⟨rfl, rfl⟩ := h
    refine ⟨rfl, h₁, n, ?_, hfree, fun hn ↦ ⟨⟨h₁, by omega, ?_, h₃⟩, by omega, hfree, ?_⟩, hq⟩
    · obtain ⟨htbs, hle⟩ := findNbRb_le (ue.retTbsParams layers).tbs false ue.retInfo.tbSize 1 n
      rcases hle with hle | ⟨hone, hlt⟩
      · exact hle
      · -- without a free block, no other number of blocks has the size of the transport block
        have := (ue.retTbsParams layers).tbs_zero_le 1
        rw [hone, hq.2] at htbs
        by_contra hn
        have hn : n = 0 := by
          dsimp only at hn
          omega
        rw [hn] at hlt
        omega
    · exact hfree s (le_refl _) (by omega)
    · by_cases hend : s + n = b.start + b.size
      · exact .inl hend
      · exact .inr (hstop (by omega))
  · simp at h

/-- The first free block and the run from it decide the placement. -/
theorem placeWithNewTda_of_firstFree {s n layers : ℕ} (pmIndex : ℕ)
    (hs : b.FirstFree m ue.tdaInfo.slbitmap s) (hn : b.RunAt m ue.tdaInfo.slbitmap s n)
    (hok : (findNbRb (ue.retTbsParams layers).tbs false ue.retInfo.tbSize 1 n).success = true)
    (htbs : (findNbRb (ue.retTbsParams layers).tbs false ue.retInfo.tbSize 1 n).tbs =
      ue.retInfo.tbSize) :
    ∃ p, placeWithNewTda b ue layers pmIndex m = some (s, p) ∧ 0 < p.rbSize := by
  obtain ⟨h₁, h₂, h₃, h₄⟩ := hs
  obtain ⟨h₅, h₆, h₇⟩ := hn
  have hcount : b.start + b.size - 1 - b.start = b.size - 1 := by omega
  have hskip : m.skipBusy ue.tdaInfo.slbitmap (b.size - 1) b.start = s :=
    skipBusy_eq h₁ (by omega) h₄ h₃
  have hrun : m.freeRun ue.tdaInfo.slbitmap (b.start + b.size - s) s = n := by
    refine freeRun_eq (by omega) h₆ ?_
    rcases h₇ with h₇ | h₇
    · exact .inl (by omega)
    · exact .inr h₇
  have hpos : 1 ≤ n := by
    by_contra hzero
    have hzero : n = 0 := by omega
    rcases h₇ with h₇ | h₇
    · omega
    · rw [hzero, add_zero, h₃] at h₇
      exact Bool.false_ne_true h₇
  rw [placeWithNewTda, hcount]
  rw [hskip, hrun, hok, htbs, Bool.true_and, if_pos (by simp)]
  exact ⟨_, rfl, le_findNbRb _ _ _ hpos⟩

/-- What `allocate_dl_retransmission` does when it returns true. -/
theorem allocateDlRetransmission_eq_some (h : allocateDlRetransmission cell ue m = some r) :
    ∃ rbStart retInfo words alloc, ue.placement cell m = some (rbStart, retInfo) ∧
      ue.controlChannels = some (words, alloc) ∧
      r = ((m.setWords words).mark rbStart retInfo.rbSize 0 retInfo.tdaInfo.slbitmap,
        { retInfo with
          rbStart := rbStart - (getBwpStartSize cell ue).start
          pucchAllocation := alloc }) := by
  rw [allocateDlRetransmission] at h
  split at h
  · rename_i rbStart retInfo words alloc hplaced hctl
    simp only [some.injEq] at h
    exact ⟨rbStart, retInfo, words, alloc, hplaced, hctl, h.symm⟩
  · simp at h

/-- A retransmission is placed on free blocks of the BWP. -/
theorem DlUe.placement_free (h : ue.placement cell m = some (rbStart, p)) :
    (getBwpStartSize cell ue).start ≤ rbStart ∧
      m.Free p.tdaInfo.slbitmap rbStart (rbStart + p.rbSize) ∧
      (p.tdaInfo = ue.retInfo.tdaInfo ∨ p.tdaInfo = ue.tdaInfo) := by
  rw [DlUe.placement] at h
  split at h
  · simp at h
  split at h
  · obtain ⟨rfl, ⟨hsize, rfl⟩ | hroom⟩ := placeWithOldTda_spec h
    · exact ⟨le_refl _, fun q h₁ h₂ ↦ by omega, .inl rfl⟩
    · exact ⟨hroom.1, hroom.2.2.2, .inl rfl⟩
  · obtain ⟨htda, hstart, n, hn, hfree, -⟩ := placeWithNewTda_spec h
    exact ⟨hstart, by rw [htda]; exact hfree.mono (le_refl _) (by omega), .inr htda⟩

/-- It is empty or at block 0 when the condition holds. -/
theorem DlUe.placement_zero (hzero : ue.RetransmissionAtZero cell m)
    (hctl : ue.controlChannels ≠ none) (h : ue.placement cell m = some (rbStart, p)) :
    p.rbSize = 0 ∨ rbStart = 0 := by
  rw [DlUe.placement] at h
  split at h
  · simp at h
  rename_i hvalid
  have hzero := hzero (by simpa using hvalid) hctl
  split at h <;> rename_i hreuse
  · rw [if_pos hreuse] at hzero
    obtain ⟨rfl, ⟨hsize, -⟩ | hroom⟩ := placeWithOldTda_spec h
    · exact .inl hsize
    · rcases Nat.eq_zero_or_pos ue.retInfo.rbSize with hsize | hsize
      · exact .inl hsize
      · rw [placeWithOldTda_of_roomAt_zero hsize (hzero rbStart hsize hroom)] at h
        simp only [some.injEq, Prod.mk.injEq] at h
        exact .inr h.1.symm
  · rw [if_neg hreuse] at hzero
    obtain ⟨-, -, n, hn, -, hrun, hok, htbs⟩ := placeWithNewTda_spec h
    rcases Nat.eq_zero_or_pos n with hpos | hpos
    · exact .inl (by omega)
    · exact .inr (hzero rbStart n (hrun hpos).1 (hrun hpos).2 hok htbs)

/-- It is somewhere else when the condition fails. -/
theorem DlUe.placement_not_zero (h : ¬ue.RetransmissionAtZero cell m) :
    ue.controlChannels ≠ none ∧
      ∃ rbStart p, ue.placement cell m = some (rbStart, p) ∧ 0 < p.rbSize ∧ 0 < rbStart := by
  rw [DlUe.RetransmissionAtZero] at h
  simp only [Classical.not_imp] at h
  obtain ⟨hvalid, hctl, h⟩ := h
  refine ⟨hctl, ?_⟩
  rw [DlUe.placement, if_neg (by simp [hvalid])]
  split at h <;> rename_i hreuse
  · rw [if_pos hreuse]
    simp only [not_forall] at h
    obtain ⟨s, hsize, ⟨h₁, h₂, h₃, h₄⟩, hroom⟩ := h
    obtain ⟨s', hs'⟩ := searchRun_complete (getBwpStartSize cell ue).start
      (getBwpStartSize cell ue).size hsize h₁ h₂ h₃ h₄ (by omega)
    have hplaced : placeWithOldTda (getBwpStartSize cell ue) ue m = some (s', ue.retInfo) := by
      rw [placeWithOldTda, if_neg (by omega), hs', map_some]
    refine ⟨s', ue.retInfo, hplaced, hsize, Nat.pos_of_ne_zero fun hs ↦ hroom ?_⟩
    obtain ⟨-, ⟨hsize', -⟩ | hroom'⟩ := placeWithOldTda_spec hplaced
    · omega
    · rwa [hs] at hroom'
  · rw [if_neg hreuse]
    simp only [not_forall] at h
    obtain ⟨s, n, hs, hn, hok, htbs, hne⟩ := h
    obtain ⟨p, hp, hsize⟩ := placeWithNewTda_of_firstFree ue.retPmIndex hs hn hok htbs
    exact ⟨s, p, hp, hsize, Nat.pos_of_ne_zero hne⟩

/-! ### One grant -/

/-- **A retransmission at block 0** is free and is marked. -/
theorem allocateDlRetransmission_takesFree (hzero : ue.RetransmissionAtZero cell m)
    (h : allocateDlRetransmission cell ue m = some r) :
    TakesFree m r.1 (rect ⟨ue.rnti, (getBwpStartSize cell ue).start, r.2⟩) := by
  obtain ⟨rbStart, p, words, alloc, hplaced, hctl, rfl⟩ := allocateDlRetransmission_eq_some h
  obtain ⟨hstart, hfree, -⟩ := ue.placement_free hplaced
  rcases ue.placement_zero hzero (by simp [hctl]) hplaced with hsize | hs
  · exact .of_size_zero hsize ((m.subset_setWords words).trans (subset_mark _ _ _ _ _))
  · have hstart : (getBwpStartSize cell ue).start = 0 := by omega
    rw [hs] at hfree
    refine .mark (m.subset_setWords words) rfl ?_ ?_ ?_
    all_goals simp only [rect, hs, hstart, Nat.zero_add, Nat.sub_zero, Nat.add_zero]
    · simpa using hfree
    · exact le_refl _
    · exact Nat.le_refl _

/-- What the second loop of `pf_dl` does for a UE that it gives something. -/
theorem allocateDlNewData_eq_some (h : allocateDlNewData cell ue m = some r) :
    let b := getBwpStartSize cell ue
    ∃ s n words alloc, b.FirstFree m ue.tdaInfo.slbitmap s ∧
      m.Free ue.tdaInfo.slbitmap s (s + n) ∧ s + n ≤ b.start + b.size ∧ minRbSize ≤ n ∧
      ue.controlChannels = some (words, alloc) ∧ minRbSize ≤ r.2.rbSize ∧ r.2.rbSize ≤ n ∧
      r.2.rbStart = s - b.start ∧ r.2.tdaInfo = ue.tdaInfo ∧
      r.1 = (m.setWords words).mark b.start r.2.rbSize (s - b.start) ue.tdaInfo.slbitmap := by
  rw [allocateDlNewData] at h
  generalize getBwpStartSize cell ue = b at *
  obtain ⟨h₁, h₂, h₃, h₄⟩ := m.skipBusy_spec ue.tdaInfo.slbitmap (b.size - 1) b.start
  generalize m.skipBusy ue.tdaInfo.slbitmap (b.size - 1) b.start = s at *
  obtain ⟨hrun, hfree, -⟩ := m.freeRun_spec ue.tdaInfo.slbitmap (b.size - (s - b.start + 1))
    (b.start + (s - b.start + 1))
  generalize m.freeRun ue.tdaInfo.slbitmap (b.size - (s - b.start + 1))
    (b.start + (s - b.start + 1)) = n at *
  split at h
  · simp at h
  split at h
  · simp at h
  rename_i words alloc hctl
  cases h
  have hfive : minRbSize = 5 := rfl
  have hbusy : m.busy ue.tdaInfo.slbitmap s = false := h₄ (by omega)
  refine ⟨s, 1 + n, words, alloc, ⟨h₁, by omega, hbusy, h₃⟩, fun rb hle hlt ↦ ?_, by omega,
    by omega, hctl, le_findNbRb _ _ _ (by omega), ?_, rfl, rfl, rfl⟩
  · by_cases heq : rb = s
    · rwa [heq]
    · exact hfree rb (by omega) (by omega)
  · rcases (findNbRb_le ue.tbsParams.tbs false
      (ue.numTotalBytes + (3 * 4 + if ue.taDue = true then 2 else 0)) minRbSize (1 + n)).2 with
      hle | ⟨hle, -⟩
    · exact hle
    · dsimp only
      omega

/-- A UE with room and a control channel is given something. -/
theorem allocateDlNewData_isSome {s : ℕ} (hctl : ue.controlChannels ≠ none)
    (hs : (getBwpStartSize cell ue).FirstFree m ue.tdaInfo.slbitmap s)
    (hle : s + minRbSize ≤ (getBwpStartSize cell ue).start + (getBwpStartSize cell ue).size)
    (hfree : m.Free ue.tdaInfo.slbitmap s (s + minRbSize)) :
    ∃ r, allocateDlNewData cell ue m = some r := by
  rw [allocateDlNewData]
  generalize getBwpStartSize cell ue = b at *
  obtain ⟨h₁, h₂, h₃, h₄⟩ := hs
  have hfive : minRbSize = 5 := rfl
  have hskip : m.skipBusy ue.tdaInfo.slbitmap (b.size - 1) b.start = s :=
    skipBusy_eq h₁ (by omega) h₄ h₃
  have hrun : 4 ≤ m.freeRun ue.tdaInfo.slbitmap (b.size - (s - b.start + 1))
      (b.start + (s - b.start + 1)) :=
    le_freeRun (by omega) (hfree.mono (by omega) (by omega))
  rw [hskip, if_neg (by omega)]
  obtain ⟨⟨words, alloc⟩, hctl⟩ := ne_none_iff_exists'.1 hctl
  rw [hctl]
  exact ⟨_, rfl⟩

/-- **New data in a BWP from block 0** is free and is marked. -/
theorem allocateDlNewData_takesFree (hzero : ue.NewDataFromZero cell m)
    (h : allocateDlNewData cell ue m = some r) :
    TakesFree m r.1 (rect ⟨ue.rnti, (getBwpStartSize cell ue).start, r.2⟩) := by
  obtain ⟨s, n, words, alloc, hs, hfree, hle, hn, hctl, -, hsize, hrb, htda, hmap⟩ :=
    allocateDlNewData_eq_some h
  have hstart := hzero (by simp [hctl]) s hs (by omega) (hfree.mono (le_refl _) (by omega))
  rw [hmap]
  refine .mark (m.subset_setWords words) (by simp [rect, htda]) ?_ ?_ ?_
  all_goals simp only [rect, hstart, hrb, Nat.zero_add, Nat.sub_zero]
  · exact hfree.mono (le_refl _) (by omega)
  · exact le_refl _
  · omega

/-! ### The slot -/

/-- What the slot has to keep. -/
def DlSlot.Kept (entry : RbMap) (s : DlSlot) : Prop :=
  Reserved entry.cells s.vrbMap.cells (s.grants.map fun g ↦ g.rect.cells)

theorem DlSlot.Kept.take (hs : s.Kept entry)
    (hr : TakesFree s.vrbMap r.1 (rect ⟨ue.rnti, (getBwpStartSize cell ue).start, r.2⟩)) :
    (s.take cell ue r).Kept entry :=
  hs.grant hr.free hr.kept hr.set

/-- Every turn of both loops of `pf_dl` marks the grant that it makes. -/
def PfDlMarksGrants (cell : DlCell) (qsort : List DlUe → List DlUe) (vrbMap : RbMap)
    (ueList : List DlUe) (maxNumUe : ℕ) (nRbSched : ℤ) : Prop :=
  let init := DlSlot.init vrbMap maxNumUe nRbSched
  AdmittedAlong (dlTurn cell) (fun s t ↦ t.MarksGrant cell s) init (ueList.map .first) ∧
    ∀ s, (ueList.map DlTurn.first).foldlM (dlTurn cell) init = some s →
      AdmittedAlong (dlTurn cell) (fun s t ↦ t.MarksGrant cell s) s ((qsort s.ueSched).map .second)

/-! ### Grants that are not marked -/

/-- The PDCCH is in the symbols before `k`, and the PDSCH behind them. -/
structure DlUe.PdcchBefore (ue : DlUe) (k : ℕ) : Prop where
  words : ∀ words, ue.cce = some words → ∀ w ∈ words, w.2 < 2 ^ k
  tdaInfo : k ≤ ue.tdaInfo.startSymbolIndex
  retInfo : k ≤ ue.retInfo.tdaInfo.startSymbolIndex

/-- A cell behind the PDCCH has been granted and is not set, or two grants meet. -/
def DlSlot.Spoilt (k : ℕ) (s : DlSlot) : Prop :=
  (∃ g ∈ s.grants, ∃ c ∈ g.rect.cells, k ≤ c.2 ∧ c ∉ s.vrbMap.cells) ∨
    ¬(s.grants.map fun g ↦ g.rect.cells).Pairwise Disjoint

/-- What an allocation leaves behind: nothing is set behind the PDCCH but its own cells. -/
def SetsOwn (k : ℕ) (m m' : RbMap) (r : Rect) : Prop :=
  ∀ c ∈ m'.cells, k ≤ c.2 → c ∈ m.cells ∨ c ∈ r.cells

theorem not_spoilt_of_kept (hs : s.Kept entry) : ¬s.Spoilt k := by
  rintro (⟨g, hg, c, hc, -, hset⟩ | hpair)
  · exact hset (hs.grant_subset g.rect.cells (List.mem_map_of_mem hg) hc)
  · exact hpair hs.pairwise

theorem DlSlot.Spoilt.take (hs : s.Spoilt k)
    (hr : SetsOwn k s.vrbMap r.1 (DlGrant.rect ⟨ue.rnti, (getBwpStartSize cell ue).start, r.2⟩)) :
    (s.take cell ue r).Spoilt k := by
  rcases hs with ⟨g, hg, c, hc, hk, hset⟩ | hpair
  · by_cases hset' : c ∈ r.1.cells
    · -- the cell is granted once more
      right
      intro hdis
      have hnew := (hr c hset' hk).resolve_left hset
      exact Set.disjoint_left.1 ((List.pairwise_cons.1 hdis).1 _ (List.mem_map_of_mem hg)) hnew hc
    · exact .inl ⟨g, List.mem_cons_of_mem _ hg, c, hc, hk, hset'⟩
  · exact .inr fun hdis ↦ hpair (List.pairwise_cons.1 hdis).2

theorem SetsOwn.mark {r : Rect} (hwords : ∀ w ∈ words, w.2 < 2 ^ k)
    (hsl : sl = r.tda.slbitmap) (hlo : r.rbFirst ≤ lo + offset)
    (hhi : hi + offset ≤ r.rbFirst + r.rbSize) :
    SetsOwn k m ((m.setWords words).mark lo hi offset sl) r := by
  subst hsl
  intro c hc hk
  rcases mark_subset hlo hhi hc with hc | hc
  · left
    have hc : (m.setWords words c.1).testBit c.2 = true := hc
    rwa [testBit_setWords hwords hk] at hc
  · exact .inr hc

/-- The last block of a grant that starts behind the first one marked has not been set. -/
theorem exists_not_mem_mark {r : Rect} (hwords : ∀ w ∈ words, w.2 < 2 ^ k)
    (hk : k ≤ r.tda.startSymbolIndex) (hsl : sl = r.tda.slbitmap)
    (hfree : m.Free sl r.rbFirst (r.rbFirst + r.rbSize)) (hsize : 0 < r.rbSize)
    (hhi : hi + offset < r.rbFirst + r.rbSize) :
    ∃ c ∈ r.cells, k ≤ c.2 ∧ c ∉ ((m.setWords words).mark lo hi offset sl).cells := by
  have hpos := r.tda.pos_symbols
  refine ⟨(r.rbFirst + r.rbSize - 1, r.tda.startSymbolIndex), ⟨⟨?_, ?_⟩, le_refl _, ?_⟩, hk,
    fun hc ↦ ?_⟩
  · omega
  · omega
  · omega
  · have hc : ((m.setWords words).mark lo hi offset sl (r.rbFirst + r.rbSize - 1)).testBit
        r.tda.startSymbolIndex = true := hc
    rw [mark, if_neg (by omega), testBit_setWords hwords hk,
      not_testBit_of_not_busy (hfree _ (by omega) (by omega))
        (by rw [hsl, r.tda.testBit_slbitmap]; exact decide_eq_true ⟨le_refl _, by omega⟩)] at hc
    exact Bool.false_ne_true hc

theorem DlUe.cce_of_controlChannels
    (h : ue.controlChannels = some (words, alloc)) : ue.cce = some words := by
  rw [DlUe.controlChannels] at h
  split at h
  · simp at h
  · rename_i words' hcce
    split at h
    · simp only [some.injEq, Prod.mk.injEq] at h
      rw [hcce, h.1]
    · obtain ⟨q, -, hq⟩ := map_eq_some_iff.1 h
      simp only [Prod.mk.injEq] at hq
      rw [hcce, hq.1]

section Spoil

variable {k : ℕ} (hk : ue.PdcchBefore k)

include hk

theorem allocateDlRetransmission_setsOwn (h : allocateDlRetransmission cell ue m = some r) :
    SetsOwn k m r.1 (rect ⟨ue.rnti, (getBwpStartSize cell ue).start, r.2⟩) := by
  obtain ⟨rbStart, p, words, alloc, hplaced, hctl, rfl⟩ := allocateDlRetransmission_eq_some h
  obtain ⟨hstart, -, -⟩ := ue.placement_free hplaced
  refine .mark (hk.words words (ue.cce_of_controlChannels hctl)) rfl ?_ ?_ <;>
    simp only [rect] <;> omega

theorem allocateDlNewData_setsOwn (h : allocateDlNewData cell ue m = some r) :
    SetsOwn k m r.1 (rect ⟨ue.rnti, (getBwpStartSize cell ue).start, r.2⟩) := by
  obtain ⟨s, n, words, alloc, hs, -, -, -, hctl, -, -, hrb, htda, hmap⟩ :=
    allocateDlNewData_eq_some h
  rw [hmap]
  refine .mark (hk.words words (ue.cce_of_controlChannels hctl)) (by simp [rect, htda]) ?_ ?_
    <;> simp only [rect] <;> omega

/-- A retransmission behind block 0 is not marked to its end. -/
theorem allocateDlRetransmission_not_marked (h : ¬ue.RetransmissionAtZero cell m) :
    ∃ r, allocateDlRetransmission cell ue m = some r ∧
      ∃ c ∈ (rect ⟨ue.rnti, (getBwpStartSize cell ue).start, r.2⟩).cells,
        k ≤ c.2 ∧ c ∉ r.1.cells := by
  obtain ⟨hctl, rbStart, p, hplaced, hsize, hpos⟩ := ue.placement_not_zero h
  obtain ⟨⟨words, alloc⟩, hctl⟩ := ne_none_iff_exists'.1 hctl
  obtain ⟨hstart, hfree, htda⟩ := ue.placement_free hplaced
  have hfirst : (getBwpStartSize cell ue).start + (rbStart - (getBwpStartSize cell ue).start) =
      rbStart := by omega
  rw [allocateDlRetransmission, hplaced, hctl]
  refine ⟨_, rfl, exists_not_mem_mark (hk.words words (ue.cce_of_controlChannels hctl)) ?_ rfl ?_
    hsize ?_⟩
  · rcases htda with htda | htda
    · simpa [rect, htda] using hk.retInfo
    · simpa [rect, htda] using hk.tdaInfo
  · simpa only [rect, hfirst] using hfree
  · simp only [rect, hfirst]
    omega

/-- New data in a BWP that starts behind block 0 is not marked to its end. -/
theorem allocateDlNewData_not_marked (h : ¬ue.NewDataFromZero cell m) :
    ∃ r, allocateDlNewData cell ue m = some r ∧
      ∃ c ∈ (rect ⟨ue.rnti, (getBwpStartSize cell ue).start, r.2⟩).cells,
        k ≤ c.2 ∧ c ∉ r.1.cells := by
  rw [DlUe.NewDataFromZero] at h
  simp only [Classical.not_imp, not_forall] at h
  obtain ⟨hctl, s, hs, hle, hfree, hstart⟩ := h
  obtain ⟨r, hr⟩ := allocateDlNewData_isSome hctl hs hle hfree
  obtain ⟨s, n, words, alloc, hs, hfree, -, -, hctl, hmin, hsize, hrb, htda, hmap⟩ :=
    allocateDlNewData_eq_some hr
  have hfive : minRbSize = 5 := rfl
  have hfirst : (getBwpStartSize cell ue).start + (s - (getBwpStartSize cell ue).start) = s := by
    have := hs.1
    omega
  refine ⟨r, hr, ?_⟩
  rw [hmap]
  refine exists_not_mem_mark (hk.words words (ue.cce_of_controlChannels hctl)) ?_
    (by simp [rect, htda]) ?_ ?_ ?_
  · simpa [rect, htda] using hk.tdaInfo
  · simp only [rect, hrb, hfirst]
    exact hfree.mono (le_refl _) (by omega)
  · simp only [rect]
    omega
  · simp only [rect, hrb]
    omega

end Spoil

/-! ### One turn -/

/-- The grant of a turn. -/
def DlTurn.rect (cell : DlCell) (t : DlTurn) (p : SchedPdsch) : Rect :=
  DlGrant.rect ⟨t.ue.rnti, (getBwpStartSize cell t.ue).start, p⟩

/-- **What a turn does**: it gives something to its UE, or at most keeps it for the second loop. -/
theorem dlTurn_cases (h : dlTurn cell s t = some s') :
    (∃ ueSched, s' = { s with ueSched } ∧ ∀ ue ∈ ueSched, ue ∈ s.ueSched ∨ ue = t.ue) ∨
    ∃ r, s' = s.take cell t.ue r ∧
      (t.MarksGrant cell s → TakesFree s.vrbMap r.1 (t.rect cell r.2)) ∧
      ∀ k, t.ue.PdcchBefore k → SetsOwn k s.vrbMap r.1 (t.rect cell r.2) := by
  have hsame : (∃ ueSched, s = { s with ueSched } ∧ ∀ ue ∈ ueSched, ue ∈ s.ueSched ∨ ue = t.ue) :=
    ⟨s.ueSched, rfl, fun _ ↦ .inl⟩
  cases t with
  | first ue =>
    cases h
    rw [DlSlot.first]
    split
    · exact .inl hsame
    rename_i hue
    simp only [Bool.or_eq_true, Bool.not_eq_true', beq_iff_eq, not_or, Bool.not_eq_false] at hue
    split
    · rename_i hhead
      cases hr : allocateDlRetransmission cell ue s.vrbMap with
      | none => exact .inl hsame
      | some r =>
        exact .inr ⟨r, rfl, fun ht ↦ allocateDlRetransmission_takesFree
          (ht hue.1.1 (by simpa using hue.1.2) hue.2 hhead) hr,
          fun k hk ↦ allocateDlRetransmission_setsOwn hk hr⟩
    split
    · exact .inl hsame
    split
    · exact .inl hsame
    · exact .inl ⟨_, rfl, fun ue' hue' ↦ by simpa [DlTurn.ue] using hue'⟩
  | second ue =>
    rw [Mac.dlTurn, DlSlot.second] at h
    split at h
    · exact .inl (Option.some.inj h ▸ hsame)
    rename_i hue
    simp only [Bool.or_eq_true, beq_iff_eq, decide_eq_true_eq, not_or] at hue
    split at h
    · exact .inl (Option.some.inj h ▸ hsame)
    split at h
    · cases h
    split at h
    · exact .inl (Option.some.inj h ▸ hsame)
    · rename_i r hr
      exact .inr ⟨r, (Option.some.inj h).symm, fun ht ↦ allocateDlNewData_takesFree
        (ht hue.1 (by omega) (by omega)) hr, fun k hk ↦ allocateDlNewData_setsOwn hk hr⟩

theorem DlSlot.Kept.dlTurn (hs : s.Kept entry) (ht : t.MarksGrant cell s)
    (h : dlTurn cell s t = some s') : s'.Kept entry := by
  obtain ⟨_, rfl, -⟩ | ⟨r, rfl, hfree, -⟩ := dlTurn_cases h
  · exact hs
  · exact hs.take (hfree ht)

/-- A spoilt slot stays so. -/
theorem DlSlot.Spoilt.dlTurn (hk : t.ue.PdcchBefore k) (hs : s.Spoilt k)
    (h : dlTurn cell s t = some s') : s'.Spoilt k := by
  obtain ⟨_, rfl, -⟩ | ⟨r, rfl, -, hown⟩ := dlTurn_cases h
  · exact hs
  · exact hs.take (hown k hk)

/-- A grant that is not marked spoils the slot. -/
theorem dlTurn_spoilt (hk : t.ue.PdcchBefore k) (ht : ¬t.MarksGrant cell s)
    (h : dlTurn cell s t = some s') : s'.Spoilt k := by
  cases t with
  | first ue =>
    have hk : ue.PdcchBefore k := hk
    simp only [DlTurn.MarksGrant, Classical.not_imp] at ht
    obtain ⟨hacked, hfail, hremain, hhead, ht⟩ := ht
    obtain ⟨r, hr, c, hc, hkc, hset⟩ := allocateDlRetransmission_not_marked hk ht
    simp only [Mac.dlTurn, Option.some.injEq] at h
    subst h
    rw [DlSlot.first, if_neg (by simp [hacked, hfail, hremain]), if_pos hhead, hr]
    exact .inl ⟨_, List.mem_cons_self .., c, hc, hkc, hset⟩
  | second ue =>
    have hk : ue.PdcchBefore k := hk
    simp only [DlTurn.MarksGrant, Classical.not_imp] at ht
    obtain ⟨hremain, hrb, hhead, ht⟩ := ht
    obtain ⟨r, hr, c, hc, hkc, hset⟩ := allocateDlNewData_not_marked hk ht
    rw [Mac.dlTurn, DlSlot.second, if_neg (by simp [hremain]; omega), if_neg (by omega)] at h
    split at h
    · simp at h
    simp only [hr, Option.some.injEq] at h
    subst h
    exact .inl ⟨_, List.mem_cons_self .., c, hc, hkc, hset⟩

/-- The UEs that the first loop collects are among those it goes over. -/
theorem ueSched_subset {ues : List DlUe}
    (h : (ues.map DlTurn.first).foldlM (dlTurn cell) s = some s') :
    ∀ ue ∈ s'.ueSched, ue ∈ s.ueSched ∨ ue ∈ ues := by
  induction ues generalizing s with
  | nil =>
    rw [List.map_nil, List.foldlM_nil, pure_def, some.injEq] at h
    exact fun ue hue ↦ .inl (h ▸ hue)
  | cons ue ues ih =>
    rw [List.map_cons, List.foldlM_cons, bind_eq_bind, bind_eq_some_iff] at h
    obtain ⟨s₁, h₁, h⟩ := h
    intro ue' hue'
    rcases ih h ue' hue' with hmem | hmem
    · obtain ⟨_, rfl, hsched⟩ | ⟨r, rfl, -⟩ := dlTurn_cases h₁
      · rcases hsched ue' hmem with hmem | rfl
        · exact .inl hmem
        · exact .inr (List.mem_cons_self ..)
      · exact .inl hmem
    · exact .inr (List.mem_cons_of_mem _ hmem)

/-- **Downlink grants do not collide exactly when every turn marks the grant that it makes.** Then
they are pairwise disjoint, they meet nothing that was taken on entry, and the map has them all.
For the converse the PDCCH has to be in symbols of its own: where it is not, setting its words may
happen to set what the loops forgot. -/
theorem pfDl_reserves_iff_marks {cell : DlCell} {qsort : List DlUe → List DlUe} {vrbMap : RbMap}
    {ueList : List DlUe} {maxNumUe : ℕ} {nRbSched : ℤ} {s : DlSlot}
    (h : pfDl cell qsort vrbMap ueList maxNumUe nRbSched = some s)
    (hsort : ∀ l ue, ue ∈ qsort l → ue ∈ l) :
    (PfDlMarksGrants cell qsort vrbMap ueList maxNumUe nRbSched →
      Reserved vrbMap.cells s.vrbMap.cells (s.grants.map fun g ↦ g.rect.cells)) ∧
    ((∃ k, ∀ ue ∈ ueList, ue.PdcchBefore k) →
      Reserved vrbMap.cells s.vrbMap.cells (s.grants.map fun g ↦ g.rect.cells) →
      PfDlMarksGrants cell qsort vrbMap ueList maxNumUe nRbSched) := by
  obtain ⟨s₁, h₁, h₂⟩ := bind_eq_some_iff.1 h
  refine ⟨fun hmarks ↦ ?_, fun ⟨k, hk⟩ hs ↦ ?_⟩
  · have hs₁ : s₁.Kept vrbMap :=
      hmarks.1.invariant (fun hs ht h ↦ hs.dlTurn ht h) (Reserved.nil _) h₁
    exact (hmarks.2 s₁ h₁).invariant (fun hs ht h ↦ DlSlot.Kept.dlTurn hs ht h) hs₁ h₂
  · have hfirst : ∀ t ∈ ueList.map DlTurn.first, t.ue.PdcchBefore k := by
      intro t ht
      obtain ⟨ue, hue, rfl⟩ := List.mem_map.1 ht
      exact hk ue hue
    have hsecond : ∀ t ∈ (qsort s₁.ueSched).map DlTurn.second, t.ue.PdcchBefore k := by
      intro t ht
      obtain ⟨ue, hue, rfl⟩ := List.mem_map.1 ht
      refine hk ue ((ueSched_subset h₁ ue (hsort _ ue hue)).resolve_left ?_)
      exact List.not_mem_nil
    obtain ⟨hadm₂, hs₁⟩ := AdmittedAlong.of_not_spoilt
      (fun hi ht h ↦ dlTurn_spoilt (hsecond _ hi) ht h)
      (fun hi hs h ↦ DlSlot.Spoilt.dlTurn (hsecond _ hi) hs h) h₂ (not_spoilt_of_kept hs)
    obtain ⟨hadm₁, -⟩ := AdmittedAlong.of_not_spoilt
      (fun hi ht h ↦ dlTurn_spoilt (hfirst _ hi) ht h)
      (fun hi hs h ↦ DlSlot.Spoilt.dlTurn (hfirst _ hi) hs h) h₁ hs₁
    refine ⟨hadm₁, fun s₂ hs₂ ↦ ?_⟩
    rw [h₁, some.injEq] at hs₂
    exact hs₂ ▸ hadm₂

/-! ### Two UEs -/

/-- A cell without CORESET 0. -/
def noCset0 : DlCell := ⟨⟨0, 0⟩⟩

/-- All symbols of a slot but the first. -/
def tdaFromOne : TdaInfo := { startSymbolIndex := 1, nrOfSymbols := 13 }

/-- A UE with five blocks to be sent again. -/
def retransmissionUe : DlUe where
  rnti := 1
  retransDlHarqHead := 0
  currentDlBwp := ⟨0, 50⟩
  initialDlBwp := ⟨0, 50⟩
  retInfo := { rbSize := 5, tdaInfo := tdaFromOne }
  schedPdsch := { tdaInfo := tdaFromOne }
  tda := 0
  tdaInfo := tdaFromOne
  cce := some []
  pucch := some 0

/-- A UE with 8 bytes of new data. -/
def newDataUe : DlUe where
  rnti := 2
  currentDlBwp := ⟨0, 50⟩
  initialDlBwp := ⟨0, 50⟩
  retInfo := { tdaInfo := tdaFromOne }
  schedPdsch := { qm := 2, r := 1200, tdaInfo := tdaFromOne }
  tda := 0
  tdaInfo := tdaFromOne
  cce := some []
  pucch := some 1
  numTotalBytes := 8

theorem emptyMap_isSome :
    (pfDl noCset0 id (fun _ ↦ 0) [retransmissionUe, newDataUe] 2 50).isSome := by decide

/-- In an empty slot the retransmission is at block 0, and the new data behind it. -/
theorem pfDl_reserves_in_empty_slot :
    let s := (pfDl noCset0 id (fun _ ↦ 0) [retransmissionUe, newDataUe] 2 50).get emptyMap_isSome
    s.grants.map (·.rect) = [⟨5, 5, tdaFromOne⟩, ⟨0, 5, tdaFromOne⟩] ∧
      Reserved (cells fun _ ↦ 0) s.vrbMap.cells (s.grants.map fun g ↦ g.rect.cells) := by
  refine ⟨by decide, (pfDl_reserves_iff_marks
    (some_get emptyMap_isSome).symm fun _ _ h ↦ h).1 ⟨?_, ?_⟩⟩
  · refine ⟨fun _ _ _ _ _ _ ↦ ?_, fun _ _ ↦ ⟨fun _ _ _ h ↦ absurd h (by decide), fun _ _ ↦ trivial⟩⟩
    exact fun s _ _ ↦ ⟨by decide, by decide, by decide, fun rb _ _ ↦ by simp [busy, DlSlot.init]⟩
  · rintro s ⟨⟩
    exact ⟨fun _ _ _ _ _ _ _ _ ↦ rfl, fun _ _ ↦ trivial⟩

/-- The first five blocks are taken. -/
def fiveBlocksTaken : RbMap := fun rb ↦ if rb < 5 then 0x3fff else 0

/-- With the first five blocks taken, the retransmission is at block 5, where the loop that marks it
stops before it starts; the new data is given the same blocks. -/
theorem pfDl_grants_collide :
    let s := (pfDl noCset0 id fiveBlocksTaken [retransmissionUe, newDataUe] 2 50).get
      (by decide)
    s.grants.map (·.rect) = [⟨5, 5, tdaFromOne⟩, ⟨5, 5, tdaFromOne⟩] ∧
      ¬Reserved fiveBlocksTaken.cells s.vrbMap.cells (s.grants.map fun g ↦ g.rect.cells) := by
  intro s
  have hgrants : s.grants.map (·.rect) = [⟨5, 5, tdaFromOne⟩, ⟨5, 5, tdaFromOne⟩] := by
    decide
  refine ⟨hgrants, fun h ↦ ?_⟩
  have hmap : (s.grants.map fun g ↦ g.rect.cells) = (s.grants.map (·.rect)).map Rect.cells := by
    rfl
  have hpair := h.pairwise
  rw [hmap, hgrants, List.map_cons, List.map_cons, List.map_nil, List.pairwise_pair] at hpair
  have hmem : ((5, 1) : ℕ × ℕ) ∈ Rect.cells ⟨5, 5, tdaFromOne⟩ := ⟨by decide, by decide⟩
  exact Set.disjoint_left.1 hpair hmem hmem

end OaiRan.Mac
