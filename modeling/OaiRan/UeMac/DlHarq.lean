import Mathlib.Data.List.Nodup
import Mathlib.Data.List.Chain
import Mathlib.Data.Int.Basic

/-!
# The UE's downlink HARQ processes

`set_harq_status` records a downlink assignment: when its feedback is due, and the place of its bit in
the codebook. The DCI has only two bits of the counter of assignments (DAI). The UE finds the rest by
the largest place among the other processes with feedback in the same slot: it adds as many fours as
**the place after that one** has passed.

If assignments are lost, the next one that is received may be behind a multiple of four that the place
after the last one has not passed. `cumulative_iff` says that the places are right exactly if that never
happens; with no losses it never does.
-/

namespace OaiRan.UeMac

open List

/-- `NR_UE_DL_HARQ_STATUS_t` as far as feedback is concerned. `totalCce` is `N_CCE`. -/
structure DlHarqStatus where
  active : Bool := false
  ackReceived : Bool := false
  pucchResourceIndicator : ℕ := 0
  ulFrame : ℕ := 0
  ulSlot : ℕ := 0
  ack : Bool := false
  nCce : ℕ := 0
  totalCce : ℕ := 0
  daiCumul : ℕ := 0
  deltaPucch : ℤ := 0
  deriving DecidableEq

/-- The part of `NR_UE_MAC_INST_t` that is used here. -/
structure DlHarq where
  /-- `nr_slots_per_frame` of the numerology. -/
  slotsPerFrame : ℕ
  /-- `get_nrofHARQ_ProcessesForPDSCH`. -/
  numDlHarq : ℕ
  dlHarqInfo : ℕ → DlHarqStatus

/-- The arguments of `set_harq_status`. -/
structure DlAssignment where
  pucchId : ℕ := 0
  harqId : ℕ
  deltaPucch : ℤ := 0
  (dataToulFb dai : ℕ)
  nCce : ℕ := 0
  totalCce : ℕ := 0
  (frame slot : ℕ)

/-- The frame and the slot of the feedback. -/
def DlAssignment.ulTime (a : DlAssignment) (slotsPerFrame : ℕ) : ℕ × ℕ :=
  let ulSlot := a.slot + a.dataToulFb
  if ulSlot ≥ slotsPerFrame then
    ((a.frame + ulSlot / slotsPerFrame) % 1024, ulSlot % slotsPerFrame)
  else (a.frame, ulSlot)

/-- An active process with feedback in this slot. -/
def DlHarqStatus.due (harq : DlHarqStatus) (time : ℕ × ℕ) : Bool :=
  harq.active && harq.ulFrame == time.1 && harq.ulSlot == time.2

/-- `highest_dai`: the loop over the other processes. -/
def highestDai (info : ℕ → DlHarqStatus) (numDlHarq harqId : ℕ) (time : ℕ × ℕ) : ℤ :=
  (range numDlHarq).foldl (fun highest i ↦
    if i = harqId then highest
    else if (info i).due time then
      if ((info i).daiCumul : ℤ) > highest then (info i).daiCumul - 1 else highest
    else highest) (-1)

/-- `dai_cumul` for a counter. -/
def cumulativeDai (dai : ℕ) (highest : ℤ) : ℕ :=
  if (dai : ℤ) ≤ highest then
    let mod4Count := (highest + 1) / 4
    dai + 1 + (mod4Count * 4).toNat
  else dai + 1

def setHarqStatus (mac : DlHarq) (a : DlAssignment) : DlHarq :=
  let time := a.ulTime mac.slotsPerFrame
  let harq := { mac.dlHarqInfo a.harqId with
    active := true
    ackReceived := false
    pucchResourceIndicator := a.pucchId
    nCce := a.nCce
    totalCce := a.totalCce
    deltaPucch := a.deltaPucch
    ulFrame := time.1
    ulSlot := time.2
    daiCumul := cumulativeDai a.dai (highestDai mac.dlHarqInfo mac.numDlHarq a.harqId time) }
  { mac with dlHarqInfo := Function.update mac.dlHarqInfo a.harqId harq }

/-! ### The largest place -/

/-- What the loop finds: nothing larger, and what it finds is there. -/
theorem highestDai_spec (info : ℕ → DlHarqStatus) (numDlHarq harqId : ℕ) (time : ℕ × ℕ) :
    (∀ i < numDlHarq, i ≠ harqId → (info i).due time →
      ((info i).daiCumul : ℤ) - 1 ≤ highestDai info numDlHarq harqId time) ∧
    -1 ≤ highestDai info numDlHarq harqId time ∧
    (highestDai info numDlHarq harqId time = -1 ∨ ∃ i < numDlHarq, i ≠ harqId ∧
      (info i).due time ∧ highestDai info numDlHarq harqId time = (info i).daiCumul - 1) := by
  rw [highestDai]
  induction numDlHarq with
  | zero => exact ⟨fun i hi ↦ absurd hi (Nat.not_lt_zero i), Int.le_refl _, .inl rfl⟩
  | succ n ih =>
    rw [range_succ, foldl_append, foldl_cons, foldl_nil]
    obtain ⟨hmax, hlow, hfound⟩ := ih
    generalize (range n).foldl _ (-1 : ℤ) = highest at hmax hlow hfound ⊢
    have hfound' : highest = -1 ∨ ∃ i < n + 1, i ≠ harqId ∧ (info i).due time ∧
        highest = (info i).daiCumul - 1 := by
      refine hfound.imp_right ?_
      rintro ⟨i, hi, h⟩
      exact ⟨i, Nat.lt_succ_of_lt hi, h⟩
    split
    · refine ⟨fun i hi hne hdue ↦ hmax i ?_ hne hdue, hlow, hfound'⟩
      omega
    split
    · rename_i hne hdue
      split
      · refine ⟨fun i hi hne hdue ↦ ?_, by omega, .inr ⟨n, Nat.lt_succ_self n, hne, hdue, rfl⟩⟩
        rcases Nat.lt_succ_iff_lt_or_eq.1 hi with hlt | rfl
        · have := hmax i hlt hne hdue
          omega
        · exact Int.le_refl _
      · refine ⟨fun i hi hne hdue ↦ ?_, hlow, hfound'⟩
        rcases Nat.lt_succ_iff_lt_or_eq.1 hi with hlt | rfl
        · exact hmax i hlt hne hdue
        · omega
    · rename_i hnot
      refine ⟨fun i hi hne hdue ↦ ?_, hlow, hfound'⟩
      rcases Nat.lt_succ_iff_lt_or_eq.1 hi with hlt | rfl
      · exact hmax i hlt hne hdue
      · exact absurd hdue hnot

/-- **The place of one assignment**, at most three after the last one having been lost. -/
theorem cumulativeDai_eq_iff {i : ℕ} {last : ℤ} (hlow : -1 ≤ last) (hlt : last < i)
    (hgap : i ≤ last + 4) : cumulativeDai (i % 4) last = i + 1 ↔ (last + 1) / 4 = i / 4 := by
  rw [cumulativeDai]
  dsimp only
  split <;> omega

/-! ### The assignments of one slot -/

/-- Assignments for one uplink slot that the UE receives, each with its number. The numbers count all
assignments for the slot, of which never more than three in a row are lost. -/
structure Received (mac : DlHarq) (time : ℕ × ℕ) (rs : List (ℕ × DlAssignment)) : Prop where
  first : ∀ r ∈ rs.head?, r.1 ≤ 3
  gaps : rs.IsChain fun r r' ↦ r.1 < r'.1 ∧ r'.1 ≤ r.1 + 4
  dai : ∀ r ∈ rs, r.2.dai = r.1 % 4
  ulTime : ∀ r ∈ rs, r.2.ulTime mac.slotsPerFrame = time
  nodup : (rs.map (·.2.harqId)).Nodup
  harqId_lt : ∀ r ∈ rs, r.2.harqId < mac.numDlHarq
  /-- No process is waiting with feedback in the slot. -/
  fresh : ∀ i < mac.numDlHarq, (mac.dlHarqInfo i).due time = false

/-- The calls of `set_harq_status`. -/
def received (mac : DlHarq) (rs : List (ℕ × DlAssignment)) : DlHarq :=
  rs.foldl (fun mac r ↦ setHarqStatus mac r.2) mac

/-- Each assignment has got its place. -/
def Cumulative (mac : DlHarq) (rs : List (ℕ × DlAssignment)) : Prop :=
  ∀ r ∈ rs, ((received mac rs).dlHarqInfo r.2.harqId).daiCumul = r.1 + 1

/-- No multiple of four is passed between the assignment after a received one and the next one that is
received. -/
def NoWrapLost (rs : List (ℕ × DlAssignment)) : Prop :=
  rs.IsChain fun r r' ↦ (r.1 + 1) / 4 = r'.1 / 4

variable {mac : DlHarq} {time : ℕ × ℕ} {rs : List (ℕ × DlAssignment)} {r : ℕ × DlAssignment}

theorem received_append_singleton (mac : DlHarq) (rs : List (ℕ × DlAssignment))
    (r : ℕ × DlAssignment) : received mac (rs ++ [r]) = setHarqStatus (received mac rs) r.2 := by
  rw [received, foldl_append]
  rfl

theorem received_config (mac : DlHarq) (rs : List (ℕ × DlAssignment)) :
    (received mac rs).slotsPerFrame = mac.slotsPerFrame ∧
      (received mac rs).numDlHarq = mac.numDlHarq := by
  induction rs using reverseRecOn with
  | nil => exact ⟨rfl, rfl⟩
  | append_singleton rs r ih =>
    rw [received_append_singleton]
    exact ih

theorem Received.init (h : Received mac time (rs ++ [r])) : Received mac time rs where
  first r' hr' := h.first r' (by
    rw [head?_append, Option.mem_def.1 hr']
    rfl)
  gaps := h.gaps.left_of_append
  dai r' hr' := h.dai r' (mem_append_left _ hr')
  ulTime r' hr' := h.ulTime r' (mem_append_left _ hr')
  nodup := (map_append ▸ h.nodup).of_append_left
  harqId_lt r' hr' := h.harqId_lt r' (mem_append_left _ hr')
  fresh := h.fresh

/-- The process of the last assignment is a new one. -/
theorem Received.harqId_ne (h : Received mac time (rs ++ [r]))
    (hr' : r' ∈ rs) : r'.2.harqId ≠ r.2.harqId := by
  have hnodup := h.nodup
  rw [map_append, nodup_append] at hnodup
  exact hnodup.2.2 _ (mem_map_of_mem hr') _ (mem_singleton.2 rfl)

/-- The processes with feedback in the slot are those of the assignments. -/
theorem Received.due_iff (h : Received mac time rs) (hi : i < mac.numDlHarq) :
    ((received mac rs).dlHarqInfo i).due time ↔ ∃ r ∈ rs, r.2.harqId = i := by
  induction rs using reverseRecOn with
  | nil =>
    show (mac.dlHarqInfo i).due time = true ↔ _
    simp [h.fresh i hi]
  | append_singleton rs r ih =>
    have htime := h.ulTime r (mem_append_right _ (mem_singleton.2 rfl))
    rw [received_append_singleton, setHarqStatus, (received_config mac rs).1, htime]
    dsimp only
    rcases eq_or_ne i r.2.harqId with rfl | hne
    · refine iff_of_true ?_ ⟨r, mem_append_right _ (mem_singleton.2 rfl), rfl⟩
      simp [DlHarqStatus.due]
    · rw [Function.update_of_ne hne, ih h.init]
      simp [hne.symm]

section

variable (h : Received mac time (rs ++ [r]))
include h

/-- The number of the last received assignment is the largest place. -/
theorem Received.highestDai_eq (hc : Cumulative mac rs) :
    highestDai (received mac rs).dlHarqInfo mac.numDlHarq r.2.harqId time =
      (rs.getLast?.map fun r ↦ (r.1 : ℤ)).getD (-1) := by
  obtain ⟨hmax, hlow, hfound⟩ :=
    highestDai_spec (received mac rs).dlHarqInfo mac.numDlHarq r.2.harqId time
  generalize highestDai _ _ _ _ = highest at *
  have hplace : highest = -1 ∨ ∃ r' ∈ rs, highest = r'.1 := by
    refine hfound.imp_right ?_
    rintro ⟨i, hi, -, hdue, rfl⟩
    obtain ⟨r', hr', rfl⟩ := (h.init.due_iff hi).1 hdue
    exact ⟨r', hr', by rw [hc r' hr']; push_cast; omega⟩
  have hle : ∀ r' ∈ rs, (r'.1 : ℤ) ≤ highest := by
    intro r' hr'
    have hlt := h.init.harqId_lt r' hr'
    have := hmax r'.2.harqId hlt (h.harqId_ne hr') ((h.init.due_iff hlt).2 ⟨r', hr', rfl⟩)
    rw [hc r' hr'] at this
    omega
  rcases eq_nil_or_concat' rs with rfl | ⟨rs', last, rfl⟩
  · rcases hplace with hnone | ⟨r', hr', -⟩
    · exact hnone
    · exact absurd hr' not_mem_nil
  · rw [getLast?_concat]
    show highest = last.1
    have hlast := hle last (mem_append_right _ (mem_singleton.2 rfl))
    rcases hplace with hnone | ⟨r', hr', rfl⟩
    · omega
    · -- The numbers ascend.
      have hsorted : (rs' ++ [last]).Pairwise fun r r' ↦ r.1 < r'.1 :=
        isChain_iff_pairwise.1 (h.init.gaps.imp fun _ _ h ↦ h.1)
      rcases mem_append.1 hr' with hr' | hr'
      · have := (pairwise_append.1 hsorted).2.2 r' hr' last (mem_singleton.2 rfl)
        omega
      · rw [mem_singleton.1 hr']

/-- The place of the last assignment, if the others have got theirs. -/
theorem Received.last_iff (hc : Cumulative mac rs) :
    ((received mac (rs ++ [r])).dlHarqInfo r.2.harqId).daiCumul = r.1 + 1 ↔
      ∀ r' ∈ rs.getLast?, (r'.1 + 1) / 4 = r.1 / 4 := by
  have hmem : r ∈ rs ++ [r] := mem_append_right _ (mem_singleton.2 rfl)
  rw [received_append_singleton, setHarqStatus, (received_config mac rs).1,
    (received_config mac rs).2, h.ulTime r hmem, h.dai r hmem]
  dsimp only
  rw [Function.update_self, h.highestDai_eq hc]
  show cumulativeDai _ _ = _ ↔ _
  rcases eq_nil_or_concat' rs with rfl | ⟨rs', last, rfl⟩
  · have hfirst := h.first r rfl
    show cumulativeDai (r.1 % 4) (-1) = r.1 + 1 ↔ _
    rw [cumulativeDai_eq_iff (by omega) (by omega) (by omega)]
    exact iff_of_true (by omega) fun r' hr' ↦ absurd hr' (by simp)
  · have hgap := (isChain_append.1 h.gaps).2.2 last (by simp) r (by simp)
    rw [getLast?_concat]
    show cumulativeDai (r.1 % 4) last.1 = r.1 + 1 ↔ _
    rw [cumulativeDai_eq_iff (by omega) (by omega) (by omega)]
    simp only [Option.mem_def, Option.some.injEq, forall_eq']
    omega

theorem cumulative_append_iff :
    Cumulative mac (rs ++ [r]) ↔ Cumulative mac rs ∧
      ((received mac (rs ++ [r])).dlHarqInfo r.2.harqId).daiCumul = r.1 + 1 := by
  have hkeep : ∀ r' ∈ rs, (received mac (rs ++ [r])).dlHarqInfo r'.2.harqId =
      (received mac rs).dlHarqInfo r'.2.harqId := by
    intro r' hr'
    rw [received_append_singleton, setHarqStatus]
    exact Function.update_of_ne (h.harqId_ne hr') ..
  constructor
  · intro hc
    refine ⟨fun r' hr' ↦ ?_, hc r (mem_append_right _ (mem_singleton.2 rfl))⟩
    rw [← hkeep r' hr']
    exact hc r' (mem_append_left _ hr')
  · rintro ⟨hc, hlast⟩ r' hr'
    rcases mem_append.1 hr' with hr' | hr'
    · rw [hkeep r' hr']
      exact hc r' hr'
    · rw [mem_singleton.1 hr']
      exact hlast

end

/-- **When the places are right.** -/
theorem cumulative_iff (h : Received mac time rs) : Cumulative mac rs ↔ NoWrapLost rs := by
  induction rs using reverseRecOn with
  | nil => exact iff_of_true nofun .nil
  | append_singleton rs r ih =>
    rw [cumulative_append_iff h, NoWrapLost, isChain_append]
    constructor
    · rintro ⟨hc, hlast⟩
      refine ⟨(ih h.init).1 hc, .singleton r, fun r' hr' r'' hr'' ↦ ?_⟩
      obtain rfl : r = r'' := by simpa using hr''
      exact (h.last_iff hc).1 hlast r' hr'
    · rintro ⟨hchain, -, hlast⟩
      have hc := (ih h.init).2 hchain
      exact ⟨hc, (h.last_iff hc).2 fun r' hr' ↦ hlast r' hr' r (by simp)⟩

/-- Sixteen idle processes. -/
def idleHarq : DlHarq := ⟨20, 16, fun _ ↦ {}⟩

/-- Assignments with these numbers on the first processes, with feedback in slot 8 of frame 0. -/
def assignments (numbers : List ℕ) : List (ℕ × DlAssignment) :=
  numbers.zipIdx.map fun p ↦
    (p.1, { harqId := p.2, dataToulFb := 6, dai := p.1 % 4, frame := 0, slot := 2 })

theorem received_one_lost : Received idleHarq (0, 8) (assignments [0, 2, 3, 4]) where
  first := by simp [assignments]
  gaps := by decide
  dai := by decide
  ulTime := by decide
  nodup := by decide
  harqId_lt := by decide
  fresh := by decide

theorem received_wrap_lost : Received idleHarq (0, 8) (assignments [0, 1, 2, 4]) where
  first := by simp [assignments]
  gaps := by decide
  dai := by decide
  ulTime := by decide
  nodup := by decide
  harqId_lt := by decide
  fresh := by decide

/-- The second assignment is lost. -/
theorem one_lost_cumulative : Received idleHarq (0, 8) (assignments [0, 2, 3, 4]) ∧
    Cumulative idleHarq (assignments [0, 2, 3, 4]) :=
  ⟨received_one_lost, (cumulative_iff received_one_lost).2
    (show (assignments [0, 2, 3, 4]).IsChain _ by decide)⟩

/-- **The fourth assignment is lost**: the fifth gets the place of the first. -/
theorem wrap_lost_not_cumulative : Received idleHarq (0, 8) (assignments [0, 1, 2, 4]) ∧
    ((received idleHarq (assignments [0, 1, 2, 4])).dlHarqInfo 3).daiCumul = 1 ∧
    ¬ Cumulative idleHarq (assignments [0, 1, 2, 4]) := by
  refine ⟨received_wrap_lost, by decide, fun h ↦ ?_⟩
  exact absurd (h (4, { harqId := 3, dataToulFb := 6, dai := 0, frame := 0, slot := 2 })
    (by simp [assignments])) (by decide)

end OaiRan.UeMac
