import OaiRan.Mac.HarqPartition
import OaiRan.Mac.RbMap

/-!
# HARQ processes in the generation of Msg4 and MsgB

`nr_generate_Msg4_MsgB` looks for a beam, a CCE and resource blocks, and then takes a HARQ process:
the head of the retransmission list if there is one, otherwise the head of the available list. Two
things go wrong from there on. A process that was available is out of its list when the function
finds **no PUCCH occasion** for the acknowledgement and returns, and a process that is
**retransmitted** is appended to the feedback list while it stays in the retransmission list.

What the function reads apart from the HARQ state of the UE is its input (`Msg4Context`).
-/

namespace OaiRan.Mac

open List

variable {rest : List ℕ} {l : NrList}

/-- `ra->ra_type`. -/
inductive RaType
  | ra4Step
  | ra2Step
  deriving DecidableEq

/-- The assertions and faults of `nr_generate_Msg4_MsgB`. -/
inductive Msg4Abort
  /-- An assertion of the HARQ lists. -/
  | harq (a : Abort)
  /-- `AssertFatal(tb_size >= pdu_length)`. -/
  | cannotAllocate
  /-- `nr_fill_successrar` reads the PUCCH occasion of a process without feedback. -/
  | nullPucch
  /-- A loop would not end. -/
  | loops
  deriving DecidableEq

/-- What `nr_generate_Msg4_MsgB` finds apart from the HARQ state of the UE. -/
structure Msg4Context where
  raType : RaType
  /-- `is_xlsch_in_slot`. -/
  isDlSlot : Bool
  /-- `find_nr_UE`. -/
  ueFound : Bool
  /-- `mac_rlc_status_ind` for SRB0 and SRB1. -/
  (srb0Bytes srb1Bytes : ℕ)
  /-- `beam_allocation_procedure`. -/
  beamIdx : ℤ
  bwp : Bwp
  /-- `get_cce_index`. -/
  cceIndex : ℤ
  /-- `dl_req->nPDUs`. -/
  nPdus : ℕ
  /-- `get_dl_tda_info`. -/
  tda : TdaInfo
  /-- `dmrs_info.N_PRB_DMRS * dmrs_info.N_DMRS_SLOT`. -/
  nbDmrsPrb : ℕ
  /-- `nr_get_Qm_dl` and `nr_get_code_rate_dl` for the MCS table in use. -/
  (qm codeRate : ℕ → ℕ)
  vrbMap : RbMap
  /-- `get_FeedbackDisabled`. -/
  feedbackDisabled : ℕ → Bool
  /-- `nr_acknack_scheduling`: the frame and slot of the PUCCH occasion it finds. -/
  acknack : Option (UInt16 × UInt16)

def nfapiNrMaxDlTtiPdus : ℕ := 32

namespace Msg4Context

variable (c : Msg4Context)

/-- The size of the transport block in bytes. -/
def tbSize (mcsIndex rbSize : ℕ) : ℕ :=
  nrComputeTbs (c.qm mcsIndex) (c.codeRate mcsIndex) rbSize c.tda.nrOfSymbols c.nbDmrsPrb 0 0 1
    >>> 3

/-- The loop that increases the resource blocks and then the MCS: the blocks and the size it ends
with. -/
def growTb (pduLength : ℕ) : ℕ → ℕ → ℕ → Option (ℕ × ℕ)
  | 0, _, _ => none
  | fuel + 1, rbSize, mcsIndex =>
    let rbSize' := if rbSize < c.bwp.size then rbSize + 1 else rbSize
    let mcsIndex' := if rbSize < c.bwp.size then mcsIndex else mcsIndex + 1
    let tbSize := c.tbSize mcsIndex' rbSize'
    if tbSize < pduLength ∧ mcsIndex' ≤ 28 then growTb pduLength fuel rbSize' mcsIndex'
    else some (rbSize', tbSize)

/-- The loop over `vrb_map`: the value of `rbStart` it ends with. -/
def searchVrb (rbSize : ℕ) : ℕ → ℕ → ℕ → Option ℕ
  | 0, _, _ => none
  | fuel + 1, rbStart, i =>
    if i < rbSize ∧ rbStart + rbSize ≤ c.bwp.size then
      if c.vrbMap.busy c.tda.slbitmap (c.bwp.start + rbStart + i) then
        searchVrb rbSize fuel (rbStart + i + 1) 0
      else searchVrb rbSize fuel rbStart (i + 1)
    else some rbStart

/-- The bytes for SRB0, or else for SRB1. -/
def bytesInBuffer : ℕ := if c.srb0Bytes = 0 then c.srb1Bytes else c.srb0Bytes

/-- `pdu_length`, an `uint16_t`. -/
def pduLength (dl : HarqLists) : Except Msg4Abort ℕ :=
  if dl.retrans.head ≥ 0 then
    let harq := dl.processes dl.retrans.head.toNat
    if harq.isWaiting then .error (.harq .stillWaiting) else .ok (harq.tbSize % 2 ^ 16)
  else
    let macSduLength := c.bytesInBuffer % 2 ^ 16
    let subheaderLen := if macSduLength < 256 then 2 else 3
    .ok ((macSduLength + subheaderLen + 13) % 2 ^ 16)

/-- The part of `nr_generate_Msg4_MsgB` before the HARQ management: the size of the transport block,
or `none` where it returns. -/
def grant (dl : HarqLists) : Except Msg4Abort (Option ℕ) :=
  if !c.isDlSlot || !c.ueFound then .ok none
  else if dl.retrans.head < 0 ∧ c.bytesInBuffer = 0 then .ok none
  else if c.beamIdx < 0 then .ok none
  else if c.cceIndex < 0 then .ok none
  else if c.nPdus > nfapiNrMaxDlTtiPdus - 2 then .ok none
  else if !c.tda.validTda then .ok none
  else do
    let pduLength ← c.pduLength dl
    match c.growTb pduLength (c.bwp.size + 30) 0 0 with
    | none => .error .loops
    | some (rbSize, tbSize) =>
      if tbSize ≥ pduLength then
        match c.searchVrb rbSize ((c.bwp.size + 2) * (rbSize + 1)) 0 0 with
        | none => .error .loops
        | some rbStart => if rbStart + rbSize > c.bwp.size then .ok none else .ok (some tbSize)
      else .error .cannotAllocate

/-- The HARQ management up to the choice of the process. -/
def takePid (dl : HarqLists) : Except Abort (HarqLists × ℕ) :=
  if dl.retrans.head < 0 then
    if dl.available.head ≥ 0 then do
      let available ← removeFrontNrList dl.available
      return ({ dl with available }, dl.available.head.toNat)
    else .error .noFreeHarq
  else .ok (dl, dl.retrans.head.toNat)

/-- The PUCCH occasion for the acknowledgement; without feedback there is none. -/
def pucch (pid : ℕ) : Option (UInt16 × UInt16) :=
  if c.feedbackDisabled pid then none else c.acknack

/-- The HARQ process of a Msg4 that is sent. -/
def sendOn (dl : HarqLists) (pid tbSize : ℕ) : HarqLists :=
  let dl := match c.pucch pid with
    | none => dl.finish pid
    | some (frame, slot) =>
      dl.awaitFeedback pid
        { dl.processes pid with feedbackFrame := frame, feedbackSlot := slot }
  dl.setProcess pid { dl.processes pid with tbSize }

end Msg4Context

/-- `nr_generate_Msg4_MsgB`: the UE's state afterwards and whether Msg4 or MsgB was sent. -/
def nrGenerateMsg4MsgB (c : Msg4Context) (s : NrUeSchedCtrl) :
    Except Msg4Abort (NrUeSchedCtrl × Bool) := do
  match ← c.grant s.dl with
  | none => return (s, false)
  | some tbSize =>
    let (dl, pid) ← (Msg4Context.takePid s.dl).mapError .harq
    if !c.feedbackDisabled pid && c.acknack.isNone then return ({ s with dl }, false)
    else if (dl.processes pid).isWaiting then .error (.harq .stillWaiting)
    else
      let dl := c.sendOn dl pid tbSize
      if (dl.processes pid).round = 0 ∧ c.raType = .ra2Step ∧ c.pucch pid = none then
        .error .nullPucch
      else return ({ s with dl, msg4Acked := s.msg4Acked || (c.pucch pid).isNone }, true)

/-- The three lists are disjoint. -/
structure HarqLists.DisjointLists (h : HarqLists) (av fb re : List ℕ) : Prop where
  available : h.available.Represents av
  feedback : h.feedback.Represents fb
  retrans : h.retrans.Represents re
  feedback_len : h.feedback.len = h.available.len
  retrans_len : h.retrans.len = h.available.len
  available_feedback : av.Disjoint fb
  available_retrans : av.Disjoint re
  feedback_retrans : fb.Disjoint re

/-- **Atomic on the HARQ lists**: nothing changes if nothing was sent, and otherwise one process
moves to the feedback list, or to the available list if its feedback is disabled. -/
structure Atomic (c : Msg4Context) (av fb re : List ℕ) (h h' : HarqLists) (sent : Bool) :
    Prop where
  unchanged : sent = false →
    h'.available = h.available ∧ h'.feedback = h.feedback ∧ h'.retrans = h.retrans
  moved : sent = true → ∃ pid ∈ av ++ re,
    if c.feedbackDisabled pid then h'.DisjointLists (av.erase pid ++ [pid]) fb (re.erase pid)
    else h'.DisjointLists (av.erase pid) (fb ++ [pid]) (re.erase pid)

/-- The process that a Msg4 will be sent on. -/
def Msg4Context.nextPid (dl : HarqLists) : ℕ :=
  (if dl.retrans.head < 0 then dl.available.head else dl.retrans.head).toNat

/-- There is a PUCCH occasion for the acknowledgement, or none is needed. -/
def Msg4Context.Acknowledged (c : Msg4Context) (dl : HarqLists) : Prop :=
  c.feedbackDisabled (nextPid dl) = true ∨ c.acknack ≠ none

instance (c : Msg4Context) (dl : HarqLists) : Decidable (c.Acknowledged dl) :=
  inferInstanceAs (Decidable (_ ∨ _))

variable {c : Msg4Context} {s s' : NrUeSchedCtrl} {dl : HarqLists} {sent : Bool}
  {av fb re : List ℕ} {pid tbSize : ℕ}

/-! ### The loops end -/

namespace Msg4Context

theorem growTb_isSome (c : Msg4Context) (pduLength fuel rbSize mcsIndex : ℕ)
    (hfuel : c.bwp.size - rbSize + (29 - mcsIndex) < fuel) :
    (c.growTb pduLength fuel rbSize mcsIndex).isSome := by
  induction fuel generalizing rbSize mcsIndex with
  | zero => omega
  | succ fuel ih =>
    rw [growTb]
    rcases Nat.lt_or_ge rbSize c.bwp.size with hrb | hrb
    · rw [if_pos hrb, if_pos hrb]
      split
      · exact ih _ _ (by omega)
      · rfl
    · rw [if_neg (Nat.not_lt.2 hrb), if_neg (Nat.not_lt.2 hrb)]
      split
      · exact ih _ _ (by omega)
      · rfl

theorem searchVrb_isSome (c : Msg4Context) (rbSize fuel rbStart i : ℕ)
    (hfuel : (c.bwp.size + 1 - rbStart) * (rbSize + 1) + (rbSize - i) < fuel) :
    (c.searchVrb rbSize fuel rbStart i).isSome := by
  induction fuel generalizing rbStart i with
  | zero => omega
  | succ fuel ih =>
    rw [searchVrb]
    split
    · rename_i h
      obtain ⟨hi, hle⟩ := h
      split
      · -- a taken block: the search starts again behind it
        refine ih _ _ ?_
        have hstep : (c.bwp.size + 1 - (rbStart + i + 1) + 1) * (rbSize + 1) ≤
            (c.bwp.size + 1 - rbStart) * (rbSize + 1) := Nat.mul_le_mul_right _ (by omega)
        rw [Nat.succ_mul] at hstep
        omega
      · exact ih _ _ (by omega)
    · rfl

/-- The part before the HARQ management always comes to an end. -/
theorem grant_ne_loops (c : Msg4Context) (dl : HarqLists) : c.grant dl ≠ .error .loops := by
  rw [grant]
  iterate 6
    split
    · exact nofun
  cases hlen : c.pduLength dl with
  | error e =>
    rintro ⟨⟩
    rw [pduLength] at hlen
    split at hlen
    · dsimp only at hlen
      split at hlen <;> cases hlen
    · cases hlen
  | ok pduLength =>
    obtain ⟨⟨rbSize, tbSize⟩, hgrow⟩ := Option.isSome_iff_exists.1
      (c.growTb_isSome pduLength (c.bwp.size + 30) 0 0 (by omega))
    obtain ⟨rbStart, hsearch⟩ := Option.isSome_iff_exists.1 (c.searchVrb_isSome rbSize
      ((c.bwp.size + 2) * (rbSize + 1)) 0 0 (by rw [Nat.succ_mul, Nat.sub_zero]; omega))
    change (match c.growTb pduLength (c.bwp.size + 30) 0 0 with
      | none => _
      | some (rbSize, tbSize) => _) ≠ _
    rw [hgrow]
    dsimp only
    rw [hsearch]
    dsimp only
    split
    · split <;> exact nofun
    · exact nofun

/-! ### What the search finds -/

/-- `n` blocks from `rbStart` on are free. -/
def FreeRun (c : Msg4Context) (rbStart n : ℕ) : Prop :=
  ∀ j < n, c.vrbMap.busy c.tda.slbitmap (c.bwp.start + rbStart + j) = false

/-- The search keeps the run it has seen, and passes no free one. -/
theorem searchVrb_spec (h : c.searchVrb rbSize fuel rbStart i = some r)
    (hfree : c.FreeRun rbStart i)
    (hpassed : ∀ s < rbStart, s + rbSize ≤ c.bwp.size → ¬ c.FreeRun s rbSize) :
    (∀ s < r, s + rbSize ≤ c.bwp.size → ¬ c.FreeRun s rbSize) ∧
      (r + rbSize ≤ c.bwp.size → c.FreeRun r rbSize) := by
  induction fuel generalizing rbStart i with
  | zero => cases h
  | succ fuel ih =>
    rw [searchVrb] at h
    split at h
    · rename_i hlt
      split at h
      · rename_i htaken
        refine ih h nofun fun s hs hle hrun ↦ ?_
        rcases Nat.lt_or_ge s rbStart with hs' | hs'
        · exact hpassed s hs' hle hrun
        · -- a run from there on would hold the taken block
          have := hrun (rbStart + i - s) (by omega)
          rw [show c.bwp.start + s + (rbStart + i - s) = c.bwp.start + rbStart + i by omega,
            htaken] at this
          cases this
      · rename_i hnot
        refine ih h (fun j hj ↦ ?_) hpassed
        rcases Nat.lt_succ_iff_lt_or_eq.1 hj with hj | rfl
        · exact hfree j hj
        · simpa using hnot
    · rename_i hend
      obtain rfl := Option.some.inj h
      exact ⟨hpassed, fun hle j hj ↦ hfree j (by omega)⟩

/-- **First fit**: the search ends at the first run of `rbSize` free blocks in the BWP, and beyond
the BWP if there is none. -/
theorem searchVrb_firstFit (c : Msg4Context) (rbSize : ℕ) :
    ∃ rbStart, c.searchVrb rbSize ((c.bwp.size + 2) * (rbSize + 1)) 0 0 = some rbStart ∧
      (∀ s < rbStart, s + rbSize ≤ c.bwp.size → ¬ c.FreeRun s rbSize) ∧
      (rbStart + rbSize ≤ c.bwp.size → c.FreeRun rbStart rbSize) := by
  obtain ⟨rbStart, h⟩ := Option.isSome_iff_exists.1 (c.searchVrb_isSome rbSize
    ((c.bwp.size + 2) * (rbSize + 1)) 0 0 (by rw [Nat.succ_mul, Nat.sub_zero]; omega))
  exact ⟨rbStart, h, searchVrb_spec h nofun nofun⟩

/-! ### What a call can do -/

/-- The process of a Msg4: a new one comes out of the available list, one to be sent again stays
in its list. -/
theorem takePid_eq (h : takePid dl = .ok (dl', pid)) (hd : dl.DisjointLists av fb re) :
    (re = [] ∧ ∃ rest l, av = pid :: rest ∧ l.Represents rest ∧ l.len = dl.available.len ∧
      dl' = { dl with available := l }) ∨ (∃ rest, re = pid :: rest ∧ dl' = dl) := by
  rw [takePid, hd.retrans.head_eq] at h
  rcases re with - | ⟨x, re⟩
  · rw [firstId, if_pos (by decide), hd.available.head_eq] at h
    rcases av with - | ⟨y, av⟩
    · cases h
    · obtain ⟨l, hl, hrep, hlen⟩ := hd.available.removeFrontNrList
      rw [firstId, if_pos (Int.natCast_nonneg y), hl, Int.toNat_natCast] at h
      obtain ⟨hdl, rfl⟩ := Prod.mk.inj (Except.ok.inj h)
      exact .inl ⟨rfl, av, l, rfl, hrep, hlen, hdl.symm⟩
  · obtain ⟨hdl, rfl⟩ := Prod.mk.inj (Except.ok.inj h)
    exact .inr ⟨re, rfl, hdl.symm⟩

end Msg4Context

/-- **What a call can do** that returns: it ends before the HARQ management, or after a process was
taken without a PUCCH occasion for it, or Msg4 is sent. -/
theorem nrGenerateMsg4MsgB_cases (h : nrGenerateMsg4MsgB c s = .ok (s', sent)) :
    (c.grant s.dl = .ok none ∧ s' = s ∧ sent = false) ∨
      ∃ tbSize dl pid, c.grant s.dl = .ok (some tbSize) ∧
        Msg4Context.takePid s.dl = .ok (dl, pid) ∧
        ((c.feedbackDisabled pid = false ∧ c.acknack = none ∧ s'.dl = dl ∧ sent = false) ∨
          ((c.feedbackDisabled pid = true ∨ c.acknack ≠ none) ∧
            s'.dl = c.sendOn dl pid tbSize ∧ sent = true)) := by
  rw [nrGenerateMsg4MsgB] at h
  rcases hgrant : c.grant s.dl with e | - | tbSize
  · rw [hgrant] at h
    cases h
  · rw [hgrant] at h
    cases h
    exact .inl ⟨rfl, rfl, rfl⟩
  · rw [hgrant] at h
    rcases htake : Msg4Context.takePid s.dl with e | ⟨dl, pid⟩
    · rw [htake] at h
      cases h
    · rw [htake] at h
      refine .inr ⟨tbSize, dl, pid, rfl, rfl, ?_⟩
      change (if (!c.feedbackDisabled pid && c.acknack.isNone) = true then _ else _) = _ at h
      split at h
      · rename_i hnone
        rw [Bool.and_eq_true, Bool.not_eq_true', Option.isNone_iff_eq_none] at hnone
        cases h
        exact .inl ⟨hnone.1, hnone.2, rfl, rfl⟩
      · rename_i hnone
        rw [Bool.and_eq_true, Bool.not_eq_true', Option.isNone_iff_eq_none, not_and_or,
          Bool.not_eq_false] at hnone
        split at h
        · cases h
        dsimp only at h
        split at h
        · cases h
        cases h
        exact .inr ⟨hnone, rfl, rfl⟩

/-- The lists after a process was sent. -/
theorem Msg4Context.sendOn_lists (c : Msg4Context) (dl : HarqLists) (pid tbSize : ℕ) :
    (c.sendOn dl pid tbSize).retrans = dl.retrans ∧
    if c.pucch pid = none then
      (c.sendOn dl pid tbSize).available = addTailNrList dl.available pid ∧
        (c.sendOn dl pid tbSize).feedback = dl.feedback
    else
      (c.sendOn dl pid tbSize).available = dl.available ∧
        (c.sendOn dl pid tbSize).feedback = addTailNrList dl.feedback pid := by
  rw [sendOn]
  rcases c.pucch pid with - | ⟨frame, slot⟩ <;> exact ⟨rfl, rfl, rfl⟩

theorem Msg4Context.pucch_eq_none_iff (h : c.feedbackDisabled pid = true ∨ c.acknack ≠ none) :
    c.pucch pid = none ↔ c.feedbackDisabled pid = true := by
  rw [pucch]
  split
  · rename_i hdisabled
    exact ⟨fun _ ↦ hdisabled, fun _ ↦ rfl⟩
  · rename_i hdisabled
    exact ⟨fun hnone ↦ absurd hnone (h.resolve_left hdisabled), fun hd ↦ absurd hd hdisabled⟩

/-! ### New transmissions -/

/-- Without a PUCCH occasion, a process that was available is lost. -/
theorem HarqLists.DisjointLists.not_atomic_of_lost
    (hd : dl.DisjointLists (pid :: rest) fb re) (hl : l.Represents rest) :
    ¬ Atomic c (pid :: rest) fb re dl { dl with available := l } false := by
  intro h
  have heq : l = dl.available := (h.unchanged rfl).1
  have hlist := hd.available.unique (heq ▸ hl)
  exact cons_ne_self _ _ hlist

/-- The first available process moves to the end of the list it is sent to. -/
theorem HarqLists.DisjointLists.atomic_of_new
    (hd : dl.DisjointLists (pid :: rest) fb []) (hl : l.Represents rest)
    (hlen : l.len = dl.available.len) (hack : c.feedbackDisabled pid = true ∨ c.acknack ≠ none) :
    Atomic c (pid :: rest) fb [] dl (c.sendOn { dl with available := l } pid tbSize) true where
  unchanged := nofun
  moved _ := by
    refine ⟨pid, by simp, ?_⟩
    have hlt : pid < dl.available.len := hd.available.lt_len pid (by simp)
    have hrest : pid ∉ rest := (nodup_cons.1 hd.available.nodup).1
    have hfb : pid ∉ fb := fun hmem ↦ hd.available_feedback (by simp) hmem
    have hdisjoint : rest.Disjoint fb := fun x hx ↦
      hd.available_feedback (mem_cons_of_mem _ hx)
    obtain ⟨hre, hlists⟩ := c.sendOn_lists { dl with available := l } pid tbSize
    have hpucch := Msg4Context.pucch_eq_none_iff hack
    generalize c.sendOn { dl with available := l } pid tbSize = h' at hre hlists ⊢
    rw [erase_cons_head]
    split
    · rename_i hdisabled
      rw [if_pos (hpucch.2 hdisabled)] at hlists
      exact {
        available := hlists.1 ▸ hl.addTailNrList hrest (hlen ▸ hlt)
        feedback := hlists.2 ▸ hd.feedback
        retrans := hre ▸ hd.retrans
        feedback_len := by
          rw [hlists.1, hlists.2, len_addTailNrList]
          exact hd.feedback_len.trans hlen.symm
        retrans_len := by
          rw [hlists.1, hre, len_addTailNrList]
          exact hd.retrans_len.trans hlen.symm
        available_feedback := by simpa [disjoint_append_left] using ⟨hdisjoint, hfb⟩
        available_retrans := disjoint_nil_right _
        feedback_retrans := hd.feedback_retrans }
    · rename_i hdisabled
      rw [if_neg (hpucch.not.2 hdisabled)] at hlists
      exact {
        available := hlists.1 ▸ hl
        feedback := hlists.2 ▸ hd.feedback.addTailNrList hfb (hd.feedback_len ▸ hlt)
        retrans := hre ▸ hd.retrans
        feedback_len := by
          rw [hlists.1, hlists.2, len_addTailNrList]
          exact hd.feedback_len.trans hlen.symm
        retrans_len := by
          rw [hlists.1, hre]
          exact hd.retrans_len.trans hlen.symm
        available_feedback := by simpa [disjoint_append_right] using ⟨hdisjoint, hrest⟩
        available_retrans := disjoint_nil_right _
        feedback_retrans := disjoint_nil_right _ }

/-! ### Retransmissions -/

/-- A process that is sent again stays in the retransmission list: no one process has moved. -/
theorem HarqLists.DisjointLists.not_atomic_of_retrans
    (hd : dl.DisjointLists av fb re) (hpid : pid ∈ re)
    (hack : c.feedbackDisabled pid = true ∨ c.acknack ≠ none) :
    ¬ Atomic c av fb re dl (c.sendOn dl pid tbSize) true := by
  intro h
  obtain ⟨q, hq, hmoved⟩ := h.moved rfl
  obtain ⟨hre, hlists⟩ := c.sendOn_lists dl pid tbSize
  have hlt : pid < dl.available.len := hd.retrans_len ▸ hd.retrans.lt_len pid hpid
  -- the retransmission list is as it was, so the process that moved was available
  have hqav : q ∈ av ∧ (c.sendOn dl pid tbSize).retrans.Represents (re.erase q) := by
    have hrep : (c.sendOn dl pid tbSize).retrans.Represents (re.erase q) := by
      split at hmoved <;> exact hmoved.retrans
    refine ⟨(mem_append.1 hq).resolve_right fun hqre ↦ ?_, hrep⟩
    have hlen := congrArg length (hd.retrans.unique (hre ▸ hrep))
    have hpos := length_pos_of_mem hqre
    rw [length_erase_of_mem hqre] at hlen
    omega
  have hpos := length_pos_of_mem hqav.1
  have hpucch := Msg4Context.pucch_eq_none_iff hack
  by_cases hnone : c.pucch pid = none
  · -- one more process is available
    rw [if_pos hnone] at hlists
    have hav : (c.sendOn dl pid tbSize).available.Represents (av ++ [pid]) :=
      hlists.1 ▸ hd.available.addTailNrList (fun hmem ↦ hd.available_retrans hmem hpid) hlt
    split at hmoved
    all_goals
      have hlen := congrArg length (hav.unique hmoved.available)
      simp only [length_append, length_singleton, length_erase_of_mem hqav.1] at hlen
      omega
  · rw [if_neg hnone] at hlists
    split at hmoved
    · -- one more process waits for feedback
      have hfb : (c.sendOn dl pid tbSize).feedback.Represents (fb ++ [pid]) :=
        hlists.2 ▸ hd.feedback.addTailNrList (fun hmem ↦ hd.feedback_retrans hmem hpid)
          (hd.feedback_len ▸ hlt)
      have hlen := congrArg length (hfb.unique hmoved.feedback)
      simp at hlen
    · have hlen := congrArg length (hd.available.unique (hlists.1 ▸ hmoved.available))
      rw [length_erase_of_mem hqav.1] at hlen
      omega

/-- **When Msg4 is atomic on the HARQ lists**: the call ends before the HARQ management, or it is
for a new transmission that can be acknowledged, or for a retransmission that cannot, which is not
sent. -/
theorem msg4_atomic_iff (hd : s.dl.DisjointLists av fb re)
    (h : nrGenerateMsg4MsgB c s = .ok (s', sent)) :
    Atomic c av fb re s.dl s'.dl sent ↔
      c.grant s.dl = .ok none ∨ (c.Acknowledged s.dl ↔ s.dl.retrans.head < 0) := by
  rcases nrGenerateMsg4MsgB_cases h with
    ⟨hgrant, rfl, rfl⟩ | ⟨tbSize, dl, pid, hgrant, htake, hend⟩
  · exact iff_of_true ⟨fun _ ↦ ⟨rfl, rfl, rfl⟩, nofun⟩ (.inl hgrant)
  · rw [hgrant, or_iff_right (by simp)]
    rcases Msg4Context.takePid_eq htake hd with
      ⟨rfl, rest, l, rfl, hl, hlen, rfl⟩ | ⟨rest, rfl, rfl⟩
    · have hnew : s.dl.retrans.head < 0 := by rw [hd.retrans.head_eq]; decide
      have hpid : Msg4Context.nextPid s.dl = pid := by
        rw [Msg4Context.nextPid, if_pos hnew, hd.available.head_eq, firstId, Int.toNat_natCast]
      rw [Msg4Context.Acknowledged, hpid, iff_true_right hnew]
      rcases hend with ⟨hdisabled, hnone, hdl, rfl⟩ | ⟨hack, hdl, rfl⟩
      · rw [hdl]
        refine iff_of_false (hd.not_atomic_of_lost hl) ?_
        simp [hdisabled, hnone]
      · rw [hdl]
        exact iff_of_true (hd.atomic_of_new hl hlen hack) hack
    · have hretrans : ¬ s.dl.retrans.head < 0 := by rw [hd.retrans.head_eq, firstId]; omega
      have hpid : Msg4Context.nextPid s.dl = pid := by
        rw [Msg4Context.nextPid, if_neg hretrans, hd.retrans.head_eq, firstId, Int.toNat_natCast]
      rw [Msg4Context.Acknowledged, hpid, iff_false_right hretrans]
      rcases hend with ⟨hdisabled, hnone, hdl, rfl⟩ | ⟨hack, hdl, rfl⟩
      · rw [hdl]
        refine iff_of_true ⟨fun _ ↦ ⟨rfl, rfl, rfl⟩, nofun⟩ ?_
        simp [hdisabled, hnone]
      · rw [hdl]
        exact iff_of_false (hd.not_atomic_of_retrans (by simp) hack) (not_not.2 hack)

/-- A free slot with 48 resource blocks and an RRCSetup of 100 bytes to send. -/
def rrcSetupContext (acknack : Option (UInt16 × UInt16)) : Msg4Context where
  raType := .ra4Step
  isDlSlot := true
  ueFound := true
  srb0Bytes := 100
  srb1Bytes := 0
  beamIdx := 0
  bwp := ⟨0, 48⟩
  cceIndex := 0
  nPdus := 0
  tda :=
    { startSymbolIndex := 1
      nrOfSymbols := 13
      pos_symbols := Nat.succ_pos 12
      le_symbols := Nat.le_refl 14 }
  nbDmrsPrb := 12
  qm _ := 2
  codeRate _ := 1200
  vrbMap _ := 0
  feedbackDisabled _ := false
  acknack

/-- The two processes of a UE whose first Msg4, on process 0, is to be sent again if `retrans`. -/
def msg4State (retrans : Bool) : NrUeSchedCtrl :=
  let s := NrUeSchedCtrl.new none
  let l := createNrList 2
  if retrans then
    { s with
      dl :=
        { available := addTailNrList l 1
          feedback := l
          retrans := addTailNrList l 0
          processes := fun pid ↦ if pid = 0 then { round := 1, tbSize := 115 } else {} } }
  else { s with dl := s.dl.created 2 }

theorem msg4State_disjoint (retrans : Bool) :
    (msg4State retrans).dl.DisjointLists (if retrans then [1] else [0, 1]) []
      (if retrans then [0] else []) := by
  cases retrans <;> exact ⟨by decide, by decide, by decide, rfl, rfl, by simp, by simp, by simp⟩

/-- The outcome for each PUCCH occasion and state. -/
def msg4Outcome (acknack : Option (UInt16 × UInt16)) (retrans : Bool) :
    Option (NrUeSchedCtrl × Bool) :=
  (nrGenerateMsg4MsgB (rrcSetupContext acknack) (msg4State retrans)).toOption

theorem msg4Outcome_new_isSome : (msg4Outcome (some (10, 4)) false).isSome := by decide

theorem first_msg4_atomic :
    let r := (msg4Outcome (some (10, 4)) false).get msg4Outcome_new_isSome
    r.2 = true ∧
      Atomic (rrcSetupContext (some (10, 4))) [0, 1] [] [] (msg4State false).dl r.1.dl r.2 :=
  ⟨by decide,
    (msg4_atomic_iff (msg4State_disjoint false)
      (Except.eq_ok_get msg4Outcome_new_isSome)).2 (.inr (by decide))⟩

/-- **A process is lost** when there is no PUCCH occasion for a first Msg4, and **a process is in
two lists** after a Msg4 was sent again. -/
theorem msg4_not_atomic :
    (∃ r, nrGenerateMsg4MsgB (rrcSetupContext none) (msg4State false) = .ok r ∧ r.2 = false ∧
      ¬ Atomic (rrcSetupContext none) [0, 1] [] [] (msg4State false).dl r.1.dl r.2) ∧
    ∃ r, nrGenerateMsg4MsgB (rrcSetupContext (some (10, 4))) (msg4State true) = .ok r ∧
      r.2 = true ∧ r.1.dl.feedback.Represents [0] ∧ r.1.dl.retrans.Represents [0] := by
  refine ⟨⟨_, Except.eq_ok_get (by decide), by decide, fun h ↦ ?_⟩,
    _, Except.eq_ok_get (by decide), by decide⟩
  have hhead := congrArg NrList.head (h.unchanged (by decide)).1
  revert hhead
  decide

end OaiRan.Mac
