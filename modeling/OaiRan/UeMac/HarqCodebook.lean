import OaiRan.UeMac.DlHarq
import OaiRan.Common.ReverseBits

/-!
# The HARQ-ACK codebook

`get_downlink_ack` gathers the acknowledgements that are due in a slot, each at the place of its
cumulative DAI, fills the places of assignments that have been missed, writes the bits in the order of
the counter and reverses them. The number of bits is the largest place, the bits are at their places and
the processes become inactive. But the bits are gathered in `o_ACK`, **a `uint8_t`**: an
acknowledgement behind the eighth place is lost (`reportsAcks_iff`).
-/

namespace OaiRan.UeMac

open OaiRan.Common List Function DlHarq List Nat

/-! ### PUCCH resources -/

/-- `NR_PUCCH_ResourceSet_t`; a list entry may be a null pointer. -/
structure PucchResourceSet where
  pucchResourceSetId : ℕ
  maxPayloadSize : Option ℕ := none
  resourceList : List (Option ℕ)

/-- The part of `NR_PUCCH_Config_t` that is used here: resource sets, and the identities of the
resources. -/
structure PucchConfig where
  resourceSetToAddModList : List PucchResourceSet
  resourceToAddModList : List ℕ

/-- The part of `PUCCH_sched_t` that is used here; a resource is given by its identity. -/
structure PucchSched where
  pucchResource : Option ℕ := none
  ackPayload : ℕ := 0
  nHarq : ℕ := 0
  nCce : ℕ := 0
  totalCce : ℕ := 0
  initialPucchId : ℕ := 0

/-- `maxPayloadSize` of the last set with this identity. -/
def PucchConfig.maxPayload (cfg : PucchConfig) (id : ℕ) : ℕ :=
  cfg.resourceSetToAddModList.foldl (fun n set ↦
    if set.pucchResourceSetId = id then set.maxPayloadSize.getD 1706 else n) 1706

/-- `find_pucch_resource_set`, `none` where its assertion fails. -/
def findPucchResourceSet (cfg : PucchConfig) (size : ℕ) : Option ℕ :=
  if size > 1706 then none
  else if size ≤ 2 then some 0
  else if size ≤ cfg.maxPayload 1 then some 1
  else if size ≤ cfg.maxPayload 2 then some 2
  else some 3

/-- `find_pucch_resource_from_list`: the last one with this identity. -/
def findPucchResourceFromList (resources : List ℕ) (id : ℕ) : Option ℕ :=
  resources.foldl (fun found res ↦ if res = id then some res else found) none

def configureInitialPucch (pucch : PucchSched) (resInd : ℕ) : Option PucchSched :=
  if pucch.totalCce = 0 then none
  else some { pucch with
    initialPucchId := 2 * pucch.nCce / pucch.totalCce + 2 * resInd
    pucchResource := none }

/-- The resource for so many bits; `none` where an assertion fails. -/
def ackResource (cfg : Option PucchConfig) (oAck resInd : ℕ) (pucch : PucchSched) :
    Option PucchSched :=
  match cfg.filter fun cfg ↦ cfg.resourceSetToAddModList ≠ [] with
  | none => configureInitialPucch pucch resInd
  | some cfg => do
    let setId ← findPucchResourceSet cfg oAck
    let set ← cfg.resourceSetToAddModList[setId]?
    let id ← (set.resourceList[resInd]?).join
    let res ← findPucchResourceFromList cfg.resourceToAddModList id
    some { pucch with pucchResource := some res }

/-! ### The codebook -/

/-- What the loop over the processes gathers. `ackData` and `dai` are by codeword and place, `resInd` is
`none` for -1. -/
structure AckScan where
  info : ℕ → DlHarqStatus
  ackData : ℕ → ℕ → Bool := fun _ _ ↦ false
  dai : ℕ → ℕ → ℕ := fun _ _ ↦ 0
  numberHarqFeedback : ℕ := 0
  daiMax : ℕ := 0
  resInd : Option ℕ := none
  pucch : PucchSched

/-- How that loop may end early: it returns `false`, or writes behind the arrays. -/
inductive AckExit
  | returnsFalse (s : AckScan)
  | outOfBounds

/-- An entry by codeword and place. -/
def setEntry {α : Type} (f : ℕ → ℕ → α) (codeWord place : ℕ) (a : α) : ℕ → ℕ → α :=
  update f codeWord (update (f codeWord) place a)

/-- A process is reported at its place. -/
def AckScan.gather (s : AckScan) (codeWord pid : ℕ) (harq : DlHarqStatus) : AckScan :=
  let place := harq.daiCumul - 1
  { info := if harq.ackReceived then
      update s.info pid { harq with active := false, ackReceived := false }
      else s.info
    ackData := setEntry s.ackData codeWord place (harq.ackReceived && harq.ack)
    dai := setEntry s.dai codeWord place (place % 4 + 1)
    numberHarqFeedback := s.numberHarqFeedback + 1
    daiMax := max s.daiMax harq.daiCumul
    resInd := some harq.pucchResourceIndicator
    pucch := { s.pucch with nCce := harq.nCce, totalCce := harq.totalCce } }

/-- The body of the loop, `p` being codeword and process. The assertion on the resource index cannot
fail, because a process with another one has been skipped. -/
def scanHarq (feedbackDisabled : ℕ → Bool) (time : ℕ × ℕ) (s : AckScan) (p : ℕ × ℕ) :
    Except AckExit AckScan :=
  let harq := s.info p.2
  if harq.due time = false then .ok s
  else if s.resInd ≠ none ∧ s.resInd ≠ some harq.pucchResourceIndicator then .ok s
  else if feedbackDisabled p.2 then
    .ok { s with info := update s.info p.2 { harq with active := false, ackReceived := false } }
  else if harq.daiCumul = 0 then .error (.returnsFalse s)
  else if 32 < harq.daiCumul then .error .outOfBounds
  else .ok (s.gather p.1 p.2 harq)

/-- A place that no received assignment has. -/
def fillMissed (s : AckScan) (p : ℕ × ℕ) : AckScan :=
  if s.dai p.1 p.2 = 0 then
    { s with
      dai := setEntry s.dai p.1 p.2 (p.2 % 4 + 1)
      ackData := setEntry s.ackData p.1 p.2 false
      numberHarqFeedback := s.numberHarqFeedback + 1 }
  else s

/-- The variables of the loop over the places. -/
structure AckBits where
  j : ℕ := 0
  vTemp : ℕ := 0
  vTemp2 : ℕ := 0
  oAck : ℕ := 0

/-- `o_ACK | (ack << bit)`, in a `uint8_t`. -/
def orBit (oAck : ℕ) (ack : Bool) (bit : ℕ) : ℕ := (oAck ||| (ack.toNat <<< bit)) % 256

/-- The body of the loop over the places; `dai_total` is `dai` with two transport blocks and 0 with
one. -/
def ackBit (twoTransportBlocks : Bool) (s : AckScan) (b : AckBits) (m : ℕ) : AckBits :=
  let j := if s.dai 0 m ≤ b.vTemp then b.j + 1 else b.j
  let vTemp := s.dai 0 m
  if twoTransportBlocks && s.dai 0 m != 0 then
    { j, vTemp
      vTemp2 := s.dai 1 m
      oAck := orBit (orBit b.oAck (s.ackData 1 m) (8 * j + 2 * (vTemp - 1) + 1)) (s.ackData 0 m)
        (8 * j + 2 * (vTemp - 1)) }
  else
    { j, vTemp
      vTemp2 := s.dai 0 m
      oAck := orBit b.oAck (s.ackData 0 m)
        (if twoTransportBlocks then 8 * j + 2 * (vTemp - 1) else 4 * j + (vTemp - 1)) }

/-- `O_ACK`. -/
def ackCount (twoTransportBlocks : Bool) (b : AckBits) : ℕ :=
  let j := if b.vTemp2 < b.vTemp then b.j + 1 else b.j
  if twoTransportBlocks then 2 * (4 * j + b.vTemp2) else 4 * j + b.vTemp2

/-- The configuration that `get_downlink_ack` reads. -/
structure AckConfig where
  pucchConfig : Option PucchConfig := none
  /-- `get_FeedbackDisabled`, by process. -/
  feedbackDisabled : ℕ → Bool := fun _ ↦ false
  twoTransportBlocks : Bool := false

/-- The codewords and what is looped over for each. -/
def AckConfig.loop (cfg : AckConfig) (n : ℕ) : List (ℕ × ℕ) :=
  (range (if cfg.twoTransportBlocks then 2 else 1)).flatMap fun cw ↦
    (range n).map fun i ↦ (cw, i)

/-- `get_downlink_ack` behind the loop over the processes. -/
def AckScan.report (cfg : AckConfig) (s : AckScan) : Option (Bool × (ℕ → DlHarqStatus) × PucchSched) :=
  if s.numberHarqFeedback = 0 ∨ s.numberHarqFeedback > 32 then some (false, s.info, s.pucch)
  else
    let s := (cfg.loop s.daiMax).foldl fillMissed s
    let b := (range s.daiMax).foldl (ackBit cfg.twoTransportBlocks s) {}
    let oAck := ackCount cfg.twoTransportBlocks b
    if s.numberHarqFeedback ≠ oAck then some (false, s.info, s.pucch)
    else
      (ackResource cfg.pucchConfig oAck (s.resInd.getD 0) s.pucch).bind fun pucch ↦
        (reverseBits b.oAck s.numberHarqFeedback).map fun ackPayload ↦
          (true, s.info, { pucch with ackPayload, nHarq := s.numberHarqFeedback })

/-- `get_downlink_ack`: the returned value with the processes and the PUCCH, `none` where an assertion
fails. -/
def getDownlinkAck (cfg : AckConfig) (mac : DlHarq) (time : ℕ × ℕ) (pucch : PucchSched) :
    Option (Bool × (ℕ → DlHarqStatus) × PucchSched) :=
  match (cfg.loop mac.numDlHarq).foldlM (scanHarq cfg.feedbackDisabled time)
      { info := mac.dlHarqInfo, pucch } with
  | .ok s => s.report cfg
  | .error (.returnsFalse s) => some (false, s.info, s.pucch)
  | .error .outOfBounds => none

/-! ### The processes of a slot -/

/-- Processes with feedback in a slot, as the network schedules them: feedback is enabled, one resource
is indicated, the transport blocks are decoded, and each assignment has a place of its own among the
first `n`, the last of which is taken. -/
structure Codebook (cfg : AckConfig) (mac : DlHarq) (time : ℕ × ℕ) (resInd n : ℕ) : Prop where
  oneCodeword : cfg.twoTransportBlocks = false
  enabled : ∀ i < mac.numDlHarq, (mac.dlHarqInfo i).due time → cfg.feedbackDisabled i = false
  resource : ∀ i < mac.numDlHarq, (mac.dlHarqInfo i).due time →
    (mac.dlHarqInfo i).pucchResourceIndicator = resInd
  decoded : ∀ i < mac.numDlHarq, (mac.dlHarqInfo i).due time → (mac.dlHarqInfo i).ackReceived = true
  pos : ∀ i < mac.numDlHarq, (mac.dlHarqInfo i).due time → 0 < (mac.dlHarqInfo i).daiCumul
  le : ∀ i < mac.numDlHarq, (mac.dlHarqInfo i).due time → (mac.dlHarqInfo i).daiCumul ≤ n
  inj : ∀ i < mac.numDlHarq, ∀ j < mac.numDlHarq, (mac.dlHarqInfo i).due time →
    (mac.dlHarqInfo j).due time → (mac.dlHarqInfo i).daiCumul = (mac.dlHarqInfo j).daiCumul → i = j
  max : ∃ i < mac.numDlHarq, (mac.dlHarqInfo i).due time ∧ (mac.dlHarqInfo i).daiCumul = n
  n_le : n ≤ 16

section Scan

variable (mac : DlHarq) (time : ℕ × ℕ) {cfg : AckConfig} {resInd n k : ℕ} {pucch : PucchSched}
  {s : AckScan}

/-- Among the first `k` processes one has this place. -/
def DlHarq.seen (k place : ℕ) : Bool :=
  (range k).any fun i ↦
    (mac.dlHarqInfo i).due time && (mac.dlHarqInfo i).daiCumul == place + 1

/-- Among the first `k` processes one has this place and an acknowledgement. -/
def DlHarq.acked (k place : ℕ) : Bool :=
  (range k).any fun i ↦ (mac.dlHarqInfo i).due time &&
    (mac.dlHarqInfo i).daiCumul == place + 1 && (mac.dlHarqInfo i).ack

/-- The last process with feedback in the slot, among the first `k`. -/
def DlHarq.lastDue (k : ℕ) : Option ℕ :=
  (range k).foldl (fun last i ↦ if (mac.dlHarqInfo i).due time then some i else last) none

/-- The PUCCH with the CCEs of the last process. -/
def DlHarq.withCce (k : ℕ) (pucch : PucchSched) : PucchSched :=
  (mac.lastDue time k).elim pucch fun i ↦
    { pucch with nCce := (mac.dlHarqInfo i).nCce, totalCce := (mac.dlHarqInfo i).totalCce }

/-- The processes after the report. -/
def DlHarq.reported (k i : ℕ) : DlHarqStatus :=
  if i < k ∧ (mac.dlHarqInfo i).due time then
    { mac.dlHarqInfo i with active := false, ackReceived := false }
  else mac.dlHarqInfo i

theorem DlHarq.seen_succ (k place : ℕ) :
    mac.seen time (k + 1) place = (mac.seen time k place ||
      ((mac.dlHarqInfo k).due time && (mac.dlHarqInfo k).daiCumul == place + 1)) := by
  simp [seen, range_succ]

theorem DlHarq.acked_succ (k place : ℕ) :
    mac.acked time (k + 1) place = (mac.acked time k place ||
      ((mac.dlHarqInfo k).due time && (mac.dlHarqInfo k).daiCumul == place + 1 &&
        (mac.dlHarqInfo k).ack)) := by
  simp [acked, range_succ]

theorem DlHarq.withCce_succ (k : ℕ) (pucch : PucchSched) :
    mac.withCce time (k + 1) pucch = if (mac.dlHarqInfo k).due time then
      { pucch with nCce := (mac.dlHarqInfo k).nCce, totalCce := (mac.dlHarqInfo k).totalCce }
      else mac.withCce time k pucch := by
  rw [withCce, lastDue, range_succ, foldl_append, foldl_cons, foldl_nil]
  rcases (mac.dlHarqInfo k).due time with - | -
  · rfl
  · rfl

/-- What the loop has gathered after `k` processes. -/
structure Gathered (resInd n : ℕ) (pucch : PucchSched) (k : ℕ) (s : AckScan) : Prop where
  info : s.info = mac.reported time k
  dai : ∀ place, s.dai 0 place = if mac.seen time k place then place % 4 + 1 else 0
  ackData : ∀ place, s.ackData 0 place = mac.acked time k place
  number : s.numberHarqFeedback = (range n).countP (mac.seen time k)
  le_daiMax : ∀ i < k, (mac.dlHarqInfo i).due time → (mac.dlHarqInfo i).daiCumul ≤ s.daiMax
  daiMax_le : s.daiMax ≤ n
  index : s.resInd = none ∨ s.resInd = some resInd
  index_of_due : ∀ i < k, (mac.dlHarqInfo i).due time → s.resInd = some resInd
  cce : s.pucch = mac.withCce time k pucch

theorem Gathered.start (resInd n : ℕ) (pucch : PucchSched) :
    Gathered mac time resInd n pucch 0 { info := mac.dlHarqInfo, pucch } where
  info := by
    funext i
    simp [reported]
  dai _ := rfl
  ackData _ := rfl
  number := (countP_eq_zero.2 fun _ _ ↦ by simp [seen]).symm
  le_daiMax i hi := absurd hi (not_lt_zero i)
  daiMax_le := zero_le n
  index := .inl rfl
  index_of_due i hi := absurd hi (not_lt_zero i)
  cce := rfl

variable {mac time}

theorem DlHarq.acked_of_not_seen (h : mac.seen time k place = false) :
    mac.acked time k place = false := by
  rw [acked, any_eq_false]
  intro i hi
  have hnot := any_eq_false.1 h i hi
  rw [Bool.not_eq_true] at hnot ⊢
  rw [hnot, Bool.false_and]

/-- One more place is counted. -/
theorem countP_range_insert (hplace : place < n)
    (hp : p place = false) (hq : ∀ i, q i = (p i || decide (place = i))) :
    (range n).countP q = (range n).countP p + 1 := by
  induction n with
  | zero => exact absurd hplace (not_lt_zero _)
  | succ n ih =>
    rw [range_succ, countP_append, countP_append, countP_singleton, countP_singleton, hq n]
    rcases Nat.lt_succ_iff_lt_or_eq.1 hplace with hlt | rfl
    · rw [ih hlt, decide_eq_false (by omega), Bool.or_false]
      omega
    · have hsame : (range place).countP q = (range place).countP p := by
        refine countP_congr fun i hi ↦ ?_
        rw [hq i, decide_eq_false (ne_of_gt (mem_range.1 hi)), Bool.or_false]
      rw [hsame, hp]
      simp

/-- A process that is not due changes nothing. -/
theorem Gathered.skip (h : Gathered mac time resInd n pucch k s)
    (hdue : (mac.dlHarqInfo k).due time = false) :
    Gathered mac time resInd n pucch (k + 1) s where
  info := by
    rw [h.info]
    funext i
    refine if_congr (and_congr_left fun hi ↦ ?_) rfl rfl
    rcases eq_or_ne i k with rfl | hne
    · rw [hdue] at hi
      exact absurd hi (by decide)
    · omega
  dai place := by rw [h.dai, seen_succ, hdue, Bool.false_and, Bool.or_false]
  ackData place := by rw [h.ackData, acked_succ, hdue, Bool.false_and, Bool.false_and,
    Bool.or_false]
  number := by
    rw [h.number]
    refine countP_congr fun place _ ↦ ?_
    rw [seen_succ, hdue, Bool.false_and, Bool.or_false]
  le_daiMax i hi hi' := by
    rcases Nat.lt_succ_iff_lt_or_eq.1 hi with hlt | rfl
    · exact h.le_daiMax i hlt hi'
    · rw [hdue] at hi'
      exact absurd hi' (by decide)
  daiMax_le := h.daiMax_le
  index := h.index
  index_of_due i hi hi' := by
    rcases Nat.lt_succ_iff_lt_or_eq.1 hi with hlt | rfl
    · exact h.index_of_due i hlt hi'
    · rw [hdue] at hi'
      exact absurd hi' (by decide)
  cce := by rw [h.cce, withCce_succ, hdue]; rfl

@[simp] theorem setEntry_zero (f : ℕ → ℕ → α) (place i : ℕ) (a : α) :
    setEntry f 0 place a 0 i = if i = place then a else f 0 i := by
  rw [setEntry, update_self, update_apply]

/-- A process that is due gets its place. -/
theorem Gathered.gather (hc : Codebook cfg mac time resInd n) (hk : k < mac.numDlHarq)
    (h : Gathered mac time resInd n pucch k s) (hdue : (mac.dlHarqInfo k).due time = true) :
    ∃ t, scanHarq cfg.feedbackDisabled time s (0, k) = .ok t ∧
      Gathered mac time resInd n pucch (k + 1) t := by
  have hinfo : s.info k = mac.dlHarqInfo k := by
    rw [h.info, reported, if_neg fun hlt ↦ Nat.lt_irrefl k hlt.1]
  have hpos := hc.pos k hk hdue
  have hle := hc.le k hk hdue
  have hn := hc.n_le
  have hnew : mac.seen time k ((mac.dlHarqInfo k).daiCumul - 1) = false := by
    rw [seen, any_eq_false]
    intro i hi hsame
    have hi' := mem_range.1 hi
    rw [Bool.and_eq_true, beq_iff_eq] at hsame
    exact Nat.ne_of_lt hi' (hc.inj i (by omega) k hk hsame.1 hdue (by omega))
  have hplace : ∀ place, ((mac.dlHarqInfo k).daiCumul == place + 1) =
      decide ((mac.dlHarqInfo k).daiCumul - 1 = place) := fun place ↦ by
    rw [Bool.eq_iff_iff, beq_iff_eq, decide_eq_true_eq]
    omega
  have hindex : ¬ (s.resInd ≠ none ∧ s.resInd ≠ some (mac.dlHarqInfo k).pucchResourceIndicator) := by
    rw [hc.resource k hk hdue]
    rintro ⟨hne, hne'⟩
    exact h.index.elim hne hne'
  refine ⟨s.gather 0 k (mac.dlHarqInfo k), ?_, ?_⟩
  · rw [scanHarq]
    rw [hinfo, if_neg (by rw [hdue]; decide), if_neg hindex,
      if_neg (by rw [hc.enabled k hk hdue]; decide), if_neg (by omega), if_neg (by omega)]
  refine ⟨?_, fun place ↦ ?_, fun place ↦ ?_, ?_, fun i hi hi' ↦ ?_, ?_, .inr ?_, fun _ _ _ ↦ ?_, ?_⟩
  · show (if (mac.dlHarqInfo k).ackReceived then update s.info k _ else s.info) = _
    rw [if_pos (hc.decoded k hk hdue), h.info]
    funext i
    rw [update_apply, reported, reported]
    rcases eq_or_ne i k with rfl | hne
    · rw [if_pos rfl, if_pos ⟨Nat.lt_succ_self _, hdue⟩]
    · rw [if_neg hne]
      refine if_congr (and_congr_left fun _ ↦ ?_) rfl rfl
      omega
  · show setEntry s.dai 0 _ _ 0 place = _
    rw [setEntry_zero, seen_succ, hdue, Bool.true_and, hplace]
    rcases eq_or_ne place ((mac.dlHarqInfo k).daiCumul - 1) with rfl | hne
    · simp
    · rw [if_neg hne, h.dai, decide_eq_false (Ne.symm hne), Bool.or_false]
  · show setEntry s.ackData 0 _ _ 0 place = _
    rw [setEntry_zero, acked_succ, hdue, Bool.true_and, hplace, hc.decoded k hk hdue, Bool.true_and]
    rcases eq_or_ne place ((mac.dlHarqInfo k).daiCumul - 1) with rfl | hne
    · rw [if_pos rfl, acked_of_not_seen hnew]
      simp
    · rw [if_neg hne, h.ackData, decide_eq_false (Ne.symm hne), Bool.false_and, Bool.or_false]
  · show s.numberHarqFeedback + 1 = _
    rw [h.number]
    refine (countP_range_insert (by omega) hnew fun place ↦ ?_).symm
    rw [seen_succ, hdue, Bool.true_and, hplace]
  · show _ ≤ max s.daiMax _
    rcases Nat.lt_succ_iff_lt_or_eq.1 hi with hlt | rfl
    · exact Nat.le_trans (h.le_daiMax i hlt hi') (Nat.le_max_left ..)
    · exact Nat.le_max_right ..
  · exact Nat.max_le.2 ⟨h.daiMax_le, hle⟩
  · exact congrArg some (hc.resource k hk hdue)
  · exact congrArg some (hc.resource k hk hdue)
  · rw [withCce_succ, if_pos hdue]
    show { s.pucch with
      nCce := (mac.dlHarqInfo k).nCce, totalCce := (mac.dlHarqInfo k).totalCce } = _
    rw [h.cce, withCce]
    rcases mac.lastDue time k with - | i <;> rfl

/-- **The loop over the processes.** -/
theorem Codebook.scan (hc : Codebook cfg mac time resInd n) (pucch : PucchSched) :
    ∃ s, (cfg.loop mac.numDlHarq).foldlM (scanHarq cfg.feedbackDisabled time)
      { info := mac.dlHarqInfo, pucch } = .ok s ∧
      Gathered mac time resInd n pucch mac.numDlHarq s := by
  have hloop : ∀ m, cfg.loop m = (range m).map fun i ↦ (0, i) := fun m ↦ by
    simp [AckConfig.loop, hc.oneCodeword]
  have hprefix : ∀ k ≤ mac.numDlHarq, ∃ s, (cfg.loop k).foldlM (scanHarq cfg.feedbackDisabled time)
      { info := mac.dlHarqInfo, pucch } = .ok s ∧ Gathered mac time resInd n pucch k s := by
    intro k hk
    induction k with
    | zero =>
      rw [hloop]
      exact ⟨_, rfl, .start ..⟩
    | succ k ih =>
      obtain ⟨s, hs, hg⟩ := ih (by omega)
      rw [hloop] at hs ⊢
      rw [range_succ, map_append, foldlM_append, hs]
      rcases hdue : (mac.dlHarqInfo k).due time with - | -
      · have hinfo : s.info k = mac.dlHarqInfo k := by
          rw [hg.info, reported, if_neg fun hlt ↦ lt_irrefl k hlt.1]
        refine ⟨s, ?_, hg.skip hdue⟩
        show (scanHarq cfg.feedbackDisabled time s (0, k) >>= pure) = _
        rw [bind_pure, scanHarq]
        rw [hinfo, if_pos hdue]
      · obtain ⟨t, ht, hg'⟩ := hg.gather hc (by omega) hdue
        refine ⟨t, ?_, hg'⟩
        show (scanHarq cfg.feedbackDisabled time s (0, k) >>= pure) = _
        rw [bind_pure, ht]
  exact hprefix _ (le_refl _)

/-! ### Missed assignments and bits -/

/-- After the places before `k` have been filled. -/
structure Filled (mac : DlHarq) (time : ℕ × ℕ) (s : AckScan) (k : ℕ) (t : AckScan) : Prop where
  info : t.info = s.info
  daiMax : t.daiMax = s.daiMax
  index : t.resInd = s.resInd
  pucch : t.pucch = s.pucch
  dai : ∀ place, t.dai 0 place =
    if place < k ∨ mac.seen time mac.numDlHarq place then place % 4 + 1 else 0
  ackData : ∀ place, t.ackData 0 place = mac.acked time mac.numDlHarq place
  number : t.numberHarqFeedback =
    s.numberHarqFeedback + (range k).countP fun place ↦ !mac.seen time mac.numDlHarq place

theorem Gathered.fill (h : Gathered mac time resInd n pucch mac.numDlHarq s) (k : ℕ) :
    Filled mac time s k (((range k).map fun i ↦ (0, i)).foldl fillMissed s) := by
  induction k with
  | zero =>
    refine ⟨rfl, rfl, rfl, rfl, fun place ↦ ?_, h.ackData, rfl⟩
    simpa using h.dai place
  | succ k ih =>
    rw [range_succ, map_append, foldl_append]
    generalize ((range k).map fun i ↦ (0, i)).foldl fillMissed s = t at ih ⊢
    show Filled mac time s (k + 1) (fillMissed t (0, k))
    have hdai := ih.dai k
    rcases hseen : mac.seen time mac.numDlHarq k with - | -
    · -- Nobody has the place.
      rw [if_neg (by simp [hseen])] at hdai
      rw [fillMissed, if_pos hdai]
      refine ⟨ih.info, ih.daiMax, ih.index, ih.pucch, fun place ↦ ?_, fun place ↦ ?_, ?_⟩
      · show setEntry t.dai 0 k _ 0 place = _
        rw [setEntry_zero, ih.dai]
        rcases eq_or_ne place k with rfl | hne
        · rw [if_pos rfl, if_pos (.inl (lt_succ_self _))]
        · rw [if_neg hne]
          refine if_congr (or_congr_left ?_) rfl rfl
          omega
      · show setEntry t.ackData 0 k _ 0 place = _
        rw [setEntry_zero, ih.ackData]
        rcases eq_or_ne place k with rfl | hne
        · rw [if_pos rfl, acked_of_not_seen hseen]
        · rw [if_neg hne]
      · show t.numberHarqFeedback + 1 = _
        rw [ih.number, range_succ, countP_append, countP_singleton, hseen]
        rfl
    · rw [if_pos (.inr hseen)] at hdai
      rw [fillMissed, if_neg (by dsimp only; omega)]
      refine ⟨ih.info, ih.daiMax, ih.index, ih.pucch, fun place ↦ ?_, ih.ackData, ?_⟩
      · rw [ih.dai]
        refine if_congr ?_ rfl rfl
        rcases eq_or_ne place k with rfl | hne
        · simp [hseen]
        · exact or_congr_left (by omega)
      · rw [ih.number, range_succ, countP_append, countP_singleton, hseen]
        rfl

theorem testBit_orBit (oAck : ℕ) (ack : Bool) (bit i : ℕ) : (orBit oAck ack bit).testBit i =
    (decide (i < 8) && (oAck.testBit i || (ack && decide (i = bit)))) := by
  rw [orBit, show 256 = 2 ^ 8 from rfl, testBit_mod_two_pow, testBit_or, testBit_shiftLeft]
  congr 2
  rcases ack with - | -
  · simp
  · rw [Bool.true_and, Bool.eq_iff_iff, Bool.and_eq_true, decide_eq_true_eq, decide_eq_true_eq]
    show bit ≤ i ∧ (1 : ℕ).testBit (i - bit) = true ↔ i = bit
    rw [testBit_one_eq_true_iff_self_eq_zero]
    omega

/-- The loop over the places, when all are filled. -/
theorem ackBits_spec (hdai : ∀ m < n, s.dai 0 m = m % 4 + 1) (hm : m ≤ n) :
    let b := (range m).foldl (ackBit false s) {}
    b.j = (m - 1) / 4 ∧ b.vTemp = (if m = 0 then 0 else (m - 1) % 4 + 1) ∧ b.vTemp2 = b.vTemp ∧
      ∀ i, b.oAck.testBit i = (decide (i < m) && decide (i < 8) && s.ackData 0 i) := by
  induction m with
  | zero => exact ⟨rfl, rfl, rfl, fun i ↦ by simp⟩
  | succ m ih =>
    rw [range_succ, foldl_append]
    obtain ⟨hj, hv, -, hbits⟩ := ih (by omega)
    generalize (range m).foldl (ackBit false s) {} = b at hj hv hbits ⊢
    have hj' : (if s.dai 0 m ≤ b.vTemp then b.j + 1 else b.j) = m / 4 := by
      rw [hdai m (by omega), hv, hj]
      split <;> split <;> omega
    have hbit : 4 * (m / 4) + (m % 4 + 1 - 1) = m := by omega
    have hstep : ackBit false s b m =
        ⟨m / 4, m % 4 + 1, m % 4 + 1, orBit b.oAck (s.ackData 0 m) m⟩ := by
      rw [ackBit, Bool.false_and, if_neg (by decide), hj', hdai m (by omega), if_neg (by decide), hbit]
    rw [foldl_cons, foldl_nil, hstep]
    refine ⟨by simp, by simp, rfl, fun i ↦ ?_⟩
    rw [testBit_orBit, hbits]
    rcases lt_trichotomy i m with hlt | rfl | hgt
    · rw [decide_eq_true hlt, decide_eq_true (lt_succ_of_lt hlt),
        decide_eq_false (Nat.ne_of_lt hlt)]
      simp
    · simp
    · rw [decide_eq_false (lt_asymm hgt), decide_eq_false (show ¬ i < m + 1 by omega),
        decide_eq_false (ne_of_gt hgt)]
      simp

end Scan

/-! ### What is reported -/

/-- **The acknowledgements are reported**: so many bits as the largest place, each of them the
acknowledgement of the process with its place, or 0, and the processes are inactive. -/
def ReportsAcks (cfg : AckConfig) (mac : DlHarq) (time : ℕ × ℕ) (pucch : PucchSched) (n : ℕ) : Prop :=
  ∃ info pucch', getDownlinkAck cfg mac time pucch = some (true, info, pucch') ∧ pucch'.nHarq = n ∧
    (∀ i < n, pucch'.ackPayload.testBit (n - 1 - i) = mac.acked time mac.numDlHarq i) ∧
    ∀ i < mac.numDlHarq, (mac.dlHarqInfo i).due time → (info i).active = false

variable {cfg : AckConfig} {mac : DlHarq} {time : ℕ × ℕ} {resInd n : ℕ} {pucch : PucchSched}

/-- All places are filled: their number is `n`. -/
theorem countP_seen_add (p : ℕ → Bool) (n : ℕ) :
    (range n).countP p + (range n).countP (fun i ↦ !p i) = n := by
  have hlen := length_eq_countP_add_countP p (l := range n)
  have hnot : (range n).countP (fun i ↦ !p i) = (range n).countP fun i ↦ decide ¬ p i = true :=
    countP_congr fun i _ ↦ by rcases p i with - | - <;> simp
  rw [hnot, ← hlen, length_range]

/-- **What `get_downlink_ack` does** for the processes of a slot. -/
theorem Codebook.getDownlinkAck_eq (hc : Codebook cfg mac time resInd n) (pucch : PucchSched) :
    ∃ oAck : ℕ, (∀ i, oAck.testBit i = (decide (i < n) && decide (i < 8) &&
        mac.acked time mac.numDlHarq i)) ∧
      getDownlinkAck cfg mac time pucch =
        (ackResource cfg.pucchConfig n resInd (mac.withCce time mac.numDlHarq pucch)).map
          fun pucch ↦ (true, mac.reported time mac.numDlHarq,
            { pucch with ackPayload := reversedBits oAck n, nHarq := n }) := by
  obtain ⟨s, hs, hg⟩ := hc.scan pucch
  obtain ⟨last, hlast, hdue, hmax⟩ := hc.max
  have hpos := hc.pos last hlast hdue
  have hn := hc.n_le
  have hdaiMax : s.daiMax = n := le_antisymm hg.daiMax_le (hmax ▸ hg.le_daiMax last hlast hdue)
  have hf := hg.fill n
  have hnumber : ¬ (s.numberHarqFeedback = 0 ∨ s.numberHarqFeedback > 32) := by
    have hseen : mac.seen time mac.numDlHarq (n - 1) = true := by
      rw [seen, any_eq_true]
      refine ⟨last, mem_range.2 hlast, ?_⟩
      rw [hdue, Bool.true_and, beq_iff_eq]
      omega
    have hcount : 0 < (range n).countP (mac.seen time mac.numDlHarq) :=
      countP_pos_iff.2 ⟨n - 1, mem_range.2 (by omega), hseen⟩
    have hle : (range n).countP (mac.seen time mac.numDlHarq) ≤ (range n).length := countP_le_length
    rw [length_range] at hle
    rw [hg.number]
    omega
  have hloop : cfg.loop n = (range n).map fun i ↦ (0, i) := by
    simp [AckConfig.loop, hc.oneCodeword]
  generalize hfill : ((range n).map fun i ↦ (0, i)).foldl fillMissed s = t at hf
  have hdai : ∀ m < n, t.dai 0 m = m % 4 + 1 := fun m hm ↦ by rw [hf.dai, if_pos (.inl hm)]
  obtain ⟨hj, hv, hv2, hbits⟩ := ackBits_spec hdai (le_refl n)
  refine ⟨((range n).foldl (ackBit false t) {}).oAck, fun i ↦ ?_, ?_⟩
  · rw [hbits, hf.ackData]
  have hcount : ackCount false ((range n).foldl (ackBit false t) {}) = n := by
    rw [ackCount, hv2, if_neg (lt_irrefl _), if_neg (by decide), hj, hv, if_neg (by omega)]
    omega
  have hfeedback : t.numberHarqFeedback = n := by
    rw [hf.number, hg.number]
    exact countP_seen_add ..
  rw [getDownlinkAck, hs]
  show s.report cfg = _
  rw [AckScan.report, if_neg hnumber]
  dsimp only
  rw [hdaiMax, hloop, hfill, hf.daiMax, hdaiMax, hc.oneCodeword, hcount, hfeedback,
    if_neg (not_not.2 rfl), hf.index, hg.index_of_due last hlast hdue, hf.pucch, hg.cce, hf.info,
    hg.info, reverseBits, if_pos (by omega)]
  exact Option.map_eq_bind.symm

/-- **When all acknowledgements are reported.** -/
theorem reportsAcks_iff (hc : Codebook cfg mac time resInd n) :
    ReportsAcks cfg mac time pucch n ↔
      (∀ i < mac.numDlHarq, (mac.dlHarqInfo i).due time → 8 < (mac.dlHarqInfo i).daiCumul →
        (mac.dlHarqInfo i).ack = false) ∧
      (ackResource cfg.pucchConfig n resInd (mac.withCce time mac.numDlHarq pucch)).isSome := by
  obtain ⟨oAck, hbits, heq⟩ := hc.getDownlinkAck_eq pucch
  have hpayload : ∀ i < n, (reversedBits oAck n).testBit (n - 1 - i) =
      (decide (i < 8) && mac.acked time mac.numDlHarq i) := fun i hi ↦ by
    rw [testBit_reversedBits, decide_eq_true (by omega), Bool.true_and,
      show n - 1 - (n - 1 - i) = i by omega, hbits, decide_eq_true hi, Bool.true_and]
  rw [ReportsAcks, heq]
  constructor
  · rintro ⟨info, pucch', hsome, hn, hacks, -⟩
    obtain ⟨pucch'', hres, hpucch⟩ := Option.map_eq_some_iff.1 hsome
    refine ⟨fun i hi hdue hlate ↦ ?_, by rw [hres]; rfl⟩
    simp only [Prod.mk.injEq] at hpucch
    have hle := hc.le i hi hdue
    have hack := hacks ((mac.dlHarqInfo i).daiCumul - 1) (by omega)
    rw [← hpucch.2.2] at hack
    rw [hpayload _ (by omega), decide_eq_false (by omega), Bool.false_and] at hack
    have hnone := any_eq_false.1 hack.symm i (mem_range.2 hi)
    rw [hdue, Bool.true_and, show (mac.dlHarqInfo i).daiCumul - 1 + 1 = (mac.dlHarqInfo i).daiCumul by
      omega, beq_self_eq_true, Bool.true_and, Bool.not_eq_true] at hnone
    exact hnone
  · rintro ⟨hlate, hres⟩
    obtain ⟨pucch', hres⟩ := Option.isSome_iff_exists.1 hres
    refine ⟨_, _, by rw [hres]; rfl, rfl, fun i hi ↦ ?_, fun i hi hdue ↦ ?_⟩
    · rw [hpayload i hi]
      rcases Nat.lt_or_ge i 8 with hlt | hge
      · rw [decide_eq_true hlt, Bool.true_and]
      · -- Nobody behind the eighth place has an acknowledgement.
        rw [decide_eq_false (by omega), Bool.false_and]
        refine (any_eq_false.2 fun j hj hacked ↦ ?_).symm
        simp only [Bool.and_eq_true, beq_iff_eq] at hacked
        obtain ⟨⟨hdue, hplace⟩, hack⟩ := hacked
        rw [hlate j (mem_range.1 hj) hdue (by omega)] at hack
        exact absurd hack (by decide)
    · rw [reported, if_pos ⟨hi, hdue⟩]

/-- Processes with feedback in slot 8 of frame 0, at these places, all acknowledged. -/
def acknowledged (places : List ℕ) : DlHarq where
  slotsPerFrame := 20
  numDlHarq := 16
  dlHarqInfo i := (places[i]?).elim {} fun place ↦
    { active := true, ackReceived := true, ulSlot := 8, ack := true, totalCce := 8, daiCumul := place }

theorem codebook_one_missed : Codebook {} (acknowledged [1, 3]) (0, 8) 0 3 where
  oneCodeword := rfl
  enabled := by decide
  resource := by decide
  decoded := by decide
  pos := by decide
  le := by decide
  inj := by decide
  max := by decide
  n_le := by decide

/-- The second of three assignments has been missed. -/
theorem one_missed_reportsAcks : Codebook {} (acknowledged [1, 3]) (0, 8) 0 3 ∧
    ReportsAcks {} (acknowledged [1, 3]) (0, 8) {} 3 :=
  ⟨codebook_one_missed, (reportsAcks_iff codebook_one_missed).2 ⟨by decide, by decide⟩⟩

theorem codebook_nine : Codebook {} (acknowledged [1, 2, 3, 4, 5, 6, 7, 8, 9]) (0, 8) 0 9 where
  oneCodeword := rfl
  enabled := by decide
  resource := by decide
  decoded := by decide
  pos := by decide
  le := by decide
  inj := by decide
  max := by decide
  n_le := by decide

/-- **Nine acknowledgements**: the ninth is reported as not acknowledged. -/
theorem ninth_ack_lost : Codebook {} (acknowledged [1, 2, 3, 4, 5, 6, 7, 8, 9]) (0, 8) 0 9 ∧
    ¬ ReportsAcks {} (acknowledged [1, 2, 3, 4, 5, 6, 7, 8, 9]) (0, 8) {} 9 := by
  refine ⟨codebook_nine, ?_⟩
  rintro ⟨info, pucch, hsome, -, hacks, -⟩
  obtain ⟨oAck, hbits, heq⟩ := codebook_nine.getDownlinkAck_eq {}
  rw [hsome] at heq
  obtain ⟨pucch', -, hpucch⟩ := Option.map_eq_some_iff.1 heq.symm
  simp only [Prod.mk.injEq] at hpucch
  have hlast := hacks 8 (by decide)
  rw [← hpucch.2.2] at hlast
  rw [testBit_reversedBits, hbits] at hlast
  exact absurd hlast (by decide)

end OaiRan.UeMac
