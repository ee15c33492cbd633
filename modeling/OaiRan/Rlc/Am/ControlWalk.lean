import OaiRan.Rlc.Am.Control

/-!
# The walk of a status report

What `process_control_pdu` does to `wait_list` and `retransmit_list`, one turn at a time. As long
as NACKs are below ACK_SN, as they are in every report of a peer, a turn takes the smaller head of
the two lists: the head moves to the new retransmit list if the NACK hits it and is freed if it
comes before the NACK (`Turn`). An invariant of the turns is then one of the walk
(`foldl_processNack_induction`).
-/

namespace OaiRan.Rlc.Am

variable {c : AmConfig} {s s' : AmTx} {g : NrRlcSduSegment} {k k' : ControlState} {n : NackSn}
  {ackSn : ℤ}

theorem snCompareTx_congr (hs : s'.txNextAck = s.txNextAck) (a b : ℤ) :
    snCompareTx c s' a b = snCompareTx c s a b := by
  simp only [snCompareTx, modulusTx, hs]

/-- A NACK hits the head of the wait list. -/
def hitWait (c : AmConfig) (k : ControlState) (g : NrRlcSduSegment)
    (rest : List NrRlcSduSegment) : ControlState :=
  { unlinkWait k g rest with
    newRetransmitList := k.newRetransmitList ++ [g]
    tx := countRetx c k.tx g }

/-- A NACK hits the head of the retransmit list. -/
def hitRetransmit (k : ControlState) (g : NrRlcSduSegment) (rest : List NrRlcSduSegment) :
    ControlState :=
  { k with newRetransmitList := k.newRetransmitList ++ [g], curRetransmitList := rest }

/-- `g` is the head of the wait list, and the one to process next. -/
def FirstWait (c : AmConfig) (k : ControlState) (g : NrRlcSduSegment)
    (rest : List NrRlcSduSegment) : Prop :=
  k.curWaitList = g :: rest ∧ ∀ r ∈ k.curRetransmitList.head?, waitListFirst c k.tx g r = true

/-- `g` is the head of the retransmit list, and the one to process next. -/
def FirstRetransmit (c : AmConfig) (k : ControlState) (g : NrRlcSduSegment)
    (rest : List NrRlcSduSegment) : Prop :=
  k.curRetransmitList = g :: rest ∧ ∀ w ∈ k.curWaitList.head?, waitListFirst c k.tx w g = false

/-- Every segment left is beyond the NACK, in the order of the walk: the smaller head is. -/
def Stopped (c : AmConfig) (n : NackSn) (k : ControlState) : Prop :=
  (∀ g rest, FirstWait c k g rest → n.hits k.tx.heap g = false ∧ beyondNack c k.tx n g = true) ∧
    ∀ g rest, FirstRetransmit c k g rest →
      n.hits k.tx.heap g = false ∧ beyondNack c k.tx n g = true

/-- Which head comes first. -/
theorem processNextPdu_cases (c : AmConfig) (k : ControlState) (ackSn : ℤ) (n : NackSn) :
    (k.curWaitList = [] ∧ k.curRetransmitList = [] ∧ processNextPdu c k ackSn n = none) ∨
      (∃ g rest, FirstWait c k g rest ∧
        processNextPdu c k ackSn n = processWaitListHead c k ackSn n g rest) ∨
      ∃ g rest, FirstRetransmit c k g rest ∧
        processNextPdu c k ackSn n = processRetransmitListHead c k ackSn n g rest := by
  rcases hw : k.curWaitList with - | ⟨w, ws⟩ <;> rcases hr : k.curRetransmitList with - | ⟨r, rs⟩
  · exact .inl ⟨rfl, rfl, by rw [processNextPdu, hw, hr]⟩
  · exact .inr (.inr ⟨r, rs, ⟨hr, by simp [hw]⟩, by rw [processNextPdu, hw, hr]⟩)
  · exact .inr (.inl ⟨w, ws, ⟨hw, by simp [hr]⟩, by rw [processNextPdu, hw, hr]⟩)
  · rcases hfirst : waitListFirst c k.tx w r with - | -
    · exact .inr (.inr ⟨r, rs, ⟨hr, by simp [hw, hfirst]⟩, by simp [processNextPdu, hw, hr, hfirst]⟩)
    · exact .inr (.inl ⟨w, ws, ⟨hw, by simp [hr, hfirst]⟩, by simp [processNextPdu, hw, hr, hfirst]⟩)

variable {rest rest' : List NrRlcSduSegment} {g' : NrRlcSduSegment}

theorem FirstWait.eq (h : FirstWait c k g rest) (h' : FirstWait c k g' rest') : g = g' :=
  (List.cons.inj (h.1.symm.trans h'.1)).1

theorem FirstRetransmit.eq (h : FirstRetransmit c k g rest) (h' : FirstRetransmit c k g' rest') :
    g = g' :=
  (List.cons.inj (h.1.symm.trans h'.1)).1

theorem FirstWait.not_firstRetransmit (h : FirstWait c k g rest) :
    ¬ FirstRetransmit c k g' rest' := fun h' ↦ by
  have h₁ := h.2 g' (by rw [h'.1]; rfl)
  have h₂ := h'.2 g (by rw [h.1]; rfl)
  simp [h₁] at h₂

theorem freeAcked_eq (s : AmTx) (g : NrRlcSduSegment) : freeAcked s g =
    { s with
      heap := (nrRlcFreeSduSegment s.heap g).1
      txSize := if (nrRlcFreeSduSegment s.heap g).2 then s.txSize - (s.heap.cell g.sdu).size
        else s.txSize
      acked := if (nrRlcFreeSduSegment s.heap g).2 then
          s.acked ++ [(s.heap.cell g.sdu).upperLayerId]
        else s.acked } := by
  rw [freeAcked]
  rcases nrRlcFreeSduSegment s.heap g with ⟨heap, - | -⟩ <;> rfl

theorem freeAcked_txNextAck (s : AmTx) (g : NrRlcSduSegment) :
    (freeAcked s g).txNextAck = s.txNextAck := by
  rw [freeAcked_eq]

/-! ### NACKs up to ACK_SN

`process_control_pdu` accepts a NACK for ACK_SN itself. Then a segment of that SN that comes before
the NACK is left where it is, but if the wait list is used up the walk drops all that is left of the
retransmit list. -/

/-- A segment stays in the wait list. -/
def keepWait (k : ControlState) (g : NrRlcSduSegment) (rest : List NrRlcSduSegment) :
    ControlState :=
  { k with kept := k.kept ++ [g], curWaitList := rest }

/-- **All that one turn of the walk can do**, for a NACK up to ACK_SN. -/
inductive Visit (c : AmConfig) (ackSn : ℤ) (n : NackSn) (k : ControlState) : ControlState → Prop
  | hitWait {x xs} (first : FirstWait c k x xs) (hits : n.hits k.tx.heap x = true) :
      Visit c ackSn n k (hitWait c k x xs)
  | freeWait {x xs} (first : FirstWait c k x xs) (hits : n.hits k.tx.heap x = false)
      (before : beyondNack c k.tx n x = false)
      (acked : snCompareTx c k.tx (k.tx.heap.sn x) ackSn < 0) : Visit c ackSn n k (freeWait k x xs)
  | keepWait {x xs} (first : FirstWait c k x xs) (hits : n.hits k.tx.heap x = false)
      (before : beyondNack c k.tx n x = false)
      (acked : ¬snCompareTx c k.tx (k.tx.heap.sn x) ackSn < 0) : Visit c ackSn n k (keepWait k x xs)
  | hitRetransmit {x xs} (first : FirstRetransmit c k x xs) (hits : n.hits k.tx.heap x = true) :
      Visit c ackSn n k (hitRetransmit k x xs)
  | freeRetransmit {x xs} (first : FirstRetransmit c k x xs) (hits : n.hits k.tx.heap x = false)
      (before : beyondNack c k.tx n x = false)
      (acked : snCompareTx c k.tx (k.tx.heap.sn x) ackSn < 0) :
      Visit c ackSn n k (freeRetransmit c k x xs)
  | keepRetransmit {x xs} (first : FirstRetransmit c k x xs) (hits : n.hits k.tx.heap x = false)
      (before : beyondNack c k.tx n x = false)
      (acked : ¬snCompareTx c k.tx (k.tx.heap.sn x) ackSn < 0) (waiting : k.curWaitList ≠ []) :
      Visit c ackSn n k (hitRetransmit k x xs)
  | strand {x xs} (first : FirstRetransmit c k x xs) (hits : n.hits k.tx.heap x = false)
      (before : beyondNack c k.tx n x = false)
      (acked : ¬snCompareTx c k.tx (k.tx.heap.sn x) ackSn < 0) (waiting : k.curWaitList = []) :
      Visit c ackSn n k { k with curRetransmitList := [] }

theorem not_gt_ackSn_of_beyondNack (hn : snCompareTx c s n.sn ackSn ≤ 0)
    (hb : beyondNack c s n g = false) : ¬snCompareTx c s (s.heap.sn g) ackSn > 0 := by
  simp only [beyondNack, Bool.or_eq_false_iff, decide_eq_false_iff_not] at hb
  have h₁ := hb.1
  simp only [snCompareTx] at hn h₁ ⊢
  omega

theorem processNextPdu_visit (hn : snCompareTx c k.tx n.sn ackSn ≤ 0) :
    (processNextPdu c k ackSn n = none ∧ Stopped c n k) ∨
      ∃ k', processNextPdu c k ackSn n = some k' ∧ Visit c ackSn n k k' := by
  rcases processNextPdu_cases c k ackSn n with ⟨hw, hr, heq⟩ | ⟨g, rest, hg, heq⟩ | ⟨g, rest, hg, heq⟩
  · exact .inl ⟨heq, fun g rest h ↦ by simp [h.1] at hw, fun g rest h ↦ by simp [h.1] at hr⟩
  · rw [heq, processWaitListHead]
    rcases hhit : n.hits k.tx.heap g with - | -
    · rcases hb : beyondNack c k.tx n g with - | -
      · have hle := not_gt_ackSn_of_beyondNack hn hb
        by_cases hack : snCompareTx c k.tx (k.tx.heap.sn g) ackSn < 0
        · exact .inr ⟨_, by simp [hack], .freeWait hg hhit hb hack⟩
        · exact .inr ⟨_, by simp [hack, hle, keepWait], .keepWait hg hhit hb hack⟩
      · refine .inl ⟨by simp, fun g' _ h ↦ ?_, fun g' _ h ↦ absurd h hg.not_firstRetransmit⟩
        obtain rfl := hg.eq h
        exact ⟨hhit, hb⟩
    · exact .inr ⟨_, rfl, .hitWait hg hhit⟩
  · rw [heq, processRetransmitListHead]
    rcases hhit : n.hits k.tx.heap g with - | -
    · rcases hb : beyondNack c k.tx n g with - | -
      · by_cases hack : snCompareTx c k.tx (k.tx.heap.sn g) ackSn < 0
        · exact .inr ⟨_, by simp [hack], .freeRetransmit hg hhit hb hack⟩
        · by_cases hnil : k.curWaitList = []
          · exact .inr ⟨_, by simp [hack, hnil], .strand hg hhit hb hack hnil⟩
          · exact .inr ⟨_, by simp [hack, hnil, hitRetransmit],
              .keepRetransmit hg hhit hb hack hnil⟩
      · refine .inl ⟨by simp, fun g' _ h ↦ absurd hg h.not_firstRetransmit, fun g' _ h ↦ ?_⟩
        obtain rfl := hg.eq h
        exact ⟨hhit, hb⟩
    · exact .inr ⟨_, rfl, .hitRetransmit hg hhit⟩

theorem Visit.txNextAck_eq (h : Visit c ackSn n k k') : k'.tx.txNextAck = k.tx.txNextAck := by
  cases h with
  | hitWait => rfl
  | freeWait => exact freeAcked_txNextAck _ _
  | keepWait => rfl
  | hitRetransmit => rfl
  | freeRetransmit => exact freeAcked_txNextAck _ _
  | keepRetransmit => rfl
  | strand => rfl

/-- A turn takes one segment at least. -/
theorem Visit.length_lt (h : Visit c ackSn n k k') :
    k'.curWaitList.length + k'.curRetransmitList.length <
      k.curWaitList.length + k.curRetransmitList.length := by
  cases h with
  | hitWait first => simp [Am.hitWait, unlinkWait, first.1]
  | freeWait first => simp [Am.freeWait, unlinkWait, first.1]
  | keepWait first => simp [Am.keepWait, first.1]
  | hitRetransmit first => simp [Am.hitRetransmit, first.1]
  | freeRetransmit first => simp [Am.freeRetransmit, first.1]
  | keepRetransmit first => simp [Am.hitRetransmit, first.1]
  | strand first => simp [first.1]

/-- **One NACK up to ACK_SN**: what its turns preserve holds at the end, where it stops. -/
theorem processNackLoop_visits {P : ControlState → Prop}
    (hP : ∀ k k', P k → Visit c ackSn n k k' → P k') (fuel : ℕ)
    (hfuel : k.curWaitList.length + k.curRetransmitList.length ≤ fuel)
    (hn : snCompareTx c k.tx n.sn ackSn ≤ 0) (h : P k) :
    P (processNackLoop c ackSn n fuel k) ∧ Stopped c n (processNackLoop c ackSn n fuel k) ∧
      (processNackLoop c ackSn n fuel k).tx.txNextAck = k.tx.txNextAck := by
  induction fuel generalizing k with
  | zero =>
    have hw : k.curWaitList = [] := List.length_eq_zero_iff.1 (by omega)
    have hr : k.curRetransmitList = [] := List.length_eq_zero_iff.1 (by omega)
    exact ⟨h, ⟨fun g rest hg ↦ absurd (hw.symm.trans hg.1) (by simp),
      fun g rest hg ↦ absurd (hr.symm.trans hg.1) (by simp)⟩, rfl⟩
  | succ fuel ih =>
    rw [processNackLoop]
    rcases processNextPdu_visit hn with ⟨heq, hstop⟩ | ⟨k', heq, hvisit⟩
    · rw [heq]
      exact ⟨h, hstop, rfl⟩
    · rw [heq]
      have hta := hvisit.txNextAck_eq
      have hlen := hvisit.length_lt
      have := ih (k := k') (by omega) (by rwa [snCompareTx_congr hta]) (hP k k' h hvisit)
      rwa [hta] at this

end OaiRan.Rlc.Am
