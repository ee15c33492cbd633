import OaiRan.Rlc.Am.RxWindow
import OaiRan.Rlc.ReassemblyBounds
import OaiRan.Rlc.Um.Codec
import OaiRan.Rlc.Um.System

/-!
# Reassembly uses received bytes only

`sdu_full` looks at the segments of an SN up to the first one that is marked as the last;
`reassemble_and_deliver` copies them all. So it is up to the peer that no segment leaves a gap
behind the last one. For both entities and arbitrary buffers: as long as every SDU that becomes
full has no byte missing before the start of any of its segments (`NoHole`), reassembly stays
inside the payloads and every byte delivered was received at its offset, in a segment of its SN.
-/

namespace OaiRan.Rlc

open Option List

variable {received' : List NrRlcPdu} {r : ℤ × List NrRlcPdu} {sn : ℤ}

/-- A received segment of `sn` has the byte `x` at offset `i`. -/
def ByteOf (received : List NrRlcPdu) (sn : ℤ) (i : ℕ) (x : Option UInt8) : Prop :=
  ∃ p ∈ received, p.sn = sn ∧ ∃ d ∈ p.data, p.so ≤ i ∧ (i : ℤ) < p.so + p.size ∧
    ∃ b, x = some b ∧ d[(i - p.so).toNat]? = some b

/-- A run of `reassemble_and_deliver` for an SN and its cells reads inside the payloads, and what
it puts into the SDU was received. -/
structure Reads (received : List NrRlcPdu) (r : ℤ × List NrRlcPdu) : Prop where
  inBounds : ∀ m ∈ (reassemble r.2).memcpys, m.InBounds
  byteOf : ∀ i x, (reassemble r.2).sdu[i]? = some x → ByteOf received r.1 i x

variable {received l : List NrRlcPdu} {x : ℤ} {pdu : NrRlcPdu} {t t' : AmTrace} {op : AmOp}
  {buffer : List UInt8}

theorem Reads.mono
    (h : Reads received r) (hsub : ∀ p ∈ received, p ∈ received') : Reads received' r where
  inBounds := h.inBounds
  byteOf i x hx := by
    obtain ⟨p, hp, hrest⟩ := h.byteOf i x hx
    exact ⟨p, hsub p hp, hrest⟩

/-- The cells of `sn`, in the order of their offsets, with what was received in them. -/
structure Segments (received : List NrRlcPdu) (sn : ℤ) (l : List NrRlcPdu) : Prop where
  sn_eq : ∀ p ∈ l, p.sn = sn
  sound : ∀ p ∈ l, p.Sound
  received : ∀ p ∈ l, p.data ≠ none → p ∈ received
  sorted : l.Pairwise fun p q ↦ p.so ≤ q.so

/-- **Reassembly reads inside the payloads exactly when no byte is missing before a segment.** -/
theorem Segments.inBounds_iff (h : Segments received sn l) :
    (∀ m ∈ (reassemble l).memcpys, m.InBounds) ↔ NoHole (copied l) := by
  rw [memcpys_inBounds_iff h.sound, gapFree_iff_noHole h.sorted]

theorem Segments.reads (h : Segments received sn l)
    (hhole : NoHole (copied l)) : Reads received (sn, l) where
  inBounds := h.inBounds_iff.2 hhole
  byteOf i x hx := by
    obtain ⟨p, hp, d, hd, hrest⟩ :=
      byte_of_reassemble h.sound ((gapFree_iff_noHole h.sorted).2 hhole) hx
    exact ⟨p, h.received p hp (by rw [mem_def.1 hd]; simp), h.sn_eq p hp, d, hd, hrest⟩

/-- The bytes of an SDU were received for one SN. -/
def Received (received : List NrRlcPdu) (sdu : List (Option UInt8)) : Prop :=
  ∃ sn, ∀ i x, sdu[i]? = some x → ByteOf received sn i x

theorem Reads.received_of_delivered
    (h : Reads received r) (hsdu : sdu ∈ (reassemble r.2).delivered) : Received received sdu := by
  refine ⟨r.1, fun i x hx ↦ h.byteOf i x ?_⟩
  rw [mem_def, Reassembly.delivered] at hsdu
  split at hsdu
  · cases hsdu
  · rwa [some.inj hsdu]

/-! ### The acknowledged mode -/

namespace Am

open CircularSeq

variable {c : AmConfig} {s : AmRx}

/-- The segment that a buffer carries. -/
def segmentOf (c : AmConfig) (buffer : List UInt8) : Option NrRlcPdu :=
  match decodePdu c buffer with
  | .segment _ pdu => some pdu
  | _ => none

/-- The cells that are reassembled when the PDU completes its SDU. -/
def completed (c : AmConfig) (s : AmRx) (pdu : NrRlcPdu) : List NrRlcPdu :=
  snRun pdu.sn (putPdu c s pdu).rxList

theorem mem_freeDelivered (h : q ∈ (freeDelivered c fuel l x).1) : q ∈ l := by
  induction fuel generalizing l x with
  | zero => exact h
  | succ fuel ih =>
    rcases l with - | ⟨p, l⟩
    · exact h
    · rw [freeDelivered] at h
      split at h
      · exact mem_cons_of_mem _ ((dropWhile_sublist _).subset (ih h))
      · exact h

theorem updateRxNext_frame (s : AmRx) (x : ℤ) :
    (∀ q ∈ (updateRxNext c s x).rxList, q ∈ s.rxList) ∧
      (updateRxNext c s x).reassembled = s.reassembled ∧
      (updateRxNext c s x).delivered = s.delivered := by
  rw [updateRxNext]
  split
  · exact ⟨fun q hq ↦ mem_freeDelivered hq, rfl, rfl⟩
  · exact ⟨fun q hq ↦ hq, rfl, rfl⟩

/-- What the reception of a PDU adds to the logs, and to the cells with data. -/
theorem recvDataPdu_logs (t : UInt64) (s : AmRx) (p : Bool) (pdu : NrRlcPdu) :
    (recvDataPdu c t s p pdu).reassembled =
        s.reassembled ++ (if completes c s pdu then [(pdu.sn, completed c s pdu)] else []) ∧
      (recvDataPdu c t s p pdu).delivered = s.delivered ++
        (if completes c s pdu then (reassemble (completed c s pdu)).delivered.toList else []) ∧
      ∀ q ∈ (recvDataPdu c t s p pdu).rxList, q.data ≠ none → q = pdu ∨ q ∈ s.rxList := by
  have hdata := recvDataPdu_data (c := c) t s p pdu
  by_cases hcomp : completes c s pdu = true
  · rw [if_pos hcomp, if_pos hcomp]
    rw [if_pos hcomp] at hdata
    obtain ⟨hlist, -, hdel, hre⟩ := by simpa only [AmRx.data, Prod.mk.injEq] using hdata
    obtain ⟨hmem, hre', hdel'⟩ :=
      updateRxNext_frame (c := c) (reassembleAndDeliver (putPdu c s pdu) pdu.sn) pdu.sn
    rw [hre, hdel, hlist, hre', hdel']
    refine ⟨rfl, rfl, fun q hq hne ↦ ?_⟩
    rcases mem_mapSnRun (hmem q hq) with hq | ⟨p, -, rfl⟩
    · exact mem_listAdd.1 hq
    · exact absurd rfl hne
  · rw [if_neg hcomp, if_neg hcomp, append_nil, append_nil]
    rw [if_neg hcomp] at hdata
    split at hdata <;>
      obtain ⟨hlist, -, hdel, hre⟩ := by simpa only [AmRx.data, Prod.mk.injEq] using hdata
    · rw [hre, hdel, hlist]
      exact ⟨rfl, rfl, fun q hq _ ↦ mem_listAdd.1 hq⟩
    · rw [hre, hdel, hlist]
      exact ⟨rfl, rfl, fun q hq _ ↦ .inr hq⟩

/-- The cells of a full SDU are in order and hold what was received. -/
theorem segments_completed (hc : c.Sane) (hinv : RxInv c s) (hp : Fresh c pdu)
    (hcomp : completes c s pdu = true) (received : List NrRlcPdu)
    (hpdu : pdu ∈ received) (hholds : ∀ q ∈ s.rxList, q.data ≠ none → q ∈ received) :
    Segments received pdu.sn (completed c s pdu) := by
  obtain ⟨rn, rh, rnh, hw, -⟩ := hinv
  simp only [completes, acceptsPdu, Bool.and_eq_true] at hcomp
  obtain ⟨⟨⟨-, hin⟩, -⟩, hfull⟩ := hcomp
  have hcells := (hw.putPdu hc hp hin).cells
  rw [show (updateNextHighest c (putPdu c s pdu) pdu.sn).rxList = (putPdu c s pdu).rxList from
    congrArg Prod.fst (updateNextHighest_data _ _)] at hcells
  have hmem : ∀ {q}, q ∈ completed c s pdu ↔ q ∈ (putPdu c s pdu).rxList ∧ q.sn = pdu.sn :=
    mem_snRun_iff hcells.sorted hcells.isSn hp.isSn
  have hne : ∀ q ∈ completed c s pdu, q.data ≠ none := fun q hq ↦
    hcells.data_ne_of_sduFull hfull (hmem.1 hq).1 (hmem.1 hq).2
  refine ⟨fun q hq ↦ (hmem.1 hq).2, fun q hq ↦ ?_, fun q hq hdata ↦ ?_, ?_⟩
  · obtain ⟨d, hd⟩ := ne_none_iff_exists'.1 (hne q hq)
    exact ⟨by rw [hd, getD_some, hcells.size_eq q (hmem.1 hq).1 d hd],
      hcells.so_nonneg q (hmem.1 hq).1⟩
  · rcases mem_listAdd.1 (hmem.1 hq).1 with rfl | hq
    · exact hpdu
    · exact hholds q hq hdata
  · rw [completed, snRun_eq_filter hcells.sorted hcells.isSn hp.isSn]
    refine (hcells.sorted.filter _).imp_of_mem fun {p q} hp' hq' hpq ↦ ?_
    have h₁ : p.sn = pdu.sn := by simpa using (mem_filter.1 hp').2
    have h₂ : q.sn = pdu.sn := by simpa using (mem_filter.1 hq').2
    rw [CellLe, h₁, h₂] at hpq
    omega

/-- The segments among the buffers received so far. -/
def AmTrace.segments (c : AmConfig) (t : AmTrace) : List NrRlcPdu :=
  t.received.filterMap (segmentOf c)

/-- If the step makes an SDU full then no byte is missing before any of its segments. -/
def FillsHoles (c : AmConfig) (t : AmTrace) : AmOp → Prop
  | .recvPdu buffer => ∀ pdu ∈ segmentOf c buffer, completes c t.entity.rx pdu = true →
      NoHole (copied (completed c t.entity.rx pdu))
  | _ => True

instance (t : AmTrace) : (op : AmOp) → Decidable (FillsHoles c t op)
  | .recvPdu buffer => inferInstanceAs (Decidable (∀ pdu ∈ segmentOf c buffer,
      completes c t.entity.rx pdu = true → NoHole (copied (completed c t.entity.rx pdu))))
  | .recvSdu .. | .generatePdu _ | .setTime _ | .discardSdu _ | .reestablishment => isTrue trivial

/-- What holds of an acknowledged-mode entity that has only reassembled SDUs without holes. -/
structure SafeTrace (c : AmConfig) (t : AmTrace) : Prop where
  rxInv : RxInv c t.entity.rx
  holds : ∀ q ∈ t.entity.rx.rxList, q.data ≠ none → q ∈ t.segments c
  reads : ∀ r ∈ t.entity.rx.reassembled, Reads (t.segments c) r
  delivered : ∀ sdu ∈ t.entity.rx.delivered,
    ∃ r ∈ t.entity.rx.reassembled, sdu ∈ (reassemble r.2).delivered

theorem received_step (h : (amSystem c).step t op = some t') :
    t'.received = match op with
      | .recvPdu buffer => t.received ++ [buffer]
      | _ => t.received := by
  rcases op with ⟨buffer, sduId⟩ | size | buffer | now | sduId | -
  · obtain ⟨e, -, rfl⟩ := map_eq_some_iff.1 h
    rfl
  · obtain ⟨e, -, rfl⟩ := map_eq_some_iff.1 h
    rfl
  · cases h
    rfl
  · obtain ⟨e, -, rfl⟩ := map_eq_some_iff.1 h
    rfl
  · cases h
    rfl
  · cases h
    rfl

theorem segments_step (h : (amSystem c).step t op = some t') :
    ∀ p ∈ t.segments c, p ∈ t'.segments c := by
  intro p hp
  rw [AmTrace.segments, received_step h]
  split
  · rw [filterMap_append]
    exact mem_append_left _ hp
  · exact hp

theorem SafeTrace.step (hc : c.Sane) (h : SafeTrace c t)
    (hok : FillsHoles c t op) (hs : (amSystem c).step t op = some t') : SafeTrace c t' := by
  have hsub := segments_step hs
  have hinv := h.rxInv.step hc hs
  -- a step that leaves the data alone
  have hsame : t'.entity.rx.data = t.entity.rx.data → SafeTrace c t' := by
    intro hdata
    obtain ⟨hlist, -, hdel, hre⟩ := by simpa only [AmRx.data, Prod.mk.injEq] using hdata
    refine ⟨hinv, fun q hq hne ↦ hsub q (h.holds q (hlist ▸ hq) hne),
      fun r hr ↦ (h.reads r (hre ▸ hr)).mono hsub, ?_⟩
    rw [hdel, hre]
    exact h.delivered
  rcases step_rx_cases hs with ⟨b, u, heq⟩ | ⟨buffer, p, pdu, rfl, hdec, heq⟩ | ⟨now, -, heq⟩ |
    ⟨-, heq⟩
  · exact hsame (by rw [heq]; rfl)
  · have hseg : segmentOf c buffer = some pdu := by simp only [segmentOf, hdec]
    have hpdu : pdu ∈ t'.segments c := by
      rw [AmTrace.segments, received_step hs]
      exact mem_filterMap.2 ⟨buffer, by simp, hseg⟩
    have hholds : ∀ q ∈ t.entity.rx.rxList, q.data ≠ none → q ∈ t'.segments c := fun q hq hne ↦
      hsub q (h.holds q hq hne)
    obtain ⟨hre, hdel, hmem⟩ := recvDataPdu_logs (c := c) t.entity.tCurrent t.entity.rx p pdu
    rw [← heq] at hre hdel hmem
    refine ⟨hinv, fun q hq hne ↦ ?_, fun r hr ↦ ?_, fun sdu hsdu ↦ ?_⟩
    · rcases hmem q hq hne with rfl | hq
      · exact hpdu
      · exact hholds q hq hne
    · rw [hre] at hr
      rcases mem_append.1 hr with hr | hr
      · exact (h.reads r hr).mono hsub
      · split at hr
        · rename_i hcomp
          obtain rfl := mem_singleton.1 hr
          exact (segments_completed hc h.rxInv (fresh_of_decodePdu hc hdec) hcomp _ hpdu
            hholds).reads
            (hok pdu hseg hcomp)
        · cases hr
    · rw [hdel] at hsdu
      rw [hre]
      rcases mem_append.1 hsdu with hsdu | hsdu
      · obtain ⟨r, hr, hsdu⟩ := h.delivered sdu hsdu
        exact ⟨r, mem_append_left _ hr, hsdu⟩
      · split at hsdu
        · rename_i hcomp
          exact ⟨_, mem_append_right _ (by rw [if_pos hcomp]; exact mem_singleton_self _),
            mem_toList.1 hsdu⟩
        · cases hsdu
  · exact hsame (by rw [heq]; exact checkTReassembly_data now _)
  · refine ⟨hinv, ?_, ?_, ?_⟩
    · rw [heq]
      exact fun q hq ↦ absurd hq not_mem_nil
    · rw [heq]
      exact fun r hr ↦ (h.reads r hr).mono hsub
    · rw [heq]
      exact h.delivered

theorem SafeTrace.of_reach (hc : c.Sane)
    (h : (amSystem c).Reach (FillsHoles c) t) : SafeTrace c t :=
  h.invariant ⟨.init hc [] [], nofun, nofun, nofun⟩ (SafeTrace.step hc)

/-- An SDU that becomes full with a hole is read outside a payload. -/
theorem SafeTrace.outOfBounds (hc : c.Sane) (h : SafeTrace c t)
    (hhole : ¬ FillsHoles c t (.recvPdu buffer)) :
    ∃ r ∈ (t.entity.recvPdu c buffer).rx.reassembled,
      ∃ m ∈ (reassemble r.2).memcpys, ¬ m.InBounds := by
  simp only [FillsHoles, not_forall] at hhole
  obtain ⟨pdu, hseg, hcomp, hhole⟩ := hhole
  rw [mem_def, segmentOf] at hseg
  split at hseg
  · rename_i p pdu' hdec
    obtain rfl := some.inj hseg
    have hsegs := segments_completed hc h.rxInv (fresh_of_decodePdu hc hdec) hcomp
      (pdu' :: t.segments c) (by simp) fun q hq hne ↦ by simp [h.holds q hq hne]
    rw [← hsegs.inBounds_iff] at hhole
    simp only [not_forall] at hhole
    obtain ⟨m, hm, hout⟩ := hhole
    refine ⟨(pdu'.sn, completed c t.entity.rx pdu'), ?_, m, hm, hout⟩
    simp only [NrRlcEntityAm.recvPdu, hdec]
    rw [(recvDataPdu_logs _ _ _ _).1, if_pos hcomp]
    simp
  · cases hseg

end Am

/-! ### The unacknowledged mode -/

namespace Um

variable {c : UmConfig} {s : UmRx}

/-- The segment that a buffer carries. -/
def segmentOf (c : UmConfig) (buffer : List UInt8) : Option NrRlcPdu :=
  match decodePdu c buffer with
  | .segment pdu => some pdu
  | _ => none

/-- The SDU that a buffer carries as a whole. -/
def completeOf (c : UmConfig) (buffer : List UInt8) : Option (List UInt8) :=
  match decodePdu c buffer with
  | .complete sdu => some sdu
  | _ => none

/-- The list with a new segment. -/
def putPdu (c : UmConfig) (s : UmRx) (pdu : NrRlcPdu) : List NrRlcPdu :=
  nrRlcPduListAdd (snCompareRx c s) s.rxList pdu

/-- There is room for the segment and it is not too old. -/
def acceptsPdu (c : UmConfig) (s : UmRx) (pdu : NrRlcPdu) : Bool :=
  s.rxSize + pdu.size ≤ c.rxMaxsize && 0 ≤ snCompareRx c s pdu.sn s.rxNextReassembly

/-- The segment is accepted and its SDU is full then. -/
def completes (c : UmConfig) (s : UmRx) (pdu : NrRlcPdu) : Bool :=
  acceptsPdu c s pdu && sduFull (putPdu c s pdu) pdu.sn

/-- The cells that are reassembled when the segment completes its SDU. -/
def completed (c : UmConfig) (s : UmRx) (pdu : NrRlcPdu) : List NrRlcPdu :=
  snRun pdu.sn (putPdu c s pdu)

/-- What is stored, delivered and reassembled. -/
def UmRx.data (s : UmRx) :
    List NrRlcPdu × List (List (Option UInt8)) × List (ℤ × List NrRlcPdu) :=
  (s.rxList, s.delivered, s.reassembled)

theorem timerActions_data (t : UInt64) (s : UmRx) :
    (startTReassembly c t (stopTReassembly c s)).data = s.data := by
  rw [startTReassembly, stopTReassembly]
  split <;> split <;> rfl

/-- A full SDU is reassembled. -/
theorem receptionActions_of_full (t : UInt64) (h : sduFull s.rxList x = true) :
    (receptionActions c t s x).data = (reassembleAndDeliver s x).data := by
  rw [receptionActions, timerActions_data, if_pos h, actionsSduFull]
  split <;> rfl

/-- The list has only lost cells at its front, and the logs are the same. -/
def LosesFront (s s' : UmRx) : Prop :=
  s'.rxList <:+ s.rxList ∧ s'.delivered = s.delivered ∧ s'.reassembled = s.reassembled

theorem receptionActions_of_not_full (t : UInt64)
    (h : sduFull s.rxList x ≠ true) : LosesFront s (receptionActions c t s x) := by
  have htimers := timerActions_data (c := c) t (actionsSduNotFull c s x)
  obtain ⟨h₁, h₂, h₃⟩ := by simpa only [UmRx.data, Prod.mk.injEq] using htimers
  rw [receptionActions, if_neg h, LosesFront, h₁, h₂, h₃, actionsSduNotFull]
  split
  · dsimp only
    split <;> exact ⟨dropWhile_suffix _, rfl, rfl⟩
  · exact ⟨suffix_rfl, rfl, rfl⟩

theorem checkTReassembly_losesFront (now : UInt64) (s : UmRx) :
    LosesFront s (checkTReassembly c now s) := by
  rw [checkTReassembly]
  split
  · exact ⟨suffix_rfl, rfl, rfl⟩
  · dsimp only
    split <;> exact ⟨dropWhile_suffix _, rfl, rfl⟩

/-- The state with a new segment. -/
def withPdu (c : UmConfig) (s : UmRx) (pdu : NrRlcPdu) : UmRx :=
  { s with rxSize := s.rxSize + pdu.size, rxList := putPdu c s pdu }

theorem recvPdu_segment (t : UInt64) (s : UmRx)
    (hdec : decodePdu c buffer = .segment pdu) : recvPdu c t s buffer =
      if acceptsPdu c s pdu then receptionActions c t (withPdu c s pdu) pdu.sn else s := by
  simp only [recvPdu, hdec, acceptsPdu, Bool.and_eq_true, decide_eq_true_iff]
  by_cases hroom : s.rxSize + pdu.size > c.rxMaxsize
  · rw [if_pos hroom, if_neg (by omega)]
  · rw [if_neg hroom]
    by_cases hold : snCompareRx c s pdu.sn s.rxNextReassembly < 0
    · rw [if_pos hold, if_neg (by omega)]
    · rw [if_neg hold, if_pos (by omega)]
      rfl

/-- What the cells hold, and that segments of an SN are in the order of their offsets where they
follow each other. -/
structure Cells (received : List NrRlcPdu) (l : List NrRlcPdu) : Prop where
  sound : ∀ p ∈ l, p.Sound
  holds : ∀ p ∈ l, p.data ≠ none → p ∈ received
  chain : l.IsChain fun p q ↦ p.sn = q.sn → p.so ≤ q.so

namespace Cells

variable {received l : List NrRlcPdu}

theorem suffix (h : Cells received l) (hsub : l' <:+ l) : Cells received l' where
  sound p hp := h.sound p (hsub.subset hp)
  holds p hp := h.holds p (hsub.subset hp)
  chain := h.chain.suffix hsub

theorem mono (h : Cells received l) (hsub : ∀ p ∈ received, p ∈ received') : Cells received' l :=
  { h with holds := fun p hp hne ↦ hsub p (h.holds p hp hne) }

theorem putPdu (h : Cells received s.rxList) (hsound : pdu.Sound)
    (hpdu : pdu ∈ received) : Cells received (putPdu c s pdu) where
  sound p hp := by
    rcases OrderedChain.mem_insertBefore.1 hp with rfl | hp
    · exact hsound
    · exact h.sound p hp
  holds p hp hne := by
    rcases OrderedChain.mem_insertBefore.1 hp with rfl | hp
    · exact hpdu
    · exact h.holds p hp hne
  chain := by
    refine OrderedChain.isChain_insertBefore h.chain (fun q _ hstop heq ↦ ?_) fun q _ hgo heq ↦ ?_
    · simp only [Bool.or_eq_true, Bool.and_eq_true, decide_eq_true_iff, heq, snCompareRx,
        sub_self] at hstop
      omega
    · simp only [Bool.or_eq_false_iff, Bool.and_eq_false_imp, beq_iff_eq,
        decide_eq_false_iff_not] at hgo
      omega

theorem mapSnRun (h : Cells received l) (x : ℤ) :
    Cells received (mapSnRun (fun p ↦ { p with data := none, size := 0 }) x l) where
  sound p hp := by
    rcases mem_mapSnRun hp with hp | ⟨q, hq, rfl⟩
    · exact h.sound p hp
    · exact ⟨rfl, (h.sound q (mem_of_mem_snRun hq)).so_nonneg⟩
  holds p hp hne := by
    rcases mem_mapSnRun hp with hp | ⟨q, -, rfl⟩
    · exact h.holds p hp hne
    · exact absurd rfl hne
  chain := by
    have hkeys := map_mapSnRun (f := fun p ↦ { p with data := none, size := 0 })
      (g := fun p ↦ (p.sn, p.so)) (fun _ ↦ rfl) x l
    have h' := (isChain_map (R := fun a b : ℤ × ℤ ↦ a.1 = b.1 → a.2 ≤ b.2)
      (fun p : NrRlcPdu ↦ (p.sn, p.so))).2 h.chain
    rw [← hkeys] at h'
    exact (isChain_map _).1 h'

theorem segments (h : Cells received l) (x : ℤ) : Segments received x (snRun x l) where
  sn_eq _ hp := sn_eq_of_mem_snRun hp
  sound p hp := h.sound p (mem_of_mem_snRun hp)
  received p hp := h.holds p (mem_of_mem_snRun hp)
  sorted := by
    have hprefix : snRun x l <+: fromSn x l := takeWhile_prefix _
    have hchain := List.IsChain.prefix (h.chain.suffix (dropWhile_suffix _)) hprefix
    refine (hchain.imp_of_mem_imp fun p q hp hq hpq ↦ ?_).pairwise
    exact hpq ((sn_eq_of_mem_snRun hp).trans (sn_eq_of_mem_snRun hq).symm)

end Cells

/-- The segments among the buffers received so far. -/
def UmTrace.segments (c : UmConfig) (t : UmTrace) : List NrRlcPdu :=
  t.received.filterMap (segmentOf c)

/-- The complete SDUs among them. -/
def UmTrace.completes (c : UmConfig) (t : UmTrace) : List (List UInt8) :=
  t.received.filterMap (completeOf c)

/-- If the step makes an SDU full then no byte is missing before any of its segments. -/
def FillsHoles (c : UmConfig) (t : UmTrace) : UmOp → Prop
  | .recvPdu buffer => ∀ pdu ∈ segmentOf c buffer, completes c t.entity.rx pdu = true →
      NoHole (copied (completed c t.entity.rx pdu))
  | _ => True

instance (t : UmTrace) : (op : UmOp) → Decidable (FillsHoles c t op)
  | .recvPdu buffer => inferInstanceAs (Decidable (∀ pdu ∈ segmentOf c buffer,
      completes c t.entity.rx pdu = true → NoHole (copied (completed c t.entity.rx pdu))))
  | .recvSdu .. | .generatePdu _ | .setTime _ => isTrue trivial

/-- What holds of the receiver, for what was received. -/
structure SafeRx (segments : List NrRlcPdu) (complete : List (List UInt8)) (s : UmRx) : Prop where
  cells : Cells segments s.rxList
  reads : ∀ r ∈ s.reassembled, Reads segments r
  delivered : ∀ sdu ∈ s.delivered, (∃ r ∈ s.reassembled, sdu ∈ (reassemble r.2).delivered) ∨
    ∃ d ∈ complete, sdu = d.map some

variable {segments segments' : List NrRlcPdu} {complete complete' : List (List UInt8)}

section

variable (h : SafeRx segments complete s)
include h

theorem SafeRx.mono (hseg : ∀ p ∈ segments, p ∈ segments')
    (hcomp : ∀ d ∈ complete, d ∈ complete') : SafeRx segments' complete' s where
  cells := h.cells.mono hseg
  reads r hr := (h.reads r hr).mono hseg
  delivered sdu hsdu := by
    rcases h.delivered sdu hsdu with hr | ⟨d, hd, heq⟩
    · exact .inl hr
    · exact .inr ⟨d, hcomp d hd, heq⟩

theorem SafeRx.losesFront (hs : LosesFront s s') : SafeRx segments complete s' := by
  obtain ⟨hlist, hdel, hre⟩ := hs
  refine ⟨h.cells.suffix hlist, hre ▸ h.reads, ?_⟩
  rw [hdel, hre]
  exact h.delivered

theorem SafeRx.reassembleAndDeliver (hhole : NoHole (copied (snRun x s.rxList))) :
    SafeRx segments complete (reassembleAndDeliver s x) where
  cells := h.cells.mapSnRun x
  reads r hr := by
    rcases mem_append.1 hr with hr | hr
    · exact h.reads r hr
    · obtain rfl := mem_singleton.1 hr
      exact (h.cells.segments x).reads hhole
  delivered sdu hsdu := by
    rcases mem_append.1 hsdu with hsdu | hsdu
    · rcases h.delivered sdu hsdu with ⟨r, hr, hsdu⟩ | hd
      · exact .inl ⟨r, mem_append_left _ hr, hsdu⟩
      · exact .inr hd
    · exact .inl ⟨(x, snRun x s.rxList), mem_append_right _ (mem_singleton_self _),
        mem_toList.1 hsdu⟩

theorem SafeRx.congr (hs : s'.data = s.data) : SafeRx segments complete s' := by
  obtain ⟨hlist, hdel, hre⟩ := by simpa only [UmRx.data, Prod.mk.injEq] using hs
  exact h.losesFront ⟨hlist ▸ suffix_rfl, hdel, hre⟩

/-- A segment is received, with the SDU full and without holes or not full. -/
theorem SafeRx.recvSegment {t : UInt64}
    (hdec : decodePdu c buffer = .segment pdu) (hpdu : pdu ∈ segments)
    (hok : completes c s pdu = true → NoHole (copied (completed c s pdu))) :
    SafeRx segments complete (recvPdu c t s buffer) := by
  have hsound : pdu.Sound := by
    obtain ⟨sn, so, isFirst, isLast, payload, rfl, -⟩ := segment_of_decodePdu hdec
    exact ⟨rfl, Int.natCast_nonneg so⟩
  rw [recvPdu_segment t s hdec]
  split
  · rename_i hacc
    have hput : SafeRx segments complete (withPdu c s pdu) :=
      ⟨h.cells.putPdu hsound hpdu, h.reads, h.delivered⟩
    by_cases hfull : sduFull (withPdu c s pdu).rxList pdu.sn = true
    · refine SafeRx.congr (hput.reassembleAndDeliver (x := pdu.sn) ?_)
        (receptionActions_of_full t hfull)
      exact hok (by rw [completes, hacc, Bool.true_and]; exact hfull)
    · exact hput.losesFront (receptionActions_of_not_full t hfull)
  · exact h

end

theorem SafeRx.step {t t' : UmTrace} {op : UmOp}
    (h : SafeRx (t.segments c) (t.completes c) t.entity.rx) (hok : FillsHoles c t op)
    (hs : (umSystem c).step t op = some t') :
    SafeRx (t'.segments c) (t'.completes c) t'.entity.rx := by
  rcases step_cases hs with ⟨buffer, id, e, rfl, he, rfl⟩ | ⟨size, e, pdu, rfl, he, rfl⟩ |
    ⟨buffer, rfl, rfl⟩ | ⟨now, rfl, rfl⟩
  · rw [show (_ : UmTrace).entity.rx = t.entity.rx from recvSdu_rx he]
    exact h
  · rw [show (_ : UmTrace).entity.rx = t.entity.rx from generatePdu_rx he]
    exact h
  · have hmono : SafeRx ((t.received ++ [buffer]).filterMap (segmentOf c))
        ((t.received ++ [buffer]).filterMap (completeOf c)) t.entity.rx :=
      h.mono (fun p hp ↦ by rw [filterMap_append]; exact mem_append_left _ hp)
        fun d hd ↦ by rw [filterMap_append]; exact mem_append_left _ hd
    show SafeRx _ _ (recvPdu c t.entity.tCurrent t.entity.rx buffer)
    rcases hdec : decodePdu c buffer with - | sdu | pdu
    · rw [recvPdu, hdec]
      exact hmono
    · have hmem : sdu ∈ (t.received ++ [buffer]).filterMap (completeOf c) :=
        mem_filterMap.2 ⟨buffer, by simp, by simp only [completeOf, hdec]⟩
      rw [recvPdu, hdec]
      refine ⟨hmono.cells, hmono.reads, fun d hd ↦ ?_⟩
      rcases mem_append.1 hd with hd | hd
      · exact hmono.delivered d hd
      · exact .inr ⟨sdu, hmem, mem_singleton.1 hd⟩
    · have hseg : segmentOf c buffer = some pdu := by simp only [segmentOf, hdec]
      exact hmono.recvSegment hdec (mem_filterMap.2 ⟨buffer, by simp, hseg⟩) (hok pdu hseg)
  · exact h.losesFront (checkTReassembly_losesFront now _)

theorem SafeRx.of_reach {t : UmTrace} (h : (umSystem c).Reach (FillsHoles c) t) :
    SafeRx (t.segments c) (t.completes c) t.entity.rx :=
  h.invariant (P := fun t ↦ SafeRx (t.segments c) (t.completes c) t.entity.rx)
    ⟨⟨fun _ hp ↦ absurd hp not_mem_nil, fun _ hp ↦ absurd hp not_mem_nil, .nil⟩,
      fun _ hr ↦ absurd hr not_mem_nil, fun _ hs ↦ absurd hs not_mem_nil⟩ SafeRx.step

/-- An SDU that becomes full with a hole is read outside a payload. -/
theorem SafeRx.outOfBounds {t : UmTrace} (h : SafeRx (t.segments c) (t.completes c) t.entity.rx)
    (hhole : ¬ FillsHoles c t (.recvPdu buffer)) :
    ∃ r ∈ (t.entity.recvPdu c buffer).rx.reassembled,
      ∃ m ∈ (reassemble r.2).memcpys, ¬ m.InBounds := by
  simp only [FillsHoles, not_forall] at hhole
  obtain ⟨pdu, hseg, hcomp, hhole⟩ := hhole
  rw [mem_def, segmentOf] at hseg
  split at hseg
  · rename_i pdu' hdec
    obtain rfl := some.inj hseg
    have hsound : pdu'.Sound := by
      obtain ⟨sn, so, isFirst, isLast, payload, rfl, -⟩ := segment_of_decodePdu hdec
      exact ⟨rfl, Int.natCast_nonneg so⟩
    have hmono : Cells (pdu' :: t.segments c) t.entity.rx.rxList :=
      h.cells.mono fun p hp ↦ mem_cons_of_mem _ hp
    have hcells := hmono.putPdu (c := c) hsound (by simp)
    rw [completed, ← (hcells.segments pdu'.sn).inBounds_iff] at hhole
    simp only [not_forall] at hhole
    obtain ⟨m, hm, hout⟩ := hhole
    obtain ⟨hacc, hfull⟩ := Bool.and_eq_true_iff.1 hcomp
    refine ⟨(pdu'.sn, completed c t.entity.rx pdu'), ?_, m, hm, hout⟩
    have hdata := receptionActions_of_full (c := c) t.entity.tCurrent
      (s := withPdu c t.entity.rx pdu') hfull
    obtain ⟨-, -, hre⟩ := by simpa only [UmRx.data, Prod.mk.injEq] using hdata
    show _ ∈ (recvPdu c t.entity.tCurrent t.entity.rx buffer).reassembled
    rw [recvPdu_segment _ _ hdec, if_pos hacc, hre]
    exact mem_append_right _ (mem_singleton_self _)
  · cases hseg

end Um

/-! ### Both modes -/

/-- **Along every run on which no SDU becomes full with a hole, reassembly reads inside the payloads
and delivers only received bytes**, in the acknowledged mode and in the unacknowledged mode, where
an SDU may also have come as a whole; and the first SDU that does become full with a hole is read
outside a payload. -/
theorem reassembly_reads_received_of_fillsHoles (p : Am.AmParams) (q : Um.UmParams)
    {t : Am.AmTrace} {u : Um.UmTrace} (ht : (Am.amSystem p.config).Reach (Am.FillsHoles p.config) t)
    (hu : (Um.umSystem q.config).Reach (Um.FillsHoles q.config) u) :
    ((∀ r ∈ t.entity.rx.reassembled, Reads (t.segments p.config) r) ∧
      (∀ sdu ∈ t.entity.rx.delivered, Received (t.segments p.config) sdu) ∧
      ∀ buffer, ¬ Am.FillsHoles p.config t (.recvPdu buffer) →
        ∃ r ∈ (t.entity.recvPdu p.config buffer).rx.reassembled,
          ∃ m ∈ (reassemble r.2).memcpys, ¬ m.InBounds) ∧
    ((∀ r ∈ u.entity.rx.reassembled, Reads (u.segments q.config) r) ∧
      (∀ sdu ∈ u.entity.rx.delivered, Received (u.segments q.config) sdu ∨
        ∃ d ∈ u.completes q.config, sdu = d.map some) ∧
      ∀ buffer, ¬ Um.FillsHoles q.config u (.recvPdu buffer) →
        ∃ r ∈ (u.entity.recvPdu q.config buffer).rx.reassembled,
          ∃ m ∈ (reassemble r.2).memcpys, ¬ m.InBounds) := by
  have ht := Am.SafeTrace.of_reach p.sane ht
  have hu := Um.SafeRx.of_reach hu
  refine ⟨⟨ht.reads, fun sdu hsdu ↦ ?_, fun _ hhole ↦ ht.outOfBounds p.sane hhole⟩,
    hu.reads, fun sdu hsdu ↦ ?_, fun _ hhole ↦ hu.outOfBounds hhole⟩
  · obtain ⟨r, hr, hsdu⟩ := ht.delivered sdu hsdu
    exact (ht.reads r hr).received_of_delivered hsdu
  · rcases hu.delivered sdu hsdu with ⟨r, hr, hsdu⟩ | hd
    · exact .inl ((hu.reads r hr).received_of_delivered hsdu)
    · exact .inr hd

/-- A segment beyond the end of the SDU, then the SDU marked as first and last. -/
def beyondTheEnd : List Am.AmOp :=
  [.recvPdu [0xb0, 0, 0, 10, 1, 2], .recvPdu [0x80, 0, 3, 4]]

/-- The first segment, one beyond the end and then the last one. -/
def beyondTheEndUm : List Um.UmOp :=
  [.recvPdu [0x40, 1], .recvPdu [0xc0, 0, 10, 2, 3], .recvPdu [0x80, 0, 1, 4]]

/-- The second copy starts 8 bytes before the payload of the segment at offset 10, in both modes:
the SDU delivered has bytes that were not received. -/
theorem reassembly_reads_before_payload :
    (∃ t, (Am.amSystem Am.shortSnParams.config).exec (fun _ _ ↦ True) {} beyondTheEnd = some t ∧
      t.entity.rx.reassembled.map (fun r ↦ (reassemble r.2).memcpys) =
        [[⟨[3, 4], 0, 2⟩, ⟨[1, 2], -8, 10⟩]] ∧
      t.entity.rx.delivered = [[some 3, some 4, none, none, none, none, none, none, none, none,
        some 1, some 2]]) ∧
    ∃ t, (Um.umSystem Um.shortSnParams.config).exec (fun _ _ ↦ True) {} beyondTheEndUm = some t ∧
      t.entity.rx.reassembled.map (fun r ↦ (reassemble r.2).memcpys) =
        [[⟨[1], 0, 1⟩, ⟨[4], 0, 1⟩, ⟨[2, 3], -8, 10⟩]] ∧
      t.entity.rx.delivered = [[some 1, some 4, none, none, none, none, none, none, none, none,
        some 2, some 3]] :=
  ⟨⟨_, rfl, by decide, by decide⟩, ⟨_, rfl, by decide, by decide⟩⟩

/-- Overlapping segments that leave no hole, in both modes. -/
theorem reassembly_reads_received_after_overlap :
    ∃ t u, (Am.amSystem Am.shortSnParams.config).Reach (Am.FillsHoles Am.shortSnParams.config) t ∧
      (Um.umSystem Um.shortSnParams.config).Reach (Um.FillsHoles Um.shortSnParams.config) u ∧
      t.entity.rx.delivered = [[some 1, some 2, some 3]] ∧
      u.entity.rx.delivered = [[some 1, some 2, some 3]] ∧
      (∀ r ∈ t.entity.rx.reassembled, Reads (t.segments Am.shortSnParams.config) r) ∧
      ∀ r ∈ u.entity.rx.reassembled, Reads (u.segments Um.shortSnParams.config) r :=
  have ht := StepSystem.reach_get_exec (Am.amSystem Am.shortSnParams.config)
    (Am.FillsHoles Am.shortSnParams.config)
    [.recvPdu [0x90, 0, 1, 2], .recvPdu [0xa0, 0, 0, 1, 2, 3]] (by decide)
  have hu := StepSystem.reach_get_exec (Um.umSystem Um.shortSnParams.config)
    (Um.FillsHoles Um.shortSnParams.config)
    [.recvPdu [0x40, 1, 2], .recvPdu [0x80, 0, 1, 2, 3]] (by decide)
  have h := reassembly_reads_received_of_fillsHoles Am.shortSnParams Um.shortSnParams ht hu
  ⟨_, _, ht, hu, by decide, by decide, h.1.1, h.2.1⟩

end OaiRan.Rlc
