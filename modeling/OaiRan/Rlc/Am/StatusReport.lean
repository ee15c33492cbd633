import OaiRan.Rlc.Am.NextMissing
import OaiRan.Rlc.Am.StatusFormat

/-!
# What a status report says about the receiver

`next_missing` goes from one stretch of missing bytes to the next, and `generate_missing` cuts a
stretch into NACKs of at most 255 SNs that **cover the same bytes** (`Tiled`). If the report is cut
short, the last NACK is extended to the end of its SDU and ACK_SN is the SN after it, so that what is
missing before ACK_SN is still covered (`Reported`). What the transmitter then reads is what was
planned (`decodeControl_statusPdu`).
-/

namespace OaiRan.Rlc.Am

open CircularSeq List Option WireNack Int

variable {c : AmConfig}

/-! ### What the list has

Two facts about the receive list that the report depends on: the SDUs that are delivered are there
as a whole, and there is a cell of the highest SN. -/

/-- A cell of the SN has the byte. -/
def HasByte (l : List NrRlcPdu) (sn i : ℤ) : Prop :=
  ∃ p ∈ l, p.sn = sn ∧ p.so ≤ i ∧ i < p.so + p.size

/-- The SDU is there up to a last segment. -/
def Complete (l : List NrRlcPdu) (sn : ℤ) : Prop :=
  ∃ q ∈ l, q.sn = sn ∧ q.isLast = true ∧ ∀ i, 0 ≤ i → i < q.so + q.size → HasByte l sn i

structure RxReport (c : AmConfig) (s : AmRx) : Prop where
  complete : ∀ x, sduDelivered s.rxList x = true → Complete s.rxList x
  top : s.rxNextHighest = s.rxNext ∨ ∃ p ∈ s.rxList, (p.sn + 1) % c.snModulus = s.rxNextHighest

section Lists

variable {l l' : List NrRlcPdu} {x : ℤ}

variable {i y x : ℤ}

theorem HasByte.mono (h : HasByte l x i) (hsub : ∀ p ∈ l, p.sn = x → p ∈ l') : HasByte l' x i := by
  obtain ⟨p, hp, hsn, hso⟩ := h
  exact ⟨p, hsub p hp hsn, hsn, hso⟩

theorem Complete.mono (h : Complete l x) (hsub : ∀ p ∈ l, p.sn = x → p ∈ l') : Complete l' x := by
  obtain ⟨q, hq, hsn, hlast, hall⟩ := h
  exact ⟨q, hsub q hq hsn, hsn, hlast, fun i h₀ hi ↦ (hall i h₀ hi).mono hsub⟩

theorem mem_of_sduDelivered (h : sduDelivered l x = true) : ∃ p ∈ l, p.sn = x := by
  obtain ⟨f, hf, -⟩ := sduDelivered_iff.1 h
  exact ⟨f, mem_of_find?_eq_some hf, by simpa using find?_some hf⟩

/-- The walk of `sdu_full` from the byte after `b` on. -/
theorem complete_of_sduFullLoop (hsub : ∀ p ∈ l', p ∈ l)
    (hpre : ∀ i, 0 ≤ i → i ≤ b → HasByte l x i) (h : sduFullLoop x b l' = true) : Complete l x := by
  induction l' generalizing b with
  | nil => cases h
  | cons q l' ih =>
    rw [sduFullLoop] at h
    split at h
    · cases h
    · rename_i hsn
      rw [not_not] at hsn
      split at h
      · cases h
      · have hbyte : ∀ i, 0 ≤ i → i ≤ max b (q.so + q.size - 1) → HasByte l x i := by
          intro i h₀ hi
          by_cases hib : i ≤ b
          · exact hpre i h₀ hib
          · exact ⟨q, hsub q mem_cons_self, hsn, by omega, by omega⟩
        split at h
        · rename_i hlast
          exact ⟨q, hsub q mem_cons_self, hsn, hlast, fun i h₀ hi ↦ hbyte i h₀ (by omega)⟩
        · exact ih (fun p hp ↦ hsub p (mem_cons_of_mem _ hp)) hbyte h

/-- **An SDU that is full is there as a whole.** -/
theorem complete_of_sduFull (h : sduFull l x = true) : Complete l x := by
  unfold sduFull at h
  split at h
  · cases h
  · exact complete_of_sduFullLoop (fun p hp ↦ (dropWhile_sublist _).subset hp)
      (fun i h₀ hi ↦ by omega) h

theorem mem_dropData_of_mem (hp : p ∈ l) :
    (if p.sn = x then { p with data := none } else p) ∈ dropData x l :=
  mem_map_of_mem hp

/-- Delivering an SDU takes no byte away. -/
theorem HasByte.dropData (h : HasByte l y i) : HasByte (dropData x l) y i := by
  obtain ⟨p, hp, hsn, hso, hi⟩ := h
  refine ⟨_, mem_dropData_of_mem hp, ?_⟩
  split <;> exact ⟨hsn, hso, hi⟩

theorem Complete.dropData (h : Complete l y) : Complete (dropData x l) y := by
  obtain ⟨q, hq, hsn, hlast, hall⟩ := h
  have hq' := mem_dropData_of_mem (x := x) hq
  refine ⟨_, hq', ?_, ?_, fun i h₀ hi ↦ ?_⟩
  · split <;> exact hsn
  · split <;> exact hlast
  · refine (hall i h₀ ?_).dropData
    split at hi <;> exact hi

end Lists

section Steps

variable {s : AmRx} {rn rh rnh x : ℤ}

theorem RxReport.congr (h : RxReport c s) (hlist : s'.rxList = s.rxList)
    (hnext : s'.rxNext = s.rxNext) (hhighest : s'.rxNextHighest = s.rxNextHighest) :
    RxReport c s' where
  complete := hlist ▸ h.complete
  top := by
    rw [hlist, hnext, hhighest]
    exact h.top

/-- A PDU is put into the list and counted. -/
theorem RxReport.putPdu (hc : c.Sane) (h : RxReport c s) (hw : RxWindow c s rn rh rnh)
    (hp : Fresh c pdu) : RxReport c (updateNextHighest c (putPdu c s pdu) pdu.sn) := by
  have hlist : (updateNextHighest c (Am.putPdu c s pdu) pdu.sn).rxList =
      nrRlcPduListAdd (snCompareRx c s) s.rxList pdu := by
    rw [updateNextHighest]
    split <;> rfl
  refine ⟨fun x hx ↦ ?_, ?_⟩
  · rw [hlist] at hx ⊢
    rcases hold : sduDelivered s.rxList x with - | -
    · rw [sduDelivered_listAdd_of_false
        (by simpa [isSome_iff_ne_none] using hp.data_ne) hold] at hx
      cases hx
    · exact (h.complete x hold).mono fun p hp _ ↦ mem_listAdd.2 (.inr hp)
  · rw [hlist, updateNextHighest]
    split
    · exact .inr ⟨pdu, mem_listAdd.2 (.inl rfl), rfl⟩
    · rename_i hlow
      rcases h.top with heq | ⟨p, hp, heq⟩
      · -- no SN of the window is below `rx_next`
        refine absurd ?_ hlow
        have hsn : (Am.putPdu c s pdu).rxNext = rn % c.snModulus := hw.rxNext_eq
        have hsame : (Am.putPdu c s pdu).rxNextHighest = rn % c.snModulus := heq.trans hw.rxNext_eq
        rw [snCompareRx_eq hc hsn hp.isSn (hsame ▸ isSn_emod hc.pos _), hsame,
          lift_emod_self le_rfl (by have := hc.pos; omega)]
        have := le_lift hc.pos rn pdu.sn
        omega
      · exact .inr ⟨p, mem_listAdd.2 (.inr hp), heq⟩

theorem RxReport.reassembleAndDeliver (h : RxReport c s) (hw : RxPointers c s rn rh rnh)
    (hx : IsSn c.snModulus x) (hfull : sduFull s.rxList x = true) :
    RxReport c (reassembleAndDeliver s x) := by
  obtain ⟨hlist, -⟩ := hw.reassembleAndDeliver hx hfull
  refine ⟨fun y hy ↦ ?_, ?_⟩
  · rw [hlist] at hy ⊢
    by_cases hyx : y = x
    · subst hyx
      exact (complete_of_sduFull hfull).dropData
    · rw [sduDelivered_dropData_of_ne hyx] at hy
      exact (h.complete y hy).dropData
  · rw [hlist]
    refine h.top.imp id fun ⟨p, hp, heq⟩ ↦ ⟨_, mem_dropData_of_mem hp, ?_⟩
    split <;> exact heq

/-- Freeing the delivered SDUs at the head. -/
theorem RxReport.updateRxNext (hc : c.Sane) (h : RxReport c s) (hw : RxPointers c s rn rh rnh) :
    RxReport c (updateRxNext c s x) := by
  have hlt := hw.rnh_lt hc
  have h₁ := hw.rn_le_rh
  have h₂ := hw.rh_le_rnh
  rw [Am.updateRxNext]
  split
  · obtain ⟨rn', heq, hle, hle', -, -⟩ := freeDelivered_spec hc le_rfl hw.cells.sorted
      hw.cells.isSn hw.cells.below (by omega) hlt.le
    rw [hw.rxNext_eq, heq]
    refine ⟨fun y hy ↦ ?_, ?_⟩
    · obtain ⟨p, hp, hpy⟩ := mem_of_sduDelivered hy
      have hge := (mem_cellsFrom.1 hp).2
      rw [hpy] at hge
      have hy' : sduDelivered (cellsFrom c.snModulus rn rn' s.rxList) y = true := hy
      rw [sduDelivered_cellsFrom hge] at hy'
      exact (h.complete y hy').mono fun q hq hqy ↦ mem_cellsFrom.2 ⟨hq, hqy ▸ hge⟩
    · show s.rxNextHighest = rn' % c.snModulus ∨
        ∃ p ∈ cellsFrom c.snModulus rn rn' s.rxList, _ = s.rxNextHighest
      rcases eq_or_lt_of_le hle' with rfl | hlt'
      · exact .inl hw.rxNextHighest_eq
      · rcases h.top with hnext | ⟨p, hp, hp'⟩
        · -- `rx_next` is not `rx_next_highest`, so the window is not empty
          rw [hw.rxNextHighest_eq, hw.rxNext_eq] at hnext
          have hl := lift_emod_self (M := c.snModulus) (show rn ≤ rnh by omega) hlt
          rw [hnext, lift_emod_self le_rfl (by have := hc.pos; omega)] at hl
          omega
        · refine .inr ⟨p, mem_cellsFrom.2 ⟨hp, ?_⟩, hp'⟩
          have hl := lift_emod_self (M := c.snModulus) (show rn ≤ rnh by omega) hlt
          have hge := le_lift hc.pos rn p.sn
          have hbelow := hw.cells.below p hp
          have hsucc : lift c.snModulus rn ((p.sn + 1) % c.snModulus) =
              lift c.snModulus rn p.sn + 1 := by
            refine lift_eq_of_emod_eq (by omega) (by omega) ?_
            rw [emod_emod_of_dvd _ (dvd_refl _), ← emod_add_emod, lift_emod, emod_add_emod]
          rw [hp', hw.rxNextHighest_eq, hl] at hsucc
          omega
  · exact h

theorem RxReport.actionsSduFull (hc : c.Sane) (h : RxReport c s) (hw : RxWindow c s rn rh rnh)
    (hx : IsSn c.snModulus x) (hfull : sduFull s.rxList x = true) :
    RxReport c (actionsSduFull c s x) := by
  obtain ⟨hlist, h₁⟩ := hw.toRxPointers.reassembleAndDeliver hx hfull
  have hopen : x ≠ (Am.reassembleAndDeliver s x).rxHighestStatus →
      sduDelivered (Am.reassembleAndDeliver s x).rxList (rh % c.snModulus) = false := by
    intro hne
    rw [hlist, sduDelivered_dropData_of_ne (h₁.rxHighestStatus_eq ▸ hne.symm)]
    exact hw.rxHighestStatus_open
  obtain ⟨rh', -, h₂, -⟩ := h₁.updateHighestStatus hc hopen
  refine RxReport.updateRxNext hc ?_ h₂
  refine (h.reassembleAndDeliver hw.toRxPointers hx hfull).congr ?_ ?_ ?_ <;>
    rw [updateHighestStatus] <;> split <;> rfl

theorem RxReport.recvDataPdu (hc : c.Sane) (h : RxReport c s) (hinv : RxInv c s)
    (hp : Fresh c pdu) (t : UInt64) (b : Bool) : RxReport c (recvDataPdu c t s b pdu) := by
  obtain ⟨rn, rh, rnh, hw, -⟩ := hinv
  have htimer : ∀ {u : AmRx}, RxReport c u →
      RxReport c (startTReassembly c t (stopTReassembly c u)) := by
    intro u hu
    refine hu.congr ?_ ?_ ?_ <;>
      rw [startTReassembly, restartTReassembly, stopTReassembly] <;> split <;> split <;>
        (try split) <;> rfl
  have htrigger : ∀ {u : AmRx}, RxReport c u → RxReport c (triggerStatus u b) := by
    intro u hu
    obtain ⟨b', u', heq⟩ := triggerStatus_eq u b
    rw [heq]
    exact hu.congr rfl rfl rfl
  rw [Am.recvDataPdu]
  split
  · rename_i hacc
    simp only [acceptsPdu, Bool.and_eq_true] at hacc
    have hput := h.putPdu hc hw hp
    refine htrigger ?_
    rw [receptionActions]
    refine htimer ?_
    split
    · rename_i hfull
      exact hput.actionsSduFull hc (hw.putPdu hc hp hacc.1.2) hp.isSn hfull
    · exact hput
  · exact htrigger h

theorem rxReport_of_reach (hc : c.Sane) {ok : AmTrace → AmOp → Prop}
    (h : (amSystem c).Reach ok t) : RxReport c t.entity.rx := by
  refine (h.invariant (P := fun t ↦ RxInv c t.entity.rx ∧ RxReport c t.entity.rx) ?_ ?_).2
  · exact ⟨.init hc [] [], ⟨fun x hx ↦ (by cases hx), .inl rfl⟩⟩
  · rintro t t' op ⟨hinv, hr⟩ - hstep
    refine ⟨hinv.step hc hstep, ?_⟩
    rcases step_rx_cases hstep with ⟨b, u, heq⟩ | ⟨buffer, p, pdu, -, hdec, heq⟩ | ⟨now, -, heq⟩ |
      ⟨-, heq⟩
    · rw [heq]
      exact hr.congr rfl rfl rfl
    · rw [heq]
      exact hr.recvDataPdu hc hinv (fresh_of_decodePdu hc hdec) _ _
    · rw [heq]
      refine hr.congr ?_ ?_ ?_ <;> rw [checkTReassembly] <;> split <;>
        first
        | rfl
        | dsimp only
          rw [restartTReassembly]
          split <;> rfl
    · rw [heq]
      exact ⟨fun x hx ↦ (by cases hx), .inl rfl⟩

end Steps

/-! ### The NACKs of one stretch -/

/-- From the byte `s` of `a` to the byte `e` of `b`. -/
def Between (a s b e x i : ℤ) : Prop := ByteLe a s x i ∧ ByteLe x i b e

namespace Piece

variable (c) (rn : ℤ) (p : Piece)

/-- The absolute number of the first SN. -/
def first : ℤ := lift c.snModulus rn p.missing.snStart

/-- The absolute number after the last SN. -/
def stop : ℤ := p.first c rn + p.count

/-- The bytes that the NACK is for. -/
def Covers (x i : ℤ) : Prop :=
  Between (p.first c rn) p.missing.soStart (p.stop c rn - 1) p.missing.soEnd x i

/-- The fields of the NACK have room for their values. -/
structure Fits : Prop where
  isSn : IsSn c.snModulus p.missing.snStart
  snEnd_eq : p.missing.snEnd = (p.stop c rn - 1) % c.snModulus
  count_pos : 0 < p.count
  count_le : p.count ≤ 255
  stop_le : p.stop c rn ≤ rn + c.snModulus
  soStart_mem : 0 ≤ p.missing.soStart ∧ p.missing.soStart ≤ 0xffff
  soEnd_mem : 0 ≤ p.missing.soEnd ∧ p.missing.soEnd ≤ 0xffff

end Piece

/-- **The pieces cover the stretch from `a` up to `b`**, and the last one ends there. -/
structure Tiled (c : AmConfig) (rn : ℤ) (m : MissingData) (sa ea a b : ℤ) (ps : List Piece) :
    Prop where
  fits : ∀ p ∈ ps, p.Fits c rn ∧ a ≤ p.first c rn ∧ p.stop c rn ≤ b
  covers : ∀ x i, 0 ≤ i → i ≤ 0xffff → ((∃ p ∈ ps, p.Covers c rn x i) ↔
    a ≤ x ∧ x < b ∧ Between sa m.soStart ea m.soEnd x i)
  last : (ps = [] ∧ b = a) ∨ ∃ p, ps.getLast? = some p ∧ p.stop c rn = b ∧
    (b = ea + 1 → ByteLe (p.first c rn) p.missing.soStart ea m.soEnd)

/-- A stretch of missing bytes between two absolute SNs that fits into the window. -/
structure Stretch (c : AmConfig) (rn : ℤ) (m : MissingData) (sa ea : ℤ) : Prop where
  snStart_eq : m.snStart = sa % c.snModulus
  snEnd_eq : m.snEnd = ea % c.snModulus
  rn_le : rn ≤ sa
  start_le : sa ≤ ea
  lt : ea < rn + c.snModulus
  soStart_mem : 0 ≤ m.soStart ∧ m.soStart ≤ 0xffff
  soEnd_mem : 0 ≤ m.soEnd ∧ m.soEnd ≤ 0xffff
  so_le : sa = ea → m.soStart ≤ m.soEnd

section Stretches

variable {rn sa ea a b n : ℤ} {m : MissingData} {ps : List Piece}

theorem emod_eq_emod_iff_of_lt (rn : ℤ) {M a b : ℤ} (hle : rn ≤ a) (hlt : a < rn + M)
    (hle' : rn ≤ b) (hlt' : b < rn + M) : a % M = b % M ↔ a = b := by
  refine ⟨fun h ↦ ?_, fun h ↦ h ▸ rfl⟩
  rw [← lift_emod_self hle hlt, h, lift_emod_self hle' hlt']

/-- The first SO and the last one of a piece. -/
theorem nackRange_eq (h : Stretch c rn m sa ea) (hsa : sa ≤ a) (ha : a ≤ ea)
    (hn : n = ea + 1 - a) : nackRange c m (a % c.snModulus) n =
      ⟨a % c.snModulus, if a = sa then m.soStart else 0, (a + min n 255 - 1) % c.snModulus,
        if n ≤ 255 then m.soEnd else 0xffff⟩ := by
  have h₁ := h.rn_le
  have h₂ := h.lt
  have hstart := emod_eq_emod_iff_of_lt rn (M := c.snModulus) (h₁.trans hsa) (by omega) h₁
    (show sa < rn + c.snModulus by omega)
  rw [nackRange, h.snStart_eq, h.snEnd_eq]
  simp only [hstart]
  congr 1
  split
  · rw [show a + min n 255 - 1 = ea by omega]
  · rw [emod_add_emod, show a + min n 255 - 1 = a + 254 by omega]

theorem tiled_nil (a : ℤ) : Tiled c rn m sa ea a a [] := by
  refine ⟨fun p hp ↦ (by cases hp), fun x i _ _ ↦ ⟨?_, ?_⟩, .inl ⟨rfl, rfl⟩⟩
  · rintro ⟨p, hp, -⟩
    cases hp
  · rintro ⟨hle, hlt, -⟩
    omega

section

variable (hc : c.Sane) (h : Stretch c rn m sa ea)
include hc h

/-- One piece, and what comes after it. -/
theorem Tiled.cons (hsa : sa ≤ a) (ha : a ≤ ea)
    (hn : n = ea + 1 - a) (hb : a + min n 255 ≤ b) (hbe : b ≤ ea + 1)
    (ht : Tiled c rn m sa ea (a + min n 255) b ps) :
    Tiled c rn m sa ea a b (⟨nackRange c m (a % c.snModulus) n, min n 255⟩ :: ps) := by
  have h₁ := h.rn_le
  have h₂ := h.lt
  have h₃ := h.soStart_mem
  have h₄ := h.soEnd_mem
  have h₅ := h.so_le
  have hfirst : lift c.snModulus rn (a % c.snModulus) = a := lift_emod_self (by omega) (by omega)
  set p : Piece := ⟨nackRange c m (a % c.snModulus) n, min n 255⟩ with hp
  have hmissing : p.missing = _ := nackRange_eq h hsa ha hn
  have hstart : p.first c rn = a := by rw [Piece.first, hmissing, hfirst]
  have hstop : p.stop c rn = a + min n 255 := by rw [Piece.stop, hstart]
  refine ⟨fun q hq ↦ ?_, fun x i hi hi' ↦ ?_, .inr ?_⟩
  · rcases mem_cons.1 hq with rfl | hq
    · refine ⟨⟨?_, ?_, ?_, ?_, ?_, ?_, ?_⟩, hstart.ge, hstop ▸ hb⟩
      · exact isSn_emod hc.pos a
      · rw [hmissing, hstop]
      · show 0 < min n 255
        omega
      · exact min_le_right n 255
      · omega
      · rw [hmissing]
        dsimp only
        split <;> omega
      · rw [hmissing]
        dsimp only
        split <;> omega
    · obtain ⟨hfits, hle, hstopq⟩ := ht.fits q hq
      exact ⟨hfits, by omega, hstopq⟩
  · rw [exists_mem_cons_iff, ht.covers x i hi hi', Piece.Covers, hstart, hstop, hmissing]
    simp only [Between, ByteLe]
    split <;> split <;> omega
  · rcases ht.last with ⟨rfl, hba⟩ | ⟨q, hq, hstopq, hle⟩
    · refine ⟨p, rfl, hstop.trans hba.symm, fun hbe ↦ ?_⟩
      rw [hstart, hmissing, ByteLe]
      dsimp only
      split <;> omega
    · exact ⟨q, by rw [getLast?_cons, hq]; rfl, hstopq, hle⟩

/-- **`generate_missing` cuts a stretch into pieces that cover it**, up to where there is no more
room. -/
theorem missingPlan_tiled (size used : ℤ) {fuel : ℕ}
    (hsa : sa ≤ a) (ha : a ≤ ea + 1) (hn : n = ea + 1 - a) (hfuel : n ≤ fuel) :
    ∃ b, a ≤ b ∧ b ≤ ea + 1 ∧
      ((missingPlan c m size fuel (a % c.snModulus) n used).2 = false → b = ea + 1) ∧
      Tiled c rn m sa ea a b (missingPlan c m size fuel (a % c.snModulus) n used).1 := by
  induction fuel generalizing a n used with
  | zero =>
    exact ⟨a, le_rfl, ha, fun _ ↦ by push_cast at hfuel; omega, tiled_nil a⟩
  | succ fuel ih =>
    rw [missingPlan]
    split
    · exact ⟨a, le_rfl, ha, fun _ ↦ by omega, tiled_nil a⟩
    · dsimp only
      split
      · exact ⟨a, le_rfl, ha, fun h ↦ (by cases h), tiled_nil a⟩
      · rw [emod_add_emod]
        generalize used + nackSize c (nackRange c m (a % c.snModulus) n) = used'
        obtain ⟨b, hb, hbe, hcut, ht⟩ := ih (a := a + min n 255) (n := n - min n 255) used'
          (by omega) (by omega) (by omega) (by omega)
        exact ⟨b, by omega, hbe, hcut, ht.cons hc h hsa (by omega) hn hb hbe⟩

theorem stretchPlan_tiled (size used : ℤ) :
    ∃ b, sa ≤ b ∧ b ≤ ea + 1 ∧ ((stretchPlan c m size used).2 = false → b = ea + 1) ∧
      Tiled c rn m sa ea sa b (stretchPlan c m size used).1 := by
  have h₁ := h.rn_le
  have h₂ := h.start_le
  have h₃ := h.lt
  have hcount : snCount c m = ea + 1 - sa := by
    rw [snCount, h.snStart_eq, h.snEnd_eq, add_emod_right, ← sub_emod,
      emod_eq_of_lt (by omega) (by omega)]
    omega
  rw [stretchPlan, hcount, h.snStart_eq]
  exact missingPlan_tiled hc h size used le_rfl (by omega) rfl (by omega)

end

end Stretches

/-! ### The NACKs of the whole report -/

/-- **What a report that goes from the byte `s₀` of `a₀` on says.** If it was cut short, what the
NACKs leave out below the last SN is in the last SDU. -/
structure Reported (c : AmConfig) (len : ℤ → ℤ) (rn rh : ℤ) (l : List NrRlcPdu) (a₀ s₀ : ℤ)
    (plan : List Piece × Bool) : Prop where
  fits : ∀ p ∈ plan.1, p.Fits c rn ∧ a₀ ≤ p.first c rn ∧ p.stop c rn ≤ rh
  stop_le : ∀ p, plan.1.getLast? = some p → ∀ q ∈ plan.1, q.stop c rn ≤ p.stop c rn
  sound : ∀ x i, IsByte c len x i → (∃ p ∈ plan.1, p.Covers c rn x i) →
    ByteLe a₀ s₀ x i ∧ ¬HasAbs c rn l x i
  complete : plan.2 = false → ∀ x i, IsByte c len x i → x < rh → ByteLe a₀ s₀ x i →
    ¬HasAbs c rn l x i → ∃ p ∈ plan.1, p.Covers c rn x i
  cut : ∀ p, plan.1.getLast? = some p → ∀ x i, IsByte c len x i → x < p.stop c rn →
    ByteLe a₀ s₀ x i → ¬HasAbs c rn l x i → (∃ q ∈ plan.1, q.Covers c rn x i) ∨
      x = p.stop c rn - 1 ∧ ByteLe (p.first c rn) p.missing.soStart x i

section Report

variable {s : AmRx} {len : ℤ → ℤ} {rn rh rnh a₀ s₀ a₁ s₁ sa ea b : ℤ} {l next : List NrRlcPdu}
  {m : MissingData} {ps : List Piece} {plan : List Piece × Bool}

/-- Nothing is missing. -/
theorem reported_nil (h : ∀ x i, IsByte c len x i → x < rh → ByteLe a₀ s₀ x i → HasAbs c rn l x i) :
    Reported c len rn rh l a₀ s₀ ([], false) := by
  refine ⟨fun p hp ↦ (by cases hp), fun p hp ↦ (by cases hp), fun x i _ hp ↦ ?_,
    fun _ x i hbyte hx hle hnot ↦ ?_, fun p hp ↦ (by cases hp)⟩
  · obtain ⟨p, hp, -⟩ := hp
    cases hp
  · exact absurd (h x i hbyte hx hle) hnot

theorem Finds.stretch (hscan : Scan c s len rn rh rnh) (hrn : rn ≤ a₀)
    (h : Finds c len rn rh l a₀ s₀ m next sa ea) : Stretch c rn m sa ea := by
  have h₁ := h.front
  have h₂ := h.lt_rh
  have h₃ := hscan.rh_le_rnh
  have h₄ := hscan.rnh_lt
  rw [ByteLe] at h₁
  exact ⟨h.snStart_eq, h.snEnd_eq, by omega, h.start_le, by omega, h.soStart_mem, h.soEnd_mem,
    h.so_le⟩

theorem ByteLe.trans (h : ByteLe x i y j) (h' : ByteLe y j z k) : ByteLe x i z k := by
  simp only [ByteLe] at *
  omega

theorem Finds.start_byteLe_end (h : Finds c len rn rh l a₀ s₀ m next sa ea) :
    ByteLe sa m.soStart ea m.soEnd :=
  (eq_or_lt_of_le h.start_le).elim (fun heq ↦ .inr ⟨heq, h.so_le heq⟩) .inl

/-- A missing byte that is not after the stretch is in it. -/
theorem Finds.between (h : Finds c len rn rh l a₀ s₀ m next sa ea)
    (hbyte : IsByte c len x i) (hle : ByteLe a₀ s₀ x i) (hnot : ¬HasAbs c rn l x i)
    (hle' : ByteLe x i ea m.soEnd) : Between sa m.soStart ea m.soEnd x i := by
  refine ⟨?_, hle'⟩
  by_contra hlt
  exact hnot (h.before x i hbyte hle hlt)

section

variable (hscan : Scan c s len rn rh rnh)
include hscan

theorem Scan.le_of_isByte (h : IsByte c len x i) :
    0 ≤ i ∧ i ≤ 0xffff := ⟨h.1, (le_of_lt h.2).trans (hscan.len_le _)⟩

section

variable (h : Finds c len rn rh l a₀ s₀ m next sa ea)
include h

/-- The pieces of the stretch cover missing bytes only. -/
theorem Finds.sound (ht : Tiled c rn m sa ea sa b ps) (hbyte : IsByte c len x i)
    (hp : ∃ p ∈ ps, p.Covers c rn x i) : ByteLe a₀ s₀ x i ∧ ¬HasAbs c rn l x i := by
  have hi := hscan.le_of_isByte hbyte
  obtain ⟨-, -, hle, hle'⟩ := (ht.covers x i hi.1 hi.2).1 hp
  exact ⟨h.front.trans hle, h.missing x i hbyte hle hle'⟩

/-- There is no room for the whole stretch. -/
theorem Finds.reported_cut (ht : Tiled c rn m sa ea sa b ps)
    (hb : b ≤ ea + 1) : Reported c len rn rh l a₀ s₀ (ps, true) := by
  have hrh := h.lt_rh
  have hfront := h.front
  rw [ByteLe] at hfront
  have hlast : ∀ p, ps.getLast? = some p → p.stop c rn = b ∧
      (b = ea + 1 → ByteLe (p.first c rn) p.missing.soStart ea m.soEnd) := by
    intro p hp
    rcases ht.last with ⟨hnil, -⟩ | ⟨q, hq, hstop, hend⟩
    · rw [hnil] at hp
      cases hp
    · obtain rfl : q = p := some.inj (hq.symm.trans hp)
      exact ⟨hstop, hend⟩
  refine ⟨fun p hp ↦ ?_, fun p hp q hq ↦ (hlast p hp).1.symm ▸ (ht.fits q hq).2.2,
    fun x i hbyte hp ↦ h.sound hscan ht hbyte hp, fun hf ↦ (by cases hf), ?_⟩
  · obtain ⟨hfits, hle, hstop⟩ := ht.fits p hp
    exact ⟨hfits, by omega, by omega⟩
  · intro p hp x i hbyte hx hle hnot
    obtain ⟨hstop, hend⟩ := hlast p hp
    have hi := hscan.le_of_isByte hbyte
    by_cases hle' : ByteLe x i ea m.soEnd
    · have hbetween := h.between hbyte hle hnot hle'
      refine .inl ((ht.covers x i hi.1 hi.2).2 ⟨?_, hstop ▸ hx, hbetween⟩)
      have := hbetween.1
      rw [ByteLe] at this
      omega
    · -- past the stretch, in the last SDU of it
      have hxea : x = ea ∧ b = ea + 1 := by
        rw [ByteLe] at hle'
        omega
      refine .inr ⟨by omega, (hend hxea.2).trans ?_⟩
      rw [ByteLe] at hle' ⊢
      omega

/-- The stretch, and a report that goes on after it. -/
theorem Finds.reported_append (ht : Tiled c rn m sa ea sa (ea + 1) ps)
    (hnext : ByteLe ea m.soEnd a₁ s₁)
    (hafter : ∀ x i, IsByte c len x i → ¬ByteLe x i ea m.soEnd → ByteLe a₁ s₁ x i)
    (hr : Reported c len rn rh l a₁ s₁ plan) :
    Reported c len rn rh l a₀ s₀ (ps ++ plan.1, plan.2) := by
  have hcut := h.reported_cut hscan ht le_rfl
  have hfront : ByteLe a₀ s₀ a₁ s₁ := (h.front.trans h.start_byteLe_end).trans hnext
  have ha₀ : a₀ ≤ a₁ := hfront.elim le_of_lt fun h ↦ h.1.le
  have ha₁ : ea ≤ a₁ := hnext.elim le_of_lt fun h ↦ h.1.le
  have hmem : ∀ {x i : ℤ}, (∃ p ∈ ps ++ plan.1, p.Covers c rn x i) ↔
      (∃ p ∈ ps, p.Covers c rn x i) ∨ ∃ p ∈ plan.1, p.Covers c rn x i := by
    simp only [mem_append, or_and_right, exists_or, implies_true]
  have hlast' : ∀ p, (ps ++ plan.1).getLast? = some p →
      (ps.getLast? = some p ∧ plan.1 = []) ∨ plan.1.getLast? = some p := by
    intro p hp
    rcases hplan : plan.1 with - | ⟨q, qs⟩
    · rw [hplan, append_nil] at hp
      exact .inl ⟨hp, rfl⟩
    · rw [hplan, getLast?_append_of_ne_nil _ (cons_ne_nil q qs)] at hp
      exact .inr hp
  -- a missing byte up to the end of the stretch is covered by its pieces
  have hin : ∀ x i, IsByte c len x i → ByteLe a₀ s₀ x i → ¬HasAbs c rn l x i →
      ByteLe x i ea m.soEnd → ∃ p ∈ ps, p.Covers c rn x i := by
    intro x i hbyte hle hnot hle'
    have hi := hscan.le_of_isByte hbyte
    have hbetween := h.between hbyte hle hnot hle'
    have hlo := hbetween.1
    refine (ht.covers x i hi.1 hi.2).2 ⟨?_, ?_, hbetween⟩
    · rw [ByteLe] at hlo
      omega
    · rw [ByteLe] at hle'
      omega
  refine ⟨fun p hp ↦ ?_, fun p hlast q hq ↦ ?_, fun x i hbyte hp ↦ ?_,
    fun hf x i hbyte hx hle hnot ↦ ?_, fun p hlast x i hbyte hx hle hnot ↦ ?_⟩
  · rcases mem_append.1 hp with hp | hp
    · exact hcut.fits p hp
    · obtain ⟨hfits, hle, hstop⟩ := hr.fits p hp
      exact ⟨hfits, ha₀.trans hle, hstop⟩
  · rcases hlast' p hlast with ⟨hp, hnil⟩ | hp
    · rw [show (ps ++ plan.1, plan.2).1 = ps ++ plan.1 from rfl, hnil, append_nil] at hq
      exact hcut.stop_le p hp q hq
    · rcases mem_append.1 hq with hq | hq
      · obtain ⟨hfits, hle, -⟩ := hr.fits p (mem_of_getLast? hp)
        have hq' := (ht.fits q hq).2.2
        have hpos := hfits.count_pos
        have hstop : p.stop c rn = p.first c rn + p.count := rfl
        omega
      · exact hr.stop_le p hp q hq
  · rcases hmem.1 hp with hp | hp
    · exact hcut.sound x i hbyte hp
    · obtain ⟨hle, hnot⟩ := hr.sound x i hbyte hp
      exact ⟨hfront.trans hle, hnot⟩
  · rw [hmem]
    by_cases hle' : ByteLe x i ea m.soEnd
    · exact .inl (hin x i hbyte hle hnot hle')
    · exact .inr (hr.complete hf x i hbyte hx (hafter x i hbyte hle') hnot)
  · rw [hmem]
    rcases hlast' p hlast with ⟨hp, -⟩ | hp
    · exact (hcut.cut p hp x i hbyte hx hle hnot).imp_left .inl
    · by_cases hle' : ByteLe x i ea m.soEnd
      · exact .inl (.inl (hin x i hbyte hle hnot hle'))
      · exact (hr.cut p hp x i hbyte hx (hafter x i hbyte hle') hnot).imp_left .inr

end

end

/-- The cells that are left after a stretch. -/
theorem Finds.scanCells {q : NrRlcPdu} (hl : ScanCells c len rn rnh l a₀ s₀)
    (hsuffix : next <:+ l) (hfront : ByteLe a₀ s₀ (lift c.snModulus rn q.sn) q.so)
    (hiff : ∀ x i, ByteLe (lift c.snModulus rn q.sn) q.so x i →
      (HasAbs c rn l x i ↔ HasAbs c rn next x i)) :
    ScanCells c len rn rnh next (lift c.snModulus rn q.sn) q.so := by
  have hsub := hsuffix.subset
  exact ⟨fun p hp ↦ hl.isSn p (hsub hp), fun p hp ↦ hl.below p (hsub hp),
    hl.sorted.sublist hsuffix.sublist, fun p hp ↦ hl.segment p (hsub hp),
    fun p hp hnone i hbyte hle ↦ (hiff _ _ hle).1
      (hl.complete p (hsub hp) hnone i hbyte (hfront.trans hle))⟩

/-- A report about the cells that are left, as one about all of them. -/
theorem Reported.of_hasAbs_iff (hr : Reported c len rn rh next a₁ s₁ plan)
    (hiff : ∀ x i, ByteLe a₁ s₁ x i → (HasAbs c rn l x i ↔ HasAbs c rn next x i)) :
    Reported c len rn rh l a₁ s₁ plan := by
  refine ⟨hr.fits, hr.stop_le, fun x i hbyte hp ↦ ?_, fun hf x i hbyte hx hle hnot ↦ ?_,
    fun p hlast x i hbyte hx hle hnot ↦ ?_⟩
  · obtain ⟨hle, hnot⟩ := hr.sound x i hbyte hp
    exact ⟨hle, mt (hiff x i hle).1 hnot⟩
  · exact hr.complete hf x i hbyte hx hle (mt (hiff x i hle).2 hnot)
  · exact hr.cut p hlast x i hbyte hx hle (mt (hiff x i hle).2 hnot)

/-- **The loop of `generate_status`**: from a cell on, or from the head of the list on. -/
theorem reportPlanLoop_reported (hscan : Scan c s len rn rh rnh) (size used : ℤ) {fuel : ℕ}
    {cur : NrRlcPdu} {rest : List NrRlcPdu} {b : Bool}
    (hl : ScanCells c len rn rnh (cur :: rest) a₀ s₀) (hrn : rn ≤ a₀)
    (hfind : FindsOrNone c len rn rh (cur :: rest) a₀ s₀ (nextMissing c s cur rest b))
    (hfuel : (cur :: rest).length + b.toNat ≤ fuel) :
    Reported c len rn rh (cur :: rest) a₀ s₀
      (reportPlanLoop c s size fuel (cur :: rest) b used) := by
  induction fuel generalizing cur rest b used a₀ s₀ with
  | zero => exact absurd hfuel (by rw [length_cons]; omega)
  | succ fuel ih =>
    rw [reportPlanLoop]
    rcases hfind with ⟨hnone, hall⟩ | ⟨m, next, sa, ea, hsome, h⟩
    · rw [hnone]
      exact reported_nil hall
    · have hlength := length_nextMissing_le hsome
      obtain ⟨b', hb, hbe, hdone, ht⟩ := stretchPlan_tiled hscan.sane (h.stretch hscan hrn) size used
      rw [hsome]
      dsimp only
      rw [length_cons] at hfuel
      rcases hcut : (stretchPlan c m size used).2 with - | -
      · obtain rfl := hdone hcut
        rcases h.after with ⟨rfl, hea, hso⟩ | ⟨q, rest', rfl, hsuffix, hnext, hafter, hiff⟩
        · -- nothing is left: the report is up to `rx_highest_status`
          have hnil : reportPlanLoop c s size fuel [] false
              (used + piecesSize c (stretchPlan c m size used).1) = ([], false) := by
            cases fuel <;> rfl
          rw [hnil]
          have hnext : ByteLe ea m.soEnd rh 0 := by
            rw [ByteLe]
            omega
          refine h.reported_append hscan ht hnext (fun x i hbyte hlt ↦ ?_)
            (reported_nil fun x i _ hx hle ↦ ?_)
          · have hi := hscan.le_of_isByte hbyte
            rw [ByteLe] at hlt ⊢
            omega
          · rw [ByteLe] at hle
            omega
        · have hfront := (h.front.trans h.start_byteLe_end).trans hnext
          have hl' := Finds.scanCells hl hsuffix hfront hiff
          have hr := ih (used + piecesSize c (stretchPlan c m size used).1) hl'
            (le_lift hscan.sane.pos rn q.sn) (nextMissing_spec hscan hl' rfl rfl) (by
              rw [Bool.toNat_false]
              omega)
          exact h.reported_append hscan ht hnext hafter (hr.of_hasAbs_iff hiff)
      · have := h.reported_cut hscan ht hbe
        rwa [← hcut] at this

end Report

/-! ### What the transmitter reads -/

/-- The NACKs, as `process_control_pdu` goes through them, are for the byte. -/
def NackCovers (c : AmConfig) (nacks : List Nack) (sn i : ℤ) : Prop :=
  ∃ n ∈ nacks.flatMap (Nack.expand c), n.sn = sn ∧ n.soStart ≤ i ∧ (n.soEnd = -1 ∨ i ≤ n.soEnd)

section Decode

variable {rn rh x i : ℤ} {p : Piece} {ps : List Piece}

theorem nackCovers_nil (sn : ℤ) : ¬NackCovers c [] sn i := by
  rintro ⟨n, hn, -⟩
  cases hn

theorem nackCovers_append :
    NackCovers c (ns ++ ns') sn i ↔ NackCovers c ns sn i ∨ NackCovers c ns' sn i := by
  simp only [NackCovers, flatMap_append, mem_append, or_and_right, exists_or]

/-- The SNs of one NACK. -/
theorem nackCovers_singleton (n : Nack) (sn : ℤ) : NackCovers c [n] sn i ↔
    ∃ k : ℕ, k < n.range ∧ (n.nackSn + k) % c.snModulus = sn ∧
      (if k = 0 then n.soStart else 0) ≤ i ∧
      ((if k = n.range - 1 then n.soEnd else -1) = -1 ∨
        i ≤ if k = n.range - 1 then n.soEnd else -1) := by
  simp only [NackCovers, List.flatMap_cons, List.flatMap_nil, List.append_nil, Nack.expand,
    List.mem_map, List.mem_range]
  constructor
  · rintro ⟨_, ⟨k, hk, rfl⟩, h⟩
    exact ⟨k, hk, h⟩
  · rintro ⟨k, hk, h⟩
    exact ⟨_, ⟨k, hk, rfl⟩, h⟩

/-- A NACK for the SNs from `a` on, in absolute numbers. -/
theorem nackCovers_iff {a s e : ℤ} {k : ℕ} (ha : rn ≤ a) (hk : a + k ≤ rn + c.snModulus)
    (hx : rn ≤ x) (hx' : x < rn + c.snModulus) (hi : 0 ≤ i) :
    NackCovers c [⟨a % c.snModulus, s, e, k⟩] (x % c.snModulus) i ↔
      a ≤ x ∧ x < a + k ∧ (x = a → s ≤ i) ∧ (x = a + k - 1 → e = -1 ∨ i ≤ e) := by
  rw [nackCovers_singleton]
  simp only [emod_add_emod]
  constructor
  · rintro ⟨j, hj, hsn, hs, he⟩
    obtain rfl := (emod_eq_emod_iff_of_lt rn (by omega) (by omega) hx hx').1 hsn
    refine ⟨by omega, by omega, fun h ↦ ?_, fun h ↦ ?_⟩
    · rwa [if_pos (by omega)] at hs
    · rwa [if_pos (by omega)] at he
  · rintro ⟨hle, hlt, hs, he⟩
    refine ⟨(x - a).toNat, by omega, by congr 1; omega, ?_, ?_⟩
    · split
      · exact hs (by omega)
      · exact hi
    · split
      · exact he (by omega)
      · exact .inl rfl

theorem Piece.Fits.first_mem (p : Piece) (rn : ℤ)
    (hc : c.Sane) : rn ≤ p.first c rn := le_lift hc.pos _ _

theorem Piece.Fits.snStart_eq (h : p.Fits c rn) :
    p.missing.snStart = p.first c rn % c.snModulus := by
  rw [Piece.first, lift_emod, emod_eq_of_lt h.isSn.1 h.isSn.2]

/-- A piece of one SN has no NACK range. -/
theorem Piece.Fits.snStart_eq_snEnd_iff (hc : c.Sane) (h : p.Fits c rn) :
    p.missing.snStart = p.missing.snEnd ↔ p.count = 1 := by
  have h₁ := Piece.Fits.first_mem p rn hc
  have h₂ := h.stop_le
  have h₃ := h.count_pos
  have hstop : p.stop c rn = p.first c rn + p.count := rfl
  rw [h.snStart_eq, h.snEnd_eq, emod_eq_emod_iff_of_lt rn h₁ (by omega) (by omega) (by omega)]
  omega

theorem Piece.Fits.nackSn_wire (hc : c.Sane) (h : p.Fits c rn) :
    ((p.wire.nackSn % 2 ^ c.snFieldLength : ℕ) : ℤ) = p.first c rn % c.snModulus := by
  have h₁ := h.isSn.1
  have h₂ := h.isSn.2
  have hpow : ((2 ^ c.snFieldLength : ℕ) : ℤ) = c.snModulus := by
    rw [hc.snModulus_eq_pow]
    norm_cast
  rw [← h.snStart_eq]
  show ((p.missing.snStart.toNat % 2 ^ c.snFieldLength : ℕ) : ℤ) = p.missing.snStart
  rw [Nat.mod_eq_of_lt (by omega)]
  omega

theorem Piece.Fits.range_wire (hc : c.Sane) (h : p.Fits c rn) : p.wire.range = p.count.toNat := by
  have h₁ := h.snStart_eq_snEnd_iff hc
  have h₂ := h.count_le
  rw [WireNack.range, Piece.wire, wireNack]
  by_cases hone : p.count = 1
  · rw [if_pos (h₁.2 hone), hone]
    rfl
  · rw [if_neg (mt h₁.1 hone)]
    show p.count.toNat % 2 ^ 8 = p.count.toNat
    omega

/-- Without SO start and SO end, the NACK is for the whole SDU. -/
theorem soRange_wire_cases (p : Piece) :
    (p.wire.soRange = none ∧ p.missing.soStart = 0 ∧ p.missing.soEnd = 0xffff) ∨
      p.wire.soRange = some (p.missing.soStart.toNat, p.missing.soEnd.toNat) := by
  rw [Piece.wire, wireNack]
  split
  · rename_i hwhole
    rw [MissingData.whole, Bool.and_eq_true, beq_iff_eq, beq_iff_eq] at hwhole
    exact .inl ⟨rfl, hwhole⟩
  · exact .inr rfl

section

variable (hc : c.Sane) (h : p.Fits c rn)
include hc h

/-- **The fields of a NACK are read as they were planned.** -/
theorem Piece.Fits.nack_wire : p.wire.nack c =
    ⟨p.first c rn % c.snModulus, p.missing.soStart,
      if p.missing.soEnd = 0xffff then -1 else p.missing.soEnd, p.count.toNat⟩ := by
  have h₁ := h.soStart_mem
  have h₂ := h.soEnd_mem
  rw [nack, h.nackSn_wire hc, h.range_wire hc, soStart, soEnd]
  rcases soRange_wire_cases p with ⟨hr, hs, he⟩ | hr
  · rw [hr, hs, he]
    rfl
  · rw [hr]
    simp only [map_some, getD_some]
    rw [Nat.mod_eq_of_lt (by omega), Nat.mod_eq_of_lt (by omega), toNat_of_nonneg h₁.1,
      toNat_of_nonneg h₂.1,
      if_congr (show p.missing.soEnd.toNat = 0xffff ↔ p.missing.soEnd = 0xffff by omega) rfl rfl]

/-- The last one, extended to the end of its SDU. -/
theorem Piece.Fits.nack_forced : p.wire.forced.nack c =
    ⟨p.first c rn % c.snModulus, p.missing.soStart, -1, p.count.toNat⟩ := by
  have h₁ := h.soStart_mem
  rw [WireNack.nack, WireNack.soStart, WireNack.soEnd, WireNack.range]
  show Nack.mk ((p.wire.nackSn % 2 ^ c.snFieldLength : ℕ) : ℤ) _ _ (p.wire.range : ℕ) = _
  rw [h.nackSn_wire hc, h.range_wire hc, WireNack.forced]
  rcases soRange_wire_cases p with ⟨hr, hs, -⟩ | hr
  · rw [hr, hs]
    rfl
  · rw [hr]
    simp only [Option.map_some, Option.getD_some]
    rw [Nat.mod_eq_of_lt (by omega), toNat_of_nonneg h₁.1]
    rfl

/-- The byte is one that the NACK was planned for. -/
theorem Piece.Fits.nackCovers_iff (hx : rn ≤ x)
    (hx' : x < rn + c.snModulus) (hi : 0 ≤ i) (hi' : i ≤ 0xffff) :
    NackCovers c [p.wire.nack c] (x % c.snModulus) i ↔ p.Covers c rn x i := by
  have h₁ := Piece.Fits.first_mem p rn hc
  have h₂ := h.stop_le
  have h₃ := h.count_pos
  have h₄ := h.soEnd_mem
  have hstop : p.stop c rn = p.first c rn + p.count := rfl
  rw [h.nack_wire hc, Am.nackCovers_iff h₁ (by omega) hx hx' hi, Piece.Covers, Between, ByteLe,
    ByteLe]
  split <;> omega

theorem Piece.Fits.nackCovers_forced_iff (hx : rn ≤ x) (hx' : x < rn + c.snModulus) (hi : 0 ≤ i) :
    NackCovers c [p.wire.forced.nack c] (x % c.snModulus) i ↔
      ByteLe (p.first c rn) p.missing.soStart x i ∧ x < p.stop c rn := by
  have h₁ := Piece.Fits.first_mem p rn hc
  have h₂ := h.stop_le
  have h₃ := h.count_pos
  have hstop : p.stop c rn = p.first c rn + p.count := rfl
  rw [h.nack_forced hc, Am.nackCovers_iff h₁ (by omega) hx hx' hi, ByteLe]
  omega

end

theorem nackCovers_wires_iff (hc : c.Sane) (h : ∀ p ∈ ps, p.Fits c rn) (hx : rn ≤ x)
    (hx' : x < rn + c.snModulus) (hi : 0 ≤ i) (hi' : i ≤ 0xffff) :
    NackCovers c ((ps.map Piece.wire).map (nack c)) (x % c.snModulus) i ↔
      ∃ p ∈ ps, p.Covers c rn x i := by
  induction ps with
  | nil => exact iff_of_false (nackCovers_nil _) (by rintro ⟨p, hp, -⟩; cases hp)
  | cons p ps ih =>
    rw [exists_mem_cons_iff, ← ih fun q hq ↦ h q (mem_cons_of_mem _ hq),
      ← (h p mem_cons_self).nackCovers_iff hc hx hx' hi hi', ← nackCovers_append]
    rfl

/-- The NACKs of a report that was cut short. -/
theorem nackCovers_planWires_iff (hc : c.Sane) (h : ∀ p ∈ plan.1, p.Fits c rn) (hx : rn ≤ x)
    (hx' : x < rn + c.snModulus) (hi : 0 ≤ i) (hi' : i ≤ 0xffff) :
    NackCovers c ((planWires plan).map (nack c)) (x % c.snModulus) i ↔
      (∃ p ∈ plan.1, p.Covers c rn x i) ∨ plan.2 = true ∧ ∃ p, plan.1.getLast? = some p ∧
        ByteLe (p.first c rn) p.missing.soStart x i ∧ x < p.stop c rn := by
  obtain ⟨ps, cut⟩ := plan
  rcases cut with - | -
  · rw [planWires, if_neg Bool.false_ne_true, nackCovers_wires_iff hc h hx hx' hi hi']
    simp
  · rw [planWires, if_pos rfl]
    rcases eq_nil_or_concat ps with rfl | ⟨ps, p, rfl⟩
    · refine iff_of_false (nackCovers_nil _) ?_
      rintro (⟨p, hp, -⟩ | ⟨-, p, hp, -⟩) <;> cases hp
    · rw [concat_eq_append] at h ⊢
      have hp := h p (mem_append_right _ mem_cons_self)
      have hps : ∀ q ∈ ps, q.Fits c rn := fun q hq ↦ h q (mem_append_left _ hq)
      have hforce : forceLast ((ps ++ [p]).map Piece.wire) = ps.map Piece.wire ++ [p.wire.forced] := by
        rw [map_append, map_singleton, forceLast, dropLast_concat, getLast?_concat]
        rfl
      rw [hforce, map_append, map_singleton, nackCovers_append,
        nackCovers_wires_iff hc hps hx hx' hi hi', hp.nackCovers_forced_iff hc hx hx' hi]
      simp only [mem_append, mem_singleton, getLast?_concat, some.injEq, true_and, exists_eq_left']
      constructor
      · rintro (⟨q, hq, hcov⟩ | hforced)
        · exact .inl ⟨q, .inl hq, hcov⟩
        · exact .inr hforced
      · rintro (⟨q, hq | rfl, hcov⟩ | hforced)
        · exact .inl ⟨q, hq, hcov⟩
        · refine .inr ⟨hcov.1, ?_⟩
          have := hcov.2
          rw [ByteLe] at this
          omega
        · exact .inr hforced

/-- ACK_SN is the SN after the last NACK. -/
theorem reportAckSn_eq (hc : c.Sane)
    (hrn : s.rxNext = rn % c.snModulus) (h : ∀ p ∈ plan.1, p.Fits c rn) :
    reportAckSn c s plan =
      ((plan.1.getLast?.map (Piece.stop c rn)).getD rn) % c.snModulus := by
  rw [reportAckSn]
  rcases hlast : plan.1.getLast? with - | p
  · show (snBefore c s.rxNext + 1) % c.snModulus = rn % c.snModulus
    rw [hrn, snBefore_emod, emod_add_emod, sub_add_cancel]
  · have hp := h p (mem_of_getLast? hlast)
    show (p.lastSn + 1) % c.snModulus = (p.first c rn + p.count) % c.snModulus
    rw [Piece.lastSn]
    split
    · rename_i heq
      rw [(hp.snStart_eq_snEnd_iff hc).1 heq, hp.snStart_eq, emod_add_emod]
    · rw [hp.snStart_eq, add_assoc, sub_add_cancel, emod_add_emod]

end Decode

/-! ### In the source's terms -/

/-- The list holds segments of one SDU for each SN, with `len sn` bytes, as a transmitter sends
them. -/
structure FedBySdus (len : ℤ → ℤ) (l : List NrRlcPdu) : Prop where
  len_pos : ∀ sn, 0 < len sn
  len_le : ∀ sn, len sn ≤ 0xffff
  segment : ∀ q ∈ l, IsSegment (len q.sn) q

/-- **The report describes the receiver**, with differences of SNs taken modulo the SN space; `whole`
says that no NACK had to be cut for lack of room. -/
structure Describes (c : AmConfig) (s : AmRx) (len : ℤ → ℤ) (whole : Prop) (ackSn : ℤ)
    (nacks : List Nack) : Prop where
  isSn : IsSn c.snModulus ackSn
  ackSn_le : off c.snModulus s.rxNext ackSn ≤ off c.snModulus s.rxNext s.rxHighestStatus
  covered : ∀ sn i, IsSn c.snModulus sn → 0 ≤ i → i < len sn →
    off c.snModulus s.rxNext sn < off c.snModulus s.rxNext ackSn → ¬HasByte s.rxList sn i →
    NackCovers c nacks sn i
  exact : whole → ∀ sn i, IsSn c.snModulus sn → 0 ≤ i → i < len sn →
    (NackCovers c nacks sn i ↔
      off c.snModulus s.rxNext sn < off c.snModulus s.rxNext ackSn ∧ ¬HasByte s.rxList sn i)
  received : whole → ∀ sn i, IsSn c.snModulus sn → 0 ≤ i → i < len sn →
    off c.snModulus s.rxNext ackSn ≤ off c.snModulus s.rxNext sn →
    off c.snModulus s.rxNext sn < off c.snModulus s.rxNext s.rxHighestStatus →
    HasByte s.rxList sn i

section Describe

variable {s : AmRx} {len : ℤ → ℤ} {rn rh rnh : ℤ}

theorem hasAbs_iff_hasByte (rn : ℤ)
    (hl : ∀ p ∈ l, IsSn c.snModulus p.sn) (hsn : IsSn c.snModulus sn) :
    HasAbs c rn l (lift c.snModulus rn sn) i ↔ HasByte l sn i := by
  constructor
  · rintro ⟨p, hp, heq, hso⟩
    exact ⟨p, hp, (lift_inj (hl p hp).1 (hl p hp).2 hsn.1 hsn.2).1 heq, hso⟩
  · rintro ⟨p, hp, rfl, hso⟩
    exact ⟨p, hp, rfl, hso⟩

theorem RxWindow.scan (hc : c.Sane) (hw : RxWindow c s rn rh rnh) (hfed : FedBySdus len s.rxList) :
    Scan c s len rn rh rnh :=
  ⟨hc, hw.rxNext_eq, hw.rxHighestStatus_eq, hw.rn_le_rh, hw.rh_le_rnh, hw.rnh_lt hc, hfed.len_pos,
    hfed.len_le⟩

/-- The cells of a reachable list are what `next_missing` expects. -/
theorem RxWindow.scanCells (hw : RxWindow c s rn rh rnh) (hr : RxReport c s)
    (hfed : FedBySdus len s.rxList) : ScanCells c len rn rnh s.rxList rn 0 := by
  refine ⟨hw.cells.isSn, hw.cells.below, hw.cells.sorted, hfed.segment,
    fun p hp hnone i hbyte _ ↦ ?_⟩
  have hsn := hw.cells.isSn p hp
  obtain ⟨q, hq, hqsn, hlast, hall⟩ := hr.complete p.sn (hw.cells.processed p hp hnone)
  have hend := (hfed.segment q hq).isLast_iff.1 hlast
  rw [hasAbs_iff_hasByte rn hw.cells.isSn hsn]
  refine hall i hbyte.1 ?_
  have hlt := hbyte.2
  rw [lift_emod, emod_eq_of_lt hsn.1 hsn.2] at hlt
  rw [hend, hqsn]
  exact hlt

/-- An empty list has nothing to report. -/
theorem RxWindow.rh_eq_of_nil (hc : c.Sane) (hw : RxWindow c s rn rh rnh) (hr : RxReport c s)
    (hnil : s.rxList = []) : rh = rn := by
  have h₁ := hw.rn_le_rh
  have h₂ := hw.rh_le_rnh
  have h₃ := hw.rnh_lt hc
  rcases hr.top with heq | ⟨p, hp, -⟩
  · rw [hw.rxNextHighest_eq, hw.rxNext_eq,
      emod_eq_emod_iff_of_lt rn (by omega) h₃ le_rfl (by omega)] at heq
    omega
  · rw [hnil] at hp
    cases hp

theorem reportPlan_reported (hc : c.Sane) (hw : RxWindow c s rn rh rnh) (hr : RxReport c s)
    (hfed : FedBySdus len s.rxList) (size : ℤ) :
    Reported c len rn rh s.rxList rn 0 (reportPlan c s size) := by
  have hscan := hw.scan hc hfed
  have hl := hw.scanCells hr hfed
  rw [reportPlan]
  rcases hlist : s.rxList with - | ⟨cur, rest⟩
  · refine reported_nil fun x i _ hx hle ↦ ?_
    have := hw.rh_eq_of_nil hc hr hlist
    rw [ByteLe] at hle
    omega
  · rw [hlist] at hl
    exact reportPlanLoop_reported hscan size _ hl le_rfl (nextMissing_head hscan hl) (by
      rw [Bool.toNat_true])

/-- Distances from `rx_next`, in absolute numbers. -/
theorem RxPointers.off_eq (hw : RxPointers c s rn rh rnh) (a : ℤ) :
    off c.snModulus s.rxNext a = lift c.snModulus rn a - rn := by
  rw [hw.rxNext_eq, lift, off, off, sub_emod_emod]
  ring

/-- **What is decoded from the report** describes the receiver. -/
theorem describes_planWires (hc : c.Sane) (hw : RxWindow c s rn rh rnh) (hr : RxReport c s)
    (hfed : FedBySdus len s.rxList) (size : ℤ) :
    Describes c s len ((reportPlan c s size).2 = false) (reportAckSn c s (reportPlan c s size))
      ((planWires (reportPlan c s size)).map (nack c)) := by
  have hrep := reportPlan_reported hc hw hr hfed size
  generalize reportPlan c s size = plan at *
  have h₁ := hw.rn_le_rh
  have h₂ := hw.rh_le_rnh
  have h₃ := hw.rnh_lt hc
  have hfits : ∀ p ∈ plan.1, p.Fits c rn := fun p hp ↦ (hrep.fits p hp).1
  -- ACK_SN as an absolute number
  obtain ⟨stop, hack, hrn, hrh, hstop⟩ : ∃ stop, reportAckSn c s plan = stop % c.snModulus ∧
      rn ≤ stop ∧ stop ≤ rh ∧ ((plan.1 = [] ∧ stop = rn) ∨
        ∃ p, plan.1.getLast? = some p ∧ p.stop c rn = stop) := by
    rw [reportAckSn_eq hc hw.rxNext_eq hfits]
    rcases hlast : plan.1.getLast? with - | p
    · exact ⟨rn, rfl, le_rfl, h₁, .inl ⟨getLast?_eq_none_iff.1 hlast, rfl⟩⟩
    · obtain ⟨hp, hle, hstop⟩ := hrep.fits p (mem_of_getLast? hlast)
      have hpos := hp.count_pos
      have heq : p.stop c rn = p.first c rn + p.count := rfl
      exact ⟨p.stop c rn, rfl, by omega, hstop, .inr ⟨p, rfl, rfl⟩⟩
  have hlt : ∀ {x i : ℤ}, (∃ p ∈ plan.1, p.Covers c rn x i) → x < stop := by
    rintro x i ⟨q, hq, -, hle⟩
    rcases hstop with ⟨hnil, -⟩ | ⟨p, hp, rfl⟩
    · rw [hnil] at hq
      cases hq
    · have := hrep.stop_le p hp q hq
      rw [ByteLe] at hle
      omega
  rw [hack]
  have hoff := hw.off_eq
  have hoffAck : off c.snModulus s.rxNext (stop % c.snModulus) = stop - rn := by
    rw [hoff, lift_emod_self hrn (by omega)]
  have hoffHigh : off c.snModulus s.rxNext s.rxHighestStatus = rh - rn := by
    rw [hoff, hw.rxHighestStatus_eq, lift_emod_self h₁ (by omega)]
  -- the byte `i` of `sn`, in absolute numbers
  have habs : ∀ sn i, IsSn c.snModulus sn → 0 ≤ i → i < len sn →
      IsByte c len (lift c.snModulus rn sn) i ∧ ByteLe rn 0 (lift c.snModulus rn sn) i ∧
      (NackCovers c ((planWires plan).map (nack c)) sn i ↔
        (∃ p ∈ plan.1, p.Covers c rn (lift c.snModulus rn sn) i) ∨
          plan.2 = true ∧ ∃ p, plan.1.getLast? = some p ∧
            ByteLe (p.first c rn) p.missing.soStart (lift c.snModulus rn sn) i ∧
            lift c.snModulus rn sn < p.stop c rn) := by
    intro sn i hsn hi hlen
    have hmod : lift c.snModulus rn sn % c.snModulus = sn := by
      rw [lift_emod, emod_eq_of_lt hsn.1 hsn.2]
    have hle := le_lift hc.pos rn sn
    have hmax := hfed.len_le sn
    have hiff := nackCovers_planWires_iff hc hfits hle (lift_lt hc.pos rn sn) hi (by omega)
    rw [hmod] at hiff
    refine ⟨⟨hi, hmod.symm ▸ hlen⟩, ?_, hiff⟩
    rw [ByteLe]
    omega
  refine ⟨isSn_emod hc.pos stop, by omega, ?_, ?_, ?_⟩
  · intro sn i hsn hi hlen hsnlt hnot
    obtain ⟨hbyte, hle, hiff⟩ := habs sn i hsn hi hlen
    rw [← hasAbs_iff_hasByte rn hw.cells.isSn hsn] at hnot
    rw [hoff, hoffAck] at hsnlt
    rw [hiff]
    rcases hstop with ⟨-, rfl⟩ | ⟨p, hp, rfl⟩
    · rw [ByteLe] at hle
      omega
    · rcases hcut : plan.2 with - | -
      · exact .inl (hrep.complete hcut _ i hbyte (by omega) hle hnot)
      · refine (hrep.cut p hp _ i hbyte (by omega) hle hnot).imp_right fun hlast ↦ ?_
        exact ⟨rfl, p, hp, hlast.2, by omega⟩
  · intro hcut sn i hsn hi hlen
    obtain ⟨hbyte, hle, hiff⟩ := habs sn i hsn hi hlen
    rw [← hasAbs_iff_hasByte rn hw.cells.isSn hsn, hiff, hoff, hoffAck, hcut]
    constructor
    · rintro (hp | ⟨hf, -⟩)
      · have := hlt hp
        exact ⟨by omega, (hrep.sound _ i hbyte hp).2⟩
      · cases hf
    · rintro ⟨hsnlt, hnot⟩
      exact .inl (hrep.complete hcut _ i hbyte (by omega) hle hnot)
  · intro hcut sn i hsn hi hlen hge hsnlt
    obtain ⟨hbyte, hle, -⟩ := habs sn i hsn hi hlen
    rw [hoffAck, hoff] at hge
    rw [hoff, hoffHigh] at hsnlt
    rw [← hasAbs_iff_hasByte rn hw.cells.isSn hsn]
    by_contra hnot
    have := hlt (hrep.complete hcut _ i hbyte (by omega) hle hnot)
    omega

end Describe

/-- **The STATUS PDU describes the receiver**, in every state that is reached. -/
theorem statusPdu_describes {p : AmParams} {t : AmTrace}
    (h : (amSystem p.config).Reach (fun _ _ ↦ True) t) {len : ℤ → ℤ}
    (hfed : FedBySdus len t.entity.rx.rxList) {size : ℤ} (hsize : 3 ≤ size) :
    ∃ pdu ackSn nacks, statusPdu p.config t.entity.rx size = some pdu ∧
      decodeControl p.config pdu = some (ackSn, nacks) ∧
      Describes p.config t.entity.rx len ((reportPlan p.config t.entity.rx size).2 = false) ackSn
        nacks := by
  have hc := p.sane
  obtain ⟨rn, rh, rnh, hw, -⟩ := rxInv_of_reach hc h
  obtain ⟨pdu, hpdu, hbits⟩ := bitsOf_statusPdu hc t.entity.rx hsize
  have hdec := decodeControl_of_bits hc (toNat_reportAckSn_lt hc _ _) hbits
  have hdesc := describes_planWires hc hw (rxReport_of_reach hc h) hfed size
  refine ⟨pdu, _, _, hpdu, hdec, ?_⟩
  rwa [toNat_of_nonneg hdesc.isSn.1]

/-- SN 0 is missing, SN 1 is delivered, and `t_reassembly` expires. -/
def gapReported : List AmOp := [.setTime 1, .recvPdu [0x80, 1, 0xaa], .setTime 37]

/-- The report of that state: ACK_SN is 1, and SN 0 is not acknowledged. -/
theorem statusPdu_describes_gap :
    ∃ t, (amSystem shortSnParams.config).Reach (fun _ _ ↦ True) t ∧
      FedBySdus (fun _ ↦ 1) t.entity.rx.rxList ∧
      statusPdu shortSnParams.config t.entity.rx 10 = some [0, 1, 128, 0, 0] ∧
      ∃ pdu ackSn nacks, statusPdu shortSnParams.config t.entity.rx 10 = some pdu ∧
        decodeControl shortSnParams.config pdu = some (ackSn, nacks) ∧
        Describes shortSnParams.config t.entity.rx (fun _ ↦ 1)
          ((reportPlan shortSnParams.config t.entity.rx 10).2 = false) ackSn nacks :=
  have h := (amSystem shortSnParams.config).reach_get_exec (fun _ _ ↦ True) gapReported
    (by decide)
  have hfed : FedBySdus (fun _ ↦ 1) _ := ⟨fun _ ↦ one_pos, fun _ ↦ by decide, by decide⟩
  ⟨_, h, hfed, by decide, statusPdu_describes h hfed (by decide)⟩

end OaiRan.Rlc.Am
