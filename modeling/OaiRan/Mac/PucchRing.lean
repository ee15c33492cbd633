import Mathlib.Data.Nat.Log
import Mathlib.Data.Fintype.Basic
import OaiRan.Lib.RingIndex

/-!
# The ring of PUCCH structures

A UE's PUCCH structures stand in a ring, one for each uplink slot of some TDD periods, as many as the
feedback time asks for, rounded up to a power of two (`set_sched_pucch_list`). `get_pucch_index`
counts the uplink slots since frame 0. In periods and slots of a period, the entry of an uplink slot
is its period in the ring, and its place in the period (`pucchIndexAt_eq`); the frame number starts
anew after 1024 frames, so that **the power of two has to divide the number of periods of 1024
frames, or two slots on both sides of the wrap may share an entry**.

## Main results

* `noAliasing_iff`: exactly when two uplink slots no further apart than the feedback time have
  different entries. It rests on the ring arithmetic of `RingIndex.distinct_iff`, used at whole
  periods (`noAliasing_iff_distinct`).
* `noAliasing_of_ssb_le_scs`: the feedback times and offsets of RRC, with an SSB of at most the
  numerology of the uplink, all meet that condition. The offset is shifted by the numerology of the
  SSB, so that the ring never has more periods than the largest power of two in those of 1024 frames
  (`two_pow_dvd`).
* `mixedScs_aliases`: with an SSB of a higher numerology two slots share an entry.
-/

namespace OaiRan.Mac

open Nat

def nrSlotsPerFrame (scs : Fin 5) : ℕ := [10, 20, 40, 80, 160].getD scs 0

/-- `get_nb_periods_per_frame`, for the periodicities that it knows. -/
def getNbPeriodsPerFrame (tddPeriod : Fin 8) : ℕ := [20, 16, 10, 8, 5, 4, 2, 1].getD tddPeriod 0

/-- `NR_TDD_UL_DL_Pattern_t`. -/
structure TddUlDlPattern where
  dlUlTransmissionPeriodicity : Fin 8
  (nrofDownlinkSlots nrofDownlinkSymbols nrofUplinkSlots nrofUplinkSymbols : ℕ)

def getFirstUlSlot (nrofDownlinkSlots nrofDownlinkSymbols nrofUplinkSymbols : ℕ) : ℕ :=
  nrofDownlinkSlots + if nrofDownlinkSymbols ≠ 0 ∧ nrofUplinkSymbols = 0 then 1 else 0

section Period

variable (nSlotsFrame : ℕ) (tdd : Option TddUlDlPattern)

def firstUlSlotPeriod : ℕ :=
  match tdd with
  | some p => getFirstUlSlot p.nrofDownlinkSlots p.nrofDownlinkSymbols p.nrofUplinkSymbols
  | none => 0

def nUlSlotsPeriod : ℕ :=
  match tdd with
  | some p => p.nrofUplinkSlots + if p.nrofUplinkSymbols > 0 then 1 else 0
  | none => nSlotsFrame

def nrSlotsPeriod : ℕ :=
  match tdd with
  | some p => nSlotsFrame / getNbPeriodsPerFrame p.dlUlTransmissionPeriodicity
  | none => nSlotsFrame

def getPucchIndex (frame slot schedPucchSize : ℕ) : ℤ :=
  let nUlSlotsFrame := nSlotsFrame / nrSlotsPeriod nSlotsFrame tdd * nUlSlotsPeriod nSlotsFrame tdd
  let frameStart : ℕ := frame * nUlSlotsFrame
  let ulPeriodStart : ℕ := slot / nrSlotsPeriod nSlotsFrame tdd * nUlSlotsPeriod nSlotsFrame tdd
  let ulPeriodSlot : ℤ := (slot % nrSlotsPeriod nSlotsFrame tdd : ℕ) - (firstUlSlotPeriod tdd : ℤ)
  (frameStart + ulPeriodStart + ulPeriodSlot).tmod schedPucchSize

/-- The binary logarithm of the number of periods in the list of `set_sched_pucch_list`. -/
def listShift (maxFbTime koffset : ℕ) : ℕ :=
  clog 2 ((maxFbTime + koffset) / nrSlotsPeriod nSlotsFrame tdd + 1)

/-- `list_size` in `set_sched_pucch_list`. -/
def listSize (maxFbTime koffset : ℕ) : ℕ :=
  nUlSlotsPeriod nSlotsFrame tdd <<< listShift nSlotsFrame tdd maxFbTime koffset

end Period

/-- `set_max_fb_time`: the list of feedback times, if it is used. -/
def setMaxFbTime (dlDataToUlAck : Option (List ℕ)) : ℕ := (dlDataToUlAck.getD []).foldl max 8

def getNtnKoffset (cellSpecificKoffset : Option ℕ) (ssbSubcarrierSpacing : ℕ) : ℕ :=
  match cellSpecificKoffset with
  | some k => k <<< ssbSubcarrierSpacing
  | none => 0

/-! ### Uplink slots -/

/-- The slots of the pattern make up its period. -/
def TddUlDlPattern.Fills (p : TddUlDlPattern) (period : ℕ) : Prop :=
  p.nrofDownlinkSlots + p.nrofUplinkSlots +
    (if 0 < p.nrofDownlinkSymbols ∨ 0 < p.nrofUplinkSymbols then 1 else 0) = period

/-- A numerology with a TDD pattern, or FDD. -/
structure SlotConfig where
  scs : Fin 5
  tdd : Option TddUlDlPattern
  fills : ∀ p ∈ tdd, p.Fills (nrSlotsPeriod (nrSlotsPerFrame scs) tdd)
  period_pos : 0 < nrSlotsPeriod (nrSlotsPerFrame scs) tdd

namespace SlotConfig

variable (c : SlotConfig)

def slotsFrame : ℕ := nrSlotsPerFrame c.scs

def slotsPeriod : ℕ := nrSlotsPeriod c.slotsFrame c.tdd

def ulSlotsPeriod : ℕ := nUlSlotsPeriod c.slotsFrame c.tdd

def firstUlSlot : ℕ := firstUlSlotPeriod c.tdd

def periodsFrame : ℕ := c.slotsFrame / c.slotsPeriod

/-- **The uplink slots**: the last slots of the period, and the mixed slot if it has uplink
symbols. Slots are counted from some start of frame 0 on. -/
def IsUplink (t : ℕ) : Prop :=
  match c.tdd with
  | some p => c.slotsPeriod ≤ t % c.slotsPeriod + p.nrofUplinkSlots ∨
      (t % c.slotsPeriod = p.nrofDownlinkSlots ∧ 0 < p.nrofUplinkSymbols)
  | none => True

/-- The entry of a slot in a ring of some size. -/
def pucchIndexAt (size t : ℕ) : ℤ :=
  getPucchIndex c.slotsFrame c.tdd (t / c.slotsFrame % 1024) (t % c.slotsFrame) size

/-- **No aliasing**: the entries of uplink slots are in range, and those of two slots that are no
further apart than the feedback time are different. -/
def NoAliasing (maxFbTime koffset : ℕ) : Prop :=
  let size := listSize c.slotsFrame c.tdd maxFbTime koffset
  (∀ t, c.IsUplink t → 0 ≤ c.pucchIndexAt size t ∧ c.pucchIndexAt size t < size) ∧
    ∀ t t', c.IsUplink t → c.IsUplink t' → t < t' → t' ≤ t + (maxFbTime + koffset) →
      c.pucchIndexAt size t ≠ c.pucchIndexAt size t'

theorem periods_dvd : ∀ (scs : Fin 5) (tddPeriod : Fin 8),
    0 < nrSlotsPerFrame scs / getNbPeriodsPerFrame tddPeriod →
      nrSlotsPerFrame scs / getNbPeriodsPerFrame tddPeriod ∣ nrSlotsPerFrame scs := by
  decide

variable {c} {t t' size k maxFbTime koffset : ℕ}

theorem slotsPeriod_pos : 0 < c.slotsPeriod := c.period_pos

/-- A frame is a number of periods. -/
theorem slotsFrame_eq : c.slotsFrame = c.slotsPeriod * c.periodsFrame := by
  refine (Nat.mul_div_cancel' ?_).symm
  have hpos := c.period_pos
  rcases htdd : c.tdd with - | p
  · rw [slotsPeriod, htdd]
    exact dvd_rfl
  · rw [htdd] at hpos
    rw [slotsPeriod, htdd]
    exact periods_dvd c.scs p.dlUlTransmissionPeriodicity hpos

/-- The slots of a period before the first uplink slot, and the uplink slots. -/
theorem first_add_ul : c.firstUlSlot + c.ulSlotsPeriod = c.slotsPeriod := by
  have hfills := c.fills
  rcases htdd : c.tdd with - | p
  · rw [firstUlSlot, ulSlotsPeriod, slotsPeriod, htdd]
    exact zero_add _
  · have hp := hfills p htdd
    rw [htdd] at hp
    rw [firstUlSlot, ulSlotsPeriod, slotsPeriod, htdd]
    change getFirstUlSlot _ _ _ + (p.nrofUplinkSlots + _) = nrSlotsPeriod _ _
    rw [getFirstUlSlot, slotsFrame, ← hp]
    split <;> split <;> split <;> omega

/-- The uplink slots are those from the first one on. -/
theorem isUplink_iff : c.IsUplink t ↔ c.firstUlSlot ≤ t % c.slotsPeriod := by
  have hsum := c.first_add_ul
  rw [IsUplink]
  rcases htdd : c.tdd with - | p
  · rw [firstUlSlot, htdd]
    exact ⟨fun _ ↦ zero_le _, fun _ ↦ trivial⟩
  · have hul : c.ulSlotsPeriod = p.nrofUplinkSlots + if p.nrofUplinkSymbols > 0 then 1 else 0 := by
      rw [ulSlotsPeriod, htdd]
      rfl
    have hfirst : c.firstUlSlot = p.nrofDownlinkSlots +
        if p.nrofDownlinkSymbols ≠ 0 ∧ p.nrofUplinkSymbols = 0 then 1 else 0 := by
      rw [firstUlSlot, htdd]
      rfl
    split at hul <;> split at hfirst <;> omega

theorem IsUplink.place_lt (h : c.IsUplink t) :
    t % c.slotsPeriod - c.firstUlSlot < c.ulSlotsPeriod := by
  have hsum := c.first_add_ul
  have hfirst := isUplink_iff.1 h
  have hlt := mod_lt t c.slotsPeriod_pos
  omega

/-- The period of a slot, counted in 1024 frames. -/
theorem period_eq (t : ℕ) :
    t / c.slotsFrame % 1024 * c.periodsFrame + t % c.slotsFrame / c.slotsPeriod =
      t / c.slotsPeriod % (c.periodsFrame * 1024) := by
  have hpos := c.slotsPeriod_pos
  have hframe : 0 < c.slotsFrame := by
    exact (show ∀ scs, 0 < nrSlotsPerFrame scs by decide) c.scs
  have hlt : t % c.slotsFrame / c.slotsPeriod < c.periodsFrame :=
    Nat.div_lt_of_lt_mul (c.slotsFrame_eq ▸ Nat.mod_lt t hframe)
  have hdiv : t / c.slotsPeriod =
      t / c.slotsFrame * c.periodsFrame + t % c.slotsFrame / c.slotsPeriod := by
    conv_lhs => rw [← div_add_mod t c.slotsFrame, c.slotsFrame_eq, mul_assoc]
    rw [mul_add_div hpos, mul_comm c.periodsFrame, ← c.slotsFrame_eq]
  rw [hdiv, RingIndex.mul_add_mod hlt]

/-- **The entry of an uplink slot**: its period in the ring, and its place in the period. -/
theorem pucchIndexAt_eq (h : c.IsUplink t) :
    c.pucchIndexAt (c.ulSlotsPeriod * k) t =
      ((t / c.slotsPeriod % (c.periodsFrame * 1024) % k * c.ulSlotsPeriod +
        (t % c.slotsPeriod - c.firstUlSlot) : ℕ) : ℤ) := by
  have hslot : t % c.slotsFrame % c.slotsPeriod = t % c.slotsPeriod :=
    mod_mod_of_dvd t ⟨_, c.slotsFrame_eq⟩
  rw [← RingIndex.mul_add_mod h.place_lt, ← c.period_eq t, add_mul, mul_assoc]
  show Int.tmod (((_ * (c.periodsFrame * c.ulSlotsPeriod) : ℕ) : ℤ) +
    ((t % c.slotsFrame / c.slotsPeriod * c.ulSlotsPeriod : ℕ) : ℤ) +
    ((t % c.slotsFrame % c.slotsPeriod : ℕ) - (c.firstUlSlot : ℤ))) _ = _
  rw [hslot, ← Int.natCast_sub (isUplink_iff.1 h), ← Int.natCast_add, ← Int.natCast_add,
    ← Int.ofNat_tmod]

theorem listSize_eq : listSize c.slotsFrame c.tdd maxFbTime koffset =
    c.ulSlotsPeriod * 2 ^ listShift c.slotsFrame c.tdd maxFbTime koffset :=
  shiftLeft_eq _ _

theorem lt_two_pow_listShift : (maxFbTime + koffset) / c.slotsPeriod <
    2 ^ listShift c.slotsFrame c.tdd maxFbTime koffset :=
  le_pow_clog (by decide) _

/-- Two entries are the same if their periods have the same place in the ring, and the slots the
same place in their periods. -/
theorem pucchIndexAt_eq_iff (h : c.IsUplink t) (h' : c.IsUplink t') :
    c.pucchIndexAt (c.ulSlotsPeriod * k) t = c.pucchIndexAt (c.ulSlotsPeriod * k) t' ↔
      t / c.slotsPeriod % (c.periodsFrame * 1024) % k =
        t' / c.slotsPeriod % (c.periodsFrame * 1024) % k ∧
      t % c.slotsPeriod = t' % c.slotsPeriod := by
  have hfirst := isUplink_iff.1 h
  have hfirst' := isUplink_iff.1 h'
  rw [pucchIndexAt_eq h, pucchIndexAt_eq h', Int.natCast_inj,
    RingIndex.mul_add_inj h.place_lt h'.place_lt]
  refine and_congr_right fun _ ↦ ?_
  omega

theorem pucchIndexAt_mem (h : c.IsUplink t) (hk : 0 < k) :
    0 ≤ c.pucchIndexAt (c.ulSlotsPeriod * k) t ∧
      c.pucchIndexAt (c.ulSlotsPeriod * k) t < (c.ulSlotsPeriod * k : ℕ) := by
  have hpos : 0 < c.ulSlotsPeriod := zero_lt_of_lt h.place_lt
  rw [pucchIndexAt_eq h, ← RingIndex.mul_add_mod h.place_lt]
  exact ⟨Int.natCast_nonneg _, Int.ofNat_lt.2 (mod_lt _ (mul_pos hpos hk))⟩

/-! ### The wrap of the frame number -/

/-- Aliasing is a matter of whole periods. -/
theorem noAliasing_iff_distinct (hul : 0 < c.ulSlotsPeriod) :
    c.NoAliasing maxFbTime koffset ↔
      RingIndex.Distinct (c.periodsFrame * 1024) (2 ^ listShift c.slotsFrame c.tdd maxFbTime koffset)
        ((maxFbTime + koffset) / c.slotsPeriod) := by
  have hsum := c.first_add_ul
  have hpos := c.slotsPeriod_pos
  rw [NoAliasing, listSize_eq]
  constructor
  · rintro ⟨-, h⟩ a b hab hle heq
    -- the first uplink slots of the two periods
    have hmod : ∀ q, (c.slotsPeriod * q + c.firstUlSlot) % c.slotsPeriod = c.firstUlSlot := by
      intro q
      rw [Nat.mul_add_mod, Nat.mod_eq_of_lt (by omega)]
    have hdiv : ∀ q, (c.slotsPeriod * q + c.firstUlSlot) / c.slotsPeriod = q := by
      intro q
      rw [Nat.mul_add_div hpos, Nat.div_eq_of_lt (by omega), Nat.add_zero]
    have hulslot : ∀ q, c.IsUplink (c.slotsPeriod * q + c.firstUlSlot) :=
      fun q ↦ isUplink_iff.2 (hmod q).ge
    have hapart : c.slotsPeriod * b ≤ c.slotsPeriod * a + (maxFbTime + koffset) := by
      have hmul := Nat.mul_le_mul_left c.slotsPeriod hle
      have := Nat.mul_div_le (maxFbTime + koffset) c.slotsPeriod
      rw [Nat.mul_add] at hmul
      omega
    have hlt := Nat.mul_lt_mul_of_pos_left hab hpos
    refine h _ _ (hulslot a) (hulslot b) (by omega) (by omega) ?_
    rw [pucchIndexAt_eq_iff (hulslot a) (hulslot b), hdiv, hdiv, hmod, hmod]
    exact ⟨heq, rfl⟩
  · intro h
    refine ⟨fun t ht ↦ pucchIndexAt_mem ht (Nat.two_pow_pos _), fun t t' ht ht' hlt hle heq ↦ ?_⟩
    obtain ⟨hperiod, hplace⟩ := (pucchIndexAt_eq_iff ht ht').1 heq
    have hda := Nat.div_add_mod t c.slotsPeriod
    have hdb := Nat.div_add_mod t' c.slotsPeriod
    have hmul : c.slotsPeriod * (t / c.slotsPeriod) < c.slotsPeriod * (t' / c.slotsPeriod) := by
      omega
    have hbefore := Nat.lt_of_mul_lt_mul_left hmul
    refine h _ _ hbefore ?_ hperiod
    rw [← Nat.sub_le_iff_le_add', Nat.le_div_iff_mul_le hpos, Nat.mul_comm, Nat.mul_sub]
    omega

theorem noAliasing_of_no_uplink (hul : c.ulSlotsPeriod = 0) : c.NoAliasing maxFbTime koffset := by
  have hsum := c.first_add_ul
  have hno : ∀ t, ¬c.IsUplink t := by
    intro t ht
    have hfirst := isUplink_iff.1 ht
    have hlt := mod_lt t c.slotsPeriod_pos
    omega
  exact ⟨fun t ht ↦ absurd ht (hno t), fun t _ ht _ _ _ ↦ absurd ht (hno t)⟩

/-- **The ring of PUCCH structures has no aliasing** if and only if there is no uplink slot, or the
periods of the ring divide those of 1024 frames, or leave more of them over than the feedback time
takes. -/
theorem noAliasing_iff (c : SlotConfig) (maxFbTime koffset : ℕ) :
    c.NoAliasing maxFbTime koffset ↔
      c.ulSlotsPeriod = 0 ∨
      c.periodsFrame * 1024 % 2 ^ listShift c.slotsFrame c.tdd maxFbTime koffset = 0 ∨
      (maxFbTime + koffset) / c.slotsPeriod <
        c.periodsFrame * 1024 % 2 ^ listShift c.slotsFrame c.tdd maxFbTime koffset := by
  rcases Nat.eq_zero_or_pos c.ulSlotsPeriod with hul | hul
  · exact iff_of_true (noAliasing_of_no_uplink hul) (.inl hul)
  · rw [noAliasing_iff_distinct hul, RingIndex.distinct_iff lt_two_pow_listShift]
    exact ⟨.inr, fun h ↦ h.resolve_left hul.ne'⟩

/-! ### Feedback times and offsets -/

/-- What RRC configures: feedback times of up to 15 slots and a cell offset of up to 1023. -/
structure FeedbackConfig where
  dlDataToUlAck : Option (List ℕ)
  cellSpecificKoffset : Option ℕ
  le_fifteen : ∀ ks ∈ dlDataToUlAck, ∀ k ∈ ks, k ≤ 15
  koffset_le : ∀ k ∈ cellSpecificKoffset, k ≤ 1023

variable {f : FeedbackConfig} {ssbSubcarrierSpacing : ℕ}

theorem setMaxFbTime_le : setMaxFbTime f.dlDataToUlAck ≤ 15 := by
  have hle := f.le_fifteen
  rcases htimes : f.dlDataToUlAck with - | ks
  · decide
  · exact List.foldlRecOn ks max (motive := (· ≤ 15)) (by decide)
      fun m hm k hk ↦ max_le hm (hle ks htimes k hk)

theorem getNtnKoffset_le (hssb : ssbSubcarrierSpacing ≤ c.scs) :
    getNtnKoffset f.cellSpecificKoffset ssbSubcarrierSpacing ≤ 1023 * 2 ^ (c.scs : ℕ) := by
  have hle := f.koffset_le
  rcases hoffset : f.cellSpecificKoffset with - | k
  · exact zero_le _
  · rw [getNtnKoffset, shiftLeft_eq]
    exact Nat.mul_le_mul (hle k hoffset) (Nat.pow_le_pow_right two_pos hssb)

/-- **The longest feedback time makes a ring that divides 1024 frames**, with any period and without
TDD, where the period is a frame. -/
theorem longest_dvd (scs : Fin 5) :
    (∀ tddPeriod : Fin 8, let period := nrSlotsPerFrame scs / getNbPeriodsPerFrame tddPeriod
      0 < period → 2 ^ clog 2 ((15 + 1023 * 2 ^ (scs : ℕ)) / period + 1) ∣
        nrSlotsPerFrame scs / period * 1024) ∧
    2 ^ clog 2 ((15 + 1023 * 2 ^ (scs : ℕ)) / nrSlotsPerFrame scs + 1) ∣
      nrSlotsPerFrame scs / nrSlotsPerFrame scs * 1024 := by
  revert scs
  decide

/-- A shorter one makes a smaller ring, whose size is a smaller power of two. -/
theorem two_pow_dvd (hle : maxFbTime + koffset ≤ 15 + 1023 * 2 ^ (c.scs : ℕ)) :
    2 ^ listShift c.slotsFrame c.tdd maxFbTime koffset ∣ c.periodsFrame * 1024 := by
  have hshift : listShift c.slotsFrame c.tdd maxFbTime koffset ≤
      clog 2 ((15 + 1023 * 2 ^ (c.scs : ℕ)) / c.slotsPeriod + 1) :=
    clog_mono_right 2 (succ_le_succ (Nat.div_le_div_right hle))
  refine (Nat.pow_dvd_pow 2 hshift).trans ?_
  have hpos := c.period_pos
  rcases htdd : c.tdd with - | p
  · rw [periodsFrame, slotsPeriod, htdd]
    exact (longest_dvd c.scs).2
  · rw [htdd] at hpos
    rw [periodsFrame, slotsPeriod, htdd]
    exact (longest_dvd c.scs).1 p.dlUlTransmissionPeriodicity hpos

/-- **What RRC configures has no aliasing** for an SSB of at most the numerology of the uplink. -/
theorem noAliasing_of_ssb_le_scs (c : SlotConfig) (f : FeedbackConfig)
    (hssb : ssbSubcarrierSpacing ≤ c.scs) :
    c.NoAliasing (setMaxFbTime f.dlDataToUlAck)
      (getNtnKoffset f.cellSpecificKoffset ssbSubcarrierSpacing) := by
  have htime := @setMaxFbTime_le f
  have hoffset := @getNtnKoffset_le c f ssbSubcarrierSpacing hssb
  refine (noAliasing_iff ..).2 (.inr (.inl (Nat.mod_eq_zero_of_dvd (two_pow_dvd ?_))))
  omega

/-- An uplink of 60 kHz, with a period of one downlink and one uplink slot. -/
def mixedScs : SlotConfig where
  scs := 2
  tdd := some ⟨0, 1, 0, 1, 0⟩
  fills p hp := by
    cases hp
    rfl
  period_pos := by decide

/-- The longest feedback time and the largest offset. -/
def FeedbackConfig.longest : FeedbackConfig where
  dlDataToUlAck := some [15]
  cellSpecificKoffset := some 1023
  le_fifteen ks hks := by
    cases hks
    decide
  koffset_le k hk := (Option.mem_some.1 hk).ge

/-- With an SSB of 60 kHz too. -/
theorem longest_noAliasing : (2 : ℕ) ≤ mixedScs.scs ∧
    mixedScs.NoAliasing (setMaxFbTime (some [15])) (getNtnKoffset (some 1023) 2) :=
  ⟨by decide, noAliasing_of_ssb_le_scs mixedScs .longest (by decide)⟩

/-- **Two uplink slots share an entry** when the SSB has 120 kHz: slot 9 of frame 819 and slot 1 of
frame 0 after the wrap, 8192 slots later. -/
theorem mixedScs_aliases :
    let maxFbTime := setMaxFbTime (some [15])
    let koffset := getNtnKoffset (some 1023) 3
    let size := listSize mixedScs.slotsFrame mixedScs.tdd maxFbTime koffset
    32769 + 8192 ≤ 32769 + (maxFbTime + koffset) ∧
      mixedScs.firstUlSlot ≤ 32769 % mixedScs.slotsPeriod ∧
      mixedScs.firstUlSlot ≤ (32769 + 8192) % mixedScs.slotsPeriod ∧
      mixedScs.pucchIndexAt size 32769 = mixedScs.pucchIndexAt size (32769 + 8192) ∧
      ¬mixedScs.NoAliasing maxFbTime koffset := by
  refine ⟨by decide, by decide, by decide, by decide, fun h ↦ ?_⟩
  exact h.2 32769 (32769 + 8192) (isUplink_iff.2 (by decide)) (isUplink_iff.2 (by decide))
    (by decide) (by decide) (by decide)

end SlotConfig

end OaiRan.Mac
