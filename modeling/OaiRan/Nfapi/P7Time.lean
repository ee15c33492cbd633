import OaiRan.Nfapi.P7Segment

/-!
# Elapsed times of P7

Instants are packed into 12 bits of seconds and 20 bits of microseconds, so that a second counts
2²⁰ units. `get_slot_time` means to add a second when the microseconds have wrapped, but it compares
the microseconds of the start **with the whole of the packed present**: the branch is never taken
(`getSlotTime_of_le`). Elapsed times are right within a second and never beyond it
(`elapsedTimesRight_iff`).
-/

namespace OaiRan.Nfapi

open Nat

/-- `struct timeval`. -/
structure Timeval where
  (tvSec tvUsec : ℕ)
  tvUsec_lt : tvUsec < 1000000

/-- The instant in microseconds. -/
def Timeval.micros (t : Timeval) : ℕ := t.tvSec * 1000000 + t.tvUsec

def time2Timehr (t : Timeval) : UInt32 :=
  (UInt32.ofNat t.tvSec &&& 0xFFF) <<< 20 ||| (UInt32.ofNat t.tvUsec &&& 0xFFFFF)

def timehrUsec (timeHr : UInt32) : UInt32 := timeHr &&& 0xFFFFF

/-- What `get_slot_time` adds when it finds that the microseconds have wrapped. -/
def P7Node.wrapUs : P7Node → UInt32
  | .vnf => 1000000
  | .pnf => 500000

def P7Node.getSlotTime (node : P7Node) (nowHr slotStartHr : UInt32) : UInt32 :=
  if nowHr < slotStartHr then 0
  else
    let nowUs := timehrUsec nowHr
    let slotStartUs := timehrUsec slotStartHr
    let nowUs := if nowHr < slotStartUs then nowUs + node.wrapUs else nowUs
    nowUs - slotStartUs

theorem toNat_time2Timehr (t : Timeval) :
    (time2Timehr t).toNat = 2 ^ 20 * (t.tvSec % 2 ^ 12) + t.tvUsec := by
  have husec := t.tvUsec_lt
  have hsec : t.tvSec % 2 ^ 32 % 2 ^ 12 = t.tvSec % 2 ^ 12 :=
    Nat.mod_mod_of_dvd _ (Nat.pow_dvd_pow 2 (by decide))
  rw [time2Timehr, UInt32.toNat_or, UInt32.toNat_shiftLeft, UInt32.toNat_and, UInt32.toNat_and,
    UInt32.toNat_ofNat', UInt32.toNat_ofNat']
  show ((t.tvSec % 2 ^ 32 &&& (2 ^ 12 - 1)) <<< 20 % 2 ^ 32 |||
    (t.tvUsec % 2 ^ 32 &&& (2 ^ 20 - 1))) = _
  rw [and_two_pow_sub_one_eq_mod, and_two_pow_sub_one_eq_mod, shiftLeft_eq, hsec,
    mul_comm, mod_eq_of_lt (show 2 ^ 20 * (t.tvSec % 2 ^ 12) < 2 ^ 32 by omega),
    mod_eq_of_lt (show t.tvUsec < 2 ^ 32 by omega),
    mod_eq_of_lt (show t.tvUsec < 2 ^ 20 by omega), two_pow_add_eq_or_of_lt (by omega)]

theorem toNat_timehrUsec (timeHr : UInt32) : (timehrUsec timeHr).toNat = timeHr.toNat % 2 ^ 20 := by
  exact and_two_pow_sub_one_eq_mod _ 20

theorem toNat_timehrUsec_time2Timehr (t : Timeval) :
    (timehrUsec (time2Timehr t)).toNat = t.tvUsec := by
  have husec := t.tvUsec_lt
  rw [toNat_timehrUsec, toNat_time2Timehr, mul_add_mod]
  exact mod_eq_of_lt (by omega)

/-- **A wrap of the microseconds is never found.** -/
theorem getSlotTime_of_le (node : P7Node) (h : slotStartHr ≤ nowHr) :
    node.getSlotTime nowHr slotStartHr = timehrUsec nowHr - timehrUsec slotStartHr := by
  have hle : timehrUsec slotStartHr ≤ nowHr := by
    rw [UInt32.le_iff_toNat_le, toNat_timehrUsec] at *
    exact (mod_le _ _).trans h
  rw [P7Node.getSlotTime, if_neg (UInt32.not_lt.2 h)]
  dsimp only
  rw [if_neg (UInt32.not_lt.2 hle)]

/-- An instant at `t₁` is told from one at `t₀` rightly: `get_slot_time` gives what has elapsed, and
the sweep removes a message received at `t₀` exactly if that is more than 1000 microseconds. -/
def ElapsedTimesRight (t₀ t₁ : Timeval) : Prop :=
  (∀ node : P7Node, (node.getSlotTime (time2Timehr t₁) (time2Timehr t₀)).toNat =
    t₁.micros - t₀.micros) ∧
  ∀ (queue : List RxMessage), ∀ msg ∈ queue, msg.rxHrTime = time2Timehr t₀ →
    (msg ∉ rxReassemblyQueueRemoveOldMsgs queue (time2Timehr t₁) ↔ 1000 < t₁.micros - t₀.micros)

theorem not_mem_removeOldMsgs (hmem : msg ∈ queue) (now : UInt32) :
    msg ∉ rxReassemblyQueueRemoveOldMsgs queue now ↔ 1000 < (now - msg.rxHrTime).toNat := by
  simp [rxReassemblyQueueRemoveOldMsgs, hmem, stale, UInt32.lt_iff_toNat_lt]

theorem elapsedTimesRight_of_tvSec_eq (hle : t₀.micros ≤ t₁.micros)
    (hsec : t₀.tvSec = t₁.tvSec) : ElapsedTimesRight t₀ t₁ := by
  have husec : t₀.tvUsec ≤ t₁.tvUsec := by
    rw [Timeval.micros, Timeval.micros, hsec] at hle
    exact Nat.le_of_add_le_add_left hle
  have helapsed : t₁.micros - t₀.micros = t₁.tvUsec - t₀.tvUsec := by
    rw [Timeval.micros, Timeval.micros, hsec, Nat.add_sub_add_left]
  have hpacked : time2Timehr t₀ ≤ time2Timehr t₁ := by
    rw [UInt32.le_iff_toNat_le, toNat_time2Timehr, toNat_time2Timehr, hsec]
    exact Nat.add_le_add_left husec _
  rw [ElapsedTimesRight, helapsed]
  refine ⟨fun node ↦ ?_, fun queue msg hmem htime ↦ ?_⟩
  · rw [getSlotTime_of_le node hpacked, UInt32.toNat_sub_of_le, toNat_timehrUsec_time2Timehr,
      toNat_timehrUsec_time2Timehr]
    rwa [UInt32.le_iff_toNat_le, toNat_timehrUsec_time2Timehr, toNat_timehrUsec_time2Timehr]
  · rw [not_mem_removeOldMsgs hmem, htime, UInt32.toNat_sub_of_le _ _ hpacked, toNat_time2Timehr,
      toNat_time2Timehr, hsec, Nat.add_sub_add_left]

/-- Beyond a second the microseconds are subtracted modulo 2³², or 0 is returned. -/
theorem getSlotTime_ne_of_tvSec_ne (node : P7Node)
    (hle : t₀.micros ≤ t₁.micros) (hsec : t₀.tvSec ≠ t₁.tvSec) :
    (node.getSlotTime (time2Timehr t₁) (time2Timehr t₀)).toNat ≠ t₁.micros - t₀.micros := by
  have husec₀ := t₀.tvUsec_lt
  have husec₁ := t₁.tvUsec_lt
  rw [Timeval.micros, Timeval.micros] at hle ⊢
  rcases UInt32.lt_or_le (time2Timehr t₁) (time2Timehr t₀) with hpacked | hpacked
  · -- the seconds have wrapped, too
    rw [P7Node.getSlotTime, if_pos hpacked]
    show 0 ≠ _
    omega
  · rw [getSlotTime_of_le node hpacked, UInt32.toNat_sub, toNat_timehrUsec_time2Timehr,
      toNat_timehrUsec_time2Timehr]
    omega

/-- **Elapsed times are right exactly if both instants lie in one second.** -/
theorem elapsedTimesRight_iff {t₀ t₁ : Timeval} (hle : t₀.micros ≤ t₁.micros) :
    ElapsedTimesRight t₀ t₁ ↔ t₀.tvSec = t₁.tvSec := by
  refine ⟨fun h ↦ ?_, elapsedTimesRight_of_tvSec_eq hle⟩
  by_contra hsec
  exact getSlotTime_ne_of_tvSec_ne .vnf hle hsec (h.1 .vnf)

theorem half_second_elapsedTimesRight : ElapsedTimesRight ⟨4095, 250000, by decide⟩
    ⟨4095, 750000, by decide⟩ :=
  (elapsedTimesRight_iff (by decide)).2 rfl

/-- **One microsecond, across the end of a second**: 4293967297 are returned, and a message received
at the first instant is removed at the second. -/
theorem one_microsecond_not_elapsedTimesRight :
    P7Node.vnf.getSlotTime (time2Timehr ⟨1, 0, by decide⟩) (time2Timehr ⟨0, 999999, by decide⟩) =
        4293967297 ∧
      stale (time2Timehr ⟨1, 0, by decide⟩) (time2Timehr ⟨0, 999999, by decide⟩) = true ∧
      ¬ ElapsedTimesRight ⟨0, 999999, by decide⟩ ⟨1, 0, by decide⟩ :=
  ⟨by decide, by decide, fun h ↦ getSlotTime_ne_of_tvSec_ne .vnf (by decide) (by decide)
    (h.1 .vnf)⟩

end OaiRan.Nfapi
