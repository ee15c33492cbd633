import OaiRan.UeMac.Multiplex

/-!
# What one SDU does

`fillTurn_cases` says everything that a turn of the inner loop can do: stop because there is no room
for a subheader and a byte, or ask RLC and put its answer into the transport block. What is asked for
fits, with its subheader, in front of the space set aside for the reports (`Mux.request_le`). Any
property that survives single turns survives the whole multiplexing (`multiplex_invariant`).
-/

namespace OaiRan.UeMac

open CInt Mux Option List

variable {ρ : Type} {R : Rlc ρ} {lc : LcInfo} {s t : Mux ρ}

variable {buflenRemain m n req : ℤ} {buflen size target : ℕ} {r : ℤ × ℕ} {sdu : List UInt8}
  {v : LcInfo × ℕ}

/-! ### Room -/

/-- The write pointer has not passed `end_for_tailer`. -/
structure Mux.InRoom (s : Mux ρ) : Prop where
  le : s.pdu.length ≤ s.endForTailer
  lt : s.endForTailer < 2 ^ 32

namespace Mux.InRoom

theorem room_nonneg (h : s.InRoom) : 0 ≤ s.room := by
  have := h.le
  rw [room]
  omega

theorem room_lt (h : s.InRoom) : s.room < 2 ^ 32 := by
  have := h.lt
  rw [room]
  omega

theorem toUint32_room (h : s.InRoom) : (toUint32 s.room : ℤ) = s.room := by
  rw [toUint32_of_nonneg h.room_nonneg h.room_lt]
  exact Int.toNat_of_nonneg h.room_nonneg

theorem toUint64_room (h : s.InRoom) : (toUint64 s.room : ℤ) = s.room := by
  have := h.room_lt
  rw [toUint64_of_nonneg h.room_nonneg (by omega)]
  exact Int.toNat_of_nonneg h.room_nonneg

end Mux.InRoom

theorem headerSize_le (n : ℤ) : headerSize n ≤ 3 := by
  rw [headerSize]
  split <;> omega

theorem two_le_headerSize (n : ℤ) : 2 ≤ headerSize n := by
  rw [headerSize]
  split <;> omega

theorem headerSize_mono (h : m ≤ n) : headerSize m ≤ headerSize n := by
  rw [headerSize, headerSize]
  split <;> split <;> omega

theorem length_sduHeader (h : size = 2 ∨ size = 3) (lcid n : ℕ) :
    (sduHeader size lcid n).length = size := by
  rcases h with rfl | rfl <;> rfl

theorem headerSize_eq (n : ℤ) : headerSize n = 2 ∨ headerSize n = 3 := by
  rw [headerSize]
  split
  · exact .inl rfl
  · exact .inr rfl

/-- No more than `buflenRemain` is asked for. -/
theorem getNumBytesToReqlc_le
    (h : getNumBytesToReqlc pbr same ep buflenRemain roundId buf tot = some r) :
    r.1 ≤ buflenRemain := by
  rw [getNumBytesToReqlc] at h
  split at h
  · rename_i hok
    rw [some.injEq] at h
    exact h ▸ hok.2
  · simp at h

/-- **What is asked for fits** with its subheader. -/
theorem Mux.request_le (hs : s.InRoom) (hroom : 3 ≤ s.room) (h : s.request lc = some r) :
    r.1 ≤ s.room - headerSize s.room := by
  have hreq := getNumBytesToReqlc_le h
  have hsize := headerSize_le s.room
  rw [hs.toUint32_room] at hreq
  have hlt := hs.room_lt
  have hbuf : (toUint32 (s.room - headerSize s.room) : ℤ) = s.room - headerSize s.room := by
    rw [toUint32_of_nonneg (by omega) (by omega), Int.toNat_of_nonneg (by omega)]
  rw [hbuf] at hreq
  exact Int.le_trans hreq (toInt32_le (by omega))

/-- What is set aside for the reports fits. -/
theorem MacInst.bsrLen_add_phrLen_le (mac : MacInst) (h : 3 ≤ buflen) :
    mac.bsrLen buflen + mac.phrLen buflen ≤ buflen := by
  have hbsr : mac.bsrLen buflen ≤ buflen := by
    rw [MacInst.bsrLen]
    split
    · dsimp only
      split
      · omega
      · split <;> omega
    · omega
  rw [MacInst.phrLen, MacInst.phrSent]
  by_cases hsent : buflen ≥ mac.bsrLen buflen + 3
  · rw [if_pos hsent]
    split <;> omega
  · rw [if_neg hsent]
    simpa using hbsr

/-! ### One turn -/

variable {go : Bool} {rlc : ρ}

/-- Everything that a turn can do. -/
theorem fillTurn_cases (hs : s.InRoom) (h : fillTurn R lc s = some (go, t)) :
    (s.room < 3 ∧ go = false ∧ t = s) ∨
      3 ≤ s.room ∧ ∃ req target sdu rlc, s.request lc = some (req, target) ∧
        R.dataReq s.rlc lc.lcid req = (sdu, rlc) ∧ (sdu.length % 2 ^ 16 : ℕ) ≤ req ∧
        s.answered lc req target sdu rlc = (go, t) := by
  have hroom := hs.toUint64_room
  rw [fillTurn, fillMacSdu] at h
  split at h
  swap
  · simp only [some.injEq, Prod.mk.injEq] at h
    exact .inl ⟨by omega, h.1.symm, h.2.symm⟩
  split at h
  · simp only [some.injEq, Prod.mk.injEq] at h
    exact .inl ⟨by omega, h.1.symm, h.2.symm⟩
  obtain ⟨⟨req, target⟩, hreq, h⟩ := bind_eq_some_iff.1 h
  dsimp only at h
  split at h
  · rename_i hle
    rw [some.injEq] at h
    exact .inr ⟨by omega, req, target, _, _, hreq, rfl, hle.1, h⟩
  · simp at h

/-- The two ends of `fill_mac_sdu` after RLC has answered. -/
theorem Mux.answered_cases (h : s.answered lc req target sdu rlc = (go, t)) :
    (sdu.length % 2 ^ 16 = 0 ∧ go = false ∧ t = (s.take lc sdu rlc).noData lc) ∨
      0 < sdu.length % 2 ^ 16 ∧
        ∃ u, u = (s.take lc sdu rlc).put lc (headerSize req) (sdu.take (sdu.length % 2 ^ 16)) ∧
          go = !u.served lc target ∧
          t = { u with numLcidsSamePriority := u.numLcidsSamePriority - bif go then 0 else 1 } := by
  have hlen : (sdu.take (sdu.length % 2 ^ 16)).length = sdu.length % 2 ^ 16 := by
    rw [length_take]
    omega
  rw [answered] at h
  dsimp only at h
  split at h
  · refine .inr ⟨by omega, _, rfl, ?_⟩
    split at h
    · rename_i hserved
      simp only [Prod.mk.injEq] at h
      exact ⟨by rw [hserved, ← h.1]; rfl, by rw [← h.2, ← h.1]; rfl⟩
    · rename_i hserved
      simp only [Prod.mk.injEq] at h
      refine ⟨by rw [Bool.not_eq_true] at hserved; rw [hserved, ← h.1]; rfl, ?_⟩
      rw [← h.2, ← h.1]
      rfl
  · simp only [Prod.mk.injEq] at h
    exact .inl ⟨by omega, h.1.symm, h.2.symm⟩

/-- How far the write pointer moves. -/
theorem Mux.room_put (s : Mux ρ) (lc : LcInfo) (req : ℤ) (sdu : List UInt8) :
    (s.put lc (headerSize req) sdu).room = s.room - headerSize req - sdu.length := by
  simp only [room, put, length_append, length_sduHeader (headerSize_eq req)]
  omega

/-- What a turn with room for it does to the room. -/
theorem Mux.answered_room (h : s.answered lc req target sdu rlc = (go, t)) :
    t.endForTailer = s.endForTailer ∧
      (sdu.length % 2 ^ 16 = 0 ∧ t.room = s.room ∨
        0 < sdu.length % 2 ^ 16 ∧
          t.room = s.room - headerSize req - (sdu.length % 2 ^ 16 : ℕ)) := by
  rcases answered_cases h with ⟨hzero, -, rfl⟩ | ⟨hpos, u, hu, -, rfl⟩
  · exact ⟨rfl, .inl ⟨hzero, rfl⟩⟩
  · refine ⟨by rw [hu]; rfl, .inr ⟨hpos, ?_⟩⟩
    have hroom : u.room = s.room - headerSize req - (sdu.take (sdu.length % 2 ^ 16)).length := by
      rw [hu, room_put]
      rfl
    rw [length_take, Nat.min_eq_left (Nat.mod_le _ _)] at hroom
    exact hroom

/-- **The write pointer stays in front of `end_for_tailer`.** -/
theorem Mux.InRoom.fillTurn (hs : s.InRoom) (h : fillTurn R lc s = some (go, t)) :
    t.InRoom ∧ t.room ≤ s.room ∧ (3 ≤ s.room → go = true → t.room < s.room) := by
  rcases fillTurn_cases hs h with ⟨hlt, rfl, rfl⟩ | ⟨hroom, req, target, sdu, rlc, hreq, -, hle, h⟩
  · exact ⟨hs, Int.le_refl _, fun h ↦ by omega⟩
  obtain ⟨hend, hzero | ⟨hpos, hput⟩⟩ := answered_room h
  · have hend' := hs.lt
    refine ⟨⟨?_, by omega⟩, by omega, fun _ hgo ↦ ?_⟩
    · have := hzero.2
      rw [room, room] at this
      have := hs.le
      omega
    · rcases answered_cases h with ⟨-, hfalse, -⟩ | ⟨hpos, -⟩
      · rw [hgo] at hfalse
        cases hfalse
      · omega
  · have hfit := request_le hs hroom hreq
    have hmono : headerSize req ≤ headerSize s.room := by
      refine headerSize_mono ?_
      omega
    have hend' := hs.lt
    refine ⟨⟨?_, by omega⟩, by omega, fun _ _ ↦ by omega⟩
    rw [room, room] at hput
    rw [room] at hfit hmono
    omega

/-! ### All turns -/

theorem mem_of_mem_visits (h : v ∈ visits lcs) : v.1 ∈ lcs := by
  induction lcs with
  | nil => exact absurd h not_mem_nil
  | cons lc lcs ih =>
    rcases mem_cons.1 h with rfl | h
    · exact mem_cons_self ..
    · exact mem_cons_of_mem _ (ih h)

section Invariant

variable {P : Mux ρ → Prop}
  (hset : ∀ {s : Mux ρ} (num count ep : ℕ) (remain : ℤ) (tot : ℕ → ℕ) (counter : ℕ), P s →
    P { s with numLcidsSamePriority := num, countSamePriorityLcids := count, buflenEp := ep,
               remainEp := remain, lcidsBytesTot := tot, lcpAllocationCounter := counter })

include hset

theorem visit_invariant (hturn : ∀ {s t go}, P s → fillTurn R v.1 s = some (go, t) → P t)
    (hs : P s) (h : visit R s v = some t) : P t := by
  obtain ⟨lc, same⟩ := v
  rw [visit] at h
  split at h
  · refine loopM_invariant (fun hs h ↦ hturn hs h) ?_ h
    have hcount : P (s.setCount same) := by
      rw [setCount]
      split
      · exact hset _ _ _ _ _ _ hs
      · exact hs
    rw [setShare]
    split
    · exact hset _ _ _ _ _ _ hcount
    · exact hcount
  · rw [some.injEq] at h
    exact h ▸ hs

/-- What single turns and the settings between them keep holds at the end. -/
theorem multiplex_invariant
    (hturn : ∀ {s t lc go}, lc ∈ mac.lcOrderedList → P s → fillTurn R lc s = some (go, t) → P t)
    (hstart : P (mac.start buflen rlc)) (h : multiplex R mac buflen rlc = some s) : P s := by
  refine loopM_invariant (fun {s t go} hs hround ↦ ?_) hstart h
  obtain ⟨u, hu, hut⟩ := map_eq_some_iff.1 hround
  obtain ⟨-, rfl⟩ := hut
  refine hset _ _ _ _ _ _ ?_
  refine (AdmittedAlong.of_foldlM (A := fun _ _ ↦ True)
    (P := fun vs s ↦ P s ∧ ∀ v ∈ vs, v.1 ∈ mac.lcOrderedList) (fun _ _ ↦ trivial)
    (fun {s t v vs} hs hv ↦ ?_) ⟨hset _ _ _ _ _ _ hs, fun v hv ↦ ?_⟩ hu).2.1
  · refine ⟨visit_invariant hset (hturn (hs.2 v (mem_cons_self ..))) hs.1 hv, ?_⟩
    exact fun w hw ↦ hs.2 w (mem_cons_of_mem _ hw)
  · exact mem_of_mem_filter (mem_of_mem_visits hv)

end Invariant

end OaiRan.UeMac
