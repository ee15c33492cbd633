import OaiRan.Lib.CInt
import Mathlib.Tactic.Linarith

/-!
# Resource indication values

A run of PRBs in a bandwidth of `n` is one number, `n * q + r`. The runs of at most about half the
bandwidth stand upright, with `q` the length less one and `r` the start; the longer ones fill the
values that are left, **turned by half a circle**. A decoder that gets `q` and `r` has to see which
of the two it has: an upright run ends inside the bandwidth, `q + r < n`, and a turned one does not
(`Indicated`).

## The arithmetic is that of `int`

The three functions compute in `int`, and so do their models: every operation that can overflow is
checked, and `none` stands for a failed assertion, a division by zero or an overflow.

## Main results

* `riv_round_trip`: up to 65535 PRBs the decoders return the run that was encoded, the values are
  below `n * (n + 1) / 2`, and no two runs share one. That the test of the decoders agrees with the
  one of the encoder is `Indicated.decode`; that nothing overflows is `Indicated.lt_two_pow`, which
  rests on there being as many values as runs.
* `half_of_65536_overflows`: one PRB more, and the encoder's product does not fit.
-/

namespace OaiRan.Common

open Int CInt

def nrRiv2Bw (locationAndBandwidth nRb : ℤ) : Option ℤ := do
  guard (nRb ≠ 0)
  let tmp ← checkedInt (locationAndBandwidth.tdiv nRb)
  let tmp2 := locationAndBandwidth.tmod nRb
  if tmp ≤ (nRb >>> (1 : ℕ)) + 1 ∧ tmp + tmp2 < nRb then checkedInt (tmp + 1)
  else checkedInt ((← checkedInt (nRb + 1)) - tmp)

def nrRiv2PrbOffset (locationAndBandwidth nRb : ℤ) : Option ℤ := do
  guard (nRb ≠ 0)
  let tmp ← checkedInt (locationAndBandwidth.tdiv nRb)
  let tmp2 := locationAndBandwidth.tmod nRb
  if tmp ≤ (nRb >>> (1 : ℕ)) + 1 ∧ tmp + tmp2 < nRb then some tmp2
  else checkedInt ((← checkedInt (nRb - 1)) - tmp2)

/-- `PRBalloc_to_locationandbandwidth0`. -/
def prbAllocToLocationAndBandwidth0 (nPrb rbStart bwpSize : ℤ) : Option ℤ := do
  let next ← checkedInt (nPrb + rbStart)
  guard (0 < nPrb ∧ next ≤ bwpSize)
  if nPrb ≤ 1 + (bwpSize >>> (1 : ℕ)) then
    checkedInt ((← checkedInt (bwpSize * (nPrb - 1))) + rbStart)
  else
    let tmp ← checkedInt ((← checkedInt (bwpSize + 1)) - nPrb)
    checkedInt ((← checkedInt (bwpSize * tmp)) + (← checkedInt (bwpSize - 1 - rbStart)))

/-- A run of PRBs inside a bandwidth. -/
@[ext]
structure Allocation (n : ℤ) where
  (nPrb rbStart : ℤ)
  one_le_nPrb : 1 ≤ nPrb
  rbStart_nonneg : 0 ≤ rbStart
  le : nPrb + rbStart ≤ n

/-- **The value `v` stands for the run**, upright or turned. -/
structure Indicated {n : ℤ} (a : Allocation n) (v q r : ℤ) : Prop where
  eq : v = n * q + r
  q_nonneg : 0 ≤ q
  r_nonneg : 0 ≤ r
  r_lt : r < n
  shape : (q ≤ n >>> (1 : ℕ) ∧ q + r < n ∧ a.nPrb = q + 1 ∧ a.rbStart = r) ∨
    (2 * q < n ∧ n ≤ q + r ∧ a.nPrb = n + 1 - q ∧ a.rbStart = n - 1 - r)

section Indicated

variable {n v q r : ℤ} {a : Allocation n}

theorem half_eq (n : ℤ) : n >>> (1 : ℕ) = n / 2 := shiftRight_eq_div_pow n 1

section

variable (h : Indicated a v q r)
include h

theorem Indicated.pos : 0 < n := h.r_nonneg.trans_lt h.r_lt

theorem Indicated.mul_nonneg : 0 ≤ n * q := Int.mul_nonneg h.pos.le h.q_nonneg

theorem Indicated.nonneg : 0 ≤ v := by
  rw [h.eq]
  exact Int.add_nonneg h.mul_nonneg h.r_nonneg

/-- What the decoders divide the value into. -/
theorem Indicated.tdiv_tmod : v.tdiv n = q ∧ v.tmod n = r := by
  have hr := h.r_nonneg
  have hlt := h.r_lt
  have hdiv : v / n = q := by
    rw [h.eq, add_comm, add_mul_ediv_left r q h.pos.ne', ediv_eq_zero_of_lt hr hlt, zero_add]
  have hmod : v % n = r := by
    rw [h.eq, add_comm, add_mul_emod_self_left, emod_eq_of_lt hr hlt]
  exact ⟨(tdiv_eq_ediv_of_nonneg h.nonneg).trans hdiv, (tmod_eq_emod_of_nonneg h.nonneg).trans hmod⟩

/-- There are as many values as there are runs. -/
theorem Indicated.two_mul_lt : 2 * v < n * (n + 1) := by
  have hr := h.r_lt
  have hn := h.pos
  rw [h.eq]
  rcases h.shape with ⟨hhalf, hsum, -, -⟩ | ⟨hhalf, -, -, -⟩
  · -- upright: `r ≤ n - 1 - q`, and `q` is at most half of `n`
    have htwice : 2 * q ≤ n := by
      rw [half_eq] at hhalf
      omega
    nlinarith
  · -- turned: `r ≤ n - 1`, and `q` is less than half of `n`
    nlinarith

/-- In a bandwidth of up to 65535 PRBs the value fits an `int`. -/
theorem Indicated.lt_two_pow (hn : n ≤ 65535) : v < 2 ^ 31 := by
  have hlt := h.two_mul_lt
  have hpos := h.pos
  have hmul : n * (n + 1) ≤ 65535 * 65536 :=
    mul_le_mul hn (by omega) (by omega) (by decide)
  omega

/-- **The test of the decoders tells an upright run from a turned one.** -/
theorem Indicated.decode (hn : n ≤ 65535) :
    nrRiv2Bw v n = some a.nPrb ∧ nrRiv2PrbOffset v n = some a.rbStart := by
  obtain ⟨hdiv, hmod⟩ := h.tdiv_tmod
  have hpos := h.pos
  have hq := h.q_nonneg
  have hr := h.r_nonneg
  have hlt := h.r_lt
  simp only [nrRiv2Bw, nrRiv2PrbOffset, hdiv, hmod, guard, if_pos hpos.ne', half_eq]
  rcases h.shape with ⟨hhalf, hsum, hbw, hoffset⟩ | ⟨hhalf, hsum, hbw, hoffset⟩
  · rw [half_eq] at hhalf
    have htest : q ≤ n / 2 + 1 ∧ q + r < n := ⟨by omega, hsum⟩
    simp (disch := omega) [checkedInt_of_mem, if_pos htest, hbw, hoffset]
  · have htest : ¬(q ≤ n / 2 + 1 ∧ q + r < n) := fun h ↦ by omega
    simp (disch := omega) [checkedInt_of_mem, if_neg htest, hbw, hoffset]

end

/-- **The encoder finds such a value.** -/
theorem Allocation.indicated (a : Allocation n) (hn : n ≤ 65535) :
    ∃ v q r, prbAllocToLocationAndBandwidth0 a.nPrb a.rbStart n = some v ∧ Indicated a v q r := by
  have hone := a.one_le_nPrb
  have hstart := a.rbStart_nonneg
  have hle := a.le
  have hlast : 0 < a.nPrb ∧ a.nPrb + a.rbStart ≤ n := ⟨hone, hle⟩
  rw [prbAllocToLocationAndBandwidth0, checkedInt_of_mem (by omega) (by omega)]
  rcases le_or_gt a.nPrb (1 + n >>> (1 : ℕ)) with hshort | hlong
  · have h : Indicated a (n * (a.nPrb - 1) + a.rbStart) (a.nPrb - 1) a.rbStart :=
      ⟨rfl, by omega, hstart, by omega, .inl ⟨by omega, by omega, by omega, rfl⟩⟩
    have hv := h.lt_two_pow hn
    have hmul := h.mul_nonneg
    refine ⟨_, _, _, ?_, h⟩
    simp (disch := omega) [checkedInt_of_mem, hlast, hshort]
  · have h : Indicated a (n * (n + 1 - a.nPrb) + (n - 1 - a.rbStart)) (n + 1 - a.nPrb)
        (n - 1 - a.rbStart) := by
      rw [half_eq] at hlong
      exact ⟨rfl, by omega, by omega, by omega, .inr ⟨by omega, by omega, by omega, by omega⟩⟩
    have hv := h.lt_two_pow hn
    have hmul := h.mul_nonneg
    have hr := h.r_nonneg
    refine ⟨_, _, _, ?_, h⟩
    simp (disch := omega) [checkedInt_of_mem, hlast, hlong.not_ge]

end Indicated

/-- **Resource indication values round trip** up to 65535 PRBs: the decoders return the run that was
encoded, the values are below `n * (n + 1) / 2`, and no two runs share one. -/
theorem riv_round_trip {n : ℤ} (a : Allocation n) (hn : n ≤ 65535) :
    ∃ v, prbAllocToLocationAndBandwidth0 a.nPrb a.rbStart n = some v ∧
      nrRiv2Bw v n = some a.nPrb ∧ nrRiv2PrbOffset v n = some a.rbStart ∧
      0 ≤ v ∧ v < n * (n + 1) / 2 ∧
      ∀ b : Allocation n, prbAllocToLocationAndBandwidth0 b.nPrb b.rbStart n = some v → b = a := by
  obtain ⟨v, q, r, hv, h⟩ := a.indicated hn
  obtain ⟨hbw, hoffset⟩ := h.decode hn
  refine ⟨v, hv, hbw, hoffset, h.nonneg, ?_, fun b hb ↦ ?_⟩
  · have hlt := h.two_mul_lt
    obtain ⟨k, hk⟩ := even_mul_succ_self n
    omega
  · obtain ⟨w, q', r', hw, h'⟩ := b.indicated hn
    obtain rfl : v = w := Option.some.inj (hb.symm.trans hw)
    obtain ⟨hbw', hoffset'⟩ := h'.decode hn
    exact Allocation.ext (Option.some.inj (hbw'.symm.trans hbw))
      (Option.some.inj (hoffset'.symm.trans hoffset))

/-- 100 of 273 PRBs from the 50th on. -/
theorem riv_round_trip_273 :
    ∃ v, prbAllocToLocationAndBandwidth0 100 50 273 = some v ∧
      nrRiv2Bw v 273 = some 100 ∧ nrRiv2PrbOffset v 273 = some 50 := by
  obtain ⟨v, hv, hbw, hoffset, -⟩ :=
    riv_round_trip (n := 273) ⟨100, 50, by decide, by decide, by decide⟩ (by decide)
  exact ⟨v, hv, hbw, hoffset⟩

/-- **In a bandwidth of 65536 PRBs half of it and one more has no value**: `65536 * 32768` is not an
`int`. -/
theorem half_of_65536_overflows :
    ∃ a : Allocation 65536, prbAllocToLocationAndBandwidth0 a.nPrb a.rbStart 65536 = none :=
  ⟨⟨32769, 0, by decide, by decide, by decide⟩, by decide⟩

end OaiRan.Common
