import Mathlib.Algebra.Order.Ring.Nat
import Mathlib.Data.Nat.ModEq

/-!
# A ring of entries over a cycle of numbers

Points of time are numbered modulo `m`, and the number modulo `k` is the entry of a ring. Without the
cycle, points that are less than `k` apart have different entries. With it, the entries start anew
where the cycle does: **points at most `d` apart have different entries if and only if `k` divides
the cycle or what is left over is more than `d`** (`distinct_iff`).
-/

namespace RingIndex

open Nat

variable {m k d a b u x y : ℕ}

/-- Points that are at most `d` apart have different entries. -/
def Distinct (m k d : ℕ) : Prop := ∀ a b, a < b → b ≤ a + d → a % m % k ≠ b % m % k

/-- Two numbers less than `k` apart with the same rest are equal. -/
theorem eq_of_mod_eq (h : a % k = b % k) (hle : a ≤ b) (hlt : b < a + k) : a = b := by
  have hdvd : k ∣ b - a := (modEq_iff_dvd' hle).1 h
  have := eq_zero_of_dvd_of_lt hdvd (by omega)
  omega

theorem distinct_of_dvd (hdk : d < k) (h : k ∣ m) : Distinct m k d := by
  intro a b hab hle heq
  rw [mod_mod_of_dvd a h, mod_mod_of_dvd b h] at heq
  exact hab.ne (eq_of_mod_eq heq hab.le (by omega))

theorem distinct_of_lt_mod (hdk : d < k) (h : d < m % k) : Distinct m k d := by
  intro a b hab hle heq
  have hm : m % k ≤ m := mod_le m k
  have hmpos : 0 < m := by omega
  have hda := div_add_mod a m
  have hdb := div_add_mod b m
  have hra := mod_lt a hmpos
  have hdiv : a / m ≤ b / m := Nat.div_le_div_right hab.le
  rcases hdiv.eq_or_lt with hsame | hnext
  · -- both in one turn of the cycle
    rw [hsame] at hda
    have := eq_of_mod_eq heq (by omega) (by omega)
    omega
  · have hone : b / m = a / m + 1 := by
      refine le_antisymm (Nat.lt_succ_iff.1 (Nat.div_lt_of_lt_mul ?_)) hnext
      rw [Nat.mul_succ, Nat.mul_succ]
      omega
    rw [hone, mul_succ] at hdb
    -- `b` is in the next turn: the distance has the rest of the whole cycle
    have hrest : (b % m + m) % k = (a % m + (b - a)) % k := by
      congr 1
      omega
    have hshift : (a % m + m) % k = (a % m + (b - a)) % k := by
      rw [← hrest, add_mod, heq, ← add_mod]
    have hmod : m % k = (b - a) % k := Nat.ModEq.add_left_cancel' (a % m) hshift
    rw [mod_eq_of_lt (show b - a < k by omega)] at hmod
    omega

/-- **When nearby points have different entries.** -/
theorem distinct_iff (hdk : d < k) : Distinct m k d ↔ m % k = 0 ∨ d < m % k := by
  constructor
  · intro h
    by_contra hcon
    rw [not_or, not_lt] at hcon
    have hle : m % k ≤ m := mod_le m k
    -- the last point before the end of the cycle whose entry is the first one
    refine h (m - m % k) m (by omega) (by omega) ?_
    rw [mod_self, mod_eq_of_lt (show m - m % k < m by omega), zero_mod]
    exact sub_mod_eq_zero_of_mod_eq (mod_mod m k).symm
  · rintro (h | h)
    · exact distinct_of_dvd hdk (dvd_of_mod_eq_zero h)
    · exact distinct_of_lt_mod hdk h

/-- Entries that are blocks of `u`: the block is that of the quotient. -/
theorem mul_add_mod (hx : x < u) : (a * u + x) % (u * k) = a % k * u + x := by
  rw [Nat.mul_comm a u, Nat.mod_mul, Nat.mul_add_mod, Nat.mod_eq_of_lt hx,
    mul_add_div (by omega), div_eq_of_lt hx, add_zero, mul_comm u, add_comm]

theorem mul_add_inj (hx : x < u) (hy : y < u) : a * u + x = b * u + y ↔ a = b ∧ x = y := by
  constructor
  · intro h
    have hdiv : (a * u + x) / u = (b * u + y) / u := by rw [h]
    have hmod : (a * u + x) % u = (b * u + y) % u := by rw [h]
    rw [mul_comm a, mul_comm b, mul_add_div (by omega), mul_add_div (by omega),
      div_eq_of_lt hx, div_eq_of_lt hy] at hdiv
    rw [Nat.mul_comm a, Nat.mul_comm b, Nat.mul_add_mod, Nat.mul_add_mod, Nat.mod_eq_of_lt hx,
      mod_eq_of_lt hy] at hmod
    exact ⟨hdiv, hmod⟩
  · rintro ⟨rfl, rfl⟩
    rfl

end RingIndex
