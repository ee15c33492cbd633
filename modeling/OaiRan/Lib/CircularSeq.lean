import Mathlib.Tactic.Linarith
import Mathlib.Tactic.Ring

/-!
# Circular sequence numbers

Sequence numbers are taken modulo `M` and compared by their offset from a base that moves. The
offset is defined by a remainder, and everything about it that a proof needs is then linear:
`off_eq_ite` computes it, `off_rebase` moves the base and `off_succ` steps to the next number, all
three as a choice between two linear terms.

A circular number stands for an absolute one. `lift M n a` is the number that `a` stands for when
it is known to be in the `M` numbers from `n` on. Moving the base does not change it, as long as
it stays in range (`lift_eq_lift`), so with absolute numbers there is nothing to rebase.
-/

namespace CircularSeq

open Int

/-- How far `a` is ahead of `base`, going round. -/
def off (M base a : ℤ) : ℤ := (a - base) % M

variable {M : ℤ}

theorem off_nonneg (hM : 0 < M) (base a : ℤ) : 0 ≤ off M base a := emod_nonneg _ hM.ne'

theorem off_lt (hM : 0 < M) (base a : ℤ) : off M base a < M := emod_lt_of_pos _ hM

@[simp] theorem off_self (base : ℤ) : off M base base = 0 := by simp [off]

/-- A remainder of something at most one turn away. -/
theorem emod_eq_ite {r : ℤ} (hlo : -M ≤ r) (hhi : r < M) : r % M = if r < 0 then r + M else r := by
  split
  · rw [← add_emod_right, emod_eq_of_lt (by omega) (by omega)]
  · exact emod_eq_of_lt (by omega) hhi

variable {base a n m : ℤ}

theorem off_eq_ite (hb : 0 ≤ base) (hb' : base < M) (ha : 0 ≤ a) (ha' : a < M) :
    off M base a = if a < base then a - base + M else a - base := by
  rw [off, emod_eq_ite (by omega) (by omega)]
  exact if_congr (by omega) rfl rfl

theorem off_eq_zero_iff (hb : 0 ≤ base) (hb' : base < M) (ha : 0 ≤ a) (ha' : a < M) :
    off M base a = 0 ↔ a = base := by
  rw [off_eq_ite hb hb' ha ha']
  split <;> omega

/-- Numbers at the same offset are equal. -/
theorem off_inj {b : ℤ} (ha : 0 ≤ a) (ha' : a < M) (hb : 0 ≤ b) (hb' : b < M) :
    off M base a = off M base b ↔ a = b := by
  refine ⟨fun h ↦ ?_, fun h ↦ h ▸ rfl⟩
  have h₁ : (a - b) % M = 0 := by
    have h₂ : (a - base - (b - base)) % M = 0 := emod_eq_emod_iff_emod_sub_eq_zero.1 h
    rwa [show a - base - (b - base) = a - b by ring] at h₂
  rw [emod_eq_ite (by omega) (by omega)] at h₁
  split at h₁ <;> omega

/-- Moving the base. -/
theorem off_rebase (hM : 0 < M) (base base' a : ℤ) :
    off M base' a = if off M base a < off M base base' then
      off M base a - off M base base' + M else off M base a - off M base base' := by
  have h₁ := off_nonneg hM base a
  have h₂ := off_lt hM base a
  have h₃ := off_nonneg hM base base'
  have h₄ := off_lt hM base base'
  have h : off M base' a = (off M base a - off M base base') % M := by
    simp only [off, ← sub_emod]
    ring_nf
  rw [h, emod_eq_ite (by omega) (by omega)]
  exact if_congr (by omega) rfl rfl

/-- The next number is one further ahead. -/
theorem off_succ (hM : 0 < M) (base a : ℤ) :
    off M base ((a + 1) % M) = if off M base a + 1 = M then 0 else off M base a + 1 := by
  have h₁ := off_nonneg hM base a
  have h₂ := off_lt hM base a
  have h : off M base ((a + 1) % M) = (off M base a + 1) % M := by
    simp only [off, emod_sub_emod, emod_add_emod]
    ring_nf
  rw [h]
  split
  · rename_i h; rw [h, emod_self]
  · exact emod_eq_of_lt (by omega) (by omega)

/-- The absolute number, from `n` on, that `a` stands for. -/
def lift (M n a : ℤ) : ℤ := n + off M n a

theorem le_lift (hM : 0 < M) (n a : ℤ) : n ≤ lift M n a := by
  have := off_nonneg hM n a
  rw [lift]
  omega

theorem lift_lt (hM : 0 < M) (n a : ℤ) : lift M n a < n + M := by
  have := off_lt hM n a
  rw [lift]
  omega

theorem lift_emod (n a : ℤ) : lift M n a % M = a % M := by
  rw [lift, off, add_emod_emod]
  congr 1
  ring

/-- The absolute number in range is the only one there. -/
theorem lift_eq_of_emod_eq (hle : n ≤ m) (hlt : m < n + M) (h : m % M = a % M) :
    lift M n a = m := by
  have hoff : off M n a = (m - n) % M := by
    rw [off, sub_emod, ← h, ← sub_emod]
  rw [lift, hoff, emod_eq_of_lt (by omega) (by omega)]
  ring

theorem lift_emod_self (hle : n ≤ m) (hlt : m < n + M) : lift M n (m % M) = m :=
  lift_eq_of_emod_eq hle hlt (emod_emod_of_dvd m dvd_rfl).symm

/-- Moving the base. -/
theorem lift_eq_lift {n' : ℤ} (hle : n' ≤ lift M n a) (hlt : lift M n a < n' + M) :
    lift M n' a = lift M n a :=
  lift_eq_of_emod_eq hle hlt (lift_emod n a)

theorem lift_inj {b : ℤ} (ha : 0 ≤ a) (ha' : a < M) (hb : 0 ≤ b) (hb' : b < M) :
    lift M n a = lift M n b ↔ a = b := by
  rw [lift, lift, add_right_inj, off_inj ha ha' hb hb']

/-- A circular number is its absolute number, reduced. -/
theorem lift_eq_iff (ha : 0 ≤ a) (ha' : a < M) (hle : n ≤ m) (hlt : m < n + M) :
    lift M n a = m ↔ a = m % M := by
  constructor
  · rintro rfl
    rw [lift_emod, emod_eq_of_lt ha ha']
  · rintro rfl
    exact lift_emod_self hle hlt

/-- Subtraction and one correction compute the offset from a reduced base. -/
theorem lift_eq_ite (hM : 0 < M) (ha : 0 ≤ a) (ha' : a < M) :
    lift M n a - n = if a - n % M < 0 then a - n % M + M else a - n % M := by
  have h₁ := emod_nonneg n hM.ne'
  have h₂ := emod_lt_of_pos n hM
  rw [← emod_eq_ite (by omega) (by omega), lift, off, sub_emod_emod]
  ring

end CircularSeq
