import Mathlib.Algebra.GroupWithZero.Nat
import Mathlib.Algebra.Group.Int.Defs
import Mathlib.Data.Int.Basic

/-!
# Conversions between fixed-width integers

Values are kept as integers; a conversion to a C type is one of the functions here. A value that the
type can hold is not changed.

Signed arithmetic is different: C says nothing about a program whose `int` overflows, so an operation
that can overflow is **checked**, and the program as a whole is `none` from there on (`checkedInt`).
-/

namespace CInt

/-- Conversion to `uint32_t`. -/
def toUint32 (z : ℤ) : ℕ := (z % 2 ^ 32).toNat

/-- Conversion to `size_t` or `uint64_t`. -/
def toUint64 (z : ℤ) : ℕ := (z % 2 ^ 64).toNat

/-- Conversion to `int32_t`. -/
def toInt32 (z : ℤ) : ℤ := (z + 2 ^ 31) % 2 ^ 32 - 2 ^ 31

/-- The value of an `int` expression, `none` where it overflows. -/
def checkedInt (z : ℤ) : Option ℤ := if -2 ^ 31 ≤ z ∧ z < 2 ^ 31 then some z else none

variable {z : ℤ}

theorem checkedInt_of_mem (h₀ : -2 ^ 31 ≤ z) (h : z < 2 ^ 31) : checkedInt z = some z :=
  if_pos ⟨h₀, h⟩

theorem toUint32_of_nonneg (h₀ : 0 ≤ z) (h : z < 2 ^ 32) : toUint32 z = z.toNat := by
  rw [toUint32, Int.emod_eq_of_lt h₀ h]

theorem toUint64_of_nonneg (h₀ : 0 ≤ z) (h : z < 2 ^ 64) : toUint64 z = z.toNat := by
  rw [toUint64, Int.emod_eq_of_lt h₀ h]

theorem toInt32_of_mem (h₀ : -2 ^ 31 ≤ z) (h : z < 2 ^ 31) : toInt32 z = z := by
  rw [toInt32]
  omega

theorem toInt32_le (h : 0 ≤ z) : toInt32 z ≤ z := by
  rw [toInt32]
  omega

end CInt
