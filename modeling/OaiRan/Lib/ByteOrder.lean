import Mathlib.Algebra.GroupWithZero.Nat
import Mathlib.Algebra.Group.Int.Defs
import Mathlib.Tactic.Basic

/-!
# Byte order

Numbers as sequences of bytes, the most significant byte first. The other order is `List.reverse`.
-/

namespace ByteOrder

/-- The last `n` bytes of a number, the most significant first. -/
def beBytes : ℕ → ℕ → List UInt8
  | 0, _ => []
  | n + 1, x => beBytes n (x / 2 ^ 8) ++ [.ofNat x]

/-- The number that a sequence of bytes stands for. -/
def ofBeBytes (bs : List UInt8) : ℕ := bs.foldl (fun x b ↦ x * 2 ^ 8 + b.toNat) 0

@[simp] theorem length_beBytes (n x : ℕ) : (beBytes n x).length = n := by
  induction n generalizing x with
  | zero => rfl
  | succ n ih => rw [beBytes, List.length_append, ih, List.length_singleton]

theorem ofBeBytes_append_singleton (bs : List UInt8) (b : UInt8) :
    ofBeBytes (bs ++ [b]) = ofBeBytes bs * 2 ^ 8 + b.toNat := by
  rw [ofBeBytes, List.foldl_append]
  rfl

/-- **Reading what was written.** -/
theorem ofBeBytes_beBytes (n x : ℕ) : ofBeBytes (beBytes n x) = x % (2 ^ 8) ^ n := by
  induction n generalizing x with
  | zero => rw [Nat.pow_zero, Nat.mod_one]; rfl
  | succ n ih =>
    have hsplit : x % (2 ^ 8 * (2 ^ 8) ^ n) = x % 2 ^ 8 + 2 ^ 8 * (x / 2 ^ 8 % (2 ^ 8) ^ n) :=
      Nat.mod_mul
    rw [beBytes, ofBeBytes_append_singleton, ih, UInt8.toNat_ofNat', Nat.pow_succ' (m := 2 ^ 8), hsplit,
      Nat.add_comm, Nat.mul_comm]

theorem ofBeBytes_beBytes_of_lt {n x : ℕ} (h : x < (2 ^ 8) ^ n) : ofBeBytes (beBytes n x) = x := by
  rw [ofBeBytes_beBytes, Nat.mod_eq_of_lt h]

end ByteOrder
