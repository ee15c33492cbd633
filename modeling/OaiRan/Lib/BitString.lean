import Mathlib.Tactic.Ring
import Mathlib.Data.List.Induction

/-!
# Bit strings, most significant bit first

Numbers and byte buffers as lists of bits in the order a big-endian bit writer emits them.
`natBits n v` is the `n`-bit field holding `v`, `ofBits` reads a field back, and `bitsOf` is the
whole content of a byte buffer. A writer that shifts bits into the current byte appends to
`natBits` (`natBits_succ`), a reader that walks a buffer consumes `bitsOf` from the front; the
round trip of any header is then `ofBits_natBits` field by field.
-/

namespace BitString

open List Nat

variable {a i m n v : ℕ}

/-- The low `n` bits of `v`, most significant first. -/
def natBits : ℕ → ℕ → List Bool
  | 0, _ => []
  | n + 1, v => natBits n (v / 2) ++ [v % 2 == 1]

/-- The number a bit string spells, most significant bit first. -/
def ofBits (bs : List Bool) : ℕ :=
  bs.foldl (fun acc b ↦ 2 * acc + b.toNat) 0

/-- The bits of a buffer of bytes. -/
def bitsOf (buf : List UInt8) : List Bool :=
  buf.flatMap fun b ↦ natBits 8 b.toNat

/-! ### Fields -/

@[simp] theorem natBits_zero (v : ℕ) : natBits 0 v = [] := rfl

theorem natBits_succ (n v : ℕ) : natBits (n + 1) v = natBits n (v / 2) ++ [v % 2 == 1] := rfl

@[simp] theorem length_natBits (n v : ℕ) : (natBits n v).length = n := by
  induction n generalizing v with
  | zero => rfl
  | succ n ih => simp [natBits_succ, ih]

/-- Shifting one bit in from the right appends it. -/
theorem natBits_succ_append (n v : ℕ) (b : Bool) :
    natBits (n + 1) (2 * v + b.toNat) = natBits n v ++ [b] := by
  cases b
  · simp [natBits_succ]
  · rw [natBits_succ, show (2 * v + true.toNat) / 2 = v by simp; omega]
    simp [add_mod]

/-- The same field, written from its highest bit. -/
theorem natBits_succ_cons (n v : ℕ) : natBits (n + 1) v = v.testBit n :: natBits n v := by
  induction n generalizing v with
  | zero =>
    rcases mod_two_eq_zero_or_one v with h | h <;> simp [natBits_succ, testBit_zero, h]
  | succ n ih => rw [natBits_succ, ih, natBits_succ n, testBit_succ, cons_append]

theorem getElem?_natBits (v : ℕ) (hi : i < n) :
    (natBits n v)[i]? = some (v.testBit (n - 1 - i)) := by
  induction n generalizing i with
  | zero => exact absurd hi (not_lt_zero i)
  | succ n ih =>
    rw [natBits_succ_cons]
    rcases i with - | i
    · rfl
    · rw [getElem?_cons_succ, ih (lt_of_succ_lt_succ hi)]
      congr 2
      omega

/-- A field does not see the bits above it. -/
theorem natBits_mod (h : n ≤ m) (v : ℕ) : natBits n (v % 2 ^ m) = natBits n v := by
  induction n generalizing v m with
  | zero => rfl
  | succ n ih =>
    obtain ⟨m, rfl⟩ : ∃ k, m = k + 1 := ⟨m - 1, by omega⟩
    have hdiv : v % 2 ^ (m + 1) / 2 = v / 2 % 2 ^ m := by
      rw [pow_succ', mod_mul_right_div_self]
    have hmod : v % 2 ^ (m + 1) % 2 = v % 2 :=
      mod_mod_of_dvd v ⟨2 ^ m, by ring⟩
    rw [natBits_succ, natBits_succ, hdiv, hmod, ih (by omega)]

/-- A field in two parts. -/
theorem natBits_add (m n v : ℕ) : natBits (m + n) v = natBits m (v / 2 ^ n) ++ natBits n v := by
  induction n generalizing v with
  | zero => simp
  | succ n ih =>
    rw [← Nat.add_assoc, natBits_succ, ih, natBits_succ n, Nat.div_div_eq_div_mul, ← pow_succ',
      append_assoc]

theorem natBits_of_lt (h : v < 2 ^ n) : natBits (m + n) v = natBits m 0 ++ natBits n v := by
  rw [natBits_add, div_eq_of_lt h]

theorem ofBits_append_singleton (bs : List Bool) (b : Bool) :
    ofBits (bs ++ [b]) = 2 * ofBits bs + b.toNat := by
  simp [ofBits]

theorem ofBits_cons (b : Bool) (bs : List Bool) :
    ofBits (b :: bs) = b.toNat * 2 ^ bs.length + ofBits bs := by
  induction bs using reverseRecOn with
  | nil => simp [ofBits]
  | append_singleton bs c ih =>
    rw [← cons_append, ofBits_append_singleton, ofBits_append_singleton, ih,
      length_append, length_singleton, pow_succ]
    ring

/-- Reading a field back gives its value, truncated to the field. -/
@[simp] theorem ofBits_natBits (n v : ℕ) : ofBits (natBits n v) = v % 2 ^ n := by
  induction n generalizing v with
  | zero => simp [ofBits, mod_one]
  | succ n ih =>
    have hb : (v % 2 == 1).toNat = v % 2 := by
      rcases mod_two_eq_zero_or_one v with h | h <;> simp [h]
    rw [natBits_succ, ofBits_append_singleton, ih, hb, pow_succ', mod_mul]
    omega

/-! ### Buffers -/

@[simp] theorem bitsOf_nil : bitsOf [] = [] := rfl

@[simp] theorem bitsOf_cons (b : UInt8) (buf : List UInt8) :
    bitsOf (b :: buf) = natBits 8 b.toNat ++ bitsOf buf := rfl

@[simp] theorem bitsOf_append (a b : List UInt8) : bitsOf (a ++ b) = bitsOf a ++ bitsOf b := by
  simp [bitsOf]

@[simp] theorem length_bitsOf (buf : List UInt8) : (bitsOf buf).length = 8 * buf.length := by
  induction buf with
  | nil => rfl
  | cons b buf ih => simp [ih]; omega

/-- The eight bits of a byte. -/
theorem natBits_getElem (buf : List UInt8) (ha : a < buf.length) :
    natBits 8 buf[a].toNat = ((bitsOf buf).drop (8 * a)).take 8 := by
  induction buf generalizing a with
  | nil => simp at ha
  | cons b buf ih =>
    rw [bitsOf_cons]
    rcases a with - | a
    · rw [getElem_cons_zero, mul_zero, drop_zero, take_left' (by simp)]
    · rw [getElem_cons_succ, ih, show 8 * (a + 1) = (natBits 8 b.toNat).length + 8 * a by
        rw [length_natBits]; omega, drop_length_add_append]

/-- Changing a byte changes its eight bits. -/
theorem bitsOf_set (buf : List UInt8) (ha : a < buf.length) (x : UInt8) :
    bitsOf (buf.set a x) =
      (bitsOf buf).take (8 * a) ++ natBits 8 x.toNat ++ (bitsOf buf).drop (8 * (a + 1)) := by
  induction buf generalizing a with
  | nil => simp at ha
  | cons b buf ih =>
    rcases a with - | a
    · simp
    · have htake : (natBits 8 b.toNat).take (8 * (a + 1)) = natBits 8 b.toNat :=
        take_of_length_le (by rw [length_natBits]; omega)
      have hdrop : (natBits 8 b.toNat).drop (8 * (a + 1 + 1)) = [] :=
        drop_of_length_le (by rw [length_natBits]; omega)
      rw [set_cons_succ, bitsOf_cons, ih (by simpa using ha), bitsOf_cons, take_append,
        drop_append, htake, hdrop, length_natBits, show 8 * (a + 1) - 8 = 8 * a by omega,
        show 8 * (a + 1 + 1) - 8 = 8 * (a + 1) by omega]
      simp

end BitString
