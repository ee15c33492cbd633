import Mathlib.Data.Nat.Bitwise

/-!
# Scrambling of codewords

The sender packs the bits of a codeword into words and adds a Gold sequence; the receiver multiplies
its soft bits by `1` or `-1`, lane by lane, and the UE has a loop over bits for codewords with UCI.
The words of `gold_cache` are a parameter, and arrays are functions of the position.

**Unscrambling restores the signs except that of an LLR of -32768 where the sequence has a one**,
which 16-bit multiplication by `-1` leaves as it is (`unscrambling_iff`).
-/

namespace OaiRan.Phy

/-- What the functions are called with: the number of bits and what the sequence depends on. -/
structure Codeword where
  size : ℕ
  q : BitVec 8
  (nid nRnti : BitVec 32)

variable (gold : BitVec 32 → ℕ → BitVec 32) (w : Codeword) (input : ℕ → BitVec 8) (llr : ℕ → BitVec 16)

def Codeword.seq : ℕ → BitVec 32 :=
  gold ((w.nRnti <<< 15) + (w.q.setWidth 32 <<< 14) + w.nid)

def Codeword.roundedSz : ℕ := (w.size + 31) / 32

/-- `movemask_epi8` of 32 bytes whose 16-bit lanes are shifted left by 7. -/
def in32 (i : ℕ) : BitVec 32 :=
  .ofNat 32 <| Nat.ofBits fun j : Fin 32 ↦
    ((input (32 * i + j / 2 * 2 + 1) ++ input (32 * i + j / 2 * 2)) <<< 7).getLsbD (j % 2 * 8 + 7)

def nrCodewordScrambling (out : ℕ → BitVec 32) (i : ℕ) : BitVec 32 :=
  if i < w.roundedSz then in32 input i ^^^ w.seq gold i else out i

/-- The eight lanes that a byte selects: `-1` for a one. -/
def byte2m128i (s : BitVec 8) (lane : ℕ) : BitVec 16 :=
  1 - 2 * ((s >>> lane).setWidth 16 &&& 1#16)

/-- The factor for position `i`: byte `s8[k]` of a word has the lanes `8 * k` and on. -/
def Codeword.factor (i : ℕ) : BitVec 16 :=
  byte2m128i ((w.seq gold (i / 32)).extractLsb' (i % 32 / 8 * 8) 8) (i % 8)

def nrCodewordUnscrambling (i : ℕ) : BitVec 16 :=
  if i / 32 < w.roundedSz then llr i * w.factor gold i else llr i

def nrCodewordUnscramblingInit (s2 : ℕ → BitVec 16) (i : ℕ) : BitVec 16 :=
  if i / 32 < w.roundedSz then w.factor gold i else s2 i

/-- The turn of `nr_pusch_codeword_scrambling_uci` for bit `i`; 2 and 3 are the placeholders. -/
def uciTurn (out : ℕ → BitVec 32) (i : ℕ) : ℕ → BitVec 32 :=
  let idx := i / 32
  let bIdx := i % 32
  Function.update out idx <| out idx ^^^
    if input i = 2 then 1#32 <<< bIdx
    else if input i = 3 then
      if bIdx ≠ 0 then (out idx &&& (1#32 <<< (bIdx - 1))) <<< 1 else out (idx - 1) >>> 31
    else (((input i).setWidth 32 &&& 1#32) ^^^
      ((gold (w.nRnti <<< 15 + w.nid) idx >>> bIdx) &&& 1#32)) <<< bIdx

def nrPuschCodewordScramblingUci (n : ℕ) (out : ℕ → BitVec 32) : ℕ → BitVec 32 :=
  (List.range n).foldl (uciTurn gold w input) out

/-- Bit `i` of an array of words. -/
def wordBit (words : ℕ → BitVec 32) (i : ℕ) : Bool :=
  (words (i / 32)).getLsbD (i % 32)

/-- A negative LLR stands for a one and a positive one for a zero. -/
def Codes (l : BitVec 16) (b : Bool) : Prop :=
  l ≠ 0 ∧ l.msb = b

/-- The sign codes `b` and the magnitude is that of `l`. -/
def Restores (l : BitVec 16) (b : Bool) (l' : BitVec 16) : Prop :=
  Codes l' b ∧ l'.toInt.natAbs = l.toInt.natAbs

variable {gold w input llr} {i : ℕ}

theorem lt_roundedSz (hi : i < w.size) : i / 32 < w.roundedSz := by
  rw [Codeword.roundedSz]
  omega

/-- **Bit `i` of the scrambled words is bit `i` of the codeword plus that of the sequence.** -/
theorem wordBit_scrambling (out : ℕ → BitVec 32) (hi : i < w.size) :
    wordBit (nrCodewordScrambling gold w input out) i =
      ((input i).getLsbD 0 ^^ wordBit (w.seq gold) i) := by
  have hlt : i % 32 < 32 := Nat.mod_lt i (by decide)
  rw [wordBit, nrCodewordScrambling, if_pos (lt_roundedSz hi), BitVec.getLsbD_xor, in32,
    BitVec.getLsbD_ofNat, Nat.testBit_ofBits_lt _ _ hlt, decide_eq_true hlt, Bool.true_and,
    BitVec.getLsbD_shiftLeft, BitVec.getLsbD_append]
  refine congrArg (· ^^ _) ?_
  rcases Nat.mod_two_eq_zero_or_one (i % 32) with h | h
  · have hi : 32 * (i / 32) + i % 32 / 2 * 2 = i := by omega
    simp [h, hi]
  · have hi : 32 * (i / 32) + i % 32 / 2 * 2 + 1 = i := by omega
    simp [h, hi]

theorem factor_eq (i : ℕ) : w.factor gold i = if wordBit (w.seq gold) i then -1 else 1 := by
  have hidx : i % 32 / 8 * 8 + i % 8 = i % 32 := by omega
  have hlane : i % 8 < 8 := Nat.mod_lt i (by decide)
  have hbit : (((w.seq gold (i / 32)).extractLsb' (i % 32 / 8 * 8) 8 >>> (i % 8)).setWidth
      16).getLsbD 0 = wordBit (w.seq gold) i := by
    simp [hidx, hlane, hlane.trans (show 8 < 16 by decide), wordBit]
  rw [Codeword.factor, byte2m128i, BitVec.and_one_eq_setWidth_ofBool_getLsbD, hbit]
  cases wordBit (w.seq gold) i <;> rfl

/-- **A factor restores the sign that was flipped**, unless it is -1 and meets the minimum. -/
theorem restores_mul_iff (h : Codes l (b ^^ s)) :
    Restores l b (l * if s then -1 else 1) ↔ (l = .intMin 16 → s = false) := by
  cases s with
  | false => simpa [Restores] using h
  | true =>
    obtain ⟨hne, hmsb⟩ := h
    rw [if_pos rfl, BitVec.mul_neg, show (1 : BitVec 16) = 1#16 from rfl, BitVec.mul_one, Restores,
      Codes, BitVec.msb_neg, hmsb]
    by_cases hl : l = .intMin 16
    · cases b <;> simp [hl]
    · rw [BitVec.toInt_neg_of_ne_intMin hl, Int.natAbs_neg]
      cases b <;> simp_all

/-- After `n` turns from zero, the first `n` bits are those of the scrambled codeword. -/
theorem wordBit_uci (hplain : ∀ i < n, input i ≠ 2 ∧ input i ≠ 3) (i : ℕ) :
    wordBit (nrPuschCodewordScramblingUci gold w input n fun _ ↦ 0) i =
      (decide (i < n) && ((input i).getLsbD 0 ^^ wordBit (gold (w.nRnti <<< 15 + w.nid)) i)) := by
  induction n with
  | zero => simp [nrPuschCodewordScramblingUci, wordBit]
  | succ n ih =>
    have ih := ih fun i hi ↦ hplain i (Nat.lt_succ_of_lt hi)
    obtain ⟨hx, hy⟩ := hplain n n.lt_succ_self
    rw [nrPuschCodewordScramblingUci, List.range_succ, List.foldl_append,
      ← nrPuschCodewordScramblingUci]
    simp only [List.foldl_cons, List.foldl_nil, uciTurn, if_neg hx, if_neg hy]
    rw [wordBit]
    rcases eq_or_ne (i / 32) (n / 32) with hw | hw
    · rw [hw, Function.update_self, BitVec.getLsbD_xor, ← hw, ← wordBit, ih,
        BitVec.and_one_eq_setWidth_ofBool_getLsbD, BitVec.and_one_eq_setWidth_ofBool_getLsbD,
        BitVec.getLsbD_shiftLeft]
      have hi : i % 32 < 32 := Nat.mod_lt i (by decide)
      rcases lt_trichotomy i n with h | rfl | h
      · simp [h, Nat.lt_succ_of_lt h, show i % 32 < n % 32 by omega]
      · simp [hi, wordBit]
      · simp [h.not_gt, show ¬ i < n + 1 by omega, show ¬ i % 32 - n % 32 = 0 by omega]
    · rw [Function.update_of_ne hw, ← wordBit, ih]
      have : i < n + 1 ↔ i < n := by omega
      simp [this]

/-- **Unscrambling restores signs and magnitudes** exactly if no LLR of -32768 is to be flipped; the
factors of `nr_codeword_unscrambling_init` are the same, and so are the bits of the loop for UCI. -/
theorem unscrambling_iff (out : ℕ → BitVec 32) (s2 : ℕ → BitVec 16)
    (h : ∀ i < w.size, Codes (llr i) (wordBit (nrCodewordScrambling gold w input out) i)) :
    ((∀ i < w.size, Restores (llr i) ((input i).getLsbD 0) (nrCodewordUnscrambling gold w llr i)) ∧
        (∀ i < w.size, nrCodewordUnscrambling gold w llr i =
          llr i * nrCodewordUnscramblingInit gold w s2 i) ∧
        ((∀ i < w.size, input i ≠ 2 ∧ input i ≠ 3) → ∀ i < w.size,
          wordBit (nrPuschCodewordScramblingUci gold w input w.size fun _ ↦ 0) i =
            wordBit (nrCodewordScrambling gold { w with q := 0 } input out) i)) ↔
      ∀ i < w.size, llr i = .intMin 16 → wordBit (w.seq gold) i = false := by
  have hpos (i : ℕ) (hi : i < w.size) :
      Restores (llr i) ((input i).getLsbD 0) (nrCodewordUnscrambling gold w llr i) ↔
        (llr i = .intMin 16 → wordBit (w.seq gold) i = false) := by
    rw [nrCodewordUnscrambling, if_pos (lt_roundedSz hi), factor_eq]
    exact restores_mul_iff (wordBit_scrambling out hi ▸ h i hi)
  refine ⟨fun hall i hi ↦ (hpos i hi).1 (hall.1 i hi), fun hall ↦
    ⟨fun i hi ↦ (hpos i hi).2 (hall i hi), fun i hi ↦ ?_, fun hplain i hi ↦ ?_⟩⟩
  · rw [nrCodewordUnscrambling, nrCodewordUnscramblingInit, if_pos (lt_roundedSz hi),
      if_pos (lt_roundedSz hi)]
  · have hi' : i < ({ w with q := 0 } : Codeword).size := hi
    rw [wordBit_uci hplain, wordBit_scrambling out hi', decide_eq_true hi, Bool.true_and,
      Codeword.seq, show BitVec.setWidth 32 (0 : BitVec 8) <<< 14 = 0#32 from rfl, BitVec.add_zero]

/-- An LLR of -5 for a zero that is scrambled to a one. -/
theorem minusFive_unscrambled :
    Restores (-5) false (nrCodewordUnscrambling (fun _ _ ↦ 1) ⟨1, 0, 0, 0⟩ (fun _ ↦ -5) 0) :=
  ((@unscrambling_iff (fun _ _ ↦ 1) ⟨1, 0, 0, 0⟩ (fun _ ↦ 0) (fun _ ↦ -5) (fun _ ↦ 0) (fun _ ↦ 0)
    fun i hi ↦ by
      rw [wordBit_scrambling _ hi, Nat.lt_one_iff.1 hi]
      exact ⟨by decide, rfl⟩).2 fun _ _ h ↦ absurd h (by decide)).1 0 Nat.one_pos

/-- An LLR of -32768 for the same zero keeps its sign. -/
theorem minimum_not_unscrambled :
    Codes (.intMin 16)
        (wordBit (nrCodewordScrambling (fun _ _ ↦ 1) ⟨1, 0, 0, 0⟩ (fun _ ↦ 0) fun _ ↦ 0) 0) ∧
      ¬ Codes (nrCodewordUnscrambling (fun _ _ ↦ 1) ⟨1, 0, 0, 0⟩ (fun _ ↦ .intMin 16) 0) false := by
  rw [wordBit_scrambling _ Nat.one_pos]
  exact ⟨⟨by decide, rfl⟩, fun h ↦ absurd h.2 (by decide)⟩

end OaiRan.Phy
