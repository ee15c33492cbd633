import Mathlib.Algebra.GroupWithZero.Nat
import Mathlib.Algebra.Group.Int.Defs
import Mathlib.Data.Nat.Log

/-!
# Transport block sizes and the number of resource blocks

`nr_compute_tbs` is the transport block size of TS 38.214, in bits; `nr_find_nb_rb` searches the
number of resource blocks whose transport block takes a number of bytes.
-/

namespace OaiRan.Mac

open Nat

def tbsTableNr : List ℕ :=
  [24, 32, 40, 48, 56, 64, 72, 80, 88, 96, 104, 112, 120, 128, 136, 144, 152, 160, 168,
    176, 184, 192, 208, 224, 240, 256, 272, 288, 304, 320, 336, 352, 368, 384, 408, 432, 456, 480,
    504, 528, 552, 576, 608, 640, 672, 704, 736, 768, 808, 848, 888, 928, 984, 1032, 1064, 1128,
    1160, 1192, 1224, 1256, 1288, 1320, 1352, 1416, 1480, 1544, 1608, 1672, 1736, 1800, 1864, 1928,
    2024, 2088, 2152, 2216, 2280, 2408, 2472, 2536, 2600, 2664, 2728, 2792, 2856, 2976, 3104, 3240,
    3368, 3496, 3624, 3752, 3824]

def ceilIDiv (a b : ℕ) : ℕ := (a + b - 1) / b

def roundIDiv (a b : ℕ) : ℕ := ((a <<< 1) + b) / (b <<< 1)

/-- The number of information bits, `Ninfo`. -/
def nInfo (qm r nbRb nbSymbSch nbDmrsPrb nbRbOh tbScaling nl : ℕ) : ℕ :=
  let nbpRe := (((12 * nbSymbSch : ℕ) - nbDmrsPrb - nbRbOh : ℤ) % 2 ^ 32).toNat
  let nbRe := min 156 nbpRe * nbRb % 2 ^ 32
  (((nbRe * (r / 5) * qm * nl) % 2 ^ 32) >>> 11) >>> tbScaling

/-- The transport block size for `Ninfo` bits and a code rate. -/
def tbsOfNInfo (r nInfo : ℕ) : ℕ :=
  if nInfo ≤ 3824 then
    let n := max 3 (log2 nInfo - 6)
    let npInfo := max 24 ((nInfo >>> n) <<< n)
    (tbsTableNr.find? (npInfo ≤ ·)).getD 0
  else
    let n := log2 (nInfo - 24) - 5
    let npInfo := max 3840 (roundIDiv (nInfo - 24) (1 <<< n) <<< n)
    if r ≤ 2560 then
      let c := ceilIDiv (npInfo + 24) 3816
      (c <<< 3) * ceilIDiv (npInfo + 24) (c <<< 3) - 24
    else if npInfo > 8424 then
      let c := ceilIDiv (npInfo + 24) 8424
      (c <<< 3) * ceilIDiv (npInfo + 24) (c <<< 3) - 24
    else (ceilIDiv (npInfo + 24) 8 <<< 3) - 24

def nrComputeTbs (qm r nbRb nbSymbSch nbDmrsPrb nbRbOh tbScaling nl : ℕ) : ℕ :=
  tbsOfNInfo r (nInfo qm r nbRb nbSymbSch nbDmrsPrb nbRbOh tbScaling nl)

/-- What the transport block size depends on but the number of resource blocks. -/
structure TbsParams where
  (qm r nrOfLayers nbSymbSch nbDmrsPrb : ℕ)

/-- The transport block size in bytes, as the scheduler computes it. -/
def TbsParams.tbs (q : TbsParams) (nbRb : ℕ) : ℕ :=
  nrComputeTbs q.qm q.r nbRb q.nbSymbSch q.nbDmrsPrb 0 0 q.nrOfLayers >>> 3

/-- A loop `while (rb % q == 0) rb /= q`, for `rb` positive. -/
def divideOut (q : ℕ) : ℕ → ℕ → ℕ
  | 0, rb => rb
  | fuel + 1, rb => if rb % q = 0 then divideOut q fuel (rb / q) else rb

/-- `multiple_2_3_5`, for `rb` positive. -/
def multiple235 (rb : ℕ) : Bool :=
  let rb := divideOut 2 rb rb
  let rb := divideOut 3 rb rb
  let rb := divideOut 5 rb rb
  rb == 1

/-- The first loop of `nr_find_nb_rb`. For 0, `multiple_2_3_5` does not return. -/
def lowerNbRbMax : ℕ → Option ℕ
  | 0 => none
  | n + 1 => if multiple235 (n + 1) then some (n + 1) else lowerNbRbMax n

/-- The loop that raises `p`; `hi` itself is of the form that ends it. -/
def raiseToMultiple : ℕ → ℕ → ℕ
  | 0, p => p
  | fuel + 1, p => if multiple235 p then p else raiseToMultiple fuel (p + 1)

/-- The binary search of `nr_find_nb_rb`: the value of `hi` it ends with. -/
def searchNbRb (tbs : ℕ → ℕ) (transformPrecoding : Bool) (bytes : ℕ) : ℕ → ℕ → ℕ → ℕ
  | 0, _, hi => hi
  | fuel + 1, lo, hi =>
    if lo + 1 < hi then
      let mid := (hi + lo) / 2
      let p := if transformPrecoding then raiseToMultiple (hi - mid) mid else mid
      if p = hi then hi
      else if bytes = tbs p then p
      else if bytes < tbs p then searchNbRb tbs transformPrecoding bytes fuel lo p
      else searchNbRb tbs transformPrecoding bytes fuel p hi
    else hi

/-- What `nr_find_nb_rb` returns. -/
structure NbRbResult where
  success : Bool
  (tbs nbRb : ℕ)

/-- `nr_find_nb_rb` after its first loop. -/
def findNbRb (tbs : ℕ → ℕ) (transformPrecoding : Bool) (bytes nbRbMin nbRbMax : ℕ) : NbRbResult :=
  if bytes > tbs nbRbMax then ⟨false, tbs nbRbMax, nbRbMax⟩
  else if bytes = tbs nbRbMax then ⟨true, tbs nbRbMax, nbRbMax⟩
  else if bytes ≤ tbs nbRbMin then ⟨true, tbs nbRbMin, nbRbMin⟩
  else
    let nbRb := searchNbRb tbs transformPrecoding bytes nbRbMax nbRbMin nbRbMax
    ⟨decide (tbs nbRb ≥ bytes ∧ nbRb ≤ nbRbMax), tbs nbRb, nbRb⟩

/-- `nr_find_nb_rb`, `none` where it does not return. -/
def nrFindNbRb (tbs : ℕ → ℕ) (transformPrecoding : Bool) (bytes nbRbMin nbRbMax : ℕ) :
    Option NbRbResult :=
  (if transformPrecoding then lowerNbRbMax nbRbMax else some nbRbMax).map
    (findNbRb tbs transformPrecoding bytes nbRbMin)

/-! ### Bounds -/

theorem le_mul_ceilIDiv {a b : ℕ} (hb : 0 < b) : a ≤ b * ceilIDiv a b := by
  have h := div_add_mod (a + b - 1) b
  have hlt := mod_lt (a + b - 1) hb
  rw [ceilIDiv]
  omega

theorem ceilIDiv_le_iff (hb : 0 < b) : ceilIDiv a b ≤ k ↔ a ≤ b * k := by
  rw [ceilIDiv, div_le_iff_le_mul_add_pred hb]
  omega

theorem ceilIDiv_pos {a b : ℕ} (ha : 0 < a) (hb : 0 < b) : 0 < ceilIDiv a b :=
  div_pos (by omega) hb

theorem le_shiftLeft_three_mul_ceilIDiv (hc : 0 < c) : a ≤ (c <<< 3) * ceilIDiv a (c <<< 3) :=
  le_mul_ceilIDiv (by rw [shiftLeft_eq]; omega)

/-- Few information bits: a size of the table. -/
theorem tbsOfNInfo_mem (hn : n ≤ 3824) : tbsOfNInfo r n ∈ tbsTableNr := by
  rw [tbsOfNInfo, if_pos hn]
  dsimp only
  generalize max 3 (n.log2 - 6) = k
  have hle : (n >>> k) <<< k ≤ 3824 := by
    rw [shiftRight_eq_div_pow, shiftLeft_eq]
    exact (div_mul_le_self n _).trans hn
  obtain ⟨t, ht⟩ : ∃ t, tbsTableNr.find? (max 24 ((n >>> k) <<< k) ≤ ·) = some t := by
    rw [← Option.isSome_iff_exists, List.find?_isSome]
    exact ⟨3824, by decide, decide_eq_true (Nat.max_le.2 ⟨by decide, hle⟩)⟩
  rw [ht, Option.getD_some]
  exact List.mem_of_find?_eq_some ht

/-- The transport block size for a rounded number of information bits, with its CRC. -/
def roundedTbs (r npInfo : ℕ) : ℕ :=
  if r ≤ 2560 then
    (ceilIDiv (npInfo + 24) 3816 <<< 3) * ceilIDiv (npInfo + 24) (ceilIDiv (npInfo + 24) 3816 <<< 3)
  else if npInfo > 8424 then
    (ceilIDiv (npInfo + 24) 8424 <<< 3) * ceilIDiv (npInfo + 24) (ceilIDiv (npInfo + 24) 8424 <<< 3)
  else ceilIDiv (npInfo + 24) 8 <<< 3

theorem le_roundedTbs (r npInfo : ℕ) : npInfo + 24 ≤ roundedTbs r npInfo := by
  rw [roundedTbs]
  split
  · exact le_shiftLeft_three_mul_ceilIDiv (ceilIDiv_pos (succ_pos _) (by decide))
  split
  · exact le_shiftLeft_three_mul_ceilIDiv (ceilIDiv_pos (succ_pos _) (by decide))
  · rw [shiftLeft_eq, mul_comm]
    exact le_mul_ceilIDiv (by decide)

/-- Many information bits, rounded: `Np_info` for `Ninfo` above 3824. -/
def npInfoLarge (nInfo : ℕ) : ℕ :=
  max 3840 (roundIDiv (nInfo - 24) (1 <<< ((nInfo - 24).log2 - 5)) <<< ((nInfo - 24).log2 - 5))

theorem le_npInfoLarge (n : ℕ) : 3840 ≤ npInfoLarge n := le_max_left _ _

/-- Many information bits: a rounded size. -/
theorem tbsOfNInfo_eq_roundedTbs (r : ℕ) (hn : 3824 < n) :
    tbsOfNInfo r n + 24 = roundedTbs r (npInfoLarge n) := by
  have hle := le_roundedTbs r (npInfoLarge n)
  rw [tbsOfNInfo, if_neg (not_le.2 hn)]
  dsimp only
  rw [← npInfoLarge]
  rw [roundedTbs] at hle ⊢
  split at hle
  · rw [if_pos ‹_›, if_pos ‹_›]
    omega
  split at hle
  · rw [if_neg ‹_›, if_pos ‹_›, if_neg ‹_›, if_pos ‹_›]
    omega
  · rw [if_neg ‹_›, if_neg ‹_›, if_neg ‹_›, if_neg ‹_›]
    omega

/-- A transport block has at least 24 bits. -/
theorem le_tbsOfNInfo (r n : ℕ) : 24 ≤ tbsOfNInfo r n := by
  by_cases hn : n ≤ 3824
  · exact (show ∀ a ∈ tbsTableNr, 24 ≤ a by decide) _ (tbsOfNInfo_mem hn)
  · have heq := tbsOfNInfo_eq_roundedTbs r (not_le.1 hn)
    have hle := le_roundedTbs r (npInfoLarge n)
    have hmin := le_npInfoLarge n
    omega

/-- With no resource blocks, exactly 24. -/
theorem nrComputeTbs_zero (qm r nbSymbSch nbDmrsPrb nbRbOh tbScaling nl : ℕ) :
    nrComputeTbs qm r 0 nbSymbSch nbDmrsPrb nbRbOh tbScaling nl = 24 := by
  have : nInfo qm r 0 nbSymbSch nbDmrsPrb nbRbOh tbScaling nl = 0 := by
    simp [nInfo]
  rw [nrComputeTbs, this]
  rfl

theorem TbsParams.tbs_zero_le (q : TbsParams) (n : ℕ) : q.tbs 0 ≤ q.tbs n := by
  rw [TbsParams.tbs, TbsParams.tbs, nrComputeTbs_zero, shiftRight_eq_div_pow, shiftRight_eq_div_pow]
  exact Nat.div_le_div_right (le_tbsOfNInfo _ _)

theorem lowerNbRbMax_le (h : lowerNbRbMax n = some m) : m ≤ n := by
  induction n with
  | zero => simp [lowerNbRbMax] at h
  | succ n ih =>
    rw [lowerNbRbMax] at h
    split at h
    · simp at h
      omega
    · have := ih h
      omega

theorem raiseToMultiple_le (fuel p : ℕ) : raiseToMultiple fuel p ≤ p + fuel := by
  induction fuel generalizing p with
  | zero => exact le_refl p
  | succ fuel ih =>
    rw [raiseToMultiple]
    split
    · omega
    · have := ih (p + 1)
      omega

theorem le_raiseToMultiple (fuel p : ℕ) : p ≤ raiseToMultiple fuel p := by
  induction fuel generalizing p with
  | zero => exact le_refl p
  | succ fuel ih =>
    rw [raiseToMultiple]
    split
    · exact le_refl p
    · exact (le_succ p).trans (ih (p + 1))

/-- **The search stays between its bounds.** -/
theorem searchNbRb_mem (tbs : ℕ → ℕ) (tp : Bool) (bytes fuel : ℕ) {lo hi : ℕ} (h : lo ≤ hi) :
    lo ≤ searchNbRb tbs tp bytes fuel lo hi ∧ searchNbRb tbs tp bytes fuel lo hi ≤ hi := by
  induction fuel generalizing lo hi with
  | zero => exact ⟨h, le_rfl⟩
  | succ fuel ih =>
    rw [searchNbRb]
    split
    · have hp : lo ≤ (if tp then raiseToMultiple (hi - (hi + lo) / 2) ((hi + lo) / 2)
          else (hi + lo) / 2) ∧ (if tp then raiseToMultiple (hi - (hi + lo) / 2) ((hi + lo) / 2)
          else (hi + lo) / 2) ≤ hi := by
        split
        · have h₁ := raiseToMultiple_le (hi - (hi + lo) / 2) ((hi + lo) / 2)
          have h₂ := le_raiseToMultiple (hi - (hi + lo) / 2) ((hi + lo) / 2)
          omega
        · omega
      dsimp only
      generalize (if tp then raiseToMultiple (hi - (hi + lo) / 2) ((hi + lo) / 2)
        else (hi + lo) / 2) = p at hp ⊢
      split
      · exact ⟨h, le_rfl⟩
      split
      · exact hp
      split
      · exact (ih hp.1).imp_right hp.2.trans'
      · exact (ih hp.2).imp_left hp.1.trans
    · exact ⟨h, le_rfl⟩

theorem searchNbRb_le (tbs : ℕ → ℕ) (tp : Bool) (bytes fuel lo hi : ℕ) :
    searchNbRb tbs tp bytes fuel lo hi ≤ hi := by
  rcases le_total lo hi with h | h
  · exact (searchNbRb_mem tbs tp bytes fuel h).2
  · rcases fuel with - | fuel
    · exact le_rfl
    · rw [searchNbRb, if_neg (by omega)]

/-- **The number found is at most the maximum**, unless the minimum is more than it and the code
takes the minimum because the maximum would hold more than is asked for. -/
theorem findNbRb_le (tbs : ℕ → ℕ) (tp : Bool) (bytes nbRbMin nbRbMax : ℕ) :
    (findNbRb tbs tp bytes nbRbMin nbRbMax).tbs = tbs (findNbRb tbs tp bytes nbRbMin nbRbMax).nbRb ∧
      ((findNbRb tbs tp bytes nbRbMin nbRbMax).nbRb ≤ nbRbMax ∨
        (findNbRb tbs tp bytes nbRbMin nbRbMax).nbRb = nbRbMin ∧ bytes < tbs nbRbMax) := by
  rw [findNbRb]
  split
  · exact ⟨rfl, .inl (le_refl _)⟩
  split
  · exact ⟨rfl, .inl (le_refl _)⟩
  split
  · exact ⟨rfl, .inr ⟨rfl, by omega⟩⟩
  · exact ⟨rfl, .inl (searchNbRb_le ..)⟩

theorem le_findNbRb (tbs : ℕ → ℕ) (tp : Bool) (bytes : ℕ)
    (h : nbRbMin ≤ nbRbMax) : nbRbMin ≤ (findNbRb tbs tp bytes nbRbMin nbRbMax).nbRb := by
  rw [findNbRb]
  split
  · exact h
  split
  · exact h
  split
  · exact le_refl _
  · exact (searchNbRb_mem tbs tp bytes _ h).1

theorem lowerNbRbMax_pos (h : lowerNbRbMax n = some m) : 0 < m := by
  induction n with
  | zero => simp [lowerNbRbMax] at h
  | succ n ih =>
    rw [lowerNbRbMax] at h
    split at h
    · simp only [Option.some.injEq] at h
      omega
    · exact ih h

/-- What `nr_find_nb_rb` looks for is a number of blocks up to some maximum, below the one given. -/
theorem nrFindNbRb_eq_some (h : nrFindNbRb tbs tp bytes nbRbMin nbRbMax = some q) :
    ∃ n ≤ nbRbMax, (0 < nbRbMax → 0 < n) ∧ (nbRbMax = 0 → n = 0) ∧
      q = findNbRb tbs tp bytes nbRbMin n := by
  obtain ⟨n, hn, rfl⟩ := Option.map_eq_some_iff.1 h
  split at hn
  · have hle := lowerNbRbMax_le hn
    have hpos := lowerNbRbMax_pos hn
    exact ⟨n, hle, fun _ ↦ hpos, fun _ ↦ by omega, rfl⟩
  · cases hn
    exact ⟨_, le_refl _, id, id, rfl⟩

theorem nrFindNbRb_le
    (h : nrFindNbRb tbs tp bytes nbRbMin nbRbMax = some q) (hmin : nbRbMin ≤ bound)
    (hmax : nbRbMax ≤ bound) : q.nbRb ≤ bound := by
  obtain ⟨n, hn, -, -, rfl⟩ := nrFindNbRb_eq_some h
  rcases (findNbRb_le tbs tp bytes nbRbMin n).2 with hle | ⟨hle, -⟩ <;> omega

end OaiRan.Mac
