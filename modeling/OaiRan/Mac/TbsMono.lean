import OaiRan.Mac.Tbs

/-!
# The transport block size grows with the resource blocks

`nr_compute_tbs` rounds the number of information bits to a power of two that grows with it, looks
up a table or rounds once more so that all code blocks have the same size, and changes from one rule
to another at 3824 bits, at 8424 bits and with each further code block. **None of these steps takes
a larger number below a smaller one** (`tbsOfNInfo_mono`): a rounding never passes the next power of
two, or the next multiple of the size of a code block, and what lies beyond starts there.
-/

namespace OaiRan.Mac

open Nat

variable {a b n : ℕ}

variable {c k x y : ℕ}

/-! ### Powers of two -/

theorem log2_mono (h : a ≤ b) : a.log2 ≤ b.log2 := by
  rw [log2_eq_log_two, log2_eq_log_two]
  exact log_mono_right h

/-- A number with a smaller logarithm is below the power of two of the other. -/
theorem lt_two_pow_log2 (h : a.log2 < b.log2) : a < 2 ^ b.log2 :=
  Nat.lt_log2_self.trans_le (Nat.pow_le_pow_right (by decide) h)

theorem two_pow_log2_le (h : 0 < b) : 2 ^ b.log2 ≤ b := log2_self_le h.ne'

/-- The number of low bits that are dropped below 3824. -/
def droppedBits (n : ℕ) : ℕ := max 3 (n.log2 - 6)

/-- **Dropping low bits** keeps the order, although more are dropped of larger numbers. -/
theorem dropBits_mono (h : a ≤ b) :
    (a >>> droppedBits a) <<< droppedBits a ≤ (b >>> droppedBits b) <<< droppedBits b := by
  simp only [shiftRight_eq_div_pow, shiftLeft_eq]
  by_cases hsame : droppedBits a = droppedBits b
  · rw [hsame]
    exact Nat.mul_le_mul_right _ (Nat.div_le_div_right h)
  · have hlog := log2_mono h
    have hlt : a.log2 < b.log2 := by
      refine lt_of_le_of_ne hlog fun heq ↦ hsame ?_
      rw [droppedBits, droppedBits, heq]
    have hdrop : droppedBits b ≤ b.log2 := by
      rw [droppedBits, droppedBits] at hsame
      rw [droppedBits]
      omega
    have hpos : 0 < b := Nat.pos_of_ne_zero (by rintro rfl; simp at hlt)
    calc a / 2 ^ droppedBits a * 2 ^ droppedBits a
        ≤ a := div_mul_le_self _ _
      _ ≤ 2 ^ b.log2 := (lt_two_pow_log2 hlt).le
      _ = 2 ^ b.log2 / 2 ^ droppedBits b * 2 ^ droppedBits b :=
        (Nat.div_mul_cancel (Nat.pow_dvd_pow 2 hdrop)).symm
      _ ≤ b / 2 ^ droppedBits b * 2 ^ droppedBits b :=
        Nat.mul_le_mul_right _ (Nat.div_le_div_right (two_pow_log2_le hpos))

/-- The nearest multiple of a power of two. -/
def roundTo (n a : ℕ) : ℕ := roundIDiv a (1 <<< n) <<< n

theorem roundTo_eq (n a : ℕ) : roundTo n a = (a * 2 + 2 ^ n) / (2 ^ n * 2) * 2 ^ n := by
  rw [roundTo, roundIDiv, one_shiftLeft, shiftLeft_eq, shiftLeft_eq, shiftLeft_eq]

/-- A multiple of the power below a number is below the rounded one. -/
theorem le_roundTo (h : k * 2 ^ n ≤ a) : k * 2 ^ n ≤ roundTo n a := by
  have hpos := Nat.two_pow_pos n
  rw [roundTo_eq]
  refine Nat.mul_le_mul_right _ ((Nat.le_div_iff_mul_le (Nat.mul_pos hpos (by decide))).2 ?_)
  rw [← Nat.mul_assoc]
  omega

/-- A multiple of the power above a number is above the rounded one. -/
theorem roundTo_le (h : a ≤ k * 2 ^ n) : roundTo n a ≤ k * 2 ^ n := by
  have hpos := Nat.two_pow_pos n
  rw [roundTo_eq]
  refine Nat.mul_le_mul_right _ (Nat.lt_succ_iff.1 ?_)
  rw [Nat.div_lt_iff_lt_mul (Nat.mul_pos hpos (by decide)), Nat.succ_mul, ← Nat.mul_assoc]
  omega

theorem roundTo_mono (h : a ≤ b) : roundTo n a ≤ roundTo n b := by
  rw [roundTo_eq, roundTo_eq]
  refine Nat.mul_le_mul_right _ (Nat.div_le_div_right ?_)
  omega

/-- **Rounding to six significant bits** keeps the order. -/
theorem roundTo_log2_mono (ha : 32 ≤ a) (h : a ≤ b) :
    roundTo (a.log2 - 5) a ≤ roundTo (b.log2 - 5) b := by
  have hfive : ∀ {c}, 32 ≤ c → 2 ^ c.log2 = 32 * 2 ^ (c.log2 - 5) := by
    intro c hc
    have hlog : 5 ≤ c.log2 := (le_log2 (by omega)).2 hc
    rw [show (32 : ℕ) = 2 ^ 5 from rfl, ← pow_add]
    congr 1
    omega
  rcases (log2_mono h).eq_or_lt with hlog | hlog
  · rw [hlog]
    exact roundTo_mono h
  · have hself : a ≤ 64 * 2 ^ (a.log2 - 5) := by
      have hlt := lt_log2_self (n := a)
      rw [pow_succ, hfive ha] at hlt
      omega
    calc roundTo (a.log2 - 5) a
        ≤ 64 * 2 ^ (a.log2 - 5) := roundTo_le hself
      _ = 2 ^ (a.log2 + 1) := by rw [pow_succ, hfive ha]; omega
      _ ≤ 2 ^ b.log2 := Nat.pow_le_pow_right (by decide) hlog
      _ = 32 * 2 ^ (b.log2 - 5) := hfive (ha.trans h)
      _ ≤ roundTo (b.log2 - 5) b :=
        le_roundTo (hfive (ha.trans h) ▸ two_pow_log2_le (by omega))

/-! ### The table -/

/-- The first entry of a sorted list with a property is its smallest. -/
theorem le_of_find?_eq_some {l : List ℕ} (hl : l.Pairwise (· ≤ ·)) {p : ℕ → Bool}
    (hx : l.find? p = some x) (hy : y ∈ l) (hp : p y = true) : x ≤ y := by
  obtain ⟨-, pre, post, rfl, hpre⟩ := List.find?_eq_some_iff_append.1 hx
  rcases List.mem_append.1 hy with hy | hy
  · have := hpre y hy
    rw [hp] at this
    cases this
  · rcases List.mem_cons.1 hy with rfl | hy
    · exact le_rfl
    · exact (List.pairwise_cons.1 (List.pairwise_append.1 hl).2.1).1 y hy

/-- Looking up the table keeps the order. -/
theorem lookup_mono (h : a ≤ b) (hb : b ≤ 3824) :
    (tbsTableNr.find? (a ≤ ·)).getD 0 ≤ (tbsTableNr.find? (b ≤ ·)).getD 0 := by
  have hsome : ∀ {c}, c ≤ 3824 → ∃ t, tbsTableNr.find? (c ≤ ·) = some t := by
    intro c hc
    rw [← Option.isSome_iff_exists, List.find?_isSome]
    exact ⟨3824, by decide, decide_eq_true hc⟩
  obtain ⟨t, ht⟩ := hsome (h.trans hb)
  obtain ⟨u, hu⟩ := hsome hb
  have hbu : decide (b ≤ u) = true := List.find?_some (p := fun x ↦ decide (b ≤ x)) hu
  rw [ht, hu]
  exact le_of_find?_eq_some (by decide) ht (List.mem_of_find?_eq_some hu)
    (decide_eq_true (h.trans (of_decide_eq_true hbu)))

/-! ### Code blocks -/

theorem ceilIDiv_mono (h : a ≤ b) : ceilIDiv a c ≤ ceilIDiv b c := by
  exact Nat.div_le_div_right (by omega)

/-- The size of all code blocks of at most `8 * k` bits for `a` bits. -/
def segmented (k a : ℕ) : ℕ :=
  (ceilIDiv a (8 * k) <<< 3) * ceilIDiv a (ceilIDiv a (8 * k) <<< 3)

/-- The code blocks of one number of them do not pass what they can hold. -/
theorem segmented_le (hk : 0 < k) (ha : 0 < a) : segmented k a ≤ 8 * k * ceilIDiv a (8 * k) := by
  have hle := le_mul_ceilIDiv (a := a) (b := 8 * k) (by omega)
  have hpos := ceilIDiv_pos ha (show 0 < 8 * k by omega)
  rw [segmented, shiftLeft_eq]
  generalize ceilIDiv a (8 * k) = c at hle hpos ⊢
  have hsize : ceilIDiv a (c * 2 ^ 3) ≤ k := by
    rw [ceilIDiv_le_iff (by omega)]
    rwa [mul_comm, ← mul_assoc] at hle
  refine (mul_le_mul_left _ hsize).trans (le_of_eq ?_)
  rw [mul_comm (8 * k), ← mul_assoc]

/-- **Segmentation** keeps the order. -/
theorem segmented_mono (hk : 0 < k) (ha : 0 < a) (h : a ≤ b) : segmented k a ≤ segmented k b := by
  rcases (ceilIDiv_mono (c := 8 * k) h).eq_or_lt with heq | hlt
  · rw [segmented, segmented, heq]
    exact mul_le_mul_left _ (ceilIDiv_mono h)
  · -- a further code block is there only for more bits than the others hold
    have hb : 8 * k * ceilIDiv a (8 * k) < b := by
      refine Nat.lt_of_not_le fun hle ↦ ?_
      exact absurd ((ceilIDiv_le_iff (by omega)).2 hle) (by omega)
    have hblocks := ceilIDiv_pos (ha.trans_le h) (show 0 < 8 * k by omega)
    exact (segmented_le hk ha).trans (hb.le.trans (le_shiftLeft_three_mul_ceilIDiv hblocks))

theorem roundedTbs_eq (r npInfo : ℕ) : roundedTbs r npInfo =
    if r ≤ 2560 then segmented 477 (npInfo + 24)
    else if npInfo > 8424 then segmented 1053 (npInfo + 24)
    else ceilIDiv (npInfo + 24) 8 <<< 3 := rfl

theorem roundedTbs_mono (r : ℕ) (h : a ≤ b) : roundedTbs r a ≤ roundedTbs r b := by
  have h24 : a + 24 ≤ b + 24 := Nat.add_le_add_right h 24
  have hle := le_roundedTbs r b
  rw [roundedTbs_eq, roundedTbs_eq] at *
  split
  · exact segmented_mono (by decide) (succ_pos _) h24
  rename_i hr
  rw [if_neg hr] at hle
  split
  · rw [if_pos (show b > 8424 by omega)]
    exact segmented_mono (by decide) (succ_pos _) h24
  · have hceil : ceilIDiv (a + 24) 8 ≤ 1056 := (ceilIDiv_le_iff (by decide)).2 (by omega)
    have hmono := ceilIDiv_mono (c := 8) h24
    split
    · rename_i hlarge
      rw [if_pos hlarge] at hle
      omega
    · omega

/-! ### All rules together -/

/-- **The transport block size grows with the information bits.** -/
theorem tbsOfNInfo_mono (r : ℕ) (h : a ≤ b) : tbsOfNInfo r a ≤ tbsOfNInfo r b := by
  rcases lt_or_ge 3824 a with ha | ha
  · have hlarge : npInfoLarge a ≤ npInfoLarge b := by
      have hround : roundTo ((a - 24).log2 - 5) (a - 24) ≤ roundTo ((b - 24).log2 - 5) (b - 24) :=
        roundTo_log2_mono (by omega) (by omega)
      rw [npInfoLarge, npInfoLarge, ← roundTo, ← roundTo]
      omega
    have hmono := roundedTbs_mono r hlarge
    rw [← tbsOfNInfo_eq_roundedTbs r ha, ← tbsOfNInfo_eq_roundedTbs r (ha.trans_le h)] at hmono
    omega
  rcases lt_or_ge 3824 b with hb | hb
  · have hmax : tbsOfNInfo r a ≤ 3824 :=
      (show ∀ t ∈ tbsTableNr, t ≤ 3824 by decide) _ (tbsOfNInfo_mem ha)
    have hle := le_roundedTbs r (npInfoLarge b)
    have hmin := le_npInfoLarge b
    rw [← tbsOfNInfo_eq_roundedTbs r hb] at hle
    omega
  · rw [tbsOfNInfo, tbsOfNInfo, if_pos ha, if_pos hb]
    have hdrop := dropBits_mono h
    have hle : (b >>> droppedBits b) <<< droppedBits b ≤ 3824 := by
      rw [shiftRight_eq_div_pow, shiftLeft_eq]
      exact (div_mul_le_self b _).trans hb
    exact lookup_mono (by rw [← droppedBits, ← droppedBits]; omega)
      (by rw [← droppedBits]; omega)

namespace TbsParams

/-- `nbp_re`, an `uint32_t`. -/
def nbpRe (q : TbsParams) : ℕ := (((12 * q.nbSymbSch : ℕ) - q.nbDmrsPrb : ℤ) % 2 ^ 32).toNat

/-- The product behind `Ninfo` fits in an `uint32_t` for `nbRb` resource blocks. -/
def NoOverflow (q : TbsParams) (nbRb : ℕ) : Prop :=
  min 156 q.nbpRe * nbRb * (q.r / 5) * q.qm * q.nrOfLayers < 2 ^ 32

instance (q : TbsParams) (nbRb : ℕ) : Decidable (q.NoOverflow nbRb) :=
  inferInstanceAs (Decidable (_ < _))

variable {q : TbsParams} {m : ℕ}

theorem NoOverflow.nInfo_eq (h : q.NoOverflow n) :
    nInfo q.qm q.r n q.nbSymbSch q.nbDmrsPrb 0 0 q.nrOfLayers =
      (min 156 q.nbpRe * n * (q.r / 5) * q.qm * q.nrOfLayers) >>> 11 := by
  have hmod : (min 156 q.nbpRe * n) % 2 ^ 32 * (q.r / 5) * q.qm * q.nrOfLayers % 2 ^ 32 =
      min 156 q.nbpRe * n * (q.r / 5) * q.qm * q.nrOfLayers := by
    simp only [mul_assoc, mod_mul_mod]
    simp only [← mul_assoc]
    exact mod_eq_of_lt h
  rw [nInfo, Int.natCast_zero, Int.sub_zero, ← nbpRe, hmod, shiftRight_zero]

section

variable (h : q.NoOverflow m) (hle : n ≤ m)
include h hle

theorem NoOverflow.mono : q.NoOverflow n := by
  refine lt_of_le_of_lt ?_ h
  exact mul_le_mul_right _ (mul_le_mul_right _ (mul_le_mul_right _
    (mul_le_mul_left _ hle)))

/-- **More resource blocks hold at least as much**, as long as the product does not overflow. -/
theorem nrComputeTbs_mono :
    nrComputeTbs q.qm q.r n q.nbSymbSch q.nbDmrsPrb 0 0 q.nrOfLayers ≤
      nrComputeTbs q.qm q.r m q.nbSymbSch q.nbDmrsPrb 0 0 q.nrOfLayers := by
  refine tbsOfNInfo_mono q.r ?_
  rw [h.nInfo_eq, (h.mono hle).nInfo_eq, shiftRight_eq_div_pow, shiftRight_eq_div_pow]
  exact Nat.div_le_div_right (Nat.mul_le_mul_right _ (Nat.mul_le_mul_right _
    (mul_le_mul_right _ (mul_le_mul_left _ hle))))

end

end TbsParams

end OaiRan.Mac
