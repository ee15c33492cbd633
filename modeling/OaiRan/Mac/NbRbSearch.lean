import OaiRan.Lib.Bisection
import OaiRan.Mac.TbsMono
import Mathlib.Data.Nat.Find
import Mathlib.Data.Nat.GCD.Basic
import Mathlib.Data.Nat.Prime.Basic

/-!
# The number of resource blocks for a transport block

`nr_find_nb_rb` bisects for the smallest number of resource blocks that holds some bytes. With
transform precoding only products of powers of 2, 3 and 5 are allowed, and the midpoint is raised to
the next of them. The number that it returns is allowed and in the range, but it is **not always the
smallest**:

* the search ends as soon as a transport block has exactly the size, also where fewer blocks have
  the same;
* if no allowed number lies between the midpoint and the upper end, the search is given up, although
  one may lie below the midpoint;
* the product behind the size of a transport block is an `uint32_t`, and where it wraps, more blocks
  may hold less.

All of them can be told from the intervals that the bisection comes to and from the size at their
midpoints (`Bisects`).

## The results, and what each rests on

* `optimal_findNbRb_iff`: the search is optimal exactly if `Bisects` holds, for any function in the
  place of the transport block size. It is `Bisection.search_eq_iff` with the three cases in which
  the code does not come to its loop.
* `precoded_optimal_iff`: so with transform precoding, for all parameters. That `multiple_2_3_5`
  decides the form is `multiple235_iff`, and that the first loop ends at the largest allowed number
  `lowerNbRbMax_isLargest`.
* `findsSmallest_iff`: without it, where the size has to be monotone as well. It is if the product
  does not wrap (`TbsParams.nrComputeTbs_mono`).
-/

namespace OaiRan.Mac

open Bisection Nat

/-! ### Products of powers of 2, 3 and 5 -/

/-- The number of resource blocks is allowed: with transform precoding, a product of powers of 2, 3
and 5. -/
def Allowed (transformPrecoding : Bool) (nbRb : ℕ) : Prop :=
  transformPrecoding = true → ∃ a b c, nbRb = 2 ^ a * 3 ^ b * 5 ^ c

variable {tp : Bool} {tbs : ℕ → ℕ} {bytes n m p fuel lo hi : ℕ}

theorem allowed_false (n : ℕ) : Allowed false n := fun h ↦ absurd h Bool.false_ne_true

/-- A loop `while (rb % q == 0) rb /= q` divides by a power of `q`. -/
theorem divideOut_spec (hq : 1 < q) (hn : 0 < n) (hfuel : n ≤ fuel) :
    (∃ k, n = q ^ k * divideOut q fuel n) ∧ ¬ q ∣ divideOut q fuel n ∧ 0 < divideOut q fuel n := by
  induction fuel generalizing n with
  | zero => omega
  | succ fuel ih =>
    rw [divideOut]
    split
    · rename_i hmod
      have hdvd := dvd_of_mod_eq_zero hmod
      have hlt : n / q < n := div_lt_self hn hq
      obtain ⟨⟨k, hk⟩, hrest⟩ := ih (div_pos (le_of_dvd hn hdvd) (by omega)) (by omega)
      refine ⟨⟨k + 1, ?_⟩, hrest⟩
      rw [Nat.pow_succ, Nat.mul_right_comm, ← hk, Nat.div_mul_cancel hdvd]
    · rename_i hmod
      exact ⟨⟨0, by simp⟩, fun h ↦ hmod (mod_eq_zero_of_dvd h), hn⟩

/-- **`multiple_2_3_5`** recognises the products of powers of 2, 3 and 5. -/
theorem multiple235_iff (hn : 0 < n) :
    multiple235 n = true ↔ ∃ a b c, n = 2 ^ a * 3 ^ b * 5 ^ c := by
  obtain ⟨⟨a, ha⟩, h2, hpos2⟩ := divideOut_spec (q := 2) (by decide) hn le_rfl
  obtain ⟨⟨b, hb⟩, h3, hpos3⟩ := divideOut_spec (q := 3) (by decide) hpos2 le_rfl
  obtain ⟨⟨c, hc⟩, h5, hpos5⟩ := divideOut_spec (q := 5) (by decide) hpos3 le_rfl
  rw [multiple235, beq_iff_eq]
  generalize divideOut 2 n n = d₂ at *
  generalize divideOut 3 d₂ d₂ = d₃ at *
  generalize divideOut 5 d₃ d₃ = d₅ at *
  constructor
  · rintro rfl
    exact ⟨a, b, c, by rw [ha, hb, hc, mul_one, mul_assoc]⟩
  · rintro ⟨a', b', c', hn'⟩
    -- what is left has no factor 2, 3 or 5, and divides a product of their powers
    have h53 : d₅ ∣ d₃ := Dvd.intro_left _ hc.symm
    have h32 : d₃ ∣ d₂ := Dvd.intro_left _ hb.symm
    have h2n : d₂ ∣ n := Dvd.intro_left _ ha.symm
    have hcop : ∀ {q k : ℕ}, q.Prime → ¬ q ∣ d₅ → d₅.Coprime (q ^ k) := fun hq h ↦
      (((Nat.Prime.coprime_iff_not_dvd hq).2 h).symm).pow_right _
    have hdvd : d₅ ∣ 2 ^ a' * 3 ^ b' * 5 ^ c' := hn' ▸ h53.trans (h32.trans h2n)
    have hdvd := (hcop prime_five h5).dvd_of_dvd_mul_right hdvd
    have hdvd := (hcop prime_three fun h ↦ h3 (h.trans h53)).dvd_of_dvd_mul_right hdvd
    have hone := hcop (k := a') prime_two fun h ↦ h2 (h.trans (h53.trans h32))
    exact hone.eq_one_of_dvd hdvd

theorem allowed_iff (hn : 0 < n) : Allowed tp n ↔ (tp = true → multiple235 n = true) :=
  forall_congr' fun _ ↦ (multiple235_iff hn).symm

/-! ### The search as a bisection -/

/-- The point that is tried in an interval. -/
def nbRbProbe (transformPrecoding : Bool) (lo hi : ℕ) : ℕ :=
  if transformPrecoding then raiseToMultiple (hi - (hi + lo) / 2) ((hi + lo) / 2)
  else (hi + lo) / 2

theorem searchNbRb_eq (tbs : ℕ → ℕ) (tp : Bool) (bytes fuel lo hi : ℕ) :
    searchNbRb tbs tp bytes fuel lo hi = search (nbRbProbe tp) tbs bytes fuel lo hi := by
  induction fuel generalizing lo hi with
  | zero => rfl
  | succ fuel ih =>
    rw [searchNbRb, search]
    simp only [ih]
    rfl

/-- The raised midpoint is allowed. -/
theorem multiple235_raiseToMultiple (h : multiple235 (p + fuel) = true) :
    multiple235 (raiseToMultiple fuel p) = true := by
  induction fuel generalizing p with
  | zero => exact h
  | succ fuel ih =>
    rw [raiseToMultiple]
    split
    · assumption
    · refine ih ?_
      rwa [add_right_comm]

theorem probes_nbRbProbe (tp : Bool) : Probes (nbRbProbe tp) fun n ↦ 0 < n ∧ Allowed tp n where
  lt {lo hi} hgap _ := by
    rw [nbRbProbe]
    split
    · have := le_raiseToMultiple (hi - (hi + lo) / 2) ((hi + lo) / 2)
      omega
    · omega
  le {lo hi} hgap _ := by
    rw [nbRbProbe]
    split
    · have := raiseToMultiple_le (hi - (hi + lo) / 2) ((hi + lo) / 2)
      omega
    · omega
  adm {lo hi} hgap hadm := by
    cases tp with
    | false => exact ⟨show 0 < (hi + lo) / 2 by omega, allowed_false _⟩
    | true =>
      have hpos : 0 < raiseToMultiple (hi - (hi + lo) / 2) ((hi + lo) / 2) := by
        have := le_raiseToMultiple (hi - (hi + lo) / 2) ((hi + lo) / 2)
        omega
      refine ⟨hpos, (allowed_iff hpos).2 fun _ ↦ multiple235_raiseToMultiple ?_⟩
      rw [add_sub_of_le (by omega)]
      exact (allowed_iff hadm.1).1 hadm.2 rfl

/-! ### The largest allowed number -/

/-- `M` is the largest allowed number of resource blocks. -/
structure IsLargest (tp : Bool) (hi M : ℕ) : Prop where
  pos : 0 < M
  allowed : Allowed tp M
  le : M ≤ hi
  largest : ∀ n, Allowed tp n → n ≤ hi → n ≤ M

/-- The first loop ends at the largest allowed number. -/
theorem lowerNbRbMax_isLargest (hn : Allowed true n) (hpos : 0 < n) (hle : n ≤ hi) :
    ∃ M, lowerNbRbMax hi = some M ∧ IsLargest true hi M := by
  induction hi with
  | zero => omega
  | succ k ih =>
    rw [lowerNbRbMax]
    split
    · rename_i h
      exact ⟨k + 1, rfl, succ_pos k, (allowed_iff (succ_pos k)).2 fun _ ↦ h, le_rfl, fun _ _ h ↦ h⟩
    · rename_i h
      -- the number itself is not allowed
      have hnot : ¬ Allowed true (k + 1) := fun hall ↦
        h ((allowed_iff (succ_pos k)).1 hall rfl)
      have hlt : ∀ {x}, Allowed true x → x ≤ k + 1 → x ≤ k := fun hx hxle ↦
        le_of_lt_succ (lt_of_le_of_ne hxle fun heq ↦ hnot (by rwa [heq] at hx))
      obtain ⟨M, hM, hlargest⟩ := ih (hlt hn hle)
      exact ⟨M, hM, hlargest.pos, hlargest.allowed, hlargest.le.trans (le_succ k),
        fun x hx hxle ↦ hlargest.largest x hx (hlt hx hxle)⟩

/-- `nr_find_nb_rb` returns, and looks below the largest allowed number. -/
theorem nrFindNbRb_eq_findNbRb (tbs : ℕ → ℕ) (bytes : ℕ) (hmin : 0 < lo)
    (hallowed : Allowed tp lo) (hle : lo ≤ hi) :
    ∃ M, IsLargest tp hi M ∧ nrFindNbRb tbs tp bytes lo hi = some (findNbRb tbs tp bytes lo M) := by
  rw [nrFindNbRb]
  cases tp with
  | false =>
    exact ⟨hi, ⟨hmin.trans_le hle, allowed_false _, le_rfl, fun _ _ h ↦ h⟩, rfl⟩
  | true =>
    obtain ⟨M, hM, hlargest⟩ := lowerNbRbMax_isLargest hallowed hmin hle
    exact ⟨M, hlargest, by rw [if_pos rfl, hM, Option.map_some]⟩

/-! ### What is looked for -/

/-- An allowed number of resource blocks that holds the bytes. -/
structure Fits (tp : Bool) (tbs : ℕ → ℕ) (bytes lo hi n : ℕ) : Prop where
  allowed : Allowed tp n
  min_le : lo ≤ n
  le_max : n ≤ hi
  le : bytes ≤ tbs n

/-- The smallest of them. -/
structure IsSmallest (tp : Bool) (tbs : ℕ → ℕ) (bytes lo hi m : ℕ) : Prop where
  fits : Fits tp tbs bytes lo hi m
  smallest : ∀ n, Fits tp tbs bytes lo hi n → m ≤ n

/-- **The search is optimal**: it returns an allowed number in the range, it says whether one of
them holds the bytes, and if so the number is the smallest such. -/
structure Optimal (tp : Bool) (tbs : ℕ → ℕ) (bytes lo hi : ℕ) (q : NbRbResult) : Prop where
  allowed : Allowed tp q.nbRb
  min_le : lo ≤ q.nbRb
  le_max : q.nbRb ≤ hi
  tbs_eq : q.tbs = tbs q.nbRb
  success_iff : q.success = true ↔ ∃ n, Fits tp tbs bytes lo hi n
  smallest : q.success = true → IsSmallest tp tbs bytes lo hi q.nbRb

/-- **What the bisection needs** to end at the smallest number `m`: the largest allowed number holds
more than the bytes, or it is `m` and holds them exactly, and `m` is not missed on the way. -/
def Bisects (tp : Bool) (tbs : ℕ → ℕ) (bytes lo hi : ℕ) : Prop :=
  ∀ m M, IsSmallest tp tbs bytes lo hi m → IsLargest tp hi M →
    (bytes < tbs M ∨ bytes = tbs M ∧ m = M) ∧ NotMissed (nbRbProbe tp) tbs bytes lo M m

theorem exists_isSmallest (h : ∃ n, Fits tp tbs bytes lo hi n) :
    ∃ m, IsSmallest tp tbs bytes lo hi m := by
  classical
  exact ⟨Nat.find h, Nat.find_spec h, fun n hn ↦ Nat.find_min' h hn⟩

theorem IsLargest.unique {M M' : ℕ} (h : IsLargest tp hi M) (h' : IsLargest tp hi M') : M = M' :=
  (h'.largest M h.allowed h.le).antisymm (h.largest M' h'.allowed h'.le)

theorem IsSmallest.unique (h : IsSmallest tp tbs bytes lo hi n)
    (h' : IsSmallest tp tbs bytes lo hi m) : n = m :=
  (h.smallest m h'.fits).antisymm (h'.smallest n h.fits)

section

variable {M : ℕ} (hM : IsLargest tp hi M) (hmin : 0 < lo) (hallowed : Allowed tp lo) (hle : lo ≤ hi)

include hM hallowed hle in
/-- If the largest allowed number is not enough, none may be. -/
theorem optimal_iff_of_not_enough (h : bytes > tbs M) :
    Optimal tp tbs bytes lo hi ⟨false, tbs M, M⟩ ↔ Bisects tp tbs bytes lo hi := by
  constructor
  · intro hopt m _ hm
    exact absurd (hopt.success_iff.2 ⟨m, hm.fits⟩) Bool.false_ne_true
  · intro hb
    have hnone : ¬∃ n, Fits tp tbs bytes lo hi n := by
      intro hn
      obtain ⟨m, hm⟩ := exists_isSmallest hn
      rcases (hb m M hm hM).1 with hlt | ⟨heq, -⟩
      · exact absurd hlt h.not_gt
      · exact absurd heq h.ne'
    exact ⟨hM.allowed, hM.largest _ hallowed hle, hM.le, rfl, by simpa using hnone, nofun⟩

include hM in
/-- What is left to check of an answer that fits is that it is the smallest. -/
theorem optimal_iff_of_fits (hfits : Fits tp tbs bytes lo hi q.nbRb)
    (htbs : q.tbs = tbs q.nbRb) (hsuccess : q.success = true)
    (hm : IsSmallest tp tbs bytes lo hi m) (hiff : q.nbRb = m ↔
      (bytes < tbs M ∨ bytes = tbs M ∧ m = M) ∧ NotMissed (nbRbProbe tp) tbs bytes lo M m) :
    Optimal tp tbs bytes lo hi q ↔ Bisects tp tbs bytes lo hi := by
  have hopt : Optimal tp tbs bytes lo hi q ↔ q.nbRb = m := by
    constructor
    · exact fun h ↦ (h.smallest hsuccess).unique hm
    · intro heq
      exact ⟨hfits.allowed, hfits.min_le, hfits.le_max, htbs,
        iff_of_true hsuccess ⟨_, hfits⟩, fun _ ↦ heq ▸ hm⟩
  rw [hopt, hiff]
  constructor
  · intro h m' M' hm' hM'
    rwa [← hm.unique hm', ← hM.unique hM']
  · exact fun h ↦ h m M hm hM

include hM hmin hallowed hle in
/-- **When the search is optimal**, whatever the size of the transport blocks. -/
theorem optimal_findNbRb_iff (tbs : ℕ → ℕ) (bytes : ℕ) :
    Optimal tp tbs bytes lo hi (findNbRb tbs tp bytes lo M) ↔ Bisects tp tbs bytes lo hi := by
  have hminM := hM.largest _ hallowed hle
  have hMadm : 0 < M ∧ Allowed tp M := ⟨hM.pos, hM.allowed⟩
  have hp := probes_nbRbProbe tp
  rw [findNbRb]
  split
  · rename_i hgt
    exact optimal_iff_of_not_enough hM hallowed hle hgt
  rename_i hgt
  have henough := not_lt.1 hgt
  have hMfits : Fits tp tbs bytes lo hi M := ⟨hM.allowed, hminM, hM.le, henough⟩
  obtain ⟨m, hm⟩ := exists_isSmallest ⟨M, hMfits⟩
  have hmM := hm.smallest M hMfits
  split
  · -- the largest allowed number holds the bytes exactly
    rename_i heq
    refine optimal_iff_of_fits hM hMfits rfl rfl hm ⟨?_, fun h ↦ ?_⟩
    · rintro rfl
      refine ⟨.inr ⟨heq, rfl⟩, fun lo' hi' h _ hhi ↦ ?_⟩
      exact absurd (h.subset hp hMadm).2 (not_le.2 hhi)
    · exact (h.1.resolve_left heq.not_lt).2.symm
  rename_i hexact
  have hmore := lt_of_le_of_ne henough hexact
  split
  · -- the minimum is enough
    rename_i henough
    have hminfits : Fits tp tbs bytes lo hi lo := ⟨hallowed, le_rfl, hle, henough⟩
    have hmeq : lo = m := hm.fits.min_le.antisymm (hm.smallest _ hminfits)
    refine optimal_iff_of_fits hM hminfits rfl rfl hm (iff_of_true hmeq ?_)
    refine ⟨.inl hmore, fun lo' hi' h hlo _ ↦ ?_⟩
    exact absurd (h.subset hp hMadm).1 (not_le.2 (hmeq ▸ hlo))
  · -- the bisection
    rename_i hless
    have hmin_lt : lo < m := by
      refine lt_of_le_of_ne hm.fits.min_le fun heq ↦ ?_
      rw [heq] at hless
      exact hless hm.fits.le
    have hleast : IsLeastAfter (fun n ↦ 0 < n ∧ Allowed tp n) tbs bytes lo m := by
      refine ⟨hmin_lt, ⟨hmin.trans hmin_lt, hm.fits.allowed⟩, hm.fits.le, fun n hn hlt' hfit ↦ ?_⟩
      rcases le_total n M with hnM | hMn
      · exact hm.smallest n ⟨hn.2, hlt'.le, hnM.trans hM.le, hfit⟩
      · exact hmM.trans hMn
    rw [searchNbRb_eq]
    obtain ⟨h₁, h₂, h₃, h₄⟩ := search_spec M hp hMadm (hmin_lt.trans_le hmM) henough
    have hsearch := search_eq_iff hp hMadm henough hleast hmM (sub_le M _)
    refine optimal_iff_of_fits hM ⟨h₃.2, h₁.le, h₂.trans hM.le, h₄⟩ rfl
      (decide_eq_true ⟨h₄, h₂⟩) hm ?_
    rw [hsearch]
    exact ⟨fun h ↦ ⟨.inl hmore, h⟩, fun h ↦ h.2⟩

end

/-- It is enough to look at one smallest and one largest number. -/
theorem bisects_of {M : ℕ} (hm : IsSmallest tp tbs bytes lo hi m)
    (hM : IsLargest tp hi M) (hmore : bytes < tbs M)
    (h : NotMissed (nbRbProbe tp) tbs bytes lo M m) :
    Bisects tp tbs bytes lo hi := by
  intro m' M' hm' hM'
  rw [← hm.unique hm', ← hM.unique hM']
  exact ⟨.inl hmore, h⟩

/-! ### Without transform precoding -/

theorem isLargest_self (h : 0 < hi) : IsLargest false hi hi :=
  ⟨h, allowed_false _, le_rfl, fun _ _ h ↦ h⟩

/-- Without a transport block of exactly the size, the smallest number is not missed. -/
theorem bisects_of_not_exact (hmono : ∀ a b, a ≤ b → b ≤ hi → tbs a ≤ tbs b)
    (h : ∀ n, n ≤ hi → tbs n ≠ bytes) : Bisects false tbs bytes lo hi := by
  intro m M hm hM
  have habove : ∀ n, m ≤ n → n ≤ hi → bytes < tbs n := fun n hmn hn ↦
    lt_of_le_of_ne (hm.fits.le.trans (hmono m n hmn hn)) (h n hn).symm
  refine ⟨.inl (habove M (hM.largest m hm.fits.allowed hm.fits.le_max) hM.le),
    fun lo' hi' hint hlo hhi ↦ ?_⟩
  have hp := probes_nbRbProbe false
  have hsub := hint.subset hp ⟨hM.pos, hM.allowed⟩
  have hle : nbRbProbe false lo' hi' ≤ hi' := hp.le (by omega) ⟨by omega, allowed_false _⟩
  refine ⟨?_, fun hlt ↦ habove _ hlt.le ((hle.trans hsub.2).trans hM.le)⟩
  rw [nbRbProbe, if_neg Bool.false_ne_true]
  omega

/-- The transport block size is monotone up to some number of resource blocks. -/
def TbsParams.MonoUpTo (q : TbsParams) (hi : ℕ) : Prop :=
  ∀ a b, a ≤ b → b ≤ hi →
    nrComputeTbs q.qm q.r a q.nbSymbSch q.nbDmrsPrb 0 0 q.nrOfLayers ≤
      nrComputeTbs q.qm q.r b q.nbSymbSch q.nbDmrsPrb 0 0 q.nrOfLayers

theorem TbsParams.MonoUpTo.tbs_le {q : TbsParams} (h : q.MonoUpTo hi) {a b : ℕ} (hab : a ≤ b)
    (hb : b ≤ hi) : q.tbs a ≤ q.tbs b := by
  rw [tbs, tbs, shiftRight_eq_div_pow, shiftRight_eq_div_pow]
  exact Nat.div_le_div_right (h a b hab hb)

theorem TbsParams.NoOverflow.monoUpTo {q : TbsParams} (h : q.NoOverflow hi) : q.MonoUpTo hi :=
  fun _ _ hab hb ↦ nrComputeTbs_mono (h.mono hb) hab

/-- **The search without transform precoding**: it is optimal, the transport block size is monotone
up to the maximum, and a transport block of exactly the size is found if there is one. -/
structure FindsSmallest (q : TbsParams) (bytes lo hi : ℕ) : Prop where
  optimal : ∃ r, nrFindNbRb q.tbs false bytes lo hi = some r ∧ Optimal false q.tbs bytes lo hi r
  mono : q.MonoUpTo hi
  exact_found : (∃ n, lo ≤ n ∧ n ≤ hi ∧ q.tbs n = bytes) →
    ∃ r, nrFindNbRb q.tbs false bytes lo hi = some r ∧ r.success = true ∧ r.tbs = bytes

/-- **When `nr_find_nb_rb` finds the smallest number of resource blocks.** The size is monotone
unless the product overflows. -/
theorem findsSmallest_iff {q : TbsParams} (hpos : 1 ≤ lo) (hle : lo ≤ hi) :
    (FindsSmallest q bytes lo hi ↔ q.MonoUpTo hi ∧ Bisects false q.tbs bytes lo hi) ∧
    (q.NoOverflow hi → q.MonoUpTo hi) := by
  have hiff := optimal_findNbRb_iff (isLargest_self (hpos.trans hle)) hpos
    (allowed_false _) hle q.tbs bytes
  have hresult : nrFindNbRb q.tbs false bytes lo hi = some (findNbRb q.tbs false bytes lo hi) := rfl
  refine ⟨⟨?_, ?_⟩, TbsParams.NoOverflow.monoUpTo⟩
  · intro h
    obtain ⟨r, hr, hopt⟩ := h.optimal
    obtain rfl := Option.some.inj (hresult.symm.trans hr)
    exact ⟨h.mono, hiff.1 hopt⟩
  · rintro ⟨hmono, h⟩
    have hopt := hiff.2 h
    refine ⟨⟨_, hresult, hopt⟩, hmono, ?_⟩
    rintro ⟨n, hmin, hmax, hexact⟩
    have hn : Fits false q.tbs bytes lo hi n := ⟨allowed_false n, hmin, hmax, hexact.ge⟩
    have hsuccess := hopt.success_iff.2 ⟨n, hn⟩
    have hsmall := hopt.smallest hsuccess
    -- the smallest number holds no more than the one with exactly the size
    refine ⟨_, hresult, hsuccess, hopt.tbs_eq.trans (le_antisymm ?_ hsmall.fits.le)⟩
    exact (hmono.tbs_le (hsmall.smallest n hn) hmax).trans_eq hexact

/-- QPSK with a low code rate in 13 symbols, one of them for the DMRS. -/
def qpskParams : TbsParams := ⟨2, 1200, 1, 13, 12⟩

/-- The same in three symbols. -/
def shortQpskParams : TbsParams := ⟨2, 1200, 1, 3, 12⟩

/-- A product that overflows with two resource blocks. -/
def overflowParams : TbsParams := ⟨255, 65535, 255, 13, 12⟩

/-- 100 bytes, a size that no transport block has. -/
theorem findsSmallest_hundred : FindsSmallest qpskParams 100 1 50 := by
  obtain ⟨hiff, hmono⟩ := @findsSmallest_iff 100 1 50 qpskParams (by decide) (by decide)
  have hmono := hmono (by decide)
  exact hiff.2 ⟨hmono, bisects_of_not_exact (fun _ _ ↦ hmono.tbs_le) (by decide)⟩

/-- **Four blocks instead of one**: from one to four blocks a transport block has three bytes, and
the search for three bytes takes the maximum. With a product that overflows, a transport block of
two blocks is smaller than one of a single block. -/
theorem four_blocks_instead_of_one :
    (∃ r, nrFindNbRb shortQpskParams.tbs false 3 1 4 = some r ∧ r.nbRb = 4 ∧
      shortQpskParams.tbs 1 = 3) ∧ ¬ FindsSmallest shortQpskParams 3 1 4 ∧
    overflowParams.tbs 2 < overflowParams.tbs 1 := by
  have hresult : ∃ r, nrFindNbRb shortQpskParams.tbs false 3 1 4 = some r ∧ r.nbRb = 4 ∧
      r.success = true := ⟨_, rfl, by decide, by decide⟩
  have hone : shortQpskParams.tbs 1 = 3 := by decide
  obtain ⟨r, hr, hnbRb, hsuccess⟩ := hresult
  refine ⟨⟨r, hr, hnbRb, hone⟩, fun h ↦ ?_, by decide⟩
  obtain ⟨r', hr', hopt⟩ := h.optimal
  obtain rfl := Option.some.inj (hr.symm.trans hr')
  have hle := (hopt.smallest hsuccess).smallest 1 ⟨allowed_false 1, le_rfl, by decide, hone.ge⟩
  omega

/-! ### With transform precoding -/

/-- **When `nr_find_nb_rb` finds the smallest allowed number of resource blocks.** -/
theorem precoded_optimal_iff {q : TbsParams}
    (hallowed : ∃ a b c, lo = 2 ^ a * 3 ^ b * 5 ^ c) (hle : lo ≤ hi) :
    (∃ r, nrFindNbRb q.tbs true bytes lo hi = some r ∧ Optimal true q.tbs bytes lo hi r) ↔
    Bisects true q.tbs bytes lo hi := by
  have hpos : 0 < lo := by
    obtain ⟨a, b, c, rfl⟩ := hallowed
    exact Nat.mul_pos (Nat.mul_pos (Nat.pow_pos (by decide)) (Nat.pow_pos (by decide)))
      (Nat.pow_pos (by decide))
  obtain ⟨M, hM, hresult⟩ := nrFindNbRb_eq_findNbRb q.tbs bytes hpos (fun _ ↦ hallowed) hle
  have hiff := optimal_findNbRb_iff hM hpos (fun _ ↦ hallowed) hle q.tbs bytes
  rw [hresult, ← hiff]
  constructor
  · rintro ⟨r, hr, hopt⟩
    cases hr
    exact hopt
  · exact fun h ↦ ⟨_, rfl, h⟩

theorem allowed_of_multiple235 (h : multiple235 n = true) (hn : 0 < n) : Allowed tp n :=
  (allowed_iff hn).2 fun _ ↦ h

/-- Up to eight blocks, 20 bytes are found in five. -/
theorem bisects_five : Bisects true qpskParams.tbs 20 1 8 := by
  have hlargest : IsLargest true 8 8 :=
    ⟨by decide, allowed_of_multiple235 (by decide) (by decide), le_rfl, fun _ _ h ↦ h⟩
  have hfive : IsSmallest true qpskParams.tbs 20 1 8 5 := by
    refine ⟨⟨allowed_of_multiple235 (by decide) (by decide), by decide, by decide,
      by decide⟩, fun n hn ↦ Nat.le_of_not_lt fun hlt ↦ ?_⟩
    have hless : ∀ n < 5, qpskParams.tbs n < 20 := by decide
    exact absurd hn.le (Nat.not_le.2 (hless n hlt))
  refine bisects_of hfive hlargest (by decide) fun lo' hi' h ↦ ?_
  have hall : ∀ x ∈ intervals (nbRbProbe true) 7 1 8, x.1 < 5 → 5 < x.2 →
      nbRbProbe true x.1 x.2 ≠ x.2 ∧
        (5 < nbRbProbe true x.1 x.2 → 20 < qpskParams.tbs (nbRbProbe true x.1 x.2)) := by
    decide
  exact hall (lo', hi') (h.mem_intervals (probes_nbRbProbe true) ⟨hlargest.pos, hlargest.allowed⟩
    (by decide))

theorem precoded_optimal_five :
    ∃ r, nrFindNbRb qpskParams.tbs true 20 1 8 = some r ∧ Optimal true qpskParams.tbs 20 1 8 r :=
  (precoded_optimal_iff ⟨0, 0, 0, rfl⟩ (by decide)).2 bisects_five

/-- **36 blocks instead of 32**: between 30 and 36 the midpoint 33 is raised to 36, and the search
is given up. -/
theorem precoded_misses_32 :
    (∃ r, nrFindNbRb qpskParams.tbs true 135 30 36 = some r ∧ r.success = true ∧ r.nbRb = 36) ∧
    135 ≤ qpskParams.tbs 32 ∧
    ¬ ∃ r, nrFindNbRb qpskParams.tbs true 135 30 36 = some r ∧
      Optimal true qpskParams.tbs 135 30 36 r := by
  have hresult : ∃ r, nrFindNbRb qpskParams.tbs true 135 30 36 = some r ∧ r.success = true ∧
      r.nbRb = 36 := ⟨_, rfl, by decide, by decide⟩
  have hfits : 135 ≤ qpskParams.tbs 32 := by decide
  refine ⟨hresult, hfits, ?_⟩
  rintro ⟨r, hr, hopt⟩
  obtain ⟨r', hr', hsuccess, hnbRb⟩ := hresult
  obtain rfl := Option.some.inj (hr.symm.trans hr')
  have hle := (hopt.smallest hsuccess).smallest 32
    ⟨allowed_of_multiple235 (by decide) (by decide), by decide, by decide, hfits⟩
  omega

end OaiRan.Mac
