import Mathlib.Algebra.GroupWithZero.Nat
import Mathlib.Data.List.Chain
import Mathlib.Data.List.GetD

/-!
# Buffer status reports

The tables of buffer sizes and the search for the index that the UE reports. The bisection keeps the
size between the values at its two bounds, and so ends at **the smallest index whose value is at least
the size** (`isSmallestIndex_nrLocate_iff`), for every size that the table reaches.
-/

namespace OaiRan.Mac

open Nat

def nrShortBsrTable : List ℕ :=
  [0, 10, 14, 20, 28, 38, 53, 74, 102, 142, 198, 276, 384, 535, 745, 1038, 1446, 2014, 2806, 3909,
    5446, 7587, 10570, 14726, 20516, 28581, 39818, 55474, 77284, 107669, 150000, 300000]

def nrLongBsrTable : List ℕ :=
  [0, 10, 11, 12, 13, 14, 15, 16, 17, 18, 19, 20, 22, 23, 25, 26, 28, 30, 32, 34, 36, 38, 40, 43,
    46, 49, 52, 55, 59, 62, 66, 71, 75, 80, 85, 91, 97, 103, 110, 117, 124, 132, 141, 150, 160, 170,
    181, 193, 205, 218, 233, 248, 264, 281, 299, 318, 339, 361, 384, 409, 436, 464, 494, 526, 560,
    597, 635, 677, 720, 767, 817, 870, 926, 987, 1051, 1119, 1191, 1269, 1351, 1439, 1532, 1631,
    1737, 1850, 1970, 2098, 2234, 2379, 2533, 2698, 2873, 3059, 3258, 3469, 3694, 3934, 4189, 4461,
    4751, 5059, 5387, 5737, 6109, 6506, 6928, 7378, 7857, 8367, 8910, 9488, 10104, 10760, 11458,
    12202, 12994, 13838, 14736, 15692, 16711, 17795, 18951, 20181, 21491, 22885, 24371, 25953,
    27638, 29431, 31342, 33376, 35543, 37850, 40307, 42923, 45709, 48676, 51836, 55200, 58784,
    62599, 66663, 70990, 75598, 80505, 85730, 91295, 97221, 103532, 110252, 117409, 125030, 133146,
    141789, 150992, 160793, 171231, 182345, 194182, 206786, 220209, 234503, 249725, 265935, 283197,
    301579, 321155, 342002, 364202, 387842, 413018, 439827, 468377, 498780, 531156, 565634, 602350,
    641449, 683087, 727427, 774645, 824928, 878475, 935498, 996222, 1060888, 1129752, 1203085,
    1281179, 1364342, 1452903, 1547213, 1647644, 1754595, 1868488, 1989774, 2118933, 2256475,
    2402946, 2558924, 2725027, 2901912, 3090279, 3290873, 3504487, 3731968, 3974215, 4232186,
    4506902, 4799451, 5110989, 5442750, 5796046, 6172275, 6572925, 6999582, 7453933, 7937777,
    8453028, 9001725, 9586039, 10208280, 10870913, 11576557, 12328006, 13128233, 13980403, 14887889,
    15854280, 16883401, 17979324, 19146385, 20389201, 21712690, 23122088, 24622972, 26221280,
    27923336, 29735875, 31666069, 33721553, 35910462, 38241455, 40723756, 43367187, 46182206,
    49179951, 52372284, 55771835, 59392055, 63247269, 67352729, 71724679, 76380419, 81338368,
    162676736, 4294967295]

/-- The bisection of `nr_locate_BsrIndexByBufferSize`: the lower bound that it ends with. -/
def bisectBsr (table : List ℕ) (value : ℕ) : ℕ → ℕ → ℕ → ℕ
  | 0, jl, _ => jl
  | fuel + 1, jl, ju =>
    if ju - jl > 1 then
      let jm := (ju + jl) / 2
      let ascend := decide (table.getD (table.length - 1) 0 ≥ table.getD 0 0)
      if decide (value ≥ table.getD jm 0) = ascend then bisectBsr table value fuel jm ju
      else bisectBsr table value fuel jl jm
    else jl

/-- `nr_locate_BsrIndexByBufferSize`. The comparisons with the table are unsigned. -/
def nrLocateBsrIndexByBufferSize (table : List ℕ) (value : ℕ) : ℕ :=
  if value = 0 then 0
  else
    let jl := bisectBsr table value table.length 0 (table.length - 1)
    (if value = table.getD jl 0 then jl else jl + 1) % 256

/-! ### The index -/

/-- `index` is the smallest one whose value is at least `size`. -/
def IsSmallestIndex (table : List ℕ) (size index : ℕ) : Prop :=
  index < table.length ∧ size ≤ table.getD index 0 ∧ ∀ j < index, table.getD j 0 < size

/-- A table of buffer sizes: they ascend from 0, and an index has eight bits. -/
structure Ascending (table : List ℕ) : Prop where
  two_le : 2 ≤ table.length
  length_le : table.length ≤ 256
  zero : table.getD 0 0 = 0
  lt : ∀ {i j}, i < j → j < table.length → table.getD i 0 < table.getD j 0

/-- The largest size of a table. -/
def largestSize (table : List ℕ) : ℕ := table.getD (table.length - 1) 0

theorem Ascending.of_isChain (h : table.IsChain (· < ·)) (htwo : 2 ≤ table.length)
    (hle : table.length ≤ 256) (hzero : table.getD 0 0 = 0) : Ascending table := by
  refine ⟨htwo, hle, hzero, fun {i j} hij hj ↦ ?_⟩
  have hlt := List.pairwise_iff_getElem.1 (List.isChain_iff_pairwise.1 h) i j (by omega) hj hij
  rwa [List.getD_eq_getElem _ _ (by omega), List.getD_eq_getElem _ _ hj]

theorem ascending_nrShortBsrTable : Ascending nrShortBsrTable :=
  .of_isChain (by decide) (by decide) (by decide) rfl

theorem ascending_nrLongBsrTable : Ascending nrLongBsrTable :=
  .of_isChain (by decide +kernel) (by decide +kernel) (by decide +kernel) rfl

namespace Ascending

variable {table : List ℕ} {size : ℕ}

theorem le_of_le (h : Ascending table) (hij : i ≤ j) (hj : j < table.length) :
    table.getD i 0 ≤ table.getD j 0 := by
  rcases lt_or_eq_of_le hij with hlt | rfl
  · exact le_of_lt (h.lt hlt hj)
  · exact le_refl _

theorem le_largestSize (h : Ascending table) (hi : i < table.length) :
    table.getD i 0 ≤ largestSize table :=
  h.le_of_le (by omega) (by omega)

/-- What the bisection keeps: the size is between the values at the two bounds. -/
structure Brackets (table : List ℕ) (size jl ju : ℕ) : Prop where
  lt : jl < ju
  inside : ju < table.length
  low : table.getD jl 0 ≤ size
  high : size ≤ table.getD ju 0

/-- It ends at neighbours. -/
theorem brackets_bisectBsr (h : Ascending table) (hfuel : ju - jl ≤ fuel)
    (hb : Brackets table size jl ju) :
    Brackets table size (bisectBsr table size fuel jl ju) (bisectBsr table size fuel jl ju + 1) := by
  have hascend : decide (table.getD (table.length - 1) 0 ≥ table.getD 0 0) = true := by
    have htwo := h.two_le
    exact decide_eq_true (h.le_of_le (zero_le _) (by omega))
  induction fuel generalizing jl ju with
  | zero =>
    have := hb.lt
    omega
  | succ fuel ih =>
    have hlt := hb.lt
    have hin := hb.inside
    rw [bisectBsr]
    split
    · dsimp only
      rw [hascend]
      split
      · rename_i hge
        exact ih (by omega) ⟨by omega, hin, of_decide_eq_true hge, hb.high⟩
      · rename_i hge
        have hsmall : ¬ size ≥ table.getD ((ju + jl) / 2) 0 := by simpa using hge
        exact ih (by omega) ⟨by omega, by omega, hb.low, by omega⟩
    · obtain rfl : ju = jl + 1 := by omega
      exact hb

/-- **The index is the smallest one** whose value is at least the size. -/
theorem isSmallestIndex_nrLocate (h : Ascending table) (hsize : size ≤ largestSize table) :
    IsSmallestIndex table size (nrLocateBsrIndexByBufferSize table size) := by
  have htwo := h.two_le
  have hlen := h.length_le
  rw [nrLocateBsrIndexByBufferSize]
  split
  · rename_i hzero
    subst hzero
    exact ⟨by omega, zero_le _, fun j hj ↦ absurd hj (not_lt_zero j)⟩
  · have hstart : Brackets table size 0 (table.length - 1) :=
      ⟨by omega, by omega, by rw [h.zero]; exact zero_le _, hsize⟩
    have hend := h.brackets_bisectBsr (le_trans (sub_le _ 0) (sub_le _ 1)) hstart
    generalize bisectBsr table size table.length 0 (table.length - 1) = jl at hend ⊢
    obtain ⟨-, hin, hlow, hhigh⟩ := hend
    dsimp only
    split
    · rename_i heq
      rw [mod_eq_of_lt (by omega)]
      refine ⟨by omega, le_of_eq heq, fun j hj ↦ ?_⟩
      rw [heq]
      exact h.lt hj (by omega)
    · rw [mod_eq_of_lt (by omega)]
      refine ⟨hin, hhigh, fun j hj ↦ ?_⟩
      -- The value at `jl` is below the size, and no value before it is larger.
      exact lt_of_le_of_lt (h.le_of_le (le_of_lt_succ hj) (by omega)) (by omega)

end Ascending

theorem IsSmallestIndex.pos_iff {size index : ℕ} (htable : Ascending table)
    (h : IsSmallestIndex table size index) : 0 < index ↔ 0 < size := by
  refine ⟨fun hpos ↦ Nat.pos_of_ne_zero fun hzero ↦ ?_, fun hpos ↦ Nat.pos_of_ne_zero fun hzero ↦ ?_⟩
  · have := h.2.2 0 hpos
    omega
  · have hle := h.2.1
    rw [hzero, htable.zero] at hle
    omega

/-! ### What the gNB takes it for -/

def overestimBsrIndex (realIndex : ℕ) : ℕ := if realIndex > 0 then realIndex + 1 else realIndex

/-- The size that the gNB takes for a reported index. -/
def estimateBsrIndex (table : List ℕ) (index : ℕ) : ℕ :=
  table.getD (min (overestimBsrIndex index) (table.length - 1)) 0

/-- `estimate_ul_buffer_short_bsr`, the octet being LCG and index. -/
def estimateUlBufferShortBsr (octet : UInt8) : ℕ :=
  estimateBsrIndex nrShortBsrTable (octet.toNat % 32)

/-- The loop of `estimate_ul_buffer_long_bsr` over the LCGs from `n` on, `payload` being the octets
that have not been used. An octet behind the payload is read by the source all the same. -/
def estimateLcgs (bitmap : UInt8) : ℕ → ℕ → List UInt8 → ℕ
  | 0, _, _ => 0
  | left + 1, n, payload =>
    if bitmap.toNat.testBit n then
      estimateBsrIndex nrLongBsrTable (payload.headD 0).toNat +
        estimateLcgs bitmap left (n + 1) payload.tail
    else estimateLcgs bitmap left (n + 1) payload

def estimateUlBufferLongBsr (payload : List UInt8) : ℕ :=
  estimateLcgs (payload.headD 0) 8 0 payload.tail

end OaiRan.Mac
