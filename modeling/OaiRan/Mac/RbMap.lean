import OaiRan.Lib.Reservation
import OaiRan.Mac.Tbs
import Mathlib.Data.Nat.Bitwise

/-!
# The map of used resource blocks

`vrb_map` and a slice of `vrb_map_UL` have one word per resource block, with a bit for each symbol
that is taken. The scheduler looks for a stretch of blocks that are free in the symbols of a time
domain allocation and sets their bits.
-/

namespace OaiRan.Mac

open Function Nat

/-- `uint16_t *rballoc_mask`: for each resource block, a bit for each symbol that is taken. -/
abbrev RbMap : Type := ℕ → ℕ

def slToBitmap (startSymbolIndex nrOfSymbols : ℕ) : ℕ :=
  (((1 <<< nrOfSymbols) - 1) <<< startSymbolIndex) % 2 ^ 16

/-- The part of `NR_tda_info_t` that places a transmission in the slot's 14 symbols. -/
structure TdaInfo where
  validTda : Bool := true
  (startSymbolIndex nrOfSymbols : ℕ)
  pos_symbols : 0 < nrOfSymbols := by decide
  le_symbols : startSymbolIndex + nrOfSymbols ≤ 14 := by decide
  deriving DecidableEq

/-- The bits of a time domain allocation. -/
def TdaInfo.slbitmap (t : TdaInfo) : ℕ := slToBitmap t.startSymbolIndex t.nrOfSymbols

/-- A bandwidth part. -/
structure Bwp where
  (start size : ℕ)
  deriving DecidableEq

namespace RbMap

/-- `rballoc_mask[rb] & slbitmap`. -/
def busy (m : RbMap) (sl rb : ℕ) : Bool := m rb &&& sl != 0

/-- `while (rb < rb + n && (rballoc_mask[rb] & slbitmap)) rb++`. -/
def skipBusy (m : RbMap) (sl : ℕ) : ℕ → ℕ → ℕ
  | 0, rb => rb
  | n + 1, rb => if m.busy sl rb then skipBusy m sl n (rb + 1) else rb

/-- How many of the blocks `rb`, `rb + 1`, … are free, at most `n`. -/
def freeRun (m : RbMap) (sl : ℕ) : ℕ → ℕ → ℕ
  | 0, _ => 0
  | n + 1, rb => if m.busy sl rb then 0 else freeRun m sl n (rb + 1) + 1

/-- `for (int rb = lo; rb < hi; rb++) rballoc_mask[rb + offset] |= slbitmap`. -/
def mark (m : RbMap) (lo hi offset sl : ℕ) : RbMap := fun rb ↦
  if lo + offset ≤ rb ∧ rb < hi + offset then m rb ||| sl else m rb

/-- The words that `fill_pdcch_vrb_map` sets. -/
def setWords (m : RbMap) (words : List (ℕ × ℕ)) : RbMap :=
  words.foldl (fun m w ↦ update m w.1 (m w.1 ||| w.2)) m

/-- The blocks from `lo` to `hi` are free. -/
def Free (m : RbMap) (sl lo hi : ℕ) : Prop := ∀ rb, lo ≤ rb → rb < hi → m.busy sl rb = false

/-- The (resource block, symbol) pairs that are taken. -/
def cells (m : RbMap) : Set (ℕ × ℕ) := {c | (m c.1).testBit c.2 = true}

end RbMap

/-- A stretch of resource blocks in a time domain allocation. -/
structure Rect where
  (rbFirst rbSize : ℕ)
  tda : TdaInfo
  deriving DecidableEq

/-- The (resource block, symbol) pairs of a rectangle. -/
def Rect.cells (r : Rect) : Set (ℕ × ℕ) :=
  {c | (r.rbFirst ≤ c.1 ∧ c.1 < r.rbFirst + r.rbSize) ∧
    r.tda.startSymbolIndex ≤ c.2 ∧ c.2 < r.tda.startSymbolIndex + r.tda.nrOfSymbols}

/-! ### Bits -/

theorem TdaInfo.testBit_slbitmap (t : TdaInfo) (i : ℕ) : t.slbitmap.testBit i =
    decide (t.startSymbolIndex ≤ i ∧ i < t.startSymbolIndex + t.nrOfSymbols) := by
  have h := t.le_symbols
  rw [TdaInfo.slbitmap, slToBitmap, testBit_mod_two_pow, testBit_shiftLeft,
    one_shiftLeft, testBit_two_pow_sub_one]
  simp only [← Bool.decide_and]
  exact decide_eq_decide.2 ⟨by omega, by omega⟩

namespace RbMap

variable {m : RbMap} {sl lo hi rb n : ℕ}

variable {hi' i k lo' offset s : ℕ} {words : List (ℕ × ℕ)}

/-- A block is free where no bit is set in both words. -/
theorem not_testBit_of_not_busy (h : m.busy sl rb = false) (hsl : sl.testBit i = true) :
    (m rb).testBit i = false := by
  have hand : m rb &&& sl = 0 := by simpa [busy] using h
  have := testBit_and (m rb) sl i
  simpa [hand, hsl] using this

theorem subset_mark (m : RbMap)
    (lo hi offset sl : ℕ) : m.cells ⊆ (m.mark lo hi offset sl).cells := by
  intro c hc
  change ((m.mark lo hi offset sl) c.1).testBit c.2 = true
  rw [mark]
  split
  · rw [testBit_or, hc, Bool.true_or]
  · exact hc

theorem subset_setWords (m : RbMap)
    (words : List (ℕ × ℕ)) : m.cells ⊆ (m.setWords words).cells := by
  induction words generalizing m with
  | nil => exact subset_rfl
  | cons w words ih =>
    refine .trans (fun c hc ↦ ?_) (ih _)
    change (update m w.1 (m w.1 ||| w.2) c.1).testBit c.2 = true
    rw [update_apply]
    split
    · rename_i heq
      rw [testBit_or, ← heq, hc, Bool.true_or]
    · exact hc

/-- What is taken after some words were set. -/
theorem mem_cells_setWords :
    x ∈ (m.setWords words).cells ↔
      x ∈ m.cells ∨ ∃ w ∈ words, w.1 = x.1 ∧ w.2.testBit x.2 = true := by
  induction words generalizing m with
  | nil => simp [setWords]
  | cons w words ih =>
    have hword : x ∈ RbMap.cells (update m w.1 (m w.1 ||| w.2)) ↔
        x ∈ m.cells ∨ (w.1 = x.1 ∧ w.2.testBit x.2 = true) := by
      change (update m w.1 (m w.1 ||| w.2) x.1).testBit x.2 = true ↔
        (m x.1).testBit x.2 = true ∨ _
      rw [update_apply]
      split
      · rename_i heq
        rw [testBit_or, Bool.or_eq_true, heq]
        simp
      · rename_i hne
        rw [eq_comm] at hne
        simp [hne]
    rw [setWords, List.foldl_cons, ← setWords, ih, hword, or_assoc]
    simp

/-- Words with bits for symbols before `k` leave the others as they are. -/
theorem testBit_setWords (hwords : ∀ w ∈ words, w.2 < 2 ^ k)
    (hk : k ≤ i) : (m.setWords words rb).testBit i = (m rb).testBit i := by
  induction words generalizing m with
  | nil => rfl
  | cons w words ih =>
    refine (ih fun v hv ↦ hwords v (List.mem_cons_of_mem _ hv)).trans ?_
    dsimp only
    rw [update_apply]
    split
    · rename_i heq
      have hw : w.2.testBit i = false := testBit_eq_false_of_lt
        (lt_of_lt_of_le (hwords w (List.mem_cons_self ..)) (Nat.pow_le_pow_right (by decide) hk))
      rw [testBit_or, hw, Bool.or_false, heq]
    · rfl

/-- Nothing but the rectangle is marked by a loop that stays in it. -/
theorem mark_subset {r : Rect} (hlo : r.rbFirst ≤ lo + offset)
    (hhi : hi + offset ≤ r.rbFirst + r.rbSize) :
    (m.mark lo hi offset r.tda.slbitmap).cells ⊆ m.cells ∪ r.cells := by
  rintro ⟨rb, i⟩ hc
  have hc : ((m.mark lo hi offset r.tda.slbitmap) rb).testBit i = true := hc
  rw [mark] at hc
  split at hc
  · rw [testBit_or, r.tda.testBit_slbitmap, Bool.or_eq_true, decide_eq_true_eq] at hc
    rcases hc with hc | hc
    · exact .inl hc
    · exact .inr ⟨⟨by dsimp only; omega, by dsimp only; omega⟩, hc⟩
  · exact .inl hc

/-- The marked blocks have the bits of the rectangle. -/
theorem rect_subset_mark {r : Rect} (hlo : lo + offset ≤ r.rbFirst)
    (hhi : r.rbFirst + r.rbSize ≤ hi + offset) :
    r.cells ⊆ (m.mark lo hi offset r.tda.slbitmap).cells := by
  rintro ⟨rb, i⟩ ⟨⟨h₁, h₂⟩, h₃, h₄⟩
  change ((m.mark lo hi offset r.tda.slbitmap) rb).testBit i = true
  rw [mark, if_pos (by omega), testBit_or, r.tda.testBit_slbitmap, decide_eq_true ⟨h₃, h₄⟩,
    Bool.or_true]

/-- A rectangle over free blocks does not meet what is taken. -/
theorem Free.disjoint {r : Rect}
    (h : m.Free r.tda.slbitmap r.rbFirst (r.rbFirst + r.rbSize)) : Disjoint r.cells m.cells := by
  rw [Set.disjoint_left]
  rintro ⟨rb, i⟩ ⟨⟨h₁, h₂⟩, h₃, h₄⟩ hc
  have hc : (m rb).testBit i = true := hc
  rw [not_testBit_of_not_busy (h rb h₁ h₂)
    (by rw [r.tda.testBit_slbitmap]; exact decide_eq_true ⟨h₃, h₄⟩)] at hc
  exact Bool.false_ne_true hc

theorem Free.mono (h : m.Free sl lo hi) (hlo : lo ≤ lo') (hhi : hi' ≤ hi) : m.Free sl lo' hi' :=
  fun rb h₁ h₂ ↦ h rb (hlo.trans h₁) (lt_of_lt_of_le h₂ hhi)

/-! ### The search -/

theorem skipBusy_spec (m : RbMap) (sl n rb : ℕ) :
    rb ≤ m.skipBusy sl n rb ∧ m.skipBusy sl n rb ≤ rb + n ∧
      (∀ q, rb ≤ q → q < m.skipBusy sl n rb → m.busy sl q = true) ∧
      (m.skipBusy sl n rb < rb + n → m.busy sl (m.skipBusy sl n rb) = false) := by
  induction n generalizing rb with
  | zero => exact ⟨le_refl _, le_refl _, fun q h₁ h₂ ↦ by rw [skipBusy] at h₂; omega,
      fun h ↦ by rw [skipBusy] at h; omega⟩
  | succ n ih =>
    rw [skipBusy]
    split
    · obtain ⟨h₁, h₂, h₃, h₄⟩ := ih (rb + 1)
      refine ⟨by omega, by omega, fun q hq hlt ↦ ?_, fun h ↦ h₄ (by omega)⟩
      by_cases heq : q = rb
      · rwa [heq]
      · exact h₃ q (by omega) hlt
    · rename_i hfree
      exact ⟨le_refl _, by omega, fun q _ _ ↦ by omega, fun _ ↦ by simpa using hfree⟩

theorem freeRun_spec (m : RbMap) (sl n rb : ℕ) :
    m.freeRun sl n rb ≤ n ∧ m.Free sl rb (rb + m.freeRun sl n rb) ∧
      (m.freeRun sl n rb < n → m.busy sl (rb + m.freeRun sl n rb) = true) := by
  induction n generalizing rb with
  | zero => exact ⟨le_refl _, fun q h₁ h₂ ↦ by rw [freeRun] at h₂; omega, fun h ↦ by omega⟩
  | succ n ih =>
    rw [freeRun]
    split
    · rename_i hbusy
      exact ⟨by omega, fun q h₁ h₂ ↦ by omega, fun _ ↦ hbusy⟩
    · rename_i hfree
      obtain ⟨h₁, h₂, h₃⟩ := ih (rb + 1)
      refine ⟨by omega, fun q hq hlt ↦ ?_, fun h ↦ ?_⟩
      · by_cases heq : q = rb
        · rw [heq]
          simpa using hfree
        · exact h₂ q (by omega) (by omega)
      · rw [← add_assoc, add_right_comm]
        exact h₃ (by omega)

theorem skipBusy_eq (hle : rb ≤ s) (hlt : s ≤ rb + n)
    (hbusy : ∀ q, rb ≤ q → q < s → m.busy sl q = true) (hfree : m.busy sl s = false) :
    m.skipBusy sl n rb = s := by
  obtain ⟨h₁, h₂, h₃, h₄⟩ := m.skipBusy_spec sl n rb
  generalize m.skipBusy sl n rb = s' at *
  rcases lt_trichotomy s' s with h | h | h
  · rw [hbusy s' h₁ h] at h₄
    exact absurd (h₄ (by omega)) (by simp)
  · exact h
  · rw [h₃ s hle h] at hfree
    cases hfree

theorem freeRun_eq (hle : k ≤ n) (hfree : m.Free sl rb (rb + k))
    (hstop : k = n ∨ m.busy sl (rb + k) = true) : m.freeRun sl n rb = k := by
  obtain ⟨h₁, h₂, h₃⟩ := m.freeRun_spec sl n rb
  generalize m.freeRun sl n rb = k' at *
  rcases lt_trichotomy k' k with h | h | h
  · have hbusy := h₃ (by omega)
    rw [hfree _ (by omega) (by omega)] at hbusy
    cases hbusy
  · exact h
  · rcases hstop with hstop | hstop
    · omega
    · rw [h₂ _ (by omega) (by omega)] at hstop
      cases hstop

theorem le_freeRun (hle : k ≤ n) (hfree : m.Free sl rb (rb + k)) : k ≤ m.freeRun sl n rb := by
  obtain ⟨-, -, h₃⟩ := m.freeRun_spec sl n rb
  generalize m.freeRun sl n rb = k' at *
  rcases lt_or_ge k' k with h | h
  · have hbusy := h₃ (by omega)
    rw [hfree _ (by omega) (by omega)] at hbusy
    cases hbusy
  · exact h

end RbMap

/-! ### Where there is room in a BWP -/

namespace Bwp

variable (b : Bwp) (m : RbMap) (sl : ℕ)

/-- There are `n` free blocks from `s` on, and `s` is not the last block. -/
def RoomAt (n s : ℕ) : Prop :=
  b.start ≤ s ∧ s + 1 < b.start + b.size ∧ s + n ≤ b.start + b.size ∧ m.Free sl s (s + n)

/-- `s` is the first free block. -/
def FirstFree (s : ℕ) : Prop :=
  b.start ≤ s ∧ s < b.start + b.size ∧ m.busy sl s = false ∧
    ∀ q, b.start ≤ q → q < s → m.busy sl q = true

/-- The free blocks from `s` on are `n`. -/
def RunAt (s n : ℕ) : Prop :=
  s + n ≤ b.start + b.size ∧ m.Free sl s (s + n) ∧
    (s + n = b.start + b.size ∨ m.busy sl (s + n) = true)

variable {b m sl}

theorem FirstFree.skipBusy (hs : b.FirstFree m sl s) (hn : s ≤ b.start + n) :
    m.skipBusy sl n b.start = s :=
  RbMap.skipBusy_eq hs.1 hn hs.2.2.2 hs.2.2.1

/-- A run from a free block is not empty. -/
theorem FirstFree.run_pos (hs : b.FirstFree m sl s) (hn : b.RunAt m sl s n) : 0 < n := by
  refine Nat.pos_of_ne_zero fun hzero ↦ ?_
  obtain ⟨-, hlt, hfree, -⟩ := hs
  rcases hn.2.2 with hend | hbusy
  · omega
  · rw [hzero, Nat.add_zero, hfree] at hbusy
    exact Bool.false_ne_true hbusy

end Bwp

/-! ### One grant -/

/-- The rectangle of a grant is free in `m` and set in `m'`. -/
structure TakesFree (m m' : RbMap) (r : Rect) : Prop where
  free : Disjoint r.cells m.cells
  kept : m.cells ⊆ m'.cells
  set : r.cells ⊆ m'.cells

theorem Rect.cells_of_size_zero {r : Rect} (h : r.rbSize = 0) : r.cells = ∅ := by
  refine Set.eq_empty_of_forall_notMem ?_
  rintro ⟨rb, i⟩ ⟨⟨h₁, h₂⟩, -⟩
  omega

namespace TakesFree

variable {m m' : RbMap} {r : Rect}

theorem of_size_zero (h : r.rbSize = 0) (hkept : m.cells ⊆ m'.cells) : TakesFree m m' r := by
  have := Rect.cells_of_size_zero h
  exact ⟨by simp [this], hkept, by simp [this]⟩

/-- Free blocks, all of which the marking loop reaches. -/
theorem mark {m₁ : RbMap} {lo hi offset sl : ℕ} (hkept : m.cells ⊆ m₁.cells)
    (hsl : sl = r.tda.slbitmap) (hfree : m.Free sl r.rbFirst (r.rbFirst + r.rbSize))
    (hlo : lo + offset ≤ r.rbFirst) (hhi : r.rbFirst + r.rbSize ≤ hi + offset) :
    TakesFree m (m₁.mark lo hi offset sl) r := by
  subst hsl
  exact ⟨hfree.disjoint, hkept.trans (RbMap.subset_mark _ _ _ _ _), RbMap.rect_subset_mark hlo hhi⟩

end TakesFree

end OaiRan.Mac
