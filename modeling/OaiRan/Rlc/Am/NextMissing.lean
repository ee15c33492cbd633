import OaiRan.Rlc.Am.RxWindow

/-!
# From one stretch of missing bytes to the next

`next_missing` goes through the receive list from a cell on and stops at the first discontinuity. In
a list that is ordered by absolute SN and SO, whose cells are segments of SDUs, **what it finds is a
stretch of bytes that no cell has, and everything before the stretch is there** (`Finds`). When it
finds nothing, everything up to `rx_highest_status` is there.

`Reached` is what the loop knows when it is at a cell: the bytes up to `maxSo` of the SDU of that cell
are there, and nothing after them has been seen yet.
-/

namespace OaiRan.Rlc.Am

open CircularSeq List

variable {c : AmConfig}

/-! `len` gives the length of the SDU of an SN, which the receiver does not know before it has the
last segment. -/

/-- A segment of an SDU of `n` bytes. -/
structure IsSegment (n : ℤ) (p : NrRlcPdu) : Prop where
  so_nonneg : 0 ≤ p.so
  size_pos : 0 < p.size
  le : p.so + p.size ≤ n
  isFirst_iff : p.isFirst = true ↔ p.so = 0
  isLast_iff : p.isLast = true ↔ p.so + p.size = n

instance (n : ℤ) (p : NrRlcPdu) : Decidable (IsSegment n p) :=
  decidable_of_iff (0 ≤ p.so ∧ 0 < p.size ∧ p.so + p.size ≤ n ∧ (p.isFirst = true ↔ p.so = 0) ∧
    (p.isLast = true ↔ p.so + p.size = n))
    ⟨fun h ↦ ⟨h.1, h.2.1, h.2.2.1, h.2.2.2.1, h.2.2.2.2⟩,
      fun h ↦ ⟨h.so_nonneg, h.size_pos, h.le, h.isFirst_iff, h.isLast_iff⟩⟩

section Scan

variable {p : NrRlcPdu} {ea sn : ℤ} {m : MissingData}

/-- A receive window of absolute numbers, with cells that are segments. -/
structure Scan (c : AmConfig) (s : AmRx) (len : ℤ → ℤ) (rn rh rnh : ℤ) : Prop where
  sane : c.Sane
  rxNext_eq : s.rxNext = rn % c.snModulus
  rxHighestStatus_eq : s.rxHighestStatus = rh % c.snModulus
  rn_le_rh : rn ≤ rh
  rh_le_rnh : rh ≤ rnh
  rnh_lt : rnh < rn + c.snModulus
  len_pos : ∀ x, 0 < len x
  len_le : ∀ x, len x ≤ 0xffff

/-- The byte `i` of the absolute SN `x` is there. -/
def HasAbs (c : AmConfig) (rn : ℤ) (l : List NrRlcPdu) (x i : ℤ) : Prop :=
  ∃ p ∈ l, lift c.snModulus rn p.sn = x ∧ p.so ≤ i ∧ i < p.so + p.size

/-- A byte of the SDU with the absolute SN `x`. -/
def IsByte (c : AmConfig) (len : ℤ → ℤ) (x i : ℤ) : Prop := 0 ≤ i ∧ i < len (x % c.snModulus)

/-- Order of bytes, by absolute SN and SO. -/
def ByteLe (x i y j : ℤ) : Prop := x < y ∨ x = y ∧ i ≤ j

/-- The cells from the byte `s₀` of `a₀` on. -/
structure ScanCells (c : AmConfig) (len : ℤ → ℤ) (rn rnh : ℤ) (l : List NrRlcPdu) (a₀ s₀ : ℤ) :
    Prop where
  isSn : ∀ p ∈ l, IsSn c.snModulus p.sn
  below : ∀ p ∈ l, lift c.snModulus rn p.sn < rnh
  sorted : l.Pairwise (CellLe c.snModulus rn)
  segment : ∀ p ∈ l, IsSegment (len p.sn) p
  complete : ∀ p ∈ l, p.data = none → ∀ i, IsByte c len (lift c.snModulus rn p.sn) i →
    ByteLe a₀ s₀ (lift c.snModulus rn p.sn) i → HasAbs c rn l (lift c.snModulus rn p.sn) i

variable {s : AmRx} {len : ℤ → ℤ} {rn rh rnh a₀ s₀ : ℤ} {l pre rest : List NrRlcPdu}
  {q cur : NrRlcPdu}

variable {x i a maxSo : ℤ} {b : Bool}

theorem Scan.outOfReport_iff (h : Scan c s len rn rh rnh) (hx : rn ≤ x)
    (hx' : x < rn + c.snModulus) : outOfReport c s (x % c.snModulus) = true ↔ rh ≤ x := by
  have h₁ := h.rn_le_rh
  have h₂ := h.rh_le_rnh
  have h₃ := h.rnh_lt
  rw [outOfReport, decide_eq_true_iff, snCompareRx_eq h.sane h.rxNext_eq
    (h.rxHighestStatus_eq ▸ isSn_emod h.sane.pos _) (isSn_emod h.sane.pos _),
    h.rxHighestStatus_eq, lift_emod_self h₁ (by omega), lift_emod_self hx hx']
  omega

theorem snBefore_emod (x : ℤ) : snBefore c (x % c.snModulus) = (x - 1) % c.snModulus := by
  rw [snBefore, Int.add_emod_right, Int.emod_sub_emod]

/-- The SN of a cell is its absolute number, reduced. -/
theorem ScanCells.sn_eq (h : ScanCells c len rn rnh l a₀ s₀) (hp : p ∈ l) :
    p.sn = lift c.snModulus rn p.sn % c.snModulus := by
  rw [lift_emod, Int.emod_eq_of_lt (h.isSn p hp).1 (h.isSn p hp).2]

/-- **What `next_missing` finds** from the byte `s₀` of `a₀` on: all bytes before the stretch are
there, none of the stretch is, and the next cell is right after it. -/
structure Finds (c : AmConfig) (len : ℤ → ℤ) (rn rh : ℤ) (l : List NrRlcPdu) (a₀ s₀ : ℤ)
    (m : MissingData) (next : List NrRlcPdu) (sa ea : ℤ) : Prop where
  snStart_eq : m.snStart = sa % c.snModulus
  snEnd_eq : m.snEnd = ea % c.snModulus
  front : ByteLe a₀ s₀ sa m.soStart
  start_le : sa ≤ ea
  lt_rh : ea < rh
  soStart_mem : 0 ≤ m.soStart ∧ m.soStart ≤ 0xffff
  soEnd_mem : 0 ≤ m.soEnd ∧ m.soEnd ≤ 0xffff
  so_le : sa = ea → m.soStart ≤ m.soEnd
  before : ∀ x i, IsByte c len x i → ByteLe a₀ s₀ x i → ¬ByteLe sa m.soStart x i →
    HasAbs c rn l x i
  missing : ∀ x i, IsByte c len x i → ByteLe sa m.soStart x i → ByteLe x i ea m.soEnd →
    ¬HasAbs c rn l x i
  after : (next = [] ∧ ea = rh - 1 ∧ m.soEnd = 0xffff) ∨
    ∃ q rest, next = q :: rest ∧ next <:+ l ∧
      ByteLe ea m.soEnd (lift c.snModulus rn q.sn) q.so ∧
      (∀ x i, IsByte c len x i → ¬ByteLe x i ea m.soEnd →
        ByteLe (lift c.snModulus rn q.sn) q.so x i) ∧
      ∀ x i, ByteLe (lift c.snModulus rn q.sn) q.so x i → (HasAbs c rn l x i ↔ HasAbs c rn next x i)

theorem hasAbs_append : HasAbs c rn (l ++ l') x i ↔ HasAbs c rn l x i ∨ HasAbs c rn l' x i := by
  constructor
  · rintro ⟨p, hp, h⟩
    exact (mem_append.1 hp).imp (fun hp ↦ ⟨p, hp, h⟩) fun hp ↦ ⟨p, hp, h⟩
  · rintro (⟨p, hp, h⟩ | ⟨p, hp, h⟩)
    · exact ⟨p, mem_append_left _ hp, h⟩
    · exact ⟨p, mem_append_right _ hp, h⟩

/-- Bytes before a cell are in no cell after it. -/
theorem ScanCells.not_hasAbs (h : ScanCells c len rn rnh l a₀ s₀) (hl : l = pre ++ q :: rest)
    (hlt : ¬ByteLe (lift c.snModulus rn q.sn) q.so x i) : ¬HasAbs c rn (q :: rest) x i := by
  rintro ⟨p, hp, rfl, hso, -⟩
  have hsorted := h.sorted
  rw [hl, pairwise_append] at hsorted
  rcases mem_cons.1 hp with rfl | hp
  · exact hlt (.inr ⟨rfl, hso⟩)
  · have := (pairwise_cons.1 hsorted.2.1).1 p hp
    rw [CellLe] at this
    rw [ByteLe] at hlt
    omega

/-- The first byte after `maxSo` of `a`, which may be the first one of the next SDU. -/
def gapSn (a : ℤ) (lastReached : Bool) : ℤ := if lastReached then a + 1 else a

@[inherit_doc gapSn]
def gapSo (maxSo : ℤ) (lastReached : Bool) : ℤ := if lastReached then 0 else maxSo + 1

@[simp]
theorem gapSn_true (a : ℤ) : gapSn a true = a + 1 := rfl

@[simp]
theorem gapSn_false (a : ℤ) : gapSn a false = a := rfl

@[simp]
theorem gapSo_true (maxSo : ℤ) : gapSo maxSo true = 0 := rfl

@[simp]
theorem gapSo_false (maxSo : ℤ) : gapSo maxSo false = maxSo + 1 := rfl

/-- Everything from `a₀`, `s₀` up to the byte `maxSo` of `a` is in the cells `pre`, and nothing
after it. -/
structure Reached (c : AmConfig) (len : ℤ → ℤ) (rn a₀ s₀ : ℤ) (pre : List NrRlcPdu) (a maxSo : ℤ)
    (lastReached : Bool) : Prop where
  has : ∀ x i, IsByte c len x i → ByteLe a₀ s₀ x i → ByteLe x i a maxSo → HasAbs c rn pre x i
  le : ∀ p ∈ pre, lift c.snModulus rn p.sn < a ∨
    lift c.snModulus rn p.sn = a ∧ p.so + p.size - 1 ≤ maxSo
  maxSo_mem : 0 ≤ maxSo ∧ maxSo < len (a % c.snModulus)
  last_iff : lastReached = true ↔ maxSo = len (a % c.snModulus) - 1
  front : ByteLe a₀ s₀ (gapSn a lastReached) (gapSo maxSo lastReached)

theorem Reached.not_hasAbs (h : Reached c len rn a₀ s₀ pre a maxSo b)
    (hlt : ¬ByteLe x i a maxSo) : ¬HasAbs c rn pre x i := by
  rintro ⟨p, hp, rfl, hso, hi⟩
  have := h.le p hp
  rw [ByteLe] at hlt
  omega

/-- The walk starts at a cell. -/
theorem ScanCells.reached (h : ScanCells c len rn rnh (cur :: rest) (lift c.snModulus rn cur.sn)
    cur.so) : Reached c len rn (lift c.snModulus rn cur.sn) cur.so [cur]
      (lift c.snModulus rn cur.sn) (max 0 (cur.so + cur.size - 1)) (false || cur.isLast) := by
  have hseg := h.segment cur mem_cons_self
  have hsn := h.sn_eq (p := cur) mem_cons_self
  have h₁ := hseg.so_nonneg
  have h₂ := hseg.size_pos
  have h₃ := hseg.le
  rw [show max 0 (cur.so + cur.size - 1) = cur.so + cur.size - 1 by omega, Bool.false_or]
  refine ⟨fun x i _ hle hle' ↦ ⟨cur, mem_singleton_self _, ?_⟩, fun p hp ↦ ?_, ?_, ?_, ?_⟩
  · rw [ByteLe] at hle hle'
    omega
  · rw [mem_singleton.1 hp]
    exact .inr ⟨rfl, le_rfl⟩
  · rw [← hsn]
    omega
  · rw [← hsn, hseg.isLast_iff]
    omega
  · rcases cur.isLast with - | -
    · exact .inr ⟨rfl, show cur.so ≤ cur.so + cur.size - 1 + 1 by omega⟩
    · exact .inl (lt_add_one _)

section

variable (h : Reached c len rn a₀ s₀ pre a maxSo b)
include h

/-- It goes on to a segment of the same SDU, without a gap. -/
theorem Reached.sameSdu (hseg : IsSegment (len q.sn) q) (hsn : q.sn = a % c.snModulus)
    (ha : lift c.snModulus rn q.sn = a) (hgap : q.so - 1 ≤ maxSo) :
    Reached c len rn a₀ s₀ (pre ++ [q]) a (max maxSo (q.so + q.size - 1)) (b || q.isLast) := by
  have h₃ := hseg.le
  have h₄ := h.maxSo_mem
  have hfront := h.front
  rw [hsn] at h₃
  refine ⟨fun x i hbyte hle hle' ↦ ?_, fun p hp ↦ ?_, ?_, ?_, ?_⟩
  · rw [hasAbs_append]
    by_cases hold : ByteLe x i a maxSo
    · exact .inl (h.has x i hbyte hle hold)
    · refine .inr ⟨q, mem_singleton_self _, ?_⟩
      rw [ByteLe] at hold hle'
      omega
  · rcases mem_append.1 hp with hp | hp
    · have := h.le p hp
      omega
    · rw [mem_singleton.1 hp]
      exact .inr ⟨ha, le_max_right _ _⟩
  · omega
  · rw [Bool.or_eq_true, h.last_iff, hseg.isLast_iff, hsn]
    omega
  · rw [ByteLe] at hfront ⊢
    rcases b with - | - <;> rcases q.isLast with - | - <;>
      simp only [Bool.or_false, Bool.or_true, gapSn_true, gapSn_false, gapSo_true, gapSo_false]
        at hfront ⊢ <;> omega

/-- It goes on to the first segment of the next SDU. -/
theorem Reached.nextSdu
    (hb : b = true) (hseg : IsSegment (len q.sn) q) (hsn : q.sn = (a + 1) % c.snModulus)
    (ha : lift c.snModulus rn q.sn = a + 1) (hfirst : q.isFirst = true) :
    Reached c len rn a₀ s₀ (pre ++ [q]) (a + 1) (max 0 (q.so + q.size - 1)) (false || q.isLast) := by
  have h₀ := hseg.isFirst_iff.1 hfirst
  have h₂ := hseg.size_pos
  have h₃ := hseg.le
  have hlast := h.last_iff.1 hb
  have hfront := h.front
  rw [hsn] at h₃
  rw [show max 0 (q.so + q.size - 1) = q.so + q.size - 1 by omega, Bool.false_or]
  refine ⟨fun x i hbyte hle hle' ↦ ?_, fun p hp ↦ ?_, ?_, ?_, ?_⟩
  · rw [hasAbs_append]
    by_cases hx : x = a + 1
    · refine .inr ⟨q, mem_singleton_self _, ?_⟩
      rw [IsByte] at hbyte
      rw [ByteLe] at hle'
      omega
    · refine .inl (h.has x i hbyte hle ?_)
      rw [ByteLe] at hle' ⊢
      rcases eq_or_lt_of_le (show x ≤ a by omega) with rfl | hlt
      · rw [IsByte] at hbyte
        omega
      · exact .inl hlt
  · rcases mem_append.1 hp with hp | hp
    · have := h.le p hp
      omega
    · rw [mem_singleton.1 hp]
      exact .inr ⟨ha, le_rfl⟩
  · omega
  · rw [hseg.isLast_iff, hsn]
    omega
  · subst hb
    rw [ByteLe] at hfront ⊢
    rcases q.isLast with - | - <;>
      simp only [gapSn_true, gapSn_false, gapSo_true, gapSo_false] at hfront ⊢ <;> omega

/-! The stretch from there on: nothing of it is in `pre`, and what comes before it is. -/

theorem Reached.byteLe_of_lt_gap (hbyte : IsByte c len x i)
    (hlt : ¬ByteLe (gapSn a b) (gapSo maxSo b) x i) : ByteLe x i a maxSo := by
  rcases b with - | -
  · simp only [ByteLe, gapSn_false, gapSo_false] at hlt ⊢
    omega
  · have hlast := h.last_iff.1 rfl
    have hnonneg := hbyte.1
    simp only [ByteLe, gapSn_true, gapSo_true] at hlt ⊢
    rcases eq_or_lt_of_le (show x ≤ a by omega) with rfl | hx
    · exact .inr ⟨rfl, hlast ▸ Int.le_sub_one_of_lt hbyte.2⟩
    · exact .inl hx

end

theorem not_byteLe_of_gap_le
    (hle : ByteLe (gapSn a b) (gapSo maxSo b) x i) : ¬ByteLe x i a maxSo := by
  rcases b with - | - <;>
    simp only [ByteLe, gapSn_true, gapSn_false, gapSo_true, gapSo_false] at hle ⊢ <;> omega

section

variable (h : Reached c len rn a₀ s₀ pre a maxSo b)
include h

theorem Reached.gapSo_mem
    (hlen : ∀ x, len x ≤ 0xffff) : 0 ≤ gapSo maxSo b ∧ gapSo maxSo b ≤ 0xffff := by
  have h₁ := h.maxSo_mem
  have h₂ := hlen (a % c.snModulus)
  rcases b with - | -
  · exact ⟨show 0 ≤ maxSo + 1 by omega, show maxSo + 1 ≤ 0xffff by omega⟩
  · exact ⟨le_rfl, show (0 : ℤ) ≤ 0xffff by decide⟩

/-- The stretch ends right before the cell `q`. -/
theorem Reached.finds_cell (hscan : Scan c s len rn rh rnh)
    (hl : ScanCells c len rn rnh l a₀ s₀) (hsplit : l = pre ++ q :: rest)
    (hstart : m.snStart = gapSn a b % c.snModulus) (hso : m.soStart = gapSo maxSo b)
    (hend : q.so = 0 ∧ ea = lift c.snModulus rn q.sn - 1 ∧ m.soEnd = 0xffff ∨
      0 < q.so ∧ ea = lift c.snModulus rn q.sn ∧ m.soEnd = q.so - 1)
    (hsnEnd : m.snEnd = ea % c.snModulus) (hle : gapSn a b ≤ ea) (hrh : ea < rh)
    (hsole : gapSn a b = ea → m.soStart ≤ m.soEnd) :
    Finds c len rn rh l a₀ s₀ m (q :: rest) (gapSn a b) ea := by
  have hmem : q ∈ l := hsplit ▸ mem_append_right _ mem_cons_self
  have hseg := hl.segment q hmem
  have h₁ := hseg.size_pos
  have h₂ := hseg.le
  have h₃ := hscan.len_le q.sn
  refine ⟨hstart, hsnEnd, hso ▸ h.front, hle, hrh, hso ▸ h.gapSo_mem hscan.len_le, ?_, hsole, ?_,
    ?_, .inr ⟨q, rest, rfl, hsplit ▸ suffix_append _ _, ?_, ?_, ?_⟩⟩
  · omega
  · intro x i hbyte hle₀ hlt
    rw [hsplit, hasAbs_append]
    exact .inl (h.has x i hbyte hle₀ (h.byteLe_of_lt_gap hbyte (hso ▸ hlt)))
  · intro x i hbyte hle₀ hle'
    rw [hsplit, hasAbs_append]
    rintro (hin | hin)
    · exact h.not_hasAbs (not_byteLe_of_gap_le (hso ▸ hle₀)) hin
    · refine hl.not_hasAbs hsplit ?_ hin
      rw [ByteLe] at hle' ⊢
      omega
  · rw [ByteLe]
    omega
  · intro x i hbyte hlt
    have h₄ := hbyte.1
    have h₅ := hbyte.2
    have h₆ := hscan.len_le (x % c.snModulus)
    rw [ByteLe] at hlt ⊢
    omega
  · intro x i hle'
    rw [hsplit, hasAbs_append, or_iff_right]
    refine h.not_hasAbs ?_
    rcases b with - | - <;>
      simp only [ByteLe, gapSn_true, gapSn_false, gapSo_true, gapSo_false] at * <;> omega

/-- The stretch goes beyond what is to be reported, and ends at the highest SN that is. -/
theorem Reached.finds_end (hscan : Scan c s len rn rh rnh)
    (hsplit : l = pre ++ rest) (hrest : ∀ p ∈ rest, rh ≤ lift c.snModulus rn p.sn)
    (hstart : m.snStart = gapSn a b % c.snModulus) (hso : m.soStart = gapSo maxSo b)
    (hsnEnd : m.snEnd = (rh - 1) % c.snModulus) (hsoEnd : m.soEnd = 0xffff)
    (hlt : gapSn a b < rh) : Finds c len rn rh l a₀ s₀ m [] (gapSn a b) (rh - 1) := by
  have hmem := hso ▸ h.gapSo_mem hscan.len_le
  refine ⟨hstart, hsnEnd, hso ▸ h.front, by omega, by omega, hmem, by omega,
    fun _ ↦ hsoEnd ▸ hmem.2, ?_, ?_, .inl ⟨rfl, rfl, hsoEnd⟩⟩
  · intro x i hbyte hle₀ hlt'
    rw [hsplit, hasAbs_append]
    exact .inl (h.has x i hbyte hle₀ (h.byteLe_of_lt_gap hbyte (hso ▸ hlt')))
  · intro x i hbyte hle₀ hle'
    rw [hsplit, hasAbs_append]
    rintro (hin | ⟨p, hp, rfl, -⟩)
    · exact h.not_hasAbs (not_byteLe_of_gap_le (hso ▸ hle₀)) hin
    · have := hrest p hp
      rw [ByteLe] at hle'
      omega

/-- The stretch would start beyond what is to be reported. -/
theorem Reached.all (hsplit : l = pre ++ rest) (hle : rh ≤ gapSn a b) (hbyte : IsByte c len x i)
    (hx : x < rh) (hle₀ : ByteLe a₀ s₀ x i) : HasAbs c rn l x i := by
  rw [hsplit, hasAbs_append]
  refine .inl (h.has x i hbyte hle₀ (h.byteLe_of_lt_gap hbyte ?_))
  rw [ByteLe]
  omega

end

/-- The cells after a cell are at or after it. -/
theorem ScanCells.le_of_mem (h : ScanCells c len rn rnh l a₀ s₀) (hsplit : l = pre ++ q :: rest)
    (hp : p ∈ q :: rest) : lift c.snModulus rn q.sn ≤ lift c.snModulus rn p.sn := by
  have hsorted := h.sorted
  rw [hsplit, pairwise_append] at hsorted
  rcases mem_cons.1 hp with rfl | hp
  · exact le_rfl
  · exact ((pairwise_cons.1 hsorted.2.1).1 p hp).elim le_of_lt fun h ↦ h.1.le

/-- `next_missing` finds nothing, or the next stretch. -/
def FindsOrNone (c : AmConfig) (len : ℤ → ℤ) (rn rh : ℤ) (l : List NrRlcPdu) (a₀ s₀ : ℤ)
    (r : Option (MissingData × List NrRlcPdu)) : Prop :=
  (r = none ∧ ∀ x i, IsByte c len x i → x < rh → ByteLe a₀ s₀ x i → HasAbs c rn l x i) ∨
    ∃ m next sa ea, r = some (m, next) ∧ Finds c len rn rh l a₀ s₀ m next sa ea

/-- A stretch that ends in another SDU than it starts in. -/
theorem Reached.setEndDifferentSdu
    (h : Reached c len rn a₀ s₀ pre a maxSo b) (hscan : Scan c s len rn rh rnh)
    (hl : ScanCells c len rn rnh l a₀ s₀) (hsplit : l = pre ++ q :: rest) (hrn : rn ≤ gapSn a b)
    (hlt : gapSn a b < rh)
    (hgap : ByteLe (gapSn a b) (gapSo maxSo b + 1) (lift c.snModulus rn q.sn) q.so) :
    FindsOrNone c len rn rh l a₀ s₀ (some (Am.setEndDifferentSdu c s (gapSn a b % c.snModulus)
      (gapSo maxSo b) q (q :: rest))) := by
  have hmem : q ∈ l := hsplit ▸ mem_append_right _ mem_cons_self
  have hseg := hl.segment q hmem
  have hsn := hl.sn_eq hmem
  have hupper := lift_lt hscan.sane.pos rn q.sn
  have hnonneg := (h.gapSo_mem hscan.len_le).1
  have hso := hseg.so_nonneg
  have hle := fun p ↦ hl.le_of_mem hsplit (p := p)
  generalize hx : lift c.snModulus rn q.sn = x at *
  rw [ByteLe] at hgap
  rw [Am.setEndDifferentSdu]
  rcases hfirst : q.isFirst with - | -
  · have hpos : 0 < q.so := lt_of_le_of_ne hso fun h0 ↦
      absurd (hseg.isFirst_iff.2 h0.symm) (by rw [hfirst]; decide)
    simp only [Bool.false_eq_true, if_false]
    rw [hsn]
    split
    · rename_i hout
      have hrh := (hscan.outOfReport_iff (by omega) hupper).1 hout
      exact .inr ⟨_, _, _, _, rfl, h.finds_end hscan hsplit (fun p hp ↦ hrh.trans (hle p hp)) rfl
        rfl (hscan.rxHighestStatus_eq ▸ snBefore_emod rh) rfl hlt⟩
    · rename_i hout
      rw [hscan.outOfReport_iff (by omega) hupper, not_le] at hout
      refine .inr ⟨_, _, _, _, rfl, h.finds_cell hscan hl hsplit rfl rfl
        (.inr ⟨hpos, hx.symm, rfl⟩) rfl (by omega) hout fun heq ↦ ?_⟩
      show gapSo maxSo b ≤ q.so - 1
      omega
  · have hzero := hseg.isFirst_iff.1 hfirst
    simp only [if_true]
    rw [hsn, snBefore_emod]
    split
    · rename_i hout
      have hrh := (hscan.outOfReport_iff (by omega) (by omega)).1 hout
      refine .inr ⟨_, _, _, _, rfl, h.finds_end hscan hsplit (fun p hp ↦ ?_) rfl
        rfl (hscan.rxHighestStatus_eq ▸ snBefore_emod rh) rfl hlt⟩
      exact (show rh ≤ x by omega).trans (hle p hp)
    · rename_i hout
      rw [hscan.outOfReport_iff (by omega) (by omega), not_le] at hout
      exact .inr ⟨_, _, _, _, rfl, h.finds_cell hscan hl hsplit rfl rfl
        (.inl ⟨hzero, by rw [hx], rfl⟩) rfl (by omega) hout
        fun _ ↦ (h.gapSo_mem hscan.len_le).2⟩

theorem gapSn_emod (hsn : sn = a % c.snModulus) (b : Bool) :
    (if b = true then (sn + 1) % c.snModulus else sn) = gapSn a b % c.snModulus := by
  rcases b with - | -
  · exact hsn
  · rw [hsn]
    exact Int.emod_add_emod a c.snModulus 1

theorem le_gapSn (a : ℤ) (b : Bool) : a ≤ gapSn a b ∧ gapSn a b ≤ a + 1 := by
  rcases b with - | -
  · exact ⟨le_rfl, (lt_add_one a).le⟩
  · exact ⟨(lt_add_one a).le, le_rfl⟩

/-- The last byte of an SDU that was delivered was reached. -/
theorem Reached.of_data_eq_none (h : Reached c len rn a₀ s₀ l (lift c.snModulus rn cur.sn) maxSo b)
    (hl : ScanCells c len rn rnh l a₀ s₀) (hcur : cur ∈ l) (hnone : cur.data = none) :
    b = true := by
  rcases b with - | -
  · have hlast := mt h.last_iff.2 Bool.false_ne_true
    have hmax := h.maxSo_mem
    have hfront := h.front
    have hbyte : IsByte c len (lift c.snModulus rn cur.sn)
        (len (lift c.snModulus rn cur.sn % c.snModulus) - 1) := by
      rw [IsByte]
      omega
    have hhas := hl.complete cur hcur hnone _ hbyte (by
      simp only [ByteLe, gapSn_false, gapSo_false] at hfront ⊢
      omega)
    refine absurd hhas (h.not_hasAbs ?_)
    rw [ByteLe]
    omega
  · rfl

/-- **The loop of `next_missing`** from `cur` on, everything up to `cur` being there. -/
theorem nextMissingLoop_spec (hscan : Scan c s len rn rh rnh)
    (hl : ScanCells c len rn rnh l a₀ s₀) {rest : List NrRlcPdu} :
    ∀ {pre : List NrRlcPdu} {cur : NrRlcPdu} {maxSo : ℤ} {b : Bool}, l = pre ++ cur :: rest →
      Reached c len rn a₀ s₀ (pre ++ [cur]) (lift c.snModulus rn cur.sn)
        (max maxSo (cur.so + cur.size - 1)) (b || cur.isLast) →
      FindsOrNone c len rn rh l a₀ s₀ (nextMissingLoop c s cur rest maxSo b) := by
  have hmod := hscan.sane.pos
  have hrnh := hscan.rnh_lt
  induction rest with
  | nil =>
    intro pre cur maxSo b hsplit h
    have hnone : l = (pre ++ [cur]) ++ [] := by rw [hsplit, append_nil]
    have hmem : cur ∈ l := hsplit ▸ mem_append_right _ mem_cons_self
    have hbelow := hl.below cur hmem
    have hlift := le_lift hmod rn cur.sn
    rw [nextMissingLoop]
    generalize max maxSo (cur.so + cur.size - 1) = maxSo' at *
    generalize (b || cur.isLast) = b' at *
    have hdone : (cur.data.isNone || b') = b' := by
      rcases hdata : cur.data with - | d
      · rw [← hsplit] at h
        rw [h.of_data_eq_none hl hmem hdata]
        rfl
      · rfl
    have hgap := le_gapSn (lift c.snModulus rn cur.sn) b'
    simp only [hdone]
    rw [gapSn_emod (hl.sn_eq hmem)]
    split
    · rename_i hout
      rw [hscan.outOfReport_iff (by omega) (by omega)] at hout
      exact .inl ⟨rfl, fun x i hbyte hx hle ↦ h.all hnone hout hbyte hx hle⟩
    · rename_i hout
      rw [hscan.outOfReport_iff (by omega) (by omega), not_le] at hout
      exact .inr ⟨_, _, _, _, rfl, h.finds_end hscan hnone
        (fun p hp ↦ (by cases hp)) rfl rfl
        (hscan.rxHighestStatus_eq ▸ snBefore_emod rh) rfl hout⟩
  | cons q rest ih =>
    intro pre cur maxSo b hsplit h
    have hsplit' : l = (pre ++ [cur]) ++ q :: rest := by rw [hsplit, append_assoc]; rfl
    have hmem : cur ∈ l := hsplit ▸ mem_append_right _ mem_cons_self
    have hmemq : q ∈ l := hsplit' ▸ mem_append_right _ mem_cons_self
    have hbelow := hl.below cur hmem
    have hlift := le_lift hmod rn cur.sn
    have hseg := hl.segment q hmemq
    have hsn := hl.sn_eq hmem
    have hle := hl.le_of_mem hsplit (mem_cons_of_mem _ mem_cons_self)
    have hsame : q.sn = cur.sn ↔ lift c.snModulus rn q.sn = lift c.snModulus rn cur.sn :=
      (lift_inj (hl.isSn q hmemq).1 (hl.isSn q hmemq).2 (hl.isSn cur hmem).1
        (hl.isSn cur hmem).2).symm
    have hnext : q.sn = (cur.sn + 1) % c.snModulus ↔
        lift c.snModulus rn q.sn = lift c.snModulus rn cur.sn + 1 := by
      rw [lift_eq_iff (hl.isSn q hmemq).1 (hl.isSn q hmemq).2 (by omega) (by omega),
        Int.add_emod (lift c.snModulus rn cur.sn), lift_emod, ← Int.add_emod]
    rw [nextMissingLoop]
    generalize max maxSo (cur.so + cur.size - 1) = maxSo' at *
    generalize (b || cur.isLast) = b' at *
    have hgap := le_gapSn (lift c.snModulus rn cur.sn) b'
    dsimp only
    split
    · rename_i hcont
      have ha := hsame.1 hcont.1
      exact ih hsplit' (ha ▸ h.sameSdu hseg (hcont.1.trans hsn) ha (by omega))
    split
    · rename_i hcont
      have ha := hnext.1 hcont.1
      exact ih hsplit' (ha ▸ h.nextSdu hcont.2.1 hseg
        (ha ▸ hl.sn_eq hmemq) ha hcont.2.2)
    rename_i hsame' hnext'
    split
    · rename_i heq
      have ha := hsame.1 heq
      -- the next cell starts inside the SDU, so its last byte was not reached
      obtain rfl : b' = false := by
        rcases b' with - | -
        · rfl
        · have h₁ := h.last_iff.1 rfl
          have h₂ := hseg.size_pos
          have h₃ := hseg.le
          rw [heq, hsn] at h₃
          omega
      have hmax := h.maxSo_mem
      split
      · rename_i hout
        rw [hsn, hscan.outOfReport_iff (by omega) (by omega)] at hout
        exact .inl ⟨rfl, fun x i hbyte hx hle ↦ h.all hsplit' hout hbyte hx hle⟩
      · rename_i hout
        rw [hsn, hscan.outOfReport_iff (by omega) (by omega), not_le] at hout
        refine .inr ⟨_, _, _, _, rfl, h.finds_cell hscan hl hsplit' hsn rfl
          (.inr ⟨by omega, ha.symm, rfl⟩) hsn le_rfl hout fun _ ↦ ?_⟩
        show maxSo' + 1 ≤ q.so - 1
        omega
    · rename_i hne
      rw [gapSn_emod hsn]
      split
      · rename_i hout
        rw [hscan.outOfReport_iff (by omega) (by omega)] at hout
        exact .inl ⟨rfl, fun x i hbyte hx hle ↦ h.all hsplit' hout hbyte hx hle⟩
      · rename_i hout
        rw [hscan.outOfReport_iff (by omega) (by omega), not_le] at hout
        refine h.setEndDifferentSdu hscan hl hsplit' (by omega) hout ?_
        have hlt := lt_of_le_of_ne hle fun h ↦ hne (hsame.2 h.symm)
        rcases b' with - | -
        · exact .inl hlt
        · have hso := hseg.so_nonneg
          rcases eq_or_lt_of_le (Int.add_one_le_of_lt hlt) with heq | hlt
          · refine .inr ⟨heq, ?_⟩
            have hfirst : q.so ≠ 0 := fun h0 ↦
              hnext' ⟨hnext.2 heq.symm, rfl, hseg.isFirst_iff.2 h0⟩
            show 0 + 1 ≤ q.so
            omega
          · exact .inl hlt

/-- **`next_missing`** from a cell on. -/
theorem nextMissing_spec (hscan : Scan c s len rn rh rnh)
    (hl : ScanCells c len rn rnh (cur :: rest) a₀ s₀) (ha : a₀ = lift c.snModulus rn cur.sn)
    (hs : s₀ = cur.so) :
    FindsOrNone c len rn rh (cur :: rest) a₀ s₀ (nextMissing c s cur rest false) := by
  subst ha hs
  exact nextMissingLoop_spec hscan hl (nil_append _).symm hl.reached

/-- **`next_missing`** from the head of the list on, where bytes before the first cell count. -/
theorem nextMissing_head (hscan : Scan c s len rn rh rnh)
    (hl : ScanCells c len rn rnh (cur :: rest) rn 0) :
    FindsOrNone c len rn rh (cur :: rest) rn 0 (nextMissing c s cur rest true) := by
  have hmod := hscan.sane.pos
  have hseg := hl.segment cur mem_cons_self
  have hsn := hl.isSn cur mem_cons_self
  have hhead : cur.sn = s.rxNext ↔ lift c.snModulus rn cur.sn = rn := by
    rw [lift_eq_iff hsn.1 hsn.2 le_rfl (by omega), hscan.rxNext_eq]
  rw [nextMissing]
  split
  · rename_i hcheck
    simp only [Bool.true_and, Bool.or_eq_true, bne_iff_ne, ne_eq, Bool.not_eq_true'] at hcheck
    -- the first byte of `rn` was not reached: as if everything up to it was
    have hr : Reached c len rn rn 0 [] (rn - 1) (len ((rn - 1) % c.snModulus) - 1) true := by
      have := hscan.len_pos ((rn - 1) % c.snModulus)
      refine ⟨fun x i _ hle hle' ↦ ?_, fun p hp ↦ (by cases hp), by omega, by simp, ?_⟩
      · rw [ByteLe] at hle hle'
        omega
      · rw [gapSn_true, gapSo_true, ByteLe]
        omega
    have hgap : gapSn (rn - 1) true = rn := by rw [gapSn_true]; omega
    split
    · rename_i hout
      rw [hscan.rxNext_eq, hscan.outOfReport_iff le_rfl (by omega)] at hout
      exact .inl ⟨rfl, fun x i hbyte hx hle ↦ hr.all (nil_append _).symm
        (hgap.symm ▸ hout) hbyte hx hle⟩
    · rename_i hout
      rw [hscan.rxNext_eq, hscan.outOfReport_iff le_rfl (by omega), not_le] at hout
      have hbyte : ByteLe rn 1 (lift c.snModulus rn cur.sn) cur.so := ?_
      · have := hr.setEndDifferentSdu hscan hl rfl hgap.ge (hgap.symm ▸ hout) (hgap.symm ▸ hbyte)
        rwa [hgap, ← hscan.rxNext_eq] at this
      rcases eq_or_lt_of_le (le_lift hmod rn cur.sn) with heq | hlt
      · have hfirst : cur.so ≠ 0 := fun h0 ↦ by
          rcases hcheck with hne | hnot
          · exact hne (hhead.2 heq.symm)
          · rw [hseg.isFirst_iff.2 h0] at hnot
            cases hnot
        have := hseg.so_nonneg
        exact .inr ⟨heq, by omega⟩
      · exact .inl hlt
  · rename_i hcheck
    simp only [Bool.true_and, Bool.or_eq_true, bne_iff_ne, ne_eq, Bool.not_eq_true', not_or,
      not_not, Bool.not_eq_false] at hcheck
    exact nextMissing_spec hscan hl (hhead.1 hcheck.1).symm (hseg.isFirst_iff.1 hcheck.2).symm

end Scan

end OaiRan.Rlc.Am
