import OaiRan.Rlc.Reassembly

/-!
# What the copying loop of `reassemble_and_deliver` reads

The loop never looks whether a segment starts beyond what has been copied so far, so it relies on
its caller for that. `gapFree` is what it needs, and all it needs: the copies stay inside the
payloads if and only if no segment leaves a gap, up to the first one that does not fit into an
SDU any more (`memcpys_inBounds_iff`). Then every byte of the result is a byte some segment has at
that offset (`byte_of_reassemble`).
-/

namespace OaiRan.Rlc

open List

variable {l segments : List NrRlcPdu} {i j : ℕ} {x : Option UInt8}

/-- The size of the segment is that of the bytes it holds. -/
structure NrRlcPdu.Sound (p : NrRlcPdu) : Prop where
  size_eq : p.size = (p.data.getD []).length
  so_nonneg : 0 ≤ p.so

/-- With bytes up to `so` copied, no segment starts beyond what is copied by its turn. Nothing is
copied any more once a segment ends beyond the largest SDU. -/
def gapFree : ℤ → List NrRlcPdu → Bool
  | _, [] => true
  | so, p :: ps =>
    if p.so + p.size > nrSduMax then true
    else p.so ≤ so && gapFree (max so (p.so + p.size)) ps

/-- The segments that are copied: those before the first one that does not fit into an SDU. -/
def copied (l : List NrRlcPdu) : List NrRlcPdu := l.takeWhile fun p ↦ p.so + p.size ≤ nrSduMax

/-- Every byte before the start of a segment is in some segment. -/
def NoHole (l : List NrRlcPdu) : Prop :=
  ∀ p ∈ l, ∀ i < p.so.toNat, ∃ q ∈ l, q.so ≤ (i : ℤ) ∧ (i : ℤ) < q.so + q.size

instance (l : List NrRlcPdu) : Decidable (NoHole l) := by
  unfold NoHole
  infer_instance

theorem gapFree_iff (hl : l.Pairwise fun p q ↦ p.so ≤ q.so) (a : ℤ) :
    gapFree a l = true ↔
      ∀ p ∈ copied l, ∀ i, a ≤ i → i < p.so → ∃ q ∈ copied l, q.so ≤ i ∧ i < q.so + q.size := by
  induction l generalizing a with
  | nil => simp [gapFree, copied]
  | cons p l ih =>
    obtain ⟨hp, hl⟩ := pairwise_cons.1 hl
    by_cases hbig : p.so + p.size > nrSduMax
    · simp [gapFree, copied, hbig]
    have hcopied : copied (p :: l) = p :: copied l :=
      takeWhile_cons_of_pos (decide_eq_true (by omega))
    rw [gapFree, if_neg hbig, Bool.and_eq_true, decide_eq_true_iff, ih hl, hcopied]
    constructor
    · rintro ⟨hle, hrest⟩ r hr i hai hir
      rcases mem_cons.1 hr with rfl | hr
      · omega
      · rcases lt_or_ge i (p.so + p.size) with hi | hi
        · exact ⟨p, by simp, by omega, hi⟩
        · obtain ⟨q, hq, hqi⟩ := hrest r hr i (by omega) hir
          exact ⟨q, by simp [hq], hqi⟩
    · intro h
      constructor
      · -- otherwise the byte at `a` would be in a segment that is not after `p`
        by_contra hlt
        obtain ⟨q, hq, hqa, -⟩ := h p (by simp) a le_rfl (by omega)
        rcases mem_cons.1 hq with rfl | hq
        · omega
        · have := hp q ((takeWhile_sublist _).subset hq)
          omega
      · intro r hr i hai hir
        obtain ⟨q, hq, hqi⟩ := h r (by simp [hr]) i (by omega) hir
        rcases mem_cons.1 hq with rfl | hq
        · omega
        · exact ⟨q, hq, hqi⟩

/-- **In the order of offsets, a gap is a byte that no segment has.** -/
theorem gapFree_iff_noHole (hl : l.Pairwise fun p q ↦ p.so ≤ q.so) :
    gapFree 0 l = true ↔ NoHole (copied l) := by
  rw [gapFree_iff hl, NoHole]
  refine forall₂_congr fun p _ ↦ ⟨fun h i hi ↦ h i (by omega) (by omega), fun h i h0 hi ↦ ?_⟩
  obtain ⟨q, hq, hqi⟩ := h i.toNat (by omega)
  exact ⟨q, hq, by omega⟩

theorem Memcpy.length_read (m : Memcpy) : m.read.length = m.len.toNat := by simp [Memcpy.read]

theorem Memcpy.getElem?_read {m : Memcpy} (h : 0 ≤ m.offset)
    (hx : m.read[j]? = some x) : (j : ℤ) < m.len ∧ x = m.payload[(m.offset + j).toNat]? := by
  have hlt : j < m.len.toNat := by
    rw [← m.length_read]
    exact (List.getElem?_eq_some_iff.1 hx).1
  rw [Memcpy.read, getElem?_map, getElem?_range hlt, Option.map_some,
    Option.some.injEq, if_pos (by omega)] at hx
  exact ⟨by omega, hx.symm⟩

/-- Copying a whole payload. -/
theorem Memcpy.read_all (d : List UInt8) : (⟨d, 0, d.length⟩ : Memcpy).read = d.map some := by
  refine ext_getElem? fun i ↦ ?_
  rcases lt_or_ge i d.length with hi | hi <;> simp [Memcpy.read, hi]

/-! ### One turn of the loop -/

namespace Reassembly

variable {r : Reassembly} {p : NrRlcPdu}

variable {all ps : List NrRlcPdu}

/-- The segment does not fit: from here on nothing is copied. -/
theorem add_of_bad (h : r.badSdu = true ∨ p.so + p.size > nrSduMax) :
    r.add p = { r with badSdu := true } := by
  have hbad : (r.badSdu || decide (r.so + (p.size - (r.so - p.so)) > nrSduMax)) = true := by
    rcases h with h | h
    · simp [h]
    · rw [show r.so + (p.size - (r.so - p.so)) = p.so + p.size by omega]
      simp [h]
  simp only [add, hbad, Bool.not_true, Bool.false_and, Bool.false_eq_true, if_false]

section

variable (hbad : r.badSdu = false) (hfit : p.so + p.size ≤ nrSduMax)
include hbad hfit

/-- The segment has nothing new. -/
theorem add_of_le (hle : p.so + p.size ≤ r.so) : r.add p = r := by
  have h₁ : decide (r.so + (p.size - (r.so - p.so)) > nrSduMax) = false := by
    rw [decide_eq_false_iff_not]; omega
  have h₂ : decide (p.size - (r.so - p.so) > 0) = false := by
    rw [decide_eq_false_iff_not]; omega
  simp only [add, hbad, h₁, h₂, Bool.or_self, Bool.and_false, Bool.false_eq_true, if_false]
  rw [← hbad]

/-- The segment ends beyond what is copied: the difference is copied. -/
theorem add_of_lt (hlt : r.so < p.so + p.size) :
    r.add p =
      let m : Memcpy := ⟨p.data.getD [], r.so - p.so, p.so + p.size - r.so⟩
      { sdu := r.sdu ++ m.read, badSdu := false, memcpys := r.memcpys ++ [m] } := by
  have h₁ : decide (r.so + (p.size - (r.so - p.so)) > nrSduMax) = false := by
    rw [decide_eq_false_iff_not]; omega
  have h₂ : decide (p.size - (r.so - p.so) > 0) = true := by
    rw [decide_eq_true_iff]; omega
  simp only [add, hbad, h₁, h₂, Bool.or_self, Bool.not_false, Bool.and_self, if_true]
  rw [show p.size - (r.so - p.so) = p.so + p.size - r.so by omega]

theorem so_add : (r.add p).so = max r.so (p.so + p.size) := by
  rcases le_or_gt (p.so + p.size) r.so with hle | hlt
  · rw [add_of_le hbad hfit hle, max_eq_left hle]
  · rw [add_of_lt hbad hfit hlt, max_eq_right hlt.le]
    simp only [so, length_append, Memcpy.length_read] at hlt ⊢
    omega

theorem badSdu_add : (r.add p).badSdu = false := by
  rcases le_or_gt (p.so + p.size) r.so with hle | hlt
  · rw [add_of_le hbad hfit hle, hbad]
  · rw [add_of_lt hbad hfit hlt]

end

theorem foldl_add_of_bad (h : r.badSdu = true) (ps : List NrRlcPdu) : ps.foldl add r = r := by
  induction ps with
  | nil => rfl
  | cons p ps ih => rw [foldl_cons, add_of_bad (.inl h), ← h]; exact ih

/-! ### The loop -/

/-- The copies of a turn stay inside the payload exactly when the segment leaves no gap. -/
theorem forall_memcpys_add (hp : p.Sound) (hbad : r.badSdu = false)
    (hfit : p.so + p.size ≤ nrSduMax) :
    (∀ m ∈ (r.add p).memcpys, m.InBounds) ↔ (∀ m ∈ r.memcpys, m.InBounds) ∧ p.so ≤ r.so := by
  rcases le_or_gt (p.so + p.size) r.so with hle | hlt
  · have hsize : 0 ≤ p.size := by rw [hp.size_eq]; exact Int.natCast_nonneg _
    rw [add_of_le hbad hfit hle, and_iff_left (by omega)]
  · rw [add_of_lt hbad hfit hlt]
    have hm : Memcpy.InBounds ⟨p.data.getD [], r.so - p.so, p.so + p.size - r.so⟩ ↔
        p.so ≤ r.so := by
      simp only [Memcpy.InBounds, ← hp.size_eq]
      omega
    simp only [mem_append, mem_singleton, or_imp, forall_and, forall_eq, hm]

theorem forall_memcpys_foldl (hps : ∀ p ∈ ps, p.Sound) (hbad : r.badSdu = false) :
    (∀ m ∈ (ps.foldl add r).memcpys, m.InBounds) ↔
      (∀ m ∈ r.memcpys, m.InBounds) ∧ gapFree r.so ps = true := by
  induction ps generalizing r with
  | nil => simp [gapFree]
  | cons p ps ih =>
    rw [foldl_cons, gapFree]
    by_cases hfit : p.so + p.size ≤ nrSduMax
    · rw [ih (fun q hq ↦ hps q (by simp [hq])) (badSdu_add hbad hfit), so_add hbad hfit,
        forall_memcpys_add (hps p (by simp)) hbad hfit, if_neg (by omega), Bool.and_eq_true,
        decide_eq_true_iff, and_assoc]
    · rw [add_of_bad (.inr (by omega)), foldl_add_of_bad rfl, if_pos (by omega)]
      simp

/-- The bytes collected are bytes that some segment of `ps` has at that offset. -/
def BytesFrom (r : Reassembly) (ps : List NrRlcPdu) : Prop :=
  ∀ (i : ℕ) (x : Option UInt8), r.sdu[i]? = some x →
    ∃ p ∈ ps, p.so ≤ i ∧ (i : ℤ) < p.so + p.size ∧ x = (p.data.getD [])[(i - p.so).toNat]?

theorem BytesFrom.add (h : r.BytesFrom ps) (hmem : p ∈ ps)
    (hbad : r.badSdu = false) (hfit : p.so + p.size ≤ nrSduMax) (hso : p.so ≤ r.so) :
    (r.add p).BytesFrom ps := by
  rcases le_or_gt (p.so + p.size) r.so with hle | hlt
  · rwa [add_of_le hbad hfit hle]
  · rw [add_of_lt hbad hfit hlt]
    intro i x hx
    simp only [getElem?_append] at hx
    split at hx
    · exact h i x hx
    · -- a byte that this turn copies
      obtain ⟨hlen, rfl⟩ := Memcpy.getElem?_read (by simpa using hso) hx
      simp only [so] at hso hlt hlen ⊢
      refine ⟨p, hmem, by omega, by omega, ?_⟩
      rw [show (r.sdu.length : ℤ) - p.so + ((i - r.sdu.length : ℕ) : ℤ) = i - p.so by omega]

theorem BytesFrom.foldl (h : r.BytesFrom all) (hps : ∀ p ∈ ps, p ∈ all) (hbad : r.badSdu = false)
    (hgap : gapFree r.so ps = true) : (ps.foldl .add r).BytesFrom all := by
  induction ps generalizing r with
  | nil => exact h
  | cons p ps ih =>
    rw [gapFree] at hgap
    rw [foldl_cons]
    by_cases hfit : p.so + p.size ≤ nrSduMax
    · rw [if_neg (by omega), Bool.and_eq_true, decide_eq_true_iff] at hgap
      refine ih (h.add (hps p (by simp)) hbad hfit hgap.1) (fun q hq ↦ hps q (by simp [hq]))
        (badSdu_add hbad hfit) ?_
      rw [so_add hbad hfit]
      exact hgap.2
    · rw [add_of_bad (.inr (by omega)), foldl_add_of_bad rfl]
      exact h

end Reassembly

/-! ### The loop as a whole -/

/-- **The copies stay inside the payloads exactly when the segments leave no gap.** -/
theorem memcpys_inBounds_iff (h : ∀ p ∈ segments, p.Sound) :
    (∀ m ∈ (reassemble segments).memcpys, m.InBounds) ↔ gapFree 0 segments = true := by
  have := Reassembly.forall_memcpys_foldl (r := .init) h rfl
  simpa [reassemble, Reassembly.init, Reassembly.so] using this

/-- **Every byte of the result is one that was received at its offset.** -/
theorem byte_of_reassemble (h : ∀ p ∈ segments, p.Sound) (hgap : gapFree 0 segments = true)
    (hx : (reassemble segments).sdu[i]? = some x) :
    ∃ p ∈ segments, ∃ d ∈ p.data, p.so ≤ i ∧ (i : ℤ) < p.so + p.size ∧
      ∃ b, x = some b ∧ d[(i - p.so).toNat]? = some b := by
  have hinit : Reassembly.init.BytesFrom segments := fun i x hx ↦ by simp [Reassembly.init] at hx
  obtain ⟨p, hp, hle, hlt, hb⟩ := hinit.foldl (fun _ hp ↦ hp) rfl hgap i x hx
  have hsize := (h p hp).size_eq
  rcases hd : p.data with - | d
  · rw [hd] at hsize
    simp only [Option.getD_none, length_nil, Int.natCast_zero] at hsize
    omega
  · rw [hd, Option.getD_some] at hsize hb
    refine ⟨p, hp, d, hd, hle, hlt, d[(i - p.so).toNat], ?_, ?_⟩
    · rw [hb, getElem?_eq_getElem]
    · rw [getElem?_eq_getElem]

end OaiRan.Rlc
