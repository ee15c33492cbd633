import OaiRan.Rlc.Reassembly
import OaiRan.Lib.CircularSeq

/-!
# Receive lists ordered by absolute SN

A receive list holds the SNs of a window that starts at the absolute number `n`, so a cell stands
for the absolute number `lift M n p.sn`. In a list ordered by it the cells of an SN are together:
the stretch that the source walks over is all of them (`snRun_eq_filter`), and changing the cells
of an SN is a `map` (`mapSnRun_eq_map`). Whether an SN is delivered is read off its first cell
(`sduDelivered_eq_find`).
-/

namespace OaiRan.Rlc

open CircularSeq List

variable {M n x : ℤ} {l : List NrRlcPdu}

/-- Order by absolute SN, then by SO. -/
def CellLe (M n : ℤ) (p q : NrRlcPdu) : Prop :=
  lift M n p.sn < lift M n q.sn ∨ lift M n p.sn = lift M n q.sn ∧ p.so ≤ q.so

instance : IsTrans NrRlcPdu (CellLe M n) where
  trans p q r := by
    unfold CellLe
    omega

/-- SNs that the source's comparisons are meant for. -/
def IsSn (M a : ℤ) : Prop := 0 ≤ a ∧ a < M

theorem isSn_emod (hM : 0 < M) (a : ℤ) : IsSn M (a % M) :=
  ⟨Int.emod_nonneg _ hM.ne', Int.emod_lt_of_pos _ hM⟩

/-! ### The cells of an SN -/

section

variable (hl : l.Pairwise (CellLe M n)) (hsn : ∀ p ∈ l, IsSn M p.sn) (hx : IsSn M x)
include hl hsn hx

theorem takeWhile_sn_eq_filter (hge : ∀ p ∈ l, lift M n x ≤ lift M n p.sn) :
    l.takeWhile (fun p ↦ p.sn == x) = l.filter fun p ↦ p.sn == x := by
  induction l with
  | nil => rfl
  | cons p l ih =>
    obtain ⟨hp, hl'⟩ := pairwise_cons.1 hl
    have ih := ih hl' (fun q hq ↦ hsn q (by simp [hq])) fun q hq ↦ hge q (by simp [hq])
    by_cases hpx : p.sn = x
    · rw [takeWhile_cons_of_pos (by simp [hpx]), filter_cons_of_pos (by simp [hpx]), ih]
    · -- beyond `x` there is no cell of `x` any more
      have hlt : lift M n x < lift M n p.sn := by
        have hne := (lift_inj (n := n) (hsn p (by simp)).1 (hsn p (by simp)).2 hx.1 hx.2).not.2 hpx
        have := hge p (by simp)
        omega
      have hnone : l.filter (fun p ↦ p.sn == x) = [] := by
        rw [filter_eq_nil_iff]
        intro q hq hqx
        rw [beq_iff_eq] at hqx
        have := hp q hq
        rw [CellLe, hqx] at this
        omega
      rw [takeWhile_cons_of_neg (by simp [hpx]), filter_cons_of_neg (by simp [hpx]), hnone]

/-- **The stretch of an SN is all its cells.** -/
theorem snRun_eq_filter : snRun x l = l.filter fun p ↦ p.sn == x := by
  induction l with
  | nil => rfl
  | cons p l ih =>
    obtain ⟨hp, hl'⟩ := pairwise_cons.1 hl
    by_cases hpx : p.sn = x
    · have hge : ∀ q ∈ p :: l, lift M n x ≤ lift M n q.sn := by
        intro q hq
        rcases mem_cons.1 hq with rfl | hq
        · rw [hpx]
        · have := hp q hq
          rw [CellLe, hpx] at this
          omega
      rw [snRun, fromSn, dropWhile_cons_of_neg (by simp [hpx]),
        takeWhile_sn_eq_filter hl hsn hx hge]
    · rw [snRun, fromSn, dropWhile_cons_of_pos (by simpa using hpx),
        filter_cons_of_neg (by simpa using hpx), ← ih hl' fun q hq ↦ hsn q (by simp [hq])]
      rfl

theorem mem_snRun_iff : p ∈ snRun x l ↔ p ∈ l ∧ p.sn = x := by
  rw [snRun_eq_filter hl hsn hx, mem_filter, beq_iff_eq]

end

theorem map_ite_of_ne (f : NrRlcPdu → NrRlcPdu) (h : ∀ p ∈ l, p.sn ≠ x) :
    l.map (fun p ↦ if p.sn = x then f p else p) = l := by
  conv_rhs => rw [← map_id l]
  exact map_congr_left fun p hp ↦ if_neg (h p hp)

/-- Changing the cells of an SN in place. -/
theorem mapSnRun_eq_map (hl : l.Pairwise (CellLe M n)) (hsn : ∀ p ∈ l, IsSn M p.sn)
    (hx : IsSn M x) (f : NrRlcPdu → NrRlcPdu) :
    mapSnRun f x l = l.map fun p ↦ if p.sn = x then f p else p := by
  have hfront : ∀ p ∈ l.takeWhile (fun p ↦ p.sn != x), p.sn ≠ x := fun p hp ↦ by
    simpa using mem_takeWhile_imp hp
  have hback : ∀ p ∈ (fromSn x l).dropWhile (fun p ↦ p.sn == x), p.sn ≠ x := by
    intro p hp hpx
    have hsplit := congrArg (filter fun p ↦ p.sn == x) (snRun_split x l)
    rw [filter_append, filter_append, ← snRun_eq_filter hl hsn hx] at hsplit
    have hfilter : (snRun x l).filter (fun p ↦ p.sn == x) = snRun x l :=
      filter_eq_self.2 fun q hq ↦ by simpa using sn_eq_of_mem_snRun hq
    have hnil : (l.takeWhile fun p ↦ p.sn != x).filter (fun p ↦ p.sn == x) = [] :=
      filter_eq_nil_iff.2 fun q hq ↦ by simpa using hfront q hq
    rw [hfilter, hnil, nil_append] at hsplit
    have := append_right_eq_self.1 hsplit
    exact (filter_eq_nil_iff.1 this p hp) (by simpa using hpx)
  conv_rhs => rw [← snRun_split x l]
  rw [mapSnRun, map_append, map_append]
  rw [map_ite_of_ne f hfront, map_ite_of_ne f hback]
  congr 2
  exact map_congr_left fun p hp ↦ by rw [if_pos (sn_eq_of_mem_snRun hp)]

/-! ### Delivered SNs -/

theorem head?_fromSn (x : ℤ) (l : List NrRlcPdu) :
    (fromSn x l).head? = l.find? fun p ↦ p.sn == x := by
  induction l with
  | nil => rfl
  | cons p l ih =>
    by_cases h : p.sn = x
    · rw [fromSn, dropWhile_cons_of_neg (by simp [h]), find?_cons_of_pos (by simp [h])]
      rfl
    · rw [fromSn, dropWhile_cons_of_pos (by simpa using h),
        find?_cons_of_neg (by simpa using h), ← ih]
      rfl

/-- **An SN is delivered when its first cell has no data any more.** -/
theorem sduDelivered_eq_find (x : ℤ) (l : List NrRlcPdu) :
    sduDelivered l x = (l.find? fun p ↦ p.sn == x).any fun p ↦ p.data.isNone := by
  rw [← head?_fromSn, sduDelivered, firstProcessed]
  rcases fromSn x l with - | ⟨p, l'⟩ <;> rfl

theorem sduDelivered_eq_false_of_ne (h : ∀ p ∈ l, p.sn ≠ x) : sduDelivered l x = false := by
  rw [sduDelivered, firstProcessed, fromSn_eq_nil_of_ne h]

/-- A PDU that has just come does not make anything delivered. -/
theorem sduDelivered_listAdd_of_false {cmp : ℤ → ℤ → ℤ} {pdu : NrRlcPdu}
    (hdata : pdu.data.isNone = false) (h : sduDelivered l x = false) :
    sduDelivered (nrRlcPduListAdd cmp l pdu) x = false := by
  rw [sduDelivered_eq_find] at h ⊢
  rw [nrRlcPduListAdd, OrderedChain.insertBefore_eq]
  generalize hstop : (fun y : NrRlcPdu ↦ !(decide (cmp y.sn pdu.sn > 0) ||
    (y.sn == pdu.sn && decide (y.so > pdu.so)))) = go
  rw [← takeWhile_append_dropWhile (p := go) (l := l), find?_append] at h
  rw [find?_append, find?_cons]
  rcases hfind : (l.takeWhile go).find? fun p ↦ p.sn == x with - | q
  · rw [hfind, Option.none_or] at h
    rw [hfind, Option.none_or]
    split
    · simpa using hdata
    · exact h
  · rw [hfind, Option.some_or] at h
    rw [hfind, Option.some_or]
    exact h

theorem find?_map_ite_of_ne {f : NrRlcPdu → NrRlcPdu} (hf : ∀ p, (f p).sn = p.sn) {y : ℤ}
    (hxy : y ≠ x) : (l.map fun p ↦ if p.sn = x then f p else p).find? (fun p ↦ p.sn == y) =
      l.find? fun p ↦ p.sn == y := by
  induction l with
  | nil => rfl
  | cons p l ih =>
    by_cases hpx : p.sn = x
    · have hpy : p.sn ≠ y := fun h ↦ hxy (h.symm.trans hpx)
      rw [map_cons, if_pos hpx, find?_cons_of_neg (by simpa [hf] using hpy),
        find?_cons_of_neg (by simpa using hpy), ih]
    · by_cases hpy : p.sn = y
      · rw [map_cons, if_neg hpx, find?_cons_of_pos (by simp [hpy]),
          find?_cons_of_pos (by simp [hpy])]
      · rw [map_cons, if_neg hpx, find?_cons_of_neg (by simpa using hpy),
          find?_cons_of_neg (by simpa using hpy), ih]

/-- `while (sdu_delivered(entity, sn)) sn = (sn + 1) % sn_modulus;` with absolute numbers: it stops
at the first SN that is not delivered, and there is one by `stop`. -/
theorem skipDelivered_spec (fuel : ℕ) (hstop : sduDelivered l (stop % M) = false)
    (hle : m ≤ stop) (hfuel : stop ≤ m + fuel) :
    ∃ m', skipDelivered M l fuel (m % M) = m' % M ∧ m ≤ m' ∧ m' ≤ stop ∧
      sduDelivered l (m' % M) = false ∧ ∀ k, m ≤ k → k < m' → sduDelivered l (k % M) = true := by
  induction fuel generalizing m with
  | zero =>
    obtain rfl : m = stop := by omega
    exact ⟨m, rfl, le_rfl, le_rfl, hstop, fun k _ _ ↦ by omega⟩
  | succ fuel ih =>
    rw [skipDelivered]
    rcases hd : sduDelivered l (m % M) with - | -
    · exact ⟨m, by simp, le_rfl, hle, hd, fun k _ _ ↦ by omega⟩
    · have hne : m ≠ stop := by
        rintro rfl
        simp [hstop] at hd
      obtain ⟨m', heq, hm, hm', hnot, hall⟩ := ih (m := m + 1) (by omega) (by push_cast at hfuel; omega)
      refine ⟨m', ?_, by omega, hm', hnot, fun k hk hk' ↦ ?_⟩
      · rw [if_pos rfl, Int.emod_add_emod, heq]
      · rcases eq_or_lt_of_le hk with rfl | hk
        · exact hd
        · exact hall k (by omega) hk'

end OaiRan.Rlc
