import OaiRan.Rlc.Am.System
import OaiRan.Rlc.RxOrder

/-!
# The receive window of the acknowledged mode

38.322 5.2.3.2: the four SN variables of the receiver, for arbitrary input. The variables are
described by the absolute numbers that they stand for, so that a move of the modulus base is no
event (`RxWindow`). Receiving a PDU is taken apart into its steps, each of which keeps the window;
only `t_reassembly` may be left running with a trigger behind `rx_next` when `rx_next` moves, and
the next thing the source does is to stop it then (`TriggerOk.of_stop`).
-/

namespace OaiRan.Rlc.Am

open CircularSeq Option List OrderedChain

variable {c : AmConfig}

variable {q : NrRlcPdu}

/-! ### Arbitrary buffers -/

/-- A received segment, as `recv_pdu` puts it into the list. -/
structure Fresh (c : AmConfig) (pdu : NrRlcPdu) : Prop where
  isSn : IsSn c.snModulus pdu.sn
  so_nonneg : 0 ≤ pdu.so
  size_pos : 0 < pdu.size
  data_eq : ∃ d, pdu.data = some d ∧ pdu.size = d.length

variable {pdu p : NrRlcPdu} {s : AmRx} {M m : ℤ}

theorem Fresh.data_ne (h : Fresh c pdu) : pdu.data ≠ none := by
  obtain ⟨d, hd, -⟩ := h.data_eq
  simp [hd]

theorem sn_lt_of_decodeSegment
    (h : decodeSegment c d = some (isFirst, isLast, sn, so, d')) : sn < 2 ^ c.snFieldLength := by
  simp only [decodeSegment, bind_eq_bind, bind_eq_some_iff, some.injEq,
    Prod.mk.injEq, Prod.exists] at h
  obtain ⟨si, d₁, -, d₂, -, sn', d₃, hsn, so', d₄, -, -, -, rfl, -⟩ := h
  exact getBits_lt hsn

/-- **What `recv_pdu` has checked** about a segment it goes on with. -/
theorem fresh_of_decodePdu (hc : c.Sane) {buffer : List UInt8} {p : Bool}
    (h : decodePdu c buffer = .segment p pdu) : Fresh c pdu := by
  rw [decodePdu] at h
  split at h
  · cases h
  · cases h
  · split at h
    · cases h
    · split at h
      · cases h
      · rename_i hseg
        split at h
        · cases h
        · obtain ⟨-, rfl⟩ := AmPdu.segment.inj h
          have hsn := sn_lt_of_decodeSegment hseg
          refine ⟨⟨Int.natCast_nonneg _, ?_⟩, Int.natCast_nonneg _, ?_, _, rfl, rfl⟩
          · simp only [nrRlcNewPdu, hc.snModulus_eq_pow]
            exact_mod_cast hsn
          · simp only [nrRlcNewPdu, length_drop]
            omega

/-! ### The receive list -/

/-- What holds of `rx_list`, for a window of the absolute numbers from `rn` to `rnh`. The first cell
of a delivered SN starts at offset 0, so it stays the first one when others come. -/
structure RxCells (c : AmConfig) (l : List NrRlcPdu) (rn rnh : ℤ) : Prop where
  isSn : ∀ p ∈ l, IsSn c.snModulus p.sn
  below : ∀ p ∈ l, lift c.snModulus rn p.sn < rnh
  sorted : l.Pairwise (CellLe c.snModulus rn)
  so_nonneg : ∀ p ∈ l, 0 ≤ p.so
  size_pos : ∀ p ∈ l, 0 < p.size
  size_eq : ∀ p ∈ l, ∀ d ∈ p.data, p.size = d.length
  processed : ∀ p ∈ l, p.data = none → sduDelivered l p.sn = true
  processed_so : ∀ x p, l.find? (fun p ↦ p.sn == x) = some p → p.data = none → p.so = 0

/-- Comparison of SNs is comparison of absolute numbers. -/
theorem modulusRx_eq (hc : c.Sane) (hs : s.rxNext = rn % c.snModulus)
    (ha : IsSn c.snModulus a) : modulusRx c s a = lift c.snModulus rn a - rn := by
  rw [modulusRx, wrap, hs, lift_eq_ite hc.pos ha.1 ha.2]

theorem snCompareRx_eq (hc : c.Sane) (hs : s.rxNext = rn % c.snModulus)
    (ha : IsSn c.snModulus a) (hb : IsSn c.snModulus b) :
    snCompareRx c s a b = lift c.snModulus rn a - lift c.snModulus rn b := by
  rw [snCompareRx, modulusRx_eq hc hs ha, modulusRx_eq hc hs hb]
  ring

section Insert

variable {s : AmRx} {rn rnh : ℤ} {pdu : NrRlcPdu} {l : List NrRlcPdu}

section

variable (hc : c.Sane) (hs : s.rxNext = rn % c.snModulus)
include hc hs

/-- Where the source stops to insert a PDU: at the first cell that is greater. -/
theorem stop_iff (hq : IsSn c.snModulus q.sn) (hp : IsSn c.snModulus pdu.sn) :
    (decide (snCompareRx c s q.sn pdu.sn > 0) || (q.sn == pdu.sn && decide (q.so > pdu.so))) = true ↔
      lift c.snModulus rn pdu.sn < lift c.snModulus rn q.sn ∨
        lift c.snModulus rn pdu.sn = lift c.snModulus rn q.sn ∧ pdu.so < q.so := by
  rw [Bool.or_eq_true, Bool.and_eq_true, decide_eq_true_iff, decide_eq_true_iff, beq_iff_eq,
    snCompareRx_eq hc hs hq hp, ← lift_inj (n := rn) hq.1 hq.2 hp.1 hp.2]
  omega

section

variable (hl : l.Pairwise (CellLe c.snModulus rn)) (hsn : ∀ q ∈ l, IsSn c.snModulus q.sn)
  (hp : IsSn c.snModulus pdu.sn)
include hl hsn hp

theorem pairwise_listAdd :
    (nrRlcPduListAdd (snCompareRx c s) l pdu).Pairwise (CellLe c.snModulus rn) := by
  refine pairwise_insertBefore hl (fun q hq hstop ↦ ?_) fun q hq hgo ↦ ?_
  · have := (stop_iff hc hs (hsn q hq) hp).1 hstop
    rw [CellLe]
    omega
  · have := (stop_iff hc hs (hsn q hq) hp).not.1 (by simp [hgo])
    rw [CellLe]
    omega

/-- A cell that a cell of `x` is not before it in the list is not after it in the order. -/
theorem find?_listAdd_of_le
    (hf : l.find? (fun p ↦ p.sn == x) = some f) (hle : f.sn = pdu.sn → f.so ≤ pdu.so) :
    (nrRlcPduListAdd (snCompareRx c s) l pdu).find? (fun p ↦ p.sn == x) = some f := by
  have hfx : f.sn = x := by simpa using find?_some hf
  rw [nrRlcPduListAdd]
  induction l with
  | nil => simp at hf
  | cons q l ih =>
    have hq : IsSn c.snModulus q.sn := hsn q (by simp)
    obtain ⟨hql, hl'⟩ := pairwise_cons.1 hl
    rw [insertBefore]
    split
    · -- the new PDU goes before `q`, which is not after `f`
      rename_i hstop
      have hstop := (stop_iff hc hs hq hp).1 hstop
      rw [find?_cons_of_neg, hf]
      rw [beq_iff_eq, ← hfx]
      intro hpf
      by_cases hqx : q.sn = x
      · rw [find?_cons_of_pos (by simp [hqx]), some.injEq] at hf
        subst hf
        rw [hpf] at hstop
        omega
      · rw [find?_cons_of_neg (by simpa using hqx)] at hf
        have hqf := hql f (mem_of_find?_eq_some hf)
        rw [CellLe, ← hpf] at hqf
        omega
    · by_cases hqx : q.sn = x
      · rw [find?_cons_of_pos (by simp [hqx])] at hf ⊢
        exact hf
      · rw [find?_cons_of_neg (by simpa using hqx)] at hf ⊢
        exact ih hl' (fun r hr ↦ hsn r (by simp [hr])) hf

end

end

/-- The first cell of an SN, after an insertion. -/
theorem find?_listAdd_cases (cmp : ℤ → ℤ → ℤ) (l : List NrRlcPdu) (pdu : NrRlcPdu) (x : ℤ) :
    (nrRlcPduListAdd cmp l pdu).find? (fun p ↦ p.sn == x) = l.find? (fun p ↦ p.sn == x) ∨
      (nrRlcPduListAdd cmp l pdu).find? (fun p ↦ p.sn == x) = some pdu := by
  rw [nrRlcPduListAdd]
  induction l with
  | nil =>
    by_cases h : pdu.sn = x
    · exact .inr (by simp [insertBefore, h])
    · exact .inl (by simp [insertBefore, h])
  | cons q l ih =>
    rw [insertBefore]
    split
    · by_cases h : pdu.sn = x
      · exact .inr (find?_cons_of_pos (by simp [h]))
      · exact .inl (find?_cons_of_neg (by simpa using h))
    · by_cases h : q.sn = x
      · rw [find?_cons_of_pos (by simp [h]), find?_cons_of_pos (by simp [h])]
        exact .inl rfl
      · rw [find?_cons_of_neg (by simpa using h), find?_cons_of_neg (by simpa using h)]
        exact ih

theorem mem_listAdd {cmp : ℤ → ℤ → ℤ} : p ∈ nrRlcPduListAdd cmp l pdu ↔ p = pdu ∨ p ∈ l :=
  mem_insertBefore

theorem sduDelivered_iff :
    sduDelivered l x = true ↔ ∃ f, l.find? (fun p ↦ p.sn == x) = some f ∧ f.data = none := by
  rw [sduDelivered_eq_find]
  cases l.find? (fun p ↦ p.sn == x) <;> simp

/-- Receiving a segment. -/
theorem RxCells.listAdd (hc : c.Sane) (hs : s.rxNext = rn % c.snModulus) (h : RxCells c l rn rnh)
    (hp : Fresh c pdu) (hbelow : lift c.snModulus rn pdu.sn < rnh) :
    RxCells c (nrRlcPduListAdd (snCompareRx c s) l pdu) rn rnh where
  isSn p hmem := by
    rcases mem_listAdd.1 hmem with rfl | hmem
    · exact hp.isSn
    · exact h.isSn p hmem
  below p hmem := by
    rcases mem_listAdd.1 hmem with rfl | hmem
    · exact hbelow
    · exact h.below p hmem
  sorted := pairwise_listAdd hc hs h.sorted h.isSn hp.isSn
  so_nonneg p hmem := by
    rcases mem_listAdd.1 hmem with rfl | hmem
    · exact hp.so_nonneg
    · exact h.so_nonneg p hmem
  size_pos p hmem := by
    rcases mem_listAdd.1 hmem with rfl | hmem
    · exact hp.size_pos
    · exact h.size_pos p hmem
  size_eq p hmem d hd := by
    rcases mem_listAdd.1 hmem with rfl | hmem
    · obtain ⟨d', hd', hsize⟩ := hp.data_eq
      rw [hd', mem_some_iff] at hd
      rw [hsize, hd]
    · exact h.size_eq p hmem d hd
  processed p hmem hnone := by
    rcases mem_listAdd.1 hmem with rfl | hmem
    · exact absurd hnone hp.data_ne
    · -- the delivered first cell starts at 0, so nothing gets before it
      obtain ⟨f, hf, hfnone⟩ := sduDelivered_iff.1 (h.processed p hmem hnone)
      refine sduDelivered_iff.2 ⟨f, find?_listAdd_of_le hc hs h.sorted h.isSn hp.isSn hf ?_, hfnone⟩
      intro _
      rw [h.processed_so _ f hf hfnone]
      exact hp.so_nonneg
  processed_so x p hf hnone := by
    rcases find?_listAdd_cases (snCompareRx c s) l pdu x with heq | heq
    · exact h.processed_so x p (heq ▸ hf) hnone
    · rw [heq, some.injEq] at hf
      exact absurd (hf ▸ hnone) hp.data_ne

end Insert

section Deliver

variable {l : List NrRlcPdu} {rn rnh x : ℤ}

/-- An SDU that is full has a first cell at offset 0, with its data. -/
theorem exists_first_of_sduFull (h : sduFull l x = true) :
    ∃ f, l.find? (fun p ↦ p.sn == x) = some f ∧ f.so ≤ 0 ∧ f.data ≠ none := by
  unfold sduFull at h
  split at h
  · simp at h
  · rename_i hproc
    rw [firstProcessed] at hproc
    rcases hfrom : fromSn x l with - | ⟨f, l'⟩
    · rw [hfrom] at h
      simp [sduFullLoop] at h
    · rw [hfrom] at h hproc
      refine ⟨f, by rw [← head?_fromSn, hfrom, head?_cons], ?_, by simpa using hproc⟩
      rw [sduFullLoop] at h
      split at h
      · simp at h
      · split at h
        · simp at h
        · omega

/-- All cells of a full SDU have their data. -/
theorem RxCells.data_ne_of_sduFull (h : RxCells c l rn rnh) (hfull : sduFull l x = true)
    (hp : p ∈ l) (hpx : p.sn = x) : p.data ≠ none := by
  intro hnone
  obtain ⟨f, hf, -, hdata⟩ := exists_first_of_sduFull hfull
  obtain ⟨f', hf', hnone'⟩ := sduDelivered_iff.1 (hpx ▸ h.processed p hp hnone)
  rw [hf, some.injEq] at hf'
  exact hdata (hf' ▸ hnone')

/-- The cells of `x` without their data. -/
def dropData (x : ℤ) (l : List NrRlcPdu) : List NrRlcPdu :=
  l.map fun p ↦ if p.sn = x then { p with data := none } else p

theorem mem_dropData (h : q ∈ dropData x l) :
    ∃ p ∈ l, q.sn = p.sn ∧ q.so = p.so ∧ q.size = p.size ∧
      (q.data = p.data ∧ p.sn ≠ x ∨ q.data = none ∧ p.sn = x) := by
  obtain ⟨p, hp, rfl⟩ := mem_map.1 h
  refine ⟨p, hp, ?_⟩
  split
  · rename_i hx
    exact ⟨rfl, rfl, rfl, .inr ⟨rfl, hx⟩⟩
  · rename_i hx
    exact ⟨rfl, rfl, rfl, .inl ⟨rfl, hx⟩⟩

theorem find?_dropData_self :
    (dropData x l).find? (fun p ↦ p.sn == x) =
      (l.find? fun p ↦ p.sn == x).map fun p ↦ { p with data := none } := by
  induction l with
  | nil => rfl
  | cons p l ih =>
    by_cases h : p.sn = x
    · simp [dropData, h]
    · rw [dropData] at ih
      simp [dropData, h, ih]

theorem find?_dropData_of_ne (h : y ≠ x) :
    (dropData x l).find? (fun p ↦ p.sn == y) = l.find? fun p ↦ p.sn == y :=
  find?_map_ite_of_ne (f := fun p ↦ { p with data := none }) (fun _ ↦ rfl) h

/-- Delivering an SDU makes its SN delivered, and no other one. -/
theorem sduDelivered_dropData_of_ne (h : y ≠ x) :
    sduDelivered (dropData x l) y = sduDelivered l y := by
  rw [sduDelivered_eq_find, sduDelivered_eq_find, find?_dropData_of_ne h]

theorem sduDelivered_dropData_self (h : ∃ p ∈ l, p.sn = x) :
    sduDelivered (dropData x l) x = true := by
  obtain ⟨p, hp, hpx⟩ := h
  have hsome : (l.find? fun p ↦ p.sn == x).isSome := by
    rw [find?_isSome]
    exact ⟨p, hp, by simpa using hpx⟩
  obtain ⟨f, hf⟩ := isSome_iff_exists.1 hsome
  exact sduDelivered_iff.2 ⟨{ f with data := none }, by rw [find?_dropData_self, hf]; rfl, rfl⟩

theorem RxCells.dropData (h : RxCells c l rn rnh) (hfull : sduFull l x = true) :
    RxCells c (dropData x l) rn rnh where
  isSn q hq := by
    obtain ⟨p, hp, hsn, -⟩ := mem_dropData hq
    exact hsn ▸ h.isSn p hp
  below q hq := by
    obtain ⟨p, hp, hsn, -⟩ := mem_dropData hq
    exact hsn ▸ h.below p hp
  sorted := by
    refine pairwise_map.2 (h.sorted.imp fun {p q} hpq ↦ ?_)
    split <;> split <;> exact hpq
  so_nonneg q hq := by
    obtain ⟨p, hp, -, hso, -⟩ := mem_dropData hq
    exact hso ▸ h.so_nonneg p hp
  size_pos q hq := by
    obtain ⟨p, hp, -, -, hsize, -⟩ := mem_dropData hq
    exact hsize ▸ h.size_pos p hp
  size_eq q hq d hd := by
    obtain ⟨p, hp, -, -, hsize, ⟨hdata, -⟩ | ⟨hdata, -⟩⟩ := mem_dropData hq
    · exact hsize ▸ h.size_eq p hp d (hdata ▸ hd)
    · simp [hdata] at hd
  processed q hq hnone := by
    obtain ⟨p, hp, hsn, -, -, ⟨hdata, hne⟩ | ⟨-, heq⟩⟩ := mem_dropData hq
    · rw [hsn, sduDelivered_dropData_of_ne hne]
      exact h.processed p hp (hdata ▸ hnone)
    · rw [hsn, heq]
      exact sduDelivered_dropData_self ⟨p, hp, heq⟩
  processed_so y q hq hnone := by
    by_cases hy : y = x
    · obtain ⟨f, hf, hso, -⟩ := exists_first_of_sduFull hfull
      rw [hy, find?_dropData_self, hf, map_some, some.injEq] at hq
      have := h.so_nonneg f (mem_of_find?_eq_some hf)
      rw [← hq]
      show f.so = 0
      omega
    · rw [find?_dropData_of_ne hy] at hq
      exact h.processed_so y q hq hnone

end Deliver

section Free

variable {l : List NrRlcPdu} {rn rnh rn' x : ℤ}

/-- Moving the base of the window, when no cell is left behind. -/
theorem RxCells.rebase (h : RxCells c l rn rnh) (hge : ∀ p ∈ l, rn' ≤ lift c.snModulus rn p.sn)
    (hle : rnh ≤ rn' + c.snModulus) : RxCells c l rn' rnh := by
  have heq : ∀ p ∈ l, lift c.snModulus rn' p.sn = lift c.snModulus rn p.sn := fun p hp ↦
    lift_eq_lift (hge p hp) ((h.below p hp).trans_le hle)
  refine { h with below := fun p hp ↦ ?_, sorted := ?_ }
  · rw [heq p hp]
    exact h.below p hp
  · refine h.sorted.imp_of_mem fun {p q} hp hq hpq ↦ ?_
    rw [CellLe, heq p hp, heq q hq]
    exact hpq

/-- The cells from `rn'` on. -/
def cellsFrom (M rn rn' : ℤ) (l : List NrRlcPdu) : List NrRlcPdu :=
  l.filter fun p ↦ rn' ≤ lift M rn p.sn

theorem mem_cellsFrom : p ∈ cellsFrom M rn rn' l ↔ p ∈ l ∧ rn' ≤ lift M rn p.sn := by
  rw [cellsFrom, mem_filter, decide_eq_true_iff]

/-- Freeing the cells before `rn'` changes nothing for the others. -/
theorem find?_cellsFrom (hx : rn' ≤ lift M rn x) :
    (cellsFrom M rn rn' l).find? (fun p ↦ p.sn == x) = l.find? fun p ↦ p.sn == x := by
  rw [cellsFrom, find?_filter]
  congr 1
  funext p
  by_cases hp : p.sn = x
  · simp [hp, hx]
  · simp [hp]

theorem sduDelivered_cellsFrom (hx : rn' ≤ lift M rn x) :
    sduDelivered (cellsFrom M rn rn' l) x = sduDelivered l x := by
  rw [sduDelivered_eq_find, sduDelivered_eq_find, find?_cellsFrom hx]

theorem RxCells.cellsFrom (h : RxCells c l rn rnh) :
    RxCells c (cellsFrom c.snModulus rn rn' l) rn rnh where
  isSn p hp := h.isSn p (mem_cellsFrom.1 hp).1
  below p hp := h.below p (mem_cellsFrom.1 hp).1
  sorted := h.sorted.filter _
  so_nonneg p hp := h.so_nonneg p (mem_cellsFrom.1 hp).1
  size_pos p hp := h.size_pos p (mem_cellsFrom.1 hp).1
  size_eq p hp := h.size_eq p (mem_cellsFrom.1 hp).1
  processed p hp hnone := by
    obtain ⟨hp, hge⟩ := mem_cellsFrom.1 hp
    rw [sduDelivered_cellsFrom hge]
    exact h.processed p hp hnone
  processed_so y p hf hnone := by
    have hy : p.sn = y := by simpa using find?_some hf
    obtain ⟨-, hge⟩ := mem_cellsFrom.1 (mem_of_find?_eq_some hf)
    rw [find?_cellsFrom (hy ▸ hge)] at hf
    exact h.processed_so y p hf hnone

/-- An SN that no cell carries is not delivered. -/
theorem RxCells.not_delivered (h : RxCells c l rn rnh) (hle : rn ≤ rnh)
    (hlt : rnh < rn + c.snModulus) : sduDelivered l (rnh % c.snModulus) = false := by
  refine sduDelivered_eq_false_of_ne fun p hp heq ↦ ?_
  have := h.below p hp
  rw [heq, lift_emod_self hle hlt] at this
  exact lt_irrefl _ this

/-- The cells of `rn`, at the head of the list, are dropped. -/
theorem dropWhile_sn_eq_cellsFrom (hc : c.Sane) (hl : l.Pairwise (CellLe c.snModulus rn))
    (hsn : ∀ p ∈ l, IsSn c.snModulus p.sn) :
    l.dropWhile (fun q ↦ q.sn == rn % c.snModulus) = cellsFrom c.snModulus rn (rn + 1) l := by
  have hself : ∀ q ∈ l, (!(q.sn == rn % c.snModulus)) = decide (rn + 1 ≤ lift c.snModulus rn q.sn) := by
    intro q hq
    have hiff := lift_eq_iff (n := rn) (m := rn) (hsn q hq).1 (hsn q hq).2 le_rfl
      (by have := hc.pos; omega)
    have hge := le_lift hc.pos rn q.sn
    rw [Bool.eq_iff_iff, Bool.not_eq_true', beq_eq_false_iff_ne, Ne, ← hiff, decide_eq_true_iff]
    omega
  rw [dropWhile_eq_filter_of_pairwise, cellsFrom]
  · exact filter_congr hself
  · refine hl.imp_of_mem fun {p q} hp hq hpq hne ↦ ?_
    have h₁ := hself p hp
    have h₂ := hself q hq
    rw [hne, Bool.not_false, eq_comm, decide_eq_true_iff] at h₁
    rw [← Bool.not_eq_true', h₂, decide_eq_true_iff]
    rw [CellLe] at hpq
    omega

theorem cellsFrom_cellsFrom (hlt : rnh ≤ rn + M) (hbelow : ∀ p ∈ l, lift M rn p.sn < rnh)
    (hle : rn ≤ m) (hm : m ≤ rn') :
    cellsFrom M m rn' (cellsFrom M rn m l) = cellsFrom M rn rn' l := by
  rw [cellsFrom, cellsFrom, cellsFrom, List.filter_filter]
  refine List.filter_congr fun p hp ↦ ?_
  have := hbelow p hp
  by_cases hge : m ≤ lift M rn p.sn
  · rw [lift_eq_lift hge (by omega)]
    simp [hge]
  · simp [hge]
    omega

/-- The SDU of `rn` is at the head of the list if it is there, so the head says if it is
delivered. -/
theorem sduDelivered_eq_false_of_head (hc : c.Sane) (hl : (p :: l).Pairwise (CellLe c.snModulus rn))
    (hsn : ∀ q ∈ p :: l, IsSn c.snModulus q.sn)
    (hhead : ¬ (p.data = none ∧ p.sn = rn % c.snModulus)) :
    sduDelivered (p :: l) (rn % c.snModulus) = false := by
  have hM := hc.pos
  by_cases hp : p.sn = rn % c.snModulus
  · rw [sduDelivered_eq_find, find?_cons_of_pos (by simp [hp])]
    simpa [hp, isSome_iff_ne_none] using hhead
  · -- the head is beyond `rn`, and so are all cells
    refine sduDelivered_eq_false_of_ne fun q hq heq ↦ ?_
    rcases mem_cons.1 hq with rfl | hmem
    · exact hp heq
    · have hpq := (pairwise_cons.1 hl).1 q hmem
      have hge := le_lift hM rn p.sn
      have hne : lift c.snModulus rn p.sn ≠ rn := fun h ↦
        hp ((lift_eq_iff (hsn p (by simp)).1 (hsn p (by simp)).2 le_rfl (by omega)).1 h)
      rw [CellLe, heq, lift_emod_self le_rfl (by omega)] at hpq
      omega

/-- **What freeing the head of the list does.** It passes delivered SNs only, and stops at one that
is not delivered. -/
theorem freeDelivered_spec (hc : c.Sane) (hfuel : l.length ≤ fuel)
    (hl : l.Pairwise (CellLe c.snModulus rn)) (hsn : ∀ p ∈ l, IsSn c.snModulus p.sn)
    (hbelow : ∀ p ∈ l, lift c.snModulus rn p.sn < rnh) (hle : rn ≤ rnh)
    (hlt : rnh ≤ rn + c.snModulus) :
    ∃ rn', freeDelivered c fuel l (rn % c.snModulus) =
        (cellsFrom c.snModulus rn rn' l, rn' % c.snModulus) ∧ rn ≤ rn' ∧ rn' ≤ rnh ∧
      (∀ k, rn ≤ k → k < rn' → sduDelivered l (k % c.snModulus) = true) ∧
      sduDelivered (cellsFrom c.snModulus rn rn' l) (rn' % c.snModulus) = false := by
  have hM := hc.pos
  induction fuel generalizing l rn with
  | zero =>
    obtain rfl : l = [] := eq_nil_of_length_eq_zero (by omega)
    exact ⟨rn, rfl, le_rfl, hle, fun k _ _ ↦ by omega, rfl⟩
  | succ fuel ih =>
    rcases l with - | ⟨p, l⟩
    · exact ⟨rn, rfl, le_rfl, hle, fun k _ _ ↦ by omega, rfl⟩
    rw [freeDelivered]
    by_cases hhead : p.data = none ∧ p.sn = rn % c.snModulus
    · -- the SDU of `rn` goes
      have hrn : lift c.snModulus rn p.sn = rn := by
        rw [hhead.2]
        exact lift_emod_self le_rfl (by omega)
      have hdrop : l.dropWhile (fun q ↦ q.sn == rn % c.snModulus) =
          cellsFrom c.snModulus rn (rn + 1) (p :: l) := by
        rw [← dropWhile_sn_eq_cellsFrom hc hl hsn, dropWhile_cons_of_pos (by simp [hhead.2])]
      have hlen : (cellsFrom c.snModulus rn (rn + 1) (p :: l)).length ≤ fuel := by
        rw [← hdrop]
        have := (dropWhile_sublist (fun q : NrRlcPdu ↦ q.sn == rn % c.snModulus) (l := l)).length_le
        rw [length_cons] at hfuel
        omega
      have hlift : ∀ q ∈ cellsFrom c.snModulus rn (rn + 1) (p :: l),
          lift c.snModulus (rn + 1) q.sn = lift c.snModulus rn q.sn := by
        intro q hq
        obtain ⟨hq, hge⟩ := mem_cellsFrom.1 hq
        have := hbelow q hq
        exact lift_eq_lift hge (by omega)
      have hrnh := hbelow p (by simp)
      obtain ⟨rn', heq, hle', hle'', hall, hopen⟩ := ih hlen
        ((hl.filter _).imp_of_mem fun {q r} hq hr hqr ↦ by
          rw [CellLe, hlift q hq, hlift r hr]
          exact hqr)
        (fun q hq ↦ hsn q (mem_cellsFrom.1 hq).1)
        (fun q hq ↦ by
          rw [hlift q hq]
          exact hbelow q (mem_cellsFrom.1 hq).1)
        (by omega) (by omega)
      have hcells := cellsFrom_cellsFrom hlt hbelow (show rn ≤ rn + 1 by omega) hle'
      rw [hcells] at heq hopen
      refine ⟨rn', ?_, by omega, hle'', fun k hk hk' ↦ ?_, hopen⟩
      · rw [if_pos (by simp [hhead]), Int.emod_add_emod, hdrop, heq]
      · rcases eq_or_lt_of_le hk with rfl | hk
        · exact sduDelivered_iff.2 ⟨p, find?_cons_of_pos (by simp [hhead.2]), hhead.1⟩
        · have := hall k (by omega) hk'
          rwa [sduDelivered_cellsFrom] at this
          rw [lift_emod_self (by omega) (by omega)]
          omega
    · have hcells : cellsFrom c.snModulus rn rn (p :: l) = p :: l :=
        filter_eq_self.2 fun q _ ↦ decide_eq_true (le_lift hM rn q.sn)
      refine ⟨rn, ?_, le_rfl, hle, fun k _ _ ↦ by omega, ?_⟩
      · rw [if_neg (by simpa using hhead), hcells]
      · rw [hcells]
        exact sduDelivered_eq_false_of_head hc hl hsn hhead

end Free

/-! ### The window -/

/-- The variables of the receiver stand for `rn`, `rh` and `rnh`. -/
structure RxPointers (c : AmConfig) (s : AmRx) (rn rh rnh : ℤ) : Prop where
  cells : RxCells c s.rxList rn rnh
  rxNext_eq : s.rxNext = rn % c.snModulus
  rxHighestStatus_eq : s.rxHighestStatus = rh % c.snModulus
  rxNextHighest_eq : s.rxNextHighest = rnh % c.snModulus
  rn_le_rh : rn ≤ rh
  rh_le_rnh : rh ≤ rnh
  rnh_le : rnh ≤ rn + c.windowSize

/-- **The receive window**: moreover neither `rx_next` nor `rx_highest_status` is delivered. -/
structure RxWindow (c : AmConfig) (s : AmRx) (rn rh rnh : ℤ) : Prop extends
    RxPointers c s rn rh rnh where
  rxNext_open : sduDelivered s.rxList (rn % c.snModulus) = false
  rxHighestStatus_open : sduDelivered s.rxList (rh % c.snModulus) = false

/-- While `t_reassembly` runs, its trigger is ahead of `rn`. -/
def TriggerOk (c : AmConfig) (s : AmRx) (rn rnh : ℤ) : Prop :=
  s.tReassemblyStart ≠ 0 → ∃ t, s.rxNextStatusTrigger = t % c.snModulus ∧ rn < t ∧ t ≤ rnh

section Window

variable {s : AmRx} {rn rh rnh x : ℤ}

variable {s' : AmRx} {t t' : AmTrace}

theorem RxPointers.rnh_lt (hc : c.Sane) (h : RxPointers c s rn rh rnh) :
    rnh < rn + c.snModulus := by
  have h₁ := h.rnh_le
  have h₂ := hc.snModulus_eq
  have h₃ := hc.two_le
  omega

theorem RxPointers.reassembleAndDeliver (h : RxPointers c s rn rh rnh)
    (hx : IsSn c.snModulus x) (hfull : sduFull s.rxList x = true) :
    (reassembleAndDeliver s x).rxList = dropData x s.rxList ∧
      RxPointers c (reassembleAndDeliver s x) rn rh rnh := by
  have hlist : (Am.reassembleAndDeliver s x).rxList = dropData x s.rxList :=
    mapSnRun_eq_map h.cells.sorted h.cells.isSn hx _
  exact ⟨hlist, { h with cells := hlist ▸ h.cells.dropData hfull }⟩

@[simp] theorem updateHighestStatus_rxList (s : AmRx) (x : ℤ) :
    (updateHighestStatus c s x).rxList = s.rxList := by
  rw [updateHighestStatus]
  split <;> rfl

theorem RxPointers.updateHighestStatus (hc : c.Sane) (h : RxPointers c s rn rh rnh)
    (hopen : x ≠ s.rxHighestStatus → sduDelivered s.rxList (rh % c.snModulus) = false) :
    ∃ rh', rh ≤ rh' ∧ RxPointers c (updateHighestStatus c s x) rn rh' rnh ∧
      sduDelivered s.rxList (rh' % c.snModulus) = false := by
  have hlt := h.rnh_lt hc
  have h₁ := h.rn_le_rh
  have h₂ := h.rh_le_rnh
  rw [Am.updateHighestStatus]
  split
  · obtain ⟨rh', heq, hle, hle', hopen', -⟩ := skipDelivered_spec c.snModulus.toNat
      (h.cells.not_delivered (by omega) hlt) h₂
      (by have := hc.pos; omega)
    rw [← h.rxHighestStatus_eq] at heq
    exact ⟨rh', hle, { h with
      rxHighestStatus_eq := heq, rn_le_rh := by omega, rh_le_rnh := hle' }, hopen'⟩
  · rename_i hne
    exact ⟨rh, le_rfl, h, hopen hne⟩

theorem RxPointers.updateRxNext (hc : c.Sane) (h : RxPointers c s rn rh rnh)
    (hrh : sduDelivered s.rxList (rh % c.snModulus) = false)
    (hopen : x ≠ s.rxNext → sduDelivered s.rxList (rn % c.snModulus) = false) :
    ∃ rn', rn ≤ rn' ∧ RxWindow c (updateRxNext c s x) rn' rh rnh := by
  have hlt := h.rnh_lt hc
  have h₁ := h.rn_le_rh
  have h₂ := h.rh_le_rnh
  rw [Am.updateRxNext]
  split
  · obtain ⟨rn', heq, hle, hle', hall, hopen'⟩ := freeDelivered_spec hc le_rfl h.cells.sorted
      h.cells.isSn h.cells.below (by omega) hlt.le
    rw [h.rxNext_eq, heq]
    -- `rx_highest_status` is not delivered, so it is not passed
    have hrh' : rn' ≤ rh := by
      by_contra hlt'
      rw [hall rh h₁ (by omega)] at hrh
      cases hrh
    refine ⟨rn', hle, ⟨⟨?_, rfl, h.rxHighestStatus_eq, h.rxNextHighest_eq, hrh', h₂, ?_⟩, hopen', ?_⟩⟩
    · exact h.cells.cellsFrom.rebase (fun p hp ↦ (mem_cellsFrom.1 hp).2) (by omega)
    · have := h.rnh_le
      omega
    · rw [sduDelivered_cellsFrom, hrh]
      rw [lift_emod_self h₁ (by omega)]
      exact hrh'
  · rename_i hne
    exact ⟨rn, le_rfl, { h with rxNext_open := hopen hne, rxHighestStatus_open := hrh }⟩

/-- Delivering a full SDU. -/
theorem RxWindow.actionsSduFull (hc : c.Sane) (h : RxWindow c s rn rh rnh)
    (hx : IsSn c.snModulus x) (hfull : sduFull s.rxList x = true) :
    ∃ rn' rh', rn ≤ rn' ∧ rh ≤ rh' ∧ RxWindow c (actionsSduFull c s x) rn' rh' rnh := by
  obtain ⟨hlist, h₁⟩ := h.toRxPointers.reassembleAndDeliver hx hfull
  have hopen : ∀ y, y ≠ x → sduDelivered s.rxList y = false →
      sduDelivered (reassembleAndDeliver s x).rxList y = false := by
    intro y hyx hy
    rw [hlist, sduDelivered_dropData_of_ne hyx, hy]
  obtain ⟨rh', hrh, h₂, hopen₂⟩ := h₁.updateHighestStatus (x := x) hc fun hne ↦
    hopen _ (h₁.rxHighestStatus_eq ▸ hne.symm) h.rxHighestStatus_open
  obtain ⟨rn', hrn, h₃⟩ := h₂.updateRxNext (x := x) hc (by simpa using hopen₂) fun hne ↦ by
    rw [updateHighestStatus_rxList]
    exact hopen _ (h₂.rxNext_eq ▸ hne.symm) h.rxNext_open
  exact ⟨rn', rh', hrn, hrh, h₃⟩

/-- A PDU in the window is put into the list and counted in `rx_next_highest`. -/
theorem RxWindow.putPdu (hc : c.Sane) (h : RxWindow c s rn rh rnh) (hp : Fresh c pdu)
    (hin : snInRecvWindow c s pdu.sn = true) :
    RxWindow c (updateNextHighest c (putPdu c s pdu) pdu.sn) rn rh
      (max rnh (lift c.snModulus rn pdu.sn + 1)) := by
  have hlt := h.rnh_lt hc
  have h₁ := h.rn_le_rh
  have h₂ := h.rh_le_rnh
  have h₃ := h.rnh_le
  have hM := hc.pos
  rw [snInRecvWindow, decide_eq_true_iff, modulusRx_eq hc h.rxNext_eq hp.isSn] at hin
  have hcells : RxCells c (nrRlcPduListAdd (snCompareRx c s) s.rxList pdu) rn
      (max rnh (lift c.snModulus rn pdu.sn + 1)) :=
    RxCells.listAdd hc h.rxNext_eq
      { h.cells with below := fun p hp ↦ lt_max_of_lt_left (h.cells.below p hp) } hp
      (lt_max_of_lt_right (Int.lt_succ _))
  have hcmp : snCompareRx c (Am.putPdu c s pdu) pdu.sn (Am.putPdu c s pdu).rxNextHighest =
      lift c.snModulus rn pdu.sn - rnh := by
    rw [snCompareRx_eq hc (s := Am.putPdu c s pdu) h.rxNext_eq hp.isSn,
      show (Am.putPdu c s pdu).rxNextHighest = rnh % c.snModulus from h.rxNextHighest_eq,
      lift_emod_self (by omega) hlt]
    rw [show (Am.putPdu c s pdu).rxNextHighest = rnh % c.snModulus from h.rxNextHighest_eq]
    exact isSn_emod hM _
  have hopen : ∀ y, sduDelivered s.rxList y = false →
      sduDelivered (Am.putPdu c s pdu).rxList y = false := fun y hy ↦
    sduDelivered_listAdd_of_false (by simpa [isSome_iff_ne_none] using hp.data_ne) hy
  rw [updateNextHighest, hcmp]
  split
  · rw [max_eq_right (by omega)] at hcells ⊢
    refine ⟨⟨hcells, h.rxNext_eq, h.rxHighestStatus_eq, ?_, h₁, by omega, by omega⟩,
      hopen _ h.rxNext_open, hopen _ h.rxHighestStatus_open⟩
    show (pdu.sn + 1) % c.snModulus = _
    rw [← Int.emod_add_emod (lift c.snModulus rn pdu.sn), lift_emod, Int.emod_add_emod]
  · rw [max_eq_left (by omega)] at hcells ⊢
    exact ⟨⟨hcells, h.rxNext_eq, h.rxHighestStatus_eq, h.rxNextHighest_eq, h₁, h₂, h₃⟩,
      hopen _ h.rxNext_open, hopen _ h.rxHighestStatus_open⟩

/-! ### The timer -/

/-- **Stopping the timer restores its trigger**: a trigger that is still ahead of the old base `m`
either is ahead of `rn` or has left the window. -/
theorem TriggerOk.of_stop (hc : c.Sane) (h : RxPointers c s rn rh rnh) (ht : TriggerOk c s m rnh)
    (hm : rnh ≤ m + c.windowSize) : TriggerOk c (stopTReassembly c s) rn rnh := by
  have hW := hc.snModulus_eq
  have h₁ := h.rn_le_rh
  have h₂ := h.rh_le_rnh
  rw [stopTReassembly]
  split
  · exact fun hrun ↦ absurd rfl hrun
  · rename_i hstop
    intro hrun
    obtain ⟨t, heq, hmt, htle⟩ := ht hrun
    refine ⟨t, heq, ?_, htle⟩
    by_contra hle
    have hne : t ≠ rn := by
      rintro rfl
      exact hstop ⟨hrun, .inl (heq.trans h.rxNext_eq.symm)⟩
    have hlift : lift c.snModulus rn (t % c.snModulus) = t + c.snModulus :=
      lift_eq_of_emod_eq (by omega) (by omega) (by simp)
    refine hstop ⟨hrun, .inr (.inr ⟨?_, ?_⟩)⟩
    · rw [snInRecvWindow, heq, modulusRx_eq hc h.rxNext_eq (isSn_emod hc.pos t), hlift]
      simp only [Bool.not_eq_eq_eq_not, Bool.not_true, decide_eq_false_iff_not]
      omega
    · rw [heq, h.rxNext_eq, Int.emod_add_emod]
      intro hmod
      have hself : lift c.snModulus rn ((rn + c.windowSize) % c.snModulus) = rn + c.windowSize :=
        lift_emod_self (by omega) (by omega)
      rw [← hmod, hlift] at hself
      omega

theorem mem_of_sduHasMissingBytes (h : sduHasMissingBytes l x = true) : ∃ p ∈ l, p.sn = x := by
  unfold sduHasMissingBytes at h
  split at h
  · cases h
  · rcases hfrom : fromSn x l with - | ⟨f, l'⟩
    · rw [hfrom] at h
      cases h
    · have hf : l.find? (fun p ↦ p.sn == x) = some f := by rw [← head?_fromSn, hfrom, head?_cons]
      exact ⟨f, mem_of_find?_eq_some hf, by simpa using find?_some hf⟩

/-- The timer is only started when there is something received beyond `rn`. -/
theorem TriggerOk.restart (hc : c.Sane) (h : RxPointers c s rn rh rnh) (ht : TriggerOk c s rn rnh)
    (tCurrent : UInt64) (sn : ℤ) : TriggerOk c (restartTReassembly c tCurrent s sn) rn rnh := by
  have h₁ := h.rn_le_rh
  have h₂ := h.rh_le_rnh
  rw [restartTReassembly]
  split
  · rename_i hstart
    refine fun _ ↦ ⟨rnh, h.rxNextHighest_eq, ?_, le_rfl⟩
    rcases hstart with hcmp | ⟨-, hmissing⟩
    · rw [snCompareRx_eq hc h.rxNext_eq (h.rxNextHighest_eq ▸ isSn_emod hc.pos _)
        (isSn_emod hc.pos _), h.rxNextHighest_eq, lift_emod_self (by omega) (h.rnh_lt hc)] at hcmp
      have := le_lift hc.pos rn ((sn + 1) % c.snModulus)
      omega
    · obtain ⟨p, hp, -⟩ := mem_of_sduHasMissingBytes hmissing
      have := h.cells.below p hp
      have := le_lift hc.pos rn p.sn
      omega
  · exact ht

theorem RxWindow.congr (h : RxWindow c s rn rh rnh) (hlist : s'.rxList = s.rxList)
    (hnext : s'.rxNext = s.rxNext) (hstatus : s'.rxHighestStatus = s.rxHighestStatus)
    (hhighest : s'.rxNextHighest = s.rxNextHighest) : RxWindow c s' rn rh rnh where
  cells := hlist ▸ h.cells
  rxNext_eq := hnext ▸ h.rxNext_eq
  rxHighestStatus_eq := hstatus ▸ h.rxHighestStatus_eq
  rxNextHighest_eq := hhighest ▸ h.rxNextHighest_eq
  rn_le_rh := h.rn_le_rh
  rh_le_rnh := h.rh_le_rnh
  rnh_le := h.rnh_le
  rxNext_open := hlist ▸ h.rxNext_open
  rxHighestStatus_open := hlist ▸ h.rxHighestStatus_open

theorem RxWindow.restartTReassembly (h : RxWindow c s rn rh rnh) (tCurrent : UInt64) (sn : ℤ) :
    RxWindow c (restartTReassembly c tCurrent s sn) rn rh rnh := by
  rw [Am.restartTReassembly]
  split <;> exact h.congr rfl rfl rfl rfl

theorem RxWindow.stopTReassembly (h : RxWindow c s rn rh rnh) :
    RxWindow c (stopTReassembly c s) rn rh rnh := by
  rw [Am.stopTReassembly]
  split <;> exact h.congr rfl rfl rfl rfl

/-! ### What a step keeps -/

/-- Everything that holds of the receiver, with the absolute numbers. -/
def RxInv (c : AmConfig) (s : AmRx) : Prop :=
  ∃ rn rh rnh, RxWindow c s rn rh rnh ∧ TriggerOk c s rn rnh

@[simp] theorem actionsSduFull_tReassemblyStart :
    (actionsSduFull c s x).tReassemblyStart = s.tReassemblyStart := by
  rw [actionsSduFull, updateRxNext, updateHighestStatus]
  split <;> split <;> rfl

@[simp] theorem actionsSduFull_rxNextStatusTrigger :
    (actionsSduFull c s x).rxNextStatusTrigger = s.rxNextStatusTrigger := by
  rw [actionsSduFull, updateRxNext, updateHighestStatus]
  split <;> split <;> rfl

@[simp] theorem updateNextHighest_tReassemblyStart :
    (updateNextHighest c s x).tReassemblyStart = s.tReassemblyStart := by
  rw [updateNextHighest]
  split <;> rfl

@[simp] theorem updateNextHighest_rxNextStatusTrigger :
    (updateNextHighest c s x).rxNextStatusTrigger = s.rxNextStatusTrigger := by
  rw [updateNextHighest]
  split <;> rfl

theorem TriggerOk.mono (h : TriggerOk c s rn rnh)
    (hstart : s'.tReassemblyStart = s.tReassemblyStart)
    (htrigger : s'.rxNextStatusTrigger = s.rxNextStatusTrigger) (hle : rnh ≤ rnh') :
    TriggerOk c s' rn rnh' := by
  intro hrun
  obtain ⟨t, heq, hlt, hle'⟩ := h (hstart ▸ hrun)
  exact ⟨t, htrigger ▸ heq, hlt, hle'.trans hle⟩

/-- The timer actions at the end of the reception actions. -/
theorem RxInv.timerActions (hc : c.Sane) (h : RxWindow c s rn rh rnh) (ht : TriggerOk c s m rnh)
    (hm : rnh ≤ m + c.windowSize) (tCurrent : UInt64) :
    RxInv c (startTReassembly c tCurrent (stopTReassembly c s)) := by
  have hstop := TriggerOk.of_stop hc h.toRxPointers ht hm
  refine ⟨rn, rh, rnh, ?_⟩
  rw [startTReassembly]
  split
  · exact ⟨h.stopTReassembly.restartTReassembly _ _,
      hstop.restart hc h.stopTReassembly.toRxPointers _ _⟩
  · exact ⟨h.stopTReassembly, hstop⟩

theorem RxInv.receptionActions (hc : c.Sane) (h : RxInv c s) (hp : Fresh c pdu)
    (hin : snInRecvWindow c s pdu.sn = true) (tCurrent : UInt64) :
    RxInv c (receptionActions c tCurrent (putPdu c s pdu) pdu.sn) := by
  obtain ⟨rn, rh, rnh, hw, ht⟩ := h
  have hput := hw.putPdu hc hp hin
  have hle := hput.rnh_le
  have ht' : TriggerOk c (updateNextHighest c (putPdu c s pdu) pdu.sn) rn
      (max rnh (lift c.snModulus rn pdu.sn + 1)) := ht.mono (by simp [putPdu])
    (by simp [putPdu]) (le_max_left _ _)
  rw [Am.receptionActions]
  split
  · rename_i hfull
    obtain ⟨rn', rh', -, -, hw'⟩ := hput.actionsSduFull hc hp.isSn hfull
    exact .timerActions hc hw' (ht'.mono (by simp) (by simp) le_rfl) hle tCurrent
  · exact .timerActions hc hput ht' hle tCurrent

theorem RxInv.withStatus (h : RxInv c s) (b : Bool) (u : UInt64) : RxInv c (s.withStatus b u) := by
  obtain ⟨rn, rh, rnh, hw, ht⟩ := h
  exact ⟨rn, rh, rnh, hw.congr rfl rfl rfl rfl, ht⟩

theorem RxInv.recvDataPdu (hc : c.Sane) (h : RxInv c s) (hp : Fresh c pdu) (tCurrent : UInt64)
    (p : Bool) : RxInv c (recvDataPdu c tCurrent s p pdu) := by
  rw [Am.recvDataPdu]
  split
  · rename_i hacc
    simp only [acceptsPdu, Bool.and_eq_true] at hacc
    obtain ⟨b, u, heq⟩ := triggerStatus_eq
      (Am.receptionActions c tCurrent (putPdu c s pdu) pdu.sn) p
    rw [heq]
    exact (h.receptionActions hc hp hacc.1.2 tCurrent).withStatus b u
  · obtain ⟨b, u, heq⟩ := triggerStatus_eq s p
    rw [heq]
    exact h.withStatus b u

theorem RxInv.checkTReassembly (hc : c.Sane) (h : RxInv c s) (now : UInt64) :
    RxInv c (checkTReassembly c now s) := by
  rw [Am.checkTReassembly]
  split
  · exact h
  · rename_i hexp
    obtain ⟨rn, rh, rnh, hw, ht⟩ := h
    have hrun : s.tReassemblyStart ≠ 0 := by
      rintro h0
      simp [tReassemblyExpired, h0] at hexp
    obtain ⟨t, heq, hlt, hle⟩ := ht hrun
    have hrnh := hw.rnh_lt hc
    -- the status goes to the first SN from the trigger on that is not delivered
    obtain ⟨rh', hskip, hle', hle'', hopen, -⟩ := skipDelivered_spec c.snModulus.toNat
      (hw.cells.not_delivered (by omega) hrnh) hle (by omega)
    rw [← heq] at hskip
    rw [hskip]
    have hw' : RxWindow c { s with
        tReassemblyStart := 0, rxHighestStatus := rh' % c.snModulus, statusTriggered := true }
        rn rh' rnh :=
      { hw with
        rxHighestStatus_eq := rfl
        rn_le_rh := by omega
        rh_le_rnh := hle''
        rxHighestStatus_open := hopen }
    exact ⟨rn, rh', rnh, hw'.restartTReassembly _ _,
      TriggerOk.restart hc hw'.toRxPointers (fun h0 ↦ absurd rfl h0) _ _⟩

theorem RxInv.init (hc : c.Sane) (d : List (List (Option UInt8)))
    (r : List (ℤ × List NrRlcPdu)) : RxInv c { delivered := d, reassembled := r } := by
  have := hc.two_le
  refine ⟨0, 0, 0, ⟨⟨⟨?_, ?_, .nil, ?_, ?_, ?_, ?_, ?_⟩, rfl, rfl, rfl, le_rfl, le_rfl, by omega⟩,
    rfl, rfl⟩, fun h ↦ absurd rfl h⟩ <;> simp

/-- **The receiver keeps its window**, whatever calls are made. -/
theorem RxInv.step (hc : c.Sane) {op : AmOp}
    (h : RxInv c t.entity.rx) (hstep : (amSystem c).step t op = some t') :
    RxInv c t'.entity.rx := by
  rcases step_rx_cases hstep with ⟨b, u, heq⟩ | ⟨buffer, p, pdu, -, hdec, heq⟩ | ⟨now, -, heq⟩ |
    ⟨-, heq⟩
  · rw [heq]
    exact h.withStatus b u
  · rw [heq]
    exact h.recvDataPdu hc (fresh_of_decodePdu hc hdec) _ _
  · rw [heq]
    exact h.checkTReassembly hc now
  · rw [heq]
    exact .init hc _ _

theorem rxInv_of_reach (hc : c.Sane) {ok : AmTrace → AmOp → Prop}
    (h : (amSystem c).Reach ok t) : RxInv c t.entity.rx :=
  h.invariant (P := fun t ↦ RxInv c t.entity.rx) (.init hc [] []) fun h _ hs ↦ h.step hc hs

end Window

/-! ### In the source's terms -/

/-- The receive window, with differences of SNs taken modulo the SN space. -/
structure AmRx.InWindow (c : AmConfig) (s : AmRx) : Prop where
  rxHighestStatus_nonneg : 0 ≤ off c.snModulus s.rxNext s.rxHighestStatus
  rxHighestStatus_le : off c.snModulus s.rxNext s.rxHighestStatus ≤
    off c.snModulus s.rxNext s.rxNextHighest
  rxNextHighest_le : off c.snModulus s.rxNext s.rxNextHighest ≤ c.windowSize
  sorted : s.rxList.Pairwise fun p q ↦
    off c.snModulus s.rxNext p.sn < off c.snModulus s.rxNext q.sn ∨
      off c.snModulus s.rxNext p.sn = off c.snModulus s.rxNext q.sn ∧ p.so ≤ q.so
  stored : ∀ p ∈ s.rxList, 0 ≤ p.sn ∧ p.sn < c.snModulus ∧
    off c.snModulus s.rxNext p.sn < off c.snModulus s.rxNext s.rxNextHighest
  rxNext_open : sduDelivered s.rxList s.rxNext = false
  rxHighestStatus_open : sduDelivered s.rxList s.rxHighestStatus = false
  trigger : s.tReassemblyStart ≠ 0 →
    0 < off c.snModulus s.rxNext s.rxNextStatusTrigger ∧
      off c.snModulus s.rxNext s.rxNextStatusTrigger ≤ off c.snModulus s.rxNext s.rxNextHighest

theorem RxInv.inWindow (hc : c.Sane) (h : RxInv c s) : s.InWindow c := by
  obtain ⟨rn, rh, rnh, hw, ht⟩ := h
  have hlt := hw.rnh_lt hc
  have h₁ := hw.rn_le_rh
  have h₂ := hw.rh_le_rnh
  have hoff : ∀ a, off c.snModulus s.rxNext a = lift c.snModulus rn a - rn := fun a ↦ by
    rw [hw.rxNext_eq, lift, off, off, Int.sub_emod_emod]
    ring
  have hrh : off c.snModulus s.rxNext s.rxHighestStatus = rh - rn := by
    rw [hoff, hw.rxHighestStatus_eq, lift_emod_self h₁ (by omega)]
  have hrnh : off c.snModulus s.rxNext s.rxNextHighest = rnh - rn := by
    rw [hoff, hw.rxNextHighest_eq, lift_emod_self (by omega) hlt]
  refine ⟨by omega, by omega, by have := hw.rnh_le; omega, ?_, fun p hp ↦ ?_, ?_, ?_, fun hrun ↦ ?_⟩
  · refine hw.cells.sorted.imp fun {p q} hpq ↦ ?_
    rw [hoff, hoff]
    rw [CellLe] at hpq
    omega
  · have := hw.cells.below p hp
    rw [hoff, hrnh]
    exact ⟨(hw.cells.isSn p hp).1, (hw.cells.isSn p hp).2, by omega⟩
  · rw [hw.rxNext_eq]
    exact hw.rxNext_open
  · rw [hw.rxHighestStatus_eq]
    exact hw.rxHighestStatus_open
  · obtain ⟨t, heq, hlt', hle⟩ := ht hrun
    rw [hrnh, hoff, heq, lift_emod_self (by omega) (by omega)]
    omega

/-- **The receive window is kept in every run**: for arbitrary buffers and times, and whatever else
is called in between. -/
theorem inWindow_of_reach {p : AmParams} {t : AmTrace}
    (h : (amSystem p.config).Reach (fun _ _ ↦ True) t) : t.entity.rx.InWindow p.config :=
  (rxInv_of_reach p.sane h).inWindow p.sane

/-- SN 0 is missing, SN 1 is delivered and `t_reassembly` runs for it. -/
theorem inWindow_after_gap :
    ∃ t, (amSystem shortSnParams.config).Reach (fun _ _ ↦ True) t ∧
      t.entity.rx.delivered = [[some 0xaa]] ∧ t.entity.rx.tReassemblyStart = 1 ∧
      t.entity.rx.InWindow shortSnParams.config :=
  have h := StepSystem.reach_get_exec (amSystem shortSnParams.config) (fun _ _ ↦ True)
    [.setTime 1, .recvPdu [0x80, 1, 0xaa]] (by decide)
  ⟨_, h, by decide, by decide, inWindow_of_reach h⟩

end OaiRan.Rlc.Am
