import OaiRan.Rlc.Um.Window
import OaiRan.Rlc.ReassemblyBounds

/-!
# An unacknowledged-mode receiver that misses nothing

A receiver that is given the segments of one SDU after the other, under consecutive SNs. Its list
keeps the emptied cells of delivered SDUs in front of those of the SDU that is being received
(`Receiving`); the window moves at the first segment of an SDU, and drops only cells that are empty
(`Receiving.moveWindow_first`). `t_reassembly` never starts.
-/

namespace OaiRan.Rlc.Um

open CircularSeq List

variable {c : UmConfig}

/-! ### The segments of an SDU, in order -/

/-- The segment of the bytes from `a` to `b`. -/
def piece (x : ℤ) (data : List UInt8) (a b : ℕ) : NrRlcPdu :=
  nrRlcNewPdu x a (a == 0) (b == data.length) ((data.drop a).take (b - a))

/-- The cells that the bytes of `data` up to `k` arrive in, under the SN `x`. -/
inductive Pieces (x : ℤ) (data : List UInt8) : ℕ → List NrRlcPdu → Prop
  | nil : Pieces x data 0 []
  | snoc {a b : ℕ} {ps : List NrRlcPdu} : Pieces x data a ps → a < b → b ≤ data.length →
      Pieces x data b (ps ++ [piece x data a b])

namespace Pieces

variable {x : ℤ} {data : List UInt8} {k : ℕ} {ps : List NrRlcPdu}

theorem eq_nil (h : Pieces x data 0 ps) : ps = [] := by
  cases h with
  | nil => rfl
  | snoc _ hab => omega

theorem sn_eq (h : Pieces x data k ps) : ∀ p ∈ ps, p.sn = x := by
  induction h with
  | nil => simp
  | snoc _ _ _ ih => simpa [or_imp, forall_and] using ⟨ih, rfl⟩

theorem so_lt (h : Pieces x data k ps) : ∀ p ∈ ps, p.so < k := by
  induction h with
  | nil => simp
  | snoc _ hab _ ih =>
    simp only [mem_append, mem_singleton, or_imp, forall_and, forall_eq]
    refine ⟨fun p hp ↦ ?_, ?_⟩
    · have := ih p hp
      omega
    · simp only [piece, nrRlcNewPdu]
      omega

theorem length_piece (hb : b ≤ data.length) : ((data.drop a).take (b - a)).length = b - a := by
  rw [length_take, length_drop]
  omega

section

variable (h : Pieces x data k ps)
include h

theorem data_isSome : ∀ p ∈ ps, p.data.isNone = false := by
  induction h with
  | nil => simp
  | snoc _ _ _ ih => simpa [or_imp, forall_and, piece, nrRlcNewPdu] using ih

theorem sum_size : (ps.map NrRlcPdu.size).sum = k := by
  induction h with
  | nil => rfl
  | @snoc a b ps h hab hb ih =>
    simp only [map_append, map_cons, map_nil, sum_append, sum_cons,
      sum_nil, ih, piece, nrRlcNewPdu, length_piece hb]
    omega

/-- None of the pieces has been handed on yet. -/
theorem firstProcessed_eq (hold : ∀ p ∈ old, p.sn ≠ x) : firstProcessed x (old ++ ps) = false := by
  rw [firstProcessed, fromSn_append_of_ne hold, fromSn_of_eq h.sn_eq]
  cases ps with
  | nil => rfl
  | cons p ps => exact h.data_isSome p (by simp)

/-- `sdu_full` walks over the pieces received so far. -/
theorem sduFullLoop_append (hk : k < data.length) (qs : List NrRlcPdu) :
    sduFullLoop x (-1) (ps ++ qs) = sduFullLoop x (k - 1) qs := by
  induction h generalizing qs with
  | nil => simp
  | @snoc a b ps h hab hb ih =>
    rw [append_assoc, ih (by omega), singleton_append, sduFullLoop]
    have hlast : (b == data.length) = false := by simpa using hk.ne
    simp only [piece, nrRlcNewPdu, length_piece hb, hlast]
    rw [if_neg (by simp), if_neg (by omega), if_neg (by simp), max_eq_right (by omega)]
    congr 1
    omega

/-- So does `sdu_has_missing_bytes`. -/
theorem sduHasMissingBytesLoop_append (qs : List NrRlcPdu) :
    sduHasMissingBytesLoop x (-1) (ps ++ qs) = sduHasMissingBytesLoop x (k - 1) qs := by
  induction h generalizing qs with
  | nil => simp
  | @snoc a b ps h hab hb ih =>
    rw [append_assoc, ih, singleton_append, sduHasMissingBytesLoop]
    simp only [piece, nrRlcNewPdu, length_piece hb]
    rw [if_neg (by simp), if_neg (by omega), max_eq_right (by omega)]
    congr 1
    omega

/-- Reassembly glues the pieces together. -/
theorem reassemble_eq (hmax : (data.length : ℤ) ≤ nrSduMax) :
    (reassemble ps).sdu = (data.take k).map some ∧ (reassemble ps).badSdu = false := by
  induction h with
  | nil => exact ⟨by simp [reassemble, Reassembly.init], rfl⟩
  | @snoc a b ps h hab hb ih =>
    obtain ⟨hsdu, hbad⟩ := ih
    have hso : (reassemble ps).so = a := by
      rw [Reassembly.so, hsdu, length_map, length_take]
      omega
    rw [reassemble, foldl_append, foldl_cons, foldl_nil, ← reassemble]
    rw [Reassembly.add_of_lt hbad (by simp only [piece, nrRlcNewPdu, length_piece hb]; omega)
      (by simp only [piece, nrRlcNewPdu, length_piece hb, hso]; omega)]
    refine ⟨?_, rfl⟩
    have hread := Memcpy.read_all ((data.drop a).take (b - a))
    rw [length_piece hb] at hread
    simp only [piece, nrRlcNewPdu, length_piece hb, hso, Option.getD_some, hsdu, sub_self]
    rw [show (a : ℤ) + ((b - a : ℕ) : ℤ) - a = ((b - a : ℕ) : ℤ) by omega, hread,
      ← map_append, ← take_add, show a + (b - a) = b by omega]

end

end Pieces

/-! ### The state between two PDUs -/

/-- The bytes up to `k` of the SDU under the SN `x` have come, in the cells `cur`; `old` are the
cells of SDUs that are delivered. -/
structure Receiving (c : UmConfig) (s : UmRx) (x : ℤ) (data : List UInt8) (k : ℕ)
    (old cur : List NrRlcPdu) : Prop where
  rxList_eq : s.rxList = old ++ cur
  pieces : Pieces x data k cur
  k_lt : k < data.length
  old_done : ∀ p ∈ old, p.data = none ∧ p.size = 0
  old_ne : ∀ p ∈ old, p.sn ≠ x
  cells : WindowCells c s
  isSn : IsSn c.snModulus x
  rxNextReassembly_eq : s.rxNextReassembly = x
  rxNextHighest_eq : s.rxNextHighest = if k = 0 then x else (x + 1) % c.snModulus
  tReassemblyStart_eq : s.tReassemblyStart = 0
  rxSize_eq : s.rxSize = k

namespace Receiving

variable {s : UmRx} {x : ℤ} {data : List UInt8} {k : ℕ} {old cur : List NrRlcPdu}

/-- The clock has nothing to do. -/
theorem checkTReassembly_eq (h : Receiving c s x data k old cur) (now : UInt64) :
    checkTReassembly c now s = s := by
  simp [checkTReassembly, tReassemblyExpired, h.tReassemblyStart_eq]

section

variable (hc : c.Sane) (h : Receiving c s x data k old cur)
include hc h

/-- The age of the SN being received: nothing of it has come, or it is the youngest. -/
theorem age_x : age c s x = if k = 0 then 0 else 1 := by
  have hnext := h.rxNextHighest_eq
  split
  · rename_i hk
    rw [if_pos hk] at hnext
    rw [age, hnext, off_self]
  · rename_i hk
    exact age_newest hc (hnext.trans (if_neg hk))

/-- The new segment goes to the end of the list. -/
theorem listAdd_eq (b : ℕ) :
    nrRlcPduListAdd (snCompareRx c s) s.rxList (piece x data k b) =
      old ++ (cur ++ [piece x data k b]) := by
  rw [← append_assoc, ← h.rxList_eq]
  refine nrRlcPduListAdd_eq_append fun q hq ↦ ?_
  have hage : age c s x ≤ 1 := by rw [h.age_x hc]; split <;> omega
  have hq1 := h.cells.inWindow q hq
  rw [h.rxList_eq, mem_append] at hq
  rcases hq with hq | hq
  · refine ⟨?_, fun he ↦ absurd he (h.old_ne q hq)⟩
    rw [show (piece x data k b).sn = x from rfl, snCompareRx_eq hc hq1.2 (by omega)]
    omega
  · refine ⟨?_, fun _ ↦ (h.pieces.so_lt q hq).le⟩
    rw [h.pieces.sn_eq q hq]
    exact (sub_self _).le

/-- A segment behind the first one is inside the window. -/
theorem cells_listAdd (hk : 0 < k) (b : ℕ) :
    WindowCells c { s with rxSize := b, rxList := old ++ (cur ++ [piece x data k b]) } := by
  have hW := hc.two_le
  have hage : age c s x = 1 := by rw [h.age_x hc, if_neg hk.ne']
  have hsn : IsSn c.snModulus (piece x data k b).sn := h.isSn
  refine h.cells.listAdd hc hsn ?_ (h.listAdd_eq hc b).symm rfl
  change 1 ≤ age c s x ∧ age c s x ≤ c.windowSize
  omega

/-- Nothing stands in the way of the next segment: it is put into the list. -/
theorem recvPdu_eq (t : UInt64) (hkb : k < b)
    (hb : b ≤ data.length) (hroom : (data.length : ℤ) ≤ c.rxMaxsize)
    (hdec : decodePdu c buffer = .segment (piece x data k b)) :
    recvPdu c t s buffer = receptionActions c t { s with
      rxSize := b, rxList := old ++ (cur ++ [piece x data k b]) } x := by
  have hsize : (piece x data k b).size = ((b - k : ℕ) : ℤ) := by
    simp only [piece, nrRlcNewPdu, Pieces.length_piece hb]
  have hcmp : snCompareRx c s x s.rxNextReassembly = 0 := by
    rw [h.rxNextReassembly_eq, snCompareRx, sub_self]
  rw [recvPdu, hdec]
  simp only [hsize, h.rxSize_eq, h.listAdd_eq hc]
  rw [if_neg (by omega), if_neg (by simp only [piece, nrRlcNewPdu]; omega),
    show (k : ℤ) + ((b - k : ℕ) : ℤ) = b by omega]
  rfl

end

end Receiving

/-! ### The timer stays off -/

theorem stopTReassembly_of_off (h : s.tReassemblyStart = 0) : stopTReassembly c s = s := by
  rw [stopTReassembly, if_neg (by simp [h])]

/-- There is nothing to wait for when the newest SDU has no gap and the ones before are there. -/
theorem startTReassembly_of_newest (t : UInt64)
    (hnext : s.rxNextHighest = (s.rxNextReassembly + 1) % c.snModulus)
    (hgap : sduHasMissingBytes s.rxList s.rxNextReassembly = false) :
    startTReassembly c t s = s := by
  rw [startTReassembly, if_neg]
  rintro ⟨-, h | ⟨-, h⟩⟩
  · rw [← hnext, snCompareRx, sub_self] at h
    omega
  · simp [hgap] at h

/-- Nor when everything has been delivered. -/
theorem startTReassembly_of_idle (hc : c.Sane) (t : UInt64)
    (hnext : s.rxNextHighest = s.rxNextReassembly) : startTReassembly c t s = s := by
  have hM := hc.snModulus_eq
  have hW := hc.two_le
  -- one further ahead is the oldest age there is
  have hage : age c s ((s.rxNextReassembly + 1) % c.snModulus) = c.snModulus - 1 := by
    have hone : off c.snModulus s.rxNextHighest ((s.rxNextHighest + 1) % c.snModulus) = 1 := by
      rw [off_succ hc.pos, off_self, if_neg (by omega)]
      rfl
    rw [age, ← hnext, off_rebase hc.pos s.rxNextHighest, hone, off_self, if_pos (by omega)]
    ring
  rw [startTReassembly, if_neg]
  rintro ⟨-, h | ⟨h, -⟩⟩
  · rw [snCompareRx, modulusRx_eq_age hc, modulusRx_eq_age hc, age_rxNextHighest, hage,
      if_neg (by omega), if_pos (by omega)] at h
    omega
  · rw [← h, age_rxNextHighest] at hage
    omega

/-! ### One segment -/

namespace Receiving

variable {s : UmRx} {x : ℤ} {data : List UInt8} {k : ℕ} {old cur : List NrRlcPdu}

/-- With a piece missing at the end the SDU is not full, and it has no gap. -/
theorem sduFull_eq_false (hold : ∀ p ∈ old, p.sn ≠ x) (hp : Pieces x data k cur)
    (hk : k < data.length) : sduFull (old ++ cur) x = false := by
  rw [sduFull, hp.firstProcessed_eq hold, if_neg (by simp), fromSn_append_of_ne hold,
    fromSn_of_eq hp.sn_eq, ← append_nil cur, hp.sduFullLoop_append hk]
  rfl

theorem sduHasMissingBytes_eq_false (hold : ∀ p ∈ old, p.sn ≠ x) (hp : Pieces x data k cur) :
    sduHasMissingBytes (old ++ cur) x = false := by
  rw [sduHasMissingBytes, hp.firstProcessed_eq hold, if_neg (by simp), fromSn_append_of_ne hold,
    fromSn_of_eq hp.sn_eq, ← append_nil cur, hp.sduHasMissingBytesLoop_append]
  rfl

/-- The first segment moves the window, and that drops only cells that are empty. -/
theorem moveWindow_first (hc : c.Sane) (h : Receiving c s x data 0 old []) (hb : 0 < b)
    (hlt : b < data.length) :
    ∃ old', Receiving c (moveWindow c { s with
      rxSize := b, rxList := old ++ [piece x data 0 b] } x) x data b old' [piece x data 0 b] := by
  have hsn : IsSn c.snModulus (piece x data 0 b).sn := h.isSn
  have hcells : WindowCells c (moveWindow c { s with
      rxSize := b, rxList := old ++ [piece x data 0 b] } x) :=
    h.cells.moveWindow hc hsn (.inl (h.age_x hc)) (by rw [h.rxList_eq, append_nil])
  set s' : UmRx := { s with
    rxSize := b, rxList := old ++ [piece x data 0 b],
    rxNextHighest := (x + 1) % c.snModulus }
  have hpiece : outOfWindow c s' (piece x data 0 b) = false := not_outOfWindow_newest hc rfl
  have hzero : ((old.takeWhile (outOfWindow c s')).map NrRlcPdu.size).sum = 0 :=
    sum_eq_zero fun z hz ↦ by
      obtain ⟨p, hp, rfl⟩ := mem_map.1 hz
      exact (h.old_done p ((takeWhile_sublist _).subset hp)).2
  have hsub : ∀ p ∈ old.dropWhile (outOfWindow c s'), p ∈ old :=
    fun p hp ↦ (dropWhile_sublist _).subset hp
  refine ⟨old.dropWhile (outOfWindow c s'), ?_, Pieces.snoc (Pieces.nil : Pieces x data 0 []) hb
    hlt.le, hlt, fun p hp ↦ h.old_done p (hsub p hp), fun p hp ↦ h.old_ne p (hsub p hp), hcells,
    h.isSn, h.rxNextReassembly_eq, ?_, h.tReassemblyStart_eq, ?_⟩
  · exact OrderedChain.dropWhile_append_singleton hpiece _
  · rw [if_neg hb.ne']
    rfl
  · change (b : ℤ) - (((old ++ [piece x data 0 b]).takeWhile (outOfWindow c s')).map
      NrRlcPdu.size).sum = b
    rw [OrderedChain.takeWhile_append_singleton hpiece, hzero, sub_zero]

/-- What a segment that does not complete the SDU leads to. -/
theorem actionsSduNotFull_spec (hc : c.Sane) (h : Receiving c s x data k old cur) (hkb : k < b)
    (hlt : b < data.length) :
    ∃ s' old', actionsSduNotFull c { s with
        rxSize := b, rxList := old ++ (cur ++ [piece x data k b]) } x = s' ∧
      Receiving c s' x data b old' (cur ++ [piece x data k b]) ∧ s'.delivered = s.delivered := by
  have hW := hc.two_le
  have hpieces : Pieces x data b (cur ++ [piece x data k b]) := h.pieces.snoc hkb hlt.le
  rcases Nat.eq_zero_or_pos k with rfl | hk
  · obtain rfl := h.pieces.eq_nil
    obtain ⟨old', h'⟩ := h.moveWindow_first hc hkb hlt
    have hmove : snCompareRx c { s with rxSize := b, rxList := old ++ [piece x data 0 b] } x
        s.rxNextHighest ≥ 0 := by
      rw [h.rxNextHighest_eq, if_pos rfl, snCompareRx, sub_self]
    have hkeep : ¬ snCompareRx c (moveWindow c { s with
        rxSize := b, rxList := old ++ [piece x data 0 b] } x) x
        (moveWindow c { s with rxSize := b, rxList := old ++ [piece x data 0 b] } x).rxNextHighest
        ≥ 0 := by
      rw [snCompareRx_rxNextHighest_nonneg_iff hc, h'.age_x hc, if_neg (by omega)]
      omega
    refine ⟨_, old', ?_, h', rfl⟩
    rw [nil_append, actionsSduNotFull, if_pos hmove]
    simp only
    rw [h'.rxNextReassembly_eq, if_neg hkeep]
  · have hstay : ¬ snCompareRx c { s with
        rxSize := b, rxList := old ++ (cur ++ [piece x data k b]) } x s.rxNextHighest ≥ 0 := by
      have := (snCompareRx_rxNextHighest_nonneg_iff hc s x).not
      refine this.2 ?_
      rw [h.age_x hc, if_neg (by omega)]
      omega
    have hact : actionsSduNotFull c { s with
        rxSize := b, rxList := old ++ (cur ++ [piece x data k b]) } x =
        { s with rxSize := b, rxList := old ++ (cur ++ [piece x data k b]) } := by
      rw [actionsSduNotFull, if_neg hstay]
    refine ⟨_, old, hact, ⟨rfl, hpieces, hlt, h.old_done, h.old_ne, h.cells_listAdd hc hk b, h.isSn,
      h.rxNextReassembly_eq, ?_, h.tReassemblyStart_eq, rfl⟩, rfl⟩
    rw [if_neg (by omega)]
    simpa [hk.ne'] using h.rxNextHighest_eq

/-- **A segment that does not complete the SDU.** -/
theorem recvPdu_partial (hc : c.Sane) (h : Receiving c s x data k old cur) (t : UInt64)
    (hkb : k < b) (hlt : b < data.length) (hroom : (data.length : ℤ) ≤ c.rxMaxsize)
    (hdec : decodePdu c buffer = .segment (piece x data k b)) :
    ∃ old', Receiving c (recvPdu c t s buffer) x data b old' (cur ++ [piece x data k b]) ∧
      (recvPdu c t s buffer).delivered = s.delivered := by
  have hpieces : Pieces x data b (cur ++ [piece x data k b]) := h.pieces.snoc hkb hlt.le
  obtain ⟨s', old', hact, h', hdel⟩ := h.actionsSduNotFull_spec hc hkb hlt
  have hrecv := h.recvPdu_eq hc t hkb hlt.le hroom hdec
  have hnext : s'.rxNextHighest = (s'.rxNextReassembly + 1) % c.snModulus := by
    rw [h'.rxNextReassembly_eq, h'.rxNextHighest_eq, if_neg (by omega)]
  have hgap : sduHasMissingBytes s'.rxList s'.rxNextReassembly = false := by
    rw [h'.rxNextReassembly_eq, h'.rxList_eq]
    exact sduHasMissingBytes_eq_false h'.old_ne hpieces
  have heq : recvPdu c t s buffer = s' := by
    rw [hrecv, receptionActions, sduFull_eq_false h.old_ne hpieces hlt, if_neg (by simp), hact,
      stopTReassembly_of_off h'.tReassemblyStart_eq, startTReassembly_of_newest t hnext hgap]
  exact ⟨old', heq ▸ h', heq ▸ hdel⟩

/-- The pieces of a delivered SDU, emptied. -/
def emptied (ps : List NrRlcPdu) : List NrRlcPdu := ps.map fun p ↦ { p with data := none, size := 0 }

theorem sn_of_mem_emptied (hps : Pieces x data k ps) :
    ∀ p ∈ emptied ps, p.sn = x ∧ p.data = none ∧ p.size = 0 := by
  intro p hp
  obtain ⟨q, hq, rfl⟩ := mem_map.1 hp
  exact ⟨hps.sn_eq q hq, rfl, rfl⟩

/-- Past the SDU just delivered there is nothing yet. -/
theorem skipDelivered_eq (hc : c.Sane) (hps : Pieces x data k ps)
    (hne : ps ≠ []) (hl : ∀ p ∈ l, p.sn ≠ x)
    (hnext : ∀ p ∈ l ++ emptied ps, p.sn ≠ (x + 1) % c.snModulus) :
    skipDelivered c.snModulus (l ++ emptied ps) c.snModulus.toNat x = (x + 1) % c.snModulus := by
  have hW := hc.two_le
  have hM := hc.snModulus_eq
  obtain ⟨n, hn⟩ : ∃ n, c.snModulus.toNat = n + 2 := ⟨c.snModulus.toNat - 2, by omega⟩
  have hx : sduDelivered (l ++ emptied ps) x = true := by
    rw [sduDelivered, firstProcessed, fromSn_append_of_ne hl,
      fromSn_of_eq fun p hp ↦ (sn_of_mem_emptied hps p hp).1]
    obtain ⟨p, ps', rfl⟩ := exists_cons_of_ne_nil hne
    rfl
  have hx' : sduDelivered (l ++ emptied ps) ((x + 1) % c.snModulus) = false := by
    rw [sduDelivered, firstProcessed, fromSn_eq_nil_of_ne hnext]
  rw [hn, skipDelivered, if_pos hx, skipDelivered, if_neg (by simp [hx'])]

/-- **The segment that completes the SDU**: it is delivered, and the next SN is expected. -/
theorem recvPdu_last (hc : c.Sane) (h : Receiving c s x data k old cur) (t : UInt64) (hk : 0 < k)
    (hmax : (data.length : ℤ) ≤ nrSduMax) (hroom : (data.length : ℤ) ≤ c.rxMaxsize)
    (hdec : decodePdu c buffer = .segment (piece x data k data.length)) :
    (∃ old', ∀ data' : List UInt8, data' ≠ [] →
        Receiving c (recvPdu c t s buffer) ((x + 1) % c.snModulus) data' 0 old' []) ∧
      (recvPdu c t s buffer).delivered = s.delivered ++ [data.map some] := by
  set cur' := cur ++ [piece x data k data.length] with hcur'
  have hpieces : Pieces x data data.length cur' := h.pieces.snoc h.k_lt le_rfl
  have hrnh : s.rxNextHighest = (x + 1) % c.snModulus := by
    rw [h.rxNextHighest_eq, if_neg hk.ne']
  have hfull : sduFull (old ++ cur') x = true := by
    rw [sduFull, hpieces.firstProcessed_eq h.old_ne, if_neg (by simp), fromSn_append_of_ne h.old_ne,
      fromSn_of_eq hpieces.sn_eq, hcur', h.pieces.sduFullLoop_append h.k_lt, sduFullLoop]
    simp [piece, nrRlcNewPdu]
  have hcells : WindowCells c { s with rxList := old ++ emptied cur' } := by
    refine (h.cells_listAdd hc hk data.length).of_map_sn ?_ rfl
    rw [← hcur', map_append, map_append, emptied, map_map]
    rfl
  have hnext : ∀ p ∈ old ++ emptied cur', p.sn ≠ (x + 1) % c.snModulus :=
    hrnh ▸ hcells.sn_ne_highest
  obtain ⟨hsdu, hbad⟩ := hpieces.reassemble_eq hmax
  set s' : UmRx := { s with
    rxSize := 0
    rxList := old ++ emptied cur'
    rxNextReassembly := (x + 1) % c.snModulus
    delivered := s.delivered ++ [data.map some]
    reassembled := s.reassembled ++ [(x, cur')] } with hs'
  have hact : actionsSduFull c { s with rxSize := data.length, rxList := old ++ cur' } x = s' := by
    rw [actionsSduFull, reassembleAndDeliver]
    simp only [snRun_append_of_eq h.old_ne hpieces.sn_eq,
      mapSnRun_append_of_eq _ h.old_ne hpieces.sn_eq, hpieces.sum_size, h.rxNextReassembly_eq,
      if_true, Reassembly.delivered, hbad, hsdu, take_length, sub_self]
    rw [← emptied, skipDelivered_eq hc hpieces (by simp [hcur']) h.old_ne hnext]
    rfl
  have heq : recvPdu c t s buffer = s' := by
    rw [h.recvPdu_eq hc t h.k_lt le_rfl hroom hdec, receptionActions, ← hcur', hfull, if_pos rfl,
      hact, stopTReassembly_of_off (s := s') h.tReassemblyStart_eq,
      startTReassembly_of_idle (s := s') hc t hrnh]
  rw [heq]
  refine ⟨⟨old ++ emptied cur', fun data' hne ↦ ?_⟩, rfl⟩
  refine ⟨by simp [hs'], .nil, length_pos_iff.2 hne, fun p hp ↦ ?_, hnext, hcells.congr rfl rfl,
    isSn_emod hc.pos _, rfl, by simpa using hrnh, h.tReassemblyStart_eq, rfl⟩
  rcases mem_append.1 hp with hp | hp
  · exact h.old_done p hp
  · exact (sn_of_mem_emptied hpieces p hp).2

end Receiving

end OaiRan.Rlc.Um
