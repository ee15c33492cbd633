import OaiRan.UeMac.UlRoundTrip
import Mathlib.Algebra.BigOperators.Group.List.Basic

/-!
# The buffer status report

After the SDUs `nr_ue_get_sdu_mac_ce_post` reports what is still buffered. While SDUs are taken,
`LCG_bytes` follows what remains in the logical channel groups (`Mux.Accounted`), modulo `2 ^ 32`; the
index of a size is the smallest one of its table that reaches it (`Mac.Bsr`).

The format is another matter. The number of groups with data is counted as
`num_lcg_id_with_data += LCG_bytes > 0`, which compares the array and not its entries, and so is 8. A
report is therefore chosen **as if all groups had data**: a short BSR is never sent, and a long one only
in 11 octets. `bsrRight_iff` says when the report is right all the same.
-/

namespace OaiRan.UeMac

open CInt OaiRan.Mac List List Mux Function Option

variable {ρ : Type} {R : Rlc ρ} {lc : LcInfo} {s t : Mux ρ} {mac : MacInst} {buflen : ℕ}

variable {count g n : ℕ} {rlc : ρ}

/-! ### What is still buffered -/

/-- The bytes of a channel that have been placed in the PDU; `sdu_length` has 16 bits. -/
def Mux.placed (s : Mux ρ) (lcid : ℕ) : ℕ :=
  (s.taken.map fun a ↦ if a.1 = lcid then a.2.length % 2 ^ 16 else 0).sum

/-- The bytes of a channel that are still buffered. -/
def Mux.left (s : Mux ρ) (mac : MacInst) (lcid : ℕ) : ℕ :=
  (mac.lcSchedInfo lcid).lcidBufferRemain - s.placed lcid

/-- The bytes still buffered in a logical channel group. -/
def Mux.lcgLeft (s : Mux ρ) (mac : MacInst) (lcgId : ℕ) : ℕ :=
  (mac.lcOrderedList.map fun lc ↦
    if (mac.lcSchedInfo lc.lcid).lcgId = lcgId then s.left mac lc.lcid else 0).sum

/-- The number of groups with data. -/
def Mux.lcgCount (s : Mux ρ) (mac : MacInst) : ℕ :=
  (range 8).countP fun g ↦ decide (0 < s.lcgLeft mac g)

/-- The channel of the highest priority among those with data. -/
def Mux.topChannel (s : Mux ρ) (mac : MacInst) : Option LcInfo :=
  mac.lcOrderedList.find? fun lc ↦ s.left mac lc.lcid ≠ 0

/-- The bytes left after the SDUs and the PHR. -/
def Mux.spare (s : Mux ρ) (mac : MacInst) (buflen : ℕ) : ℕ :=
  buflen - s.pdu.length - mac.phrLen buflen

/-- What MAC knows about the buffers follows the SDUs. -/
structure Mux.Accounted (mac : MacInst) (s : Mux ρ) : Prop where
  remain : ∀ l, (s.lcSchedInfo l).lcidBufferRemain + s.placed l =
    (mac.lcSchedInfo l).lcidBufferRemain
  lcg : ∀ l, (s.lcSchedInfo l).lcgId = (mac.lcSchedInfo l).lcgId
  bytes : ∀ g ≠ nrInvalidLcgId, s.lcgBytes g = s.lcgLeft mac g % 2 ^ 32

theorem Mux.Accounted.left_eq (h : s.Accounted mac) (l : ℕ) :
    s.left mac l = (s.lcSchedInfo l).lcidBufferRemain := by
  have := h.remain l
  rw [left]
  omega

/-- The loop of `nr_update_bsr`. -/
theorem foldl_lcgBytes (mac : MacInst) (hg : g ≠ nrInvalidLcgId) (lcs : List LcInfo)
    (bytes : ℕ → ℕ) (n : ℕ) (h : bytes g = n % 2 ^ 32) :
    lcs.foldl (fun bytes lc ↦
      let info := mac.lcSchedInfo lc.lcid
      if info.lcgId ≠ nrInvalidLcgId then
        update bytes info.lcgId ((bytes info.lcgId + info.lcidBufferRemain) % 2 ^ 32)
      else bytes) bytes g =
      (n + (lcs.map fun lc ↦ if (mac.lcSchedInfo lc.lcid).lcgId = g then
        (mac.lcSchedInfo lc.lcid).lcidBufferRemain else 0).sum) % 2 ^ 32 := by
  induction lcs generalizing bytes n with
  | nil => exact h
  | cons lc lcs ih =>
    rw [foldl_cons, map_cons, sum_cons, ← Nat.add_assoc]
    refine ih _ _ ?_
    by_cases heq : (mac.lcSchedInfo lc.lcid).lcgId = g
    · rw [if_pos heq, if_pos (heq ▸ hg), heq, update_self, h, Nat.mod_add_mod]
    · rw [if_neg heq, Nat.add_zero, ← h]
      split
      · exact update_of_ne (Ne.symm heq) ..
      · rfl

theorem Mux.Accounted.start (mac : MacInst) (buflen : ℕ) (rlc : ρ) :
    (mac.start buflen rlc).Accounted mac := by
  refine ⟨fun _ ↦ rfl, fun _ ↦ rfl, fun g hg ↦ ?_⟩
  have hbytes := foldl_lcgBytes mac hg mac.lcOrderedList (fun _ ↦ 0) 0 rfl
  rw [Nat.zero_add] at hbytes
  exact hbytes

/-! ### One SDU -/

theorem reqlcSizes_le_buffer (pbr same ep : ℕ) (remain : ℤ) (roundId buf tot : ℕ) :
    (reqlcSizes pbr same ep remain roundId buf tot).2 ≤ buf := by
  rw [reqlcSizes]
  split
  · refine Int.le_trans (Int.min_le_left ..) (Int.ofNat_le.2 ?_)
    generalize (if same > 1 then ep else toUint32 remain) = pduRemain
    split <;> exact Nat.min_le_right ..
  · split
    · exact Int.le_trans (Int.min_le_left ..) (Int.ofNat_le.2 (Nat.min_le_right ..))
    · exact Int.min_le_right ..

/-- No more is asked for than the channel has. -/
theorem Mux.request_le_buffer (h : s.request lc = some r) :
    r.1 ≤ (s.lcSchedInfo lc.lcid).lcidBufferRemain := by
  rw [request, getNumBytesToReqlc] at h
  split at h
  · rw [some.injEq] at h
    rw [← h]
    exact reqlcSizes_le_buffer ..
  · simp at h

theorem Mux.placed_take (s : Mux ρ) (lc : LcInfo) (sdu : List UInt8) (rlc : ρ) (l : ℕ) :
    (s.take lc sdu rlc).placed l =
      s.placed l + if lc.lcid = l then sdu.length % 2 ^ 16 else 0 := by
  rw [placed, take]
  split
  · rename_i hnil
    rw [hnil, length_nil, Nat.zero_mod, ite_self]
    rfl
  · rw [map_append, sum_append, map_singleton, sum_singleton]
    rfl

/-- A sum changes with one of its terms. -/
theorem sum_map_add_of_single {lcs : List LcInfo} (hnodup : lcs.Nodup)
    (hlc : lc ∈ lcs) (hn : f' lc + n = f lc) (hne : ∀ l ∈ lcs, l ≠ lc → f' l = f l) :
    (lcs.map f').sum + n = (lcs.map f).sum := by
  have hrest : (lcs.erase lc).map f' = (lcs.erase lc).map f :=
    map_congr_left fun l hl ↦
      hne l (mem_of_mem_erase hl) ((hnodup.mem_erase_iff.1 hl).1)
  rw [← sum_map_erase f hlc, ← sum_map_erase f' hlc, hrest, ← hn]
  omega

theorem MacInst.eq_of_lcid (mac : MacInst) (ha : a ∈ mac.lcOrderedList)
    (hb : b ∈ mac.lcOrderedList) (h : a.lcid = b.lcid) : a = b :=
  inj_on_of_nodup_map mac.nodup ha hb h

/-- What `n` bytes of a channel change in the groups. -/
theorem Mux.lcgLeft_add (hlc : lc ∈ mac.lcOrderedList)
    (hn : t.left mac lc.lcid + n = s.left mac lc.lcid)
    (hne : ∀ l ≠ lc.lcid, t.left mac l = s.left mac l) (g : ℕ) :
    t.lcgLeft mac g + (if (mac.lcSchedInfo lc.lcid).lcgId = g then n else 0) = s.lcgLeft mac g := by
  refine sum_map_add_of_single (List.Nodup.of_map _ mac.nodup) hlc ?_ fun l hl hl' ↦ ?_
  · split <;> omega
  · rw [hne l.lcid fun heq ↦ hl' (mac.eq_of_lcid hl hlc heq)]

/-- What `n` bytes of a channel change in MAC's books. -/
structure Mux.Booked (lc : LcInfo) (n : ℕ) (s t : Mux ρ) : Prop where
  placed : ∀ l, t.placed l = s.placed l + if lc.lcid = l then n else 0
  remain : ∀ l, (t.lcSchedInfo l).lcidBufferRemain =
    (s.lcSchedInfo l).lcidBufferRemain - if lc.lcid = l then n else 0
  lcg : ∀ l, (t.lcSchedInfo l).lcgId = (s.lcSchedInfo l).lcgId
  bytes : ∀ g, (s.lcSchedInfo lc.lcid).lcgId = g → 0 < n →
    t.lcgBytes g = toUint32 (s.lcgBytes g - n)
  bytes_of_ne : ∀ g, (s.lcSchedInfo lc.lcid).lcgId ≠ g ∨ n = 0 → t.lcgBytes g = s.lcgBytes g

theorem Mux.booked_take (s : Mux ρ) (lc : LcInfo) (rlc : ρ)
    (h : sdu.length % 2 ^ 16 = 0) : s.Booked lc 0 ((s.take lc sdu rlc).noData lc) := by
  have hinfo : ∀ l, (update s.lcSchedInfo lc.lcid { s.lcSchedInfo lc.lcid with
      bj := (s.lcSchedInfo lc.lcid).bj - (sdu.length % 2 ^ 16 : ℕ) } l).lcidBufferRemain =
        (s.lcSchedInfo l).lcidBufferRemain ∧
      (update s.lcSchedInfo lc.lcid { s.lcSchedInfo lc.lcid with
        bj := (s.lcSchedInfo lc.lcid).bj - (sdu.length % 2 ^ 16 : ℕ) } l).lcgId =
        (s.lcSchedInfo l).lcgId := by
    intro l
    rcases eq_or_ne l lc.lcid with rfl | hl
    · rw [update_self]
      exact ⟨rfl, rfl⟩
    · rw [update_of_ne hl]
      exact ⟨rfl, rfl⟩
  refine ⟨fun l ↦ ?_, fun l ↦ ?_, fun l ↦ (hinfo l).2, fun _ _ hpos ↦ absurd hpos (by simp),
    fun _ _ ↦ rfl⟩
  · have htake := s.placed_take lc sdu rlc l
    rw [h] at htake
    exact htake
  · rw [ite_self]
    exact (hinfo l).1

theorem Mux.booked_put (s : Mux ρ) (lc : LcInfo) (sdu : List UInt8) (rlc : ρ) (size num : ℕ)
    (hn : sdu.length % 2 ^ 16 = n) (hpos : 0 < n) :
    s.Booked lc n { (s.take lc sdu rlc).put lc size (sdu.take n) with
      numLcidsSamePriority := num } := by
  have hlen : (sdu.take n).length = n := by
    rw [length_take]
    omega
  refine ⟨fun l ↦ ?_, fun l ↦ ?_, fun l ↦ ?_, fun g hg _ ↦ ?_, fun g hg ↦ ?_⟩
  · rw [← hn]
    exact s.placed_take lc sdu rlc l
  · simp only [put, take, hlen, update_self, update_idem]
    rcases eq_or_ne l lc.lcid with rfl | hl
    · rw [update_self, if_pos rfl]
    · rw [update_of_ne hl, if_neg (Ne.symm hl)]
      rfl
  · simp only [put, take, update_self, update_idem]
    rcases eq_or_ne l lc.lcid with rfl | hl
    · rw [update_self]
    · rw [update_of_ne hl]
  · simp only [put, take, hlen, update_self, hg]
  · simp only [put, take, update_self]
    exact update_of_ne (Ne.symm (hg.resolve_right (by omega))) ..

/-- What a turn changes in MAC's books. -/
theorem fillTurn_booked (hs : s.InRoom) (h : fillTurn R lc s = some (go, t)) :
    ∃ n ≤ (s.lcSchedInfo lc.lcid).lcidBufferRemain, s.Booked lc n t := by
  rcases fillTurn_cases hs h with ⟨-, -, rfl⟩ | ⟨-, req, target, sdu, rlc, hreq, -, hle, hans⟩
  · refine ⟨0, Nat.zero_le _, ⟨fun l ↦ ?_, fun l ↦ ?_, fun _ ↦ rfl, ?_, fun _ _ ↦ rfl⟩⟩
    · rw [ite_self]
      rfl
    · rw [ite_self]
      rfl
    · exact fun _ _ hpos ↦ absurd hpos (Nat.lt_irrefl 0)
  have hbuf : req ≤ (s.lcSchedInfo lc.lcid).lcidBufferRemain := request_le_buffer hreq
  refine ⟨sdu.length % 2 ^ 16, by omega, ?_⟩
  rcases answered_cases hans with ⟨hzero, -, rfl⟩ | ⟨hpos, u, rfl, -, rfl⟩
  · rw [hzero]
    exact s.booked_take lc rlc hzero
  · exact s.booked_put lc sdu rlc _ _ rfl hpos

theorem Mux.Accounted.booked (h : s.Accounted mac) (hlc : lc ∈ mac.lcOrderedList)
    (hn : n ≤ (s.lcSchedInfo lc.lcid).lcidBufferRemain) (hb : s.Booked lc n t) :
    t.Accounted mac := by
  have hremain : ∀ l, (t.lcSchedInfo l).lcidBufferRemain + t.placed l =
      (mac.lcSchedInfo l).lcidBufferRemain := by
    intro l
    have hl := h.remain l
    rw [hb.remain, hb.placed]
    split
    · rename_i heq
      subst heq
      omega
    · exact hl
  have hleft : ∀ l, t.left mac l + (if lc.lcid = l then n else 0) = s.left mac l := by
    intro l
    have ht := hremain l
    rw [hb.placed] at ht
    rw [left, left, hb.placed]
    omega
  refine ⟨hremain, fun l ↦ (hb.lcg l).trans (h.lcg l), fun g hg ↦ ?_⟩
  have hsum := lcgLeft_add (s := s) (t := t) hlc (n := n) (by simpa using hleft lc.lcid)
    (fun l hl ↦ by simpa [Ne.symm hl] using hleft l) g
  have hbytes := h.bytes g hg
  rcases Decidable.em ((s.lcSchedInfo lc.lcid).lcgId ≠ g ∨ n = 0) with hsame | hless
  · rw [hb.bytes_of_ne g hsame, hbytes, ← hsum, ← h.lcg]
    rcases hsame with hne | rfl
    · rw [if_neg hne, Nat.add_zero]
    · rw [ite_self, Nat.add_zero]
  · obtain ⟨heq, hpos⟩ := not_or.1 hless
    rw [not_not] at heq
    rw [← h.lcg, if_pos heq] at hsum
    rw [hb.bytes g heq (Nat.pos_of_ne_zero hpos), hbytes, toUint32]
    omega

/-- **The books are kept** by the whole multiplexing. -/
theorem multiplex_accounted (hbuf : buflen < 2 ^ 32)
    (h : multiplex R mac buflen rlc = some s) : s.InRoom ∧ s.Accounted mac ∧
      s.endForTailer = buflen - mac.bsrLen buflen - mac.phrLen buflen := by
  refine multiplex_invariant (P := fun s ↦ s.InRoom ∧ s.Accounted mac ∧
    s.endForTailer = buflen - mac.bsrLen buflen - mac.phrLen buflen) (fun _ _ _ _ _ _ hs ↦ ?_)
    (fun {s t lc go} hlc hs hturn ↦ ?_) ⟨⟨Nat.zero_le _, ?_⟩, .start .., rfl⟩ h
  · exact ⟨⟨hs.1.le, hs.1.lt⟩, ⟨hs.2.1.remain, hs.2.1.lcg, hs.2.1.bytes⟩, hs.2.2⟩
  · obtain ⟨n, hn, hb⟩ := fillTurn_booked hs.1 hturn
    refine ⟨(hs.1.fillTurn hturn).1, hs.2.1.booked hlc hn hb, ?_⟩
    rcases fillTurn_cases hs.1 hturn with ⟨-, -, rfl⟩ | ⟨-, req, target, sdu, rlc, -, -, -, hans⟩
    · exact hs.2.2
    · exact (answered_room hans).1.trans hs.2.2
  · show buflen - mac.bsrLen buflen - mac.phrLen buflen < 2 ^ 32
    omega

/-! ### The report -/

/-- The report that is chosen. -/
def Mux.report (s : Mux ρ) (mac : MacInst) (buflen : ℕ) : Bsr :=
  s.chooseBsr mac (toUint32 ((buflen : ℤ) - s.pdu.length - mac.phrLen buflen))

/-- The groups for which a report that is written into so much space has a buffer size. -/
def Bsr.entries (space : ℕ) : Bsr → List (ℕ × ℕ)
  | .none => []
  | .short _ lcgId bufferSize => [(lcgId, bufferSize)]
  | .long _ lcgBsr =>
    (lcgEntries ((range 8).zip lcgBsr) (space - 3)).map fun e ↦ (e.1, e.2.toNat)

/-- The table in use. -/
def Bsr.table : Bsr → List ℕ
  | .short .. => nrShortBsrTable
  | _ => nrLongBsrTable

/-- A truncated BSR. -/
def Bsr.isTruncated : Bsr → Bool
  | .short trunc _ _ => trunc
  | .long trunc _ => trunc
  | .none => false

/-- **The report is right**: its format is the one for the number of groups with data and the space,
and its sizes are those of the groups that exist. -/
structure BsrRight (mac : MacInst) (buflen : ℕ) (s : Mux ρ) (u : UlMacPdu) : Prop where
  pdu : ∃ padding, u.pdu = s.pdu ++ (phrBytes (mac.phrSent buflen) ++
    bsrBytes (s.spare mac buflen) (s.report mac buflen) ++ padding)
  short : s.lcgCount mac ≤ 1 → 2 ≤ s.spare mac buflen →
    ∃ lcgId size, s.report mac buflen = .short false lcgId size ∧
      ∀ lc, s.topChannel mac = some lc → (mac.lcSchedInfo lc.lcid).lcgId = lcgId
  long : ¬ (s.lcgCount mac ≤ 1 ∧ 2 ≤ s.spare mac buflen) →
    s.lcgCount mac + 3 ≤ s.spare mac buflen →
      (∃ lcgBsr, s.report mac buflen = .long false lcgBsr) ∧
        ((s.report mac buflen).entries (s.spare mac buflen)).map (·.1) =
          (range 8).filter fun g ↦ decide (0 < s.lcgLeft mac g)
  truncated : ¬ (s.lcgCount mac ≤ 1 ∧ 2 ≤ s.spare mac buflen) →
    s.spare mac buflen < s.lcgCount mac + 3 → 2 ≤ s.spare mac buflen →
      (s.report mac buflen).isTruncated = true
  none : s.spare mac buflen < 2 → s.report mac buflen = .none
  sizes : ∀ e ∈ (s.report mac buflen).entries (s.spare mac buflen), e.1 < 8 ∧
    IsSmallestIndex (s.report mac buflen).table (s.lcgLeft mac e.1) e.2

/-- The groups that a long BSR has an entry for, if there is room. -/
def Mux.reported (s : Mux ρ) (mac : MacInst) : List ℕ :=
  (range 8).filter fun g ↦ decide (s.lcgLeft mac g % 2 ^ 32 ≠ 0)

/-- There is no space for a report; or at least two groups have data, and either there is space for
all eight, or not for those with data, and the sizes are within the tables. -/
def Mux.ReportFits (s : Mux ρ) (mac : MacInst) (buflen : ℕ) : Prop :=
  s.spare mac buflen < 2 ∨ 2 ≤ s.lcgCount mac ∧
    (11 ≤ s.spare mac buflen ∧ (∀ g < 8, s.lcgLeft mac g < 2 ^ 32) ∨
      s.spare mac buflen = 2 ∧ (∀ lc, s.topChannel mac = some lc →
        (mac.lcSchedInfo lc.lcid).lcgId < 8 ∧
          s.lcgLeft mac (mac.lcSchedInfo lc.lcid).lcgId ≤ 300000) ∨
      3 ≤ s.spare mac buflen ∧ s.spare mac buflen < s.lcgCount mac + 3 ∧
        ∀ g ∈ (s.reported mac).take (s.spare mac buflen - 3), s.lcgLeft mac g < 2 ^ 32)

theorem largestSize_nrShortBsrTable : largestSize nrShortBsrTable = 300000 := by decide

theorem largestSize_nrLongBsrTable : largestSize nrLongBsrTable = 2 ^ 32 - 1 := by decide +kernel

theorem lcgEntries_eq (es : List (ℕ × UInt8)) (space : ℕ) :
    lcgEntries es space = (es.filter fun e ↦ decide (e.2 ≠ 0)).take space := by
  induction es generalizing space with
  | nil => rw [lcgEntries, filter_nil, take_nil]
  | cons e es ih =>
    rw [lcgEntries, filter_cons]
    rcases space with - | space
    · rw [if_neg (fun h ↦ Nat.lt_irrefl 0 h.2), ih, take_zero, take_zero]
    · by_cases he : e.2 ≠ 0
      · rw [if_pos ⟨he, Nat.succ_pos _⟩, if_pos (decide_eq_true he), take_succ_cons, ih]
        rfl
      · rw [if_neg (fun h ↦ he h.1), if_neg (fun h ↦ he (of_decide_eq_true h)), ih]

/-- The long table has an index for every value of a counter. -/
theorem isSmallestIndex_count (h : count < 2 ^ 32) :
    IsSmallestIndex nrLongBsrTable count (nrLocateBsrIndexByBufferSize nrLongBsrTable count) := by
  refine ascending_nrLongBsrTable.isSmallestIndex_nrLocate ?_
  rw [largestSize_nrLongBsrTable]
  omega

theorem toNat_index (h : count < 2 ^ 32) :
    (UInt8.ofNat (nrLocateBsrIndexByBufferSize nrLongBsrTable count)).toNat =
      nrLocateBsrIndexByBufferSize nrLongBsrTable count :=
  UInt8.toNat_ofNat_of_lt' (Nat.lt_of_lt_of_le (isSmallestIndex_count h).1
    ascending_nrLongBsrTable.length_le)

/-- The entries that are written: the index of each count that is not 0. -/
theorem lcgEntries_index {counts : ℕ → ℕ} (h : ∀ g < 8, counts g < 2 ^ 32) (space : ℕ) :
    lcgEntries ((List.range 8).zip ((List.range 8).map fun g ↦
      .ofNat (nrLocateBsrIndexByBufferSize nrLongBsrTable (counts g)))) space =
      (((List.range 8).filter fun g ↦ decide (counts g ≠ 0)).take space).map fun g ↦
        (g, .ofNat (nrLocateBsrIndexByBufferSize nrLongBsrTable (counts g))) := by
  have hzip : (List.range 8).zip ((List.range 8).map fun g ↦
      UInt8.ofNat (nrLocateBsrIndexByBufferSize nrLongBsrTable (counts g))) =
      (List.range 8).map fun g ↦
        (g, UInt8.ofNat (nrLocateBsrIndexByBufferSize nrLongBsrTable (counts g))) := rfl
  have hfilter : ((List.range 8).filter fun g ↦ decide (UInt8.ofNat
      (nrLocateBsrIndexByBufferSize nrLongBsrTable (counts g)) ≠ 0)) =
      (List.range 8).filter fun g ↦ decide (counts g ≠ 0) := by
    refine List.filter_congr fun g hg ↦ decide_eq_decide.2 ?_
    have hlt := h g (List.mem_range.1 hg)
    rw [← Nat.pos_iff_ne_zero, ← (isSmallestIndex_count hlt).pos_iff ascending_nrLongBsrTable,
      ne_eq, ← UInt8.toNat_inj, toNat_index hlt]
    exact Nat.pos_iff_ne_zero.symm
  rw [lcgEntries_eq, hzip, List.filter_map, ← hfilter, ← List.map_take]
  rfl

theorem Mux.Accounted.lcgBytes_eq (h : s.Accounted mac) (hg : g < 8) :
    s.lcgBytes g = s.lcgLeft mac g % 2 ^ 32 :=
  h.bytes g (by rw [nrInvalidLcgId]; omega)

/-- The entries of a long BSR: the index of each counter that is not 0. -/
theorem entries_long (h : s.Accounted mac) (trunc : Bool) (space : ℕ) :
    (Bsr.long trunc s.lcgBsr).entries space = ((s.reported mac).take (space - 3)).map fun g ↦
      (g, nrLocateBsrIndexByBufferSize nrLongBsrTable (s.lcgLeft mac g % 2 ^ 32)) := by
  have hlt : ∀ g < 8, s.lcgLeft mac g % 2 ^ 32 < 2 ^ 32 := fun g _ ↦ Nat.mod_lt _ (by decide)
  have hbsr : s.lcgBsr = (List.range 8).map fun g ↦
      .ofNat (nrLocateBsrIndexByBufferSize nrLongBsrTable (s.lcgLeft mac g % 2 ^ 32)) :=
    List.map_congr_left fun g hg ↦ by rw [h.lcgBytes_eq (List.mem_range.1 hg)]
  show ((lcgEntries ((List.range 8).zip s.lcgBsr) (space - 3)).map fun e ↦ (e.1, e.2.toNat)) = _
  rw [hbsr, lcgEntries_index hlt, List.map_map]
  refine List.map_congr_left fun g hg ↦ ?_
  have hg' := List.mem_range.1 (List.mem_of_mem_filter (List.mem_of_mem_take hg))
  exact Prod.ext rfl (toNat_index (hlt g hg'))

/-- The sizes of a long BSR are right as long as the counters have not wrapped. -/
theorem sizes_long_iff (h : s.Accounted mac) (trunc : Bool) (space : ℕ) :
    (∀ e ∈ (Bsr.long trunc s.lcgBsr).entries space, e.1 < 8 ∧
      IsSmallestIndex nrLongBsrTable (s.lcgLeft mac e.1) e.2) ↔
      ∀ g ∈ (s.reported mac).take (space - 3), s.lcgLeft mac g < 2 ^ 32 := by
  rw [entries_long h, List.forall_mem_map]
  refine forall₂_congr fun g hg ↦ ?_
  have hg' : g < 8 := List.mem_range.1 (List.mem_of_mem_filter (List.mem_of_mem_take hg))
  constructor
  · rintro ⟨-, hidx⟩
    have hle : s.lcgLeft mac g ≤ largestSize nrLongBsrTable :=
      Nat.le_trans hidx.2.1 (ascending_nrLongBsrTable.le_largestSize hidx.1)
    rw [largestSize_nrLongBsrTable] at hle
    omega
  · intro hlt
    rw [Nat.mod_eq_of_lt hlt]
    exact ⟨hg', isSmallestIndex_count hlt⟩

/-- The choice, with 8 for the number of groups. -/
theorem Mux.chooseBsr_eq (s : Mux ρ) (mac : MacInst) (p : ℕ) : s.chooseBsr mac p =
    if 11 ≤ p then .long false s.lcgBsr
    else if p = 2 then .short true (s.lcgIdBsrMax mac)
      (nrLocateBsrIndexByBufferSize nrShortBsrTable (s.lcgBytes (s.lcgIdBsrMax mac)))
    else if 3 ≤ p then .long true s.lcgBsr
    else .none := by
  rw [chooseBsr]
  exact if_neg fun h ↦ absurd h.1 (by decide)

theorem MacInst.phrLen_le (mac : MacInst) (buflen : ℕ) : mac.phrLen buflen ≤ buflen := by
  rw [MacInst.phrLen, MacInst.phrSent]
  rcases Nat.lt_or_ge buflen (mac.bsrLen buflen + 3) with hlt | hge
  · rw [if_neg (Nat.not_le.2 hlt)]
    exact Nat.zero_le _
  · rw [if_pos hge]
    split <;> omega

/-- The padding is computed as it should be. -/
theorem toUint32_spare (hbuf : buflen < 2 ^ 32) (h : multiplex R mac buflen rlc = some s) :
    toUint32 ((buflen : ℤ) - s.pdu.length - mac.phrLen buflen) = s.spare mac buflen := by
  obtain ⟨hin, -, hend⟩ := multiplex_accounted hbuf h
  have hle := hin.le
  have hphr := mac.phrLen_le buflen
  rw [spare, toUint32_of_nonneg (by omega) (by omega)]
  omega

/-- `lcg_id_bsr_max` is the group of the first channel with data. -/
theorem Mux.Accounted.lcgIdBsrMax_eq (h : s.Accounted mac) (hlc : s.topChannel mac = some lc) :
    s.lcgIdBsrMax mac = (mac.lcSchedInfo lc.lcid).lcgId := by
  have hfind : (mac.lcOrderedList.find? fun lc ↦
      decide ((s.lcSchedInfo lc.lcid).lcidBufferRemain ≠ 0)) = some lc := by
    rw [← hlc, topChannel]
    refine congrArg (find? · _) (funext fun lc ↦ ?_)
    rw [h.left_eq]
  rw [lcgIdBsrMax, hfind, ← h.lcg]

/-- A group with data has a channel with data. -/
theorem Mux.exists_topChannel (h : 0 < s.lcgCount mac) : ∃ lc, s.topChannel mac = some lc := by
  obtain ⟨g, -, hg⟩ := countP_pos_iff.1 h
  have hsum : s.lcgLeft mac g ≠ 0 := Nat.ne_of_gt (of_decide_eq_true hg)
  obtain ⟨lc, hlc⟩ := isSome_iff_exists.1 (find?_isSome.2 (by
    by_contra hnone
    refine hsum (sum_eq_zero fun n hn ↦ ?_)
    obtain ⟨lc, hlc, rfl⟩ := mem_map.1 hn
    have hzero : s.left mac lc.lcid = 0 := by
      by_contra hne
      exact hnone ⟨lc, hlc, decide_eq_true hne⟩
    rw [hzero, ite_self]))
  exact ⟨lc, hlc⟩

/-- The size of a short BSR is right for a group that exists and a size that the table reaches. -/
theorem sizes_short_iff (h : s.Accounted mac) (hlc : s.topChannel mac = some lc) :
    (s.lcgIdBsrMax mac < 8 ∧ IsSmallestIndex nrShortBsrTable (s.lcgLeft mac (s.lcgIdBsrMax mac))
      (nrLocateBsrIndexByBufferSize nrShortBsrTable (s.lcgBytes (s.lcgIdBsrMax mac)))) ↔
      (mac.lcSchedInfo lc.lcid).lcgId < 8 ∧
        s.lcgLeft mac (mac.lcSchedInfo lc.lcid).lcgId ≤ 300000 := by
  rw [h.lcgIdBsrMax_eq hlc]
  generalize (mac.lcSchedInfo lc.lcid).lcgId = g
  refine and_congr_right fun hg ↦ ?_
  rw [h.lcgBytes_eq hg, ← largestSize_nrShortBsrTable]
  constructor
  · exact fun hidx ↦
      Nat.le_trans hidx.2.1 (ascending_nrShortBsrTable.le_largestSize hidx.1)
  · intro hle
    have hlt : s.lcgLeft mac g < 2 ^ 32 := by
      rw [largestSize_nrShortBsrTable] at hle
      omega
    rw [Nat.mod_eq_of_lt hlt]
    exact ascending_nrShortBsrTable.isSmallestIndex_nrLocate hle

theorem Mux.finish_pdu (h : s.finish mac buflen = some u)
    (hp : toUint32 ((buflen : ℤ) - s.pdu.length - mac.phrLen buflen) = s.spare mac buflen) :
    ∃ padding, u.pdu = s.pdu ++ (phrBytes (mac.phrSent buflen) ++
      bsrBytes (s.spare mac buflen) (s.report mac buflen) ++ padding) := by
  rw [finish] at h
  split at h
  · simp at h
  · cases h
    show ∃ padding, s.pdu ++ s.tail mac buflen = _
    rw [tail, report, hp, length_phrBytes]
    exact ⟨_, rfl⟩

/-! ### When it is right -/

/-- A short BSR is never chosen. -/
theorem Mux.report_ne_short (s : Mux ρ) (mac : MacInst) (buflen lcgId size : ℕ) :
    s.report mac buflen ≠ .short false lcgId size := by
  rw [report, chooseBsr_eq]
  split
  · simp
  split
  · simp
  split <;> simp

theorem BsrRight.two_le_lcgCount (h : BsrRight mac buflen s u)
    (hp : 2 ≤ s.spare mac buflen) : 2 ≤ s.lcgCount mac := by
  by_contra hone
  obtain ⟨lcgId, size, hshort, -⟩ := h.short (by omega) hp
  exact s.report_ne_short mac buflen lcgId size hshort

section Cases

variable {u : UlMacPdu} (hacc : s.Accounted mac)
  (hpdu : ∃ padding, u.pdu = s.pdu ++ (phrBytes (mac.phrSent buflen) ++
    bsrBytes (s.spare mac buflen) (s.report mac buflen) ++ padding))

include hpdu

theorem bsrRight_of_none (hp : s.spare mac buflen < 2) (hreport : s.report mac buflen = .none) :
    BsrRight mac buflen s u := by
  refine ⟨hpdu, fun _ h ↦ by omega, fun _ h ↦ by omega, fun _ _ h ↦ by omega, fun _ ↦ hreport, ?_⟩
  rw [hreport]
  exact nofun

include hacc

theorem bsrRight_short_iff (hp : s.spare mac buflen = 2)
    (hreport : s.report mac buflen = .short true (s.lcgIdBsrMax mac)
      (nrLocateBsrIndexByBufferSize nrShortBsrTable (s.lcgBytes (s.lcgIdBsrMax mac)))) :
    BsrRight mac buflen s u ↔ 2 ≤ s.lcgCount mac ∧ ∀ lc, s.topChannel mac = some lc →
      (mac.lcSchedInfo lc.lcid).lcgId < 8 ∧
        s.lcgLeft mac (mac.lcSchedInfo lc.lcid).lcgId ≤ 300000 := by
  constructor
  · intro h
    refine ⟨h.two_le_lcgCount (by omega), fun lc hlc ↦ ?_⟩
    have hsize := h.sizes
    rw [hreport] at hsize
    exact (sizes_short_iff hacc hlc).1 (hsize _ (mem_singleton.2 rfl))
  · rintro ⟨htwo, h⟩
    obtain ⟨lc, hlc⟩ := @exists_topChannel ρ s mac (by omega)
    refine ⟨hpdu, fun h ↦ by omega, fun _ h ↦ by omega, fun _ _ _ ↦ ?_, fun h ↦ by omega, ?_⟩
    · rw [hreport]
      rfl
    · rw [hreport]
      intro e he
      rw [mem_singleton.1 he]
      exact (sizes_short_iff hacc hlc).2 (h lc hlc)

theorem bsrRight_longTrunc_iff (hp : 3 ≤ s.spare mac buflen)
    (hreport : s.report mac buflen = .long true s.lcgBsr) :
    BsrRight mac buflen s u ↔ 2 ≤ s.lcgCount mac ∧ s.spare mac buflen < s.lcgCount mac + 3 ∧
      ∀ g ∈ (s.reported mac).take (s.spare mac buflen - 3), s.lcgLeft mac g < 2 ^ 32 := by
  have hsizes := sizes_long_iff hacc true (s.spare mac buflen)
  constructor
  · intro h
    have htwo := h.two_le_lcgCount (by omega)
    have hright := h.sizes
    rw [hreport] at hright
    refine ⟨htwo, ?_, hsizes.1 hright⟩
    by_contra hlarge
    obtain ⟨⟨lcgBsr, hlong⟩, -⟩ := h.long (by omega) (by omega)
    rw [hreport] at hlong
    simp at hlong
  · rintro ⟨htwo, hsmall, h⟩
    refine ⟨hpdu, fun h ↦ by omega, fun _ h ↦ by omega, fun _ _ _ ↦ ?_, fun h ↦ by omega, ?_⟩
    · rw [hreport]
      rfl
    · rw [hreport]
      exact hsizes.2 h

theorem bsrRight_long_iff (hp : 11 ≤ s.spare mac buflen)
    (hreport : s.report mac buflen = .long false s.lcgBsr) :
    BsrRight mac buflen s u ↔ 2 ≤ s.lcgCount mac ∧ ∀ g < 8, s.lcgLeft mac g < 2 ^ 32 := by
  have hcount : s.lcgCount mac ≤ 8 := countP_le_length
  have hsizes := sizes_long_iff hacc false (s.spare mac buflen)
  have hall : (s.reported mac).take (s.spare mac buflen - 3) = s.reported mac := by
    refine take_of_length_le ?_
    have hle : (s.reported mac).length ≤ (range 8).length := length_filter_le ..
    rw [length_range] at hle
    omega
  rw [hall] at hsizes
  have hfst : ((Bsr.long false s.lcgBsr).entries (s.spare mac buflen)).map (·.1) =
      s.reported mac := by
    rw [entries_long hacc, hall, List.map_map]
    exact map_id _
  constructor
  · intro h
    have htwo := h.two_le_lcgCount (by omega)
    obtain ⟨-, hexact⟩ := h.long (by omega) (by omega)
    have hright := h.sizes
    rw [hreport] at hexact hright
    refine ⟨htwo, fun g hg ↦ ?_⟩
    rcases Nat.eq_zero_or_pos (s.lcgLeft mac g) with hzero | hpos
    · omega
    · -- A group with data has an entry, and no index is large enough for a wrapped counter.
      refine hsizes.1 hright g ?_
      rw [← hfst, hexact]
      exact mem_filter.2 ⟨mem_range.2 hg, decide_eq_true hpos⟩
  · rintro ⟨htwo, h⟩
    refine ⟨hpdu, fun h ↦ by omega, fun _ _ ↦ ⟨⟨_, hreport⟩, ?_⟩, fun _ h ↦ by omega,
      fun h ↦ by omega, ?_⟩
    · rw [hreport, hfst]
      refine filter_congr fun g hg ↦ decide_eq_decide.2 ?_
      rw [Nat.mod_eq_of_lt (h g (mem_range.1 hg))]
      exact Nat.pos_iff_ne_zero.symm
    · rw [hreport]
      exact hsizes.2 fun g hg ↦ h g (mem_range.1 (mem_of_mem_filter hg))

end Cases

/-- **When the report is right.** -/
theorem bsrRight_iff {u : UlMacPdu} {rlc : ρ} (hbuf : buflen < 2 ^ 32)
    (hs : multiplex R mac buflen rlc = some s) (hu : s.finish mac buflen = some u) :
    BsrRight mac buflen s u ↔ s.ReportFits mac buflen := by
  have hp := toUint32_spare hbuf hs
  have hpdu := finish_pdu hu hp
  obtain ⟨-, hacc, -⟩ := multiplex_accounted hbuf hs
  have hcount : s.lcgCount mac ≤ 8 := countP_le_length
  have hreport : s.report mac buflen = _ :=
    (congrArg (s.chooseBsr mac) hp).trans (s.chooseBsr_eq mac _)
  rw [Mux.ReportFits]
  -- The count of 8 leaves four formats, by the space.
  obtain hlt | heq | ⟨hge, hlt⟩ | hge : s.spare mac buflen < 2 ∨ s.spare mac buflen = 2 ∨
      (3 ≤ s.spare mac buflen ∧ s.spare mac buflen < 11) ∨ 11 ≤ s.spare mac buflen := by omega
  · rw [if_neg (by omega), if_neg (by omega), if_neg (by omega)] at hreport
    exact iff_of_true (bsrRight_of_none hpdu hlt hreport) (.inl hlt)
  · rw [if_neg (by omega), if_pos heq] at hreport
    rw [bsrRight_short_iff hacc hpdu heq hreport]
    simp [heq]
  · rw [if_neg (by omega), if_neg (by omega), if_pos hge] at hreport
    rw [bsrRight_longTrunc_iff hacc hpdu hge hreport]
    have htwo : ¬ s.spare mac buflen < 2 ∧ s.spare mac buflen ≠ 2 ∧ ¬ 11 ≤ s.spare mac buflen := by
      omega
    simp [htwo, hge]
  · rw [if_pos hge] at hreport
    rw [bsrRight_long_iff hacc hpdu hge hreport]
    have htwo : ¬ s.spare mac buflen < 2 ∧ s.spare mac buflen ≠ 2 ∧
        ¬ s.spare mac buflen < s.lcgCount mac + 3 := by omega
    simp [htwo, hge]

/-- Channel 4 with 100 bytes in group 1, and channel 5 with 100 bytes in another group or none. -/
def hundredBytes (lcgId : ℕ) : MacInst where
  lcOrderedList := [⟨4, 1, 2 ^ 32 - 1⟩, ⟨5, 2, 2 ^ 32 - 1⟩]
  nodup := by decide
  lcid_mem := by decide
  lcSchedInfo l := if l = 4 then ⟨100, 1, 1⟩ else if l = 5 ∧ lcgId < 8 then ⟨100, lcgId, 1⟩
    else ⟨0, nrInvalidLcgId, 0⟩

theorem hundredBytes_two_isSome : (multiplex fullRlc (hundredBytes 2) 4 ()).isSome := by
  decide

theorem hundredBytes_two_finish_isSome :
    (((multiplex fullRlc (hundredBytes 2) 4 ()).get hundredBytes_two_isSome).finish
      (hundredBytes 2) 4).isSome := by
  decide

/-- Two groups have data and only four bytes are left: the truncated report is right. -/
theorem two_groups_bsrRight : ∃ s u, multiplex fullRlc (hundredBytes 2) 4 () = some s ∧
    s.finish (hundredBytes 2) 4 = some u ∧ BsrRight (hundredBytes 2) 4 s u :=
  ⟨_, _, (some_get hundredBytes_two_isSome).symm,
    (some_get hundredBytes_two_finish_isSome).symm,
    (bsrRight_iff (by decide) (some_get hundredBytes_two_isSome).symm
      (some_get hundredBytes_two_finish_isSome).symm).2
      (.inr ⟨by decide, .inr (.inr ⟨by decide, by decide,
        by decide⟩)⟩)⟩

/-- **One group has data**, and two bytes are left for a short BSR: a truncated one is sent. -/
theorem one_group_truncated : ∃ s u, multiplex fullRlc (hundredBytes 8) 20 () = some s ∧
    s.finish (hundredBytes 8) 20 = some u ∧ ¬ BsrRight (hundredBytes 8) 20 s u := by
  refine ⟨_, _, (some_get (by decide)).symm,
    (some_get (by decide)).symm, fun h ↦ ?_⟩
  have htwo := h.two_le_lcgCount (by decide)
  exact absurd htwo (by decide)

end OaiRan.UeMac
