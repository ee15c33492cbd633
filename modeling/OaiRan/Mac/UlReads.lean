import OaiRan.Mac.UlPdu
import Mathlib.Data.List.Range

/-!
# Which bytes the gNB inspects of an uplink MAC PDU

`lcid_crnti_lookahead` and `nr_process_mac_pdu` go over a buffer of `pdu_len` bytes with the same
loop. Here the buffer is memory that goes on behind the PDU, and each byte that is inspected is
logged, with the payload of its sub-PDU where it is read as part of a MAC CE.

## The two results, and what each rests on

A subheader is read before its length is compared with what is left, and the buffer sizes of a long
BSR are read for as many LCGs as its bitmap has, whatever the length of the sub-PDU. So the bytes
are **in bounds if and only if** each subheader that is reached fits and each long BSR that is
reached has its buffer sizes (`Framed`); `nr_process_mac_pdu` also reads the first byte of an empty
PDU. `walkSubPdus_inBounds_iff` proves this for any loop over sub-PDUs from what it reads of one
(`subPduReads_inBounds_iff`, `lookahead_inBounds`).

`UlPdu` reads the same PDU as a list, where a byte behind the end does not exist. **Where the
sub-PDUs are in order, both readings come to the same end** (`nrProcessMacPduAt_eq`): the subheader is
the same (`decodeUlMacSubPduHeader_pduBytes`), and so is what the `switch` does (`subPduAt_eq`).
Otherwise there is nothing to compare, as the buffer's end depends on what is behind the PDU.
-/

namespace OaiRan.Mac

open List Option

/-- A byte that is inspected, and the payload of the MAC CE that it is read from. -/
structure MacRead where
  index : ℕ
  ce : Option (ℕ × ℕ) := none
  deriving DecidableEq

/-- The byte is in the PDU and, if it is read as part of a MAC CE, in its payload. -/
def MacRead.InBounds (r : MacRead) (pduLen : ℕ) : Prop :=
  r.index < pduLen ∧ ∀ p, r.ce = some p → p.1 ≤ r.index ∧ r.index < p.2

/-- Subheader and payload. -/
def UlSubheader.total (h : UlSubheader) : ℕ := h.macSubheaderLen + h.macLen

section Buffer

variable (mem : ℕ → UInt8)

/-- `decode_ul_mac_sub_pdu_header` at `o`. Each octet of the subheader is inspected. -/
def decodeAt (o : ℕ) : UlSubheader :=
  let lcid := (mem o).toNat % 64
  match ulSchLcid lcid with
  | .ccch64Bits => ⟨lcid, 1, 8⟩
  | .srb | .dtch | .lTruncatedBsr | .lBsr =>
    if (mem o).toNat.testBit 6 then ⟨lcid, 3, (mem (o + 1)).toNat * 256 + (mem (o + 2)).toNat⟩
    else ⟨lcid, 2, (mem (o + 1)).toNat⟩
  | .ccch48Bits => ⟨lcid, 1, 6⟩
  | .singleEntryPhr | .cRnti => ⟨lcid, 1, 2⟩
  | .sTruncatedBsr | .sBsr => ⟨lcid, 1, 1⟩
  | _ => ⟨lcid, 1, 0⟩

/-- Octet `i` of a MAC CE. -/
def ceRead (o : ℕ) (h : UlSubheader) (i : ℕ) : MacRead :=
  ⟨o + h.macSubheaderLen + i, some (o + h.macSubheaderLen, o + h.total)⟩

/-- `while (pdu_len > 0)`, with what the loop does with a sub-PDU as a parameter: it goes on or
ends. A sub-PDU that is too long is printed, up to 30 bytes of it. -/
def walkSubPdus {σ β : Type} (visit : σ → ℕ → UlSubheader → List MacRead × Except β σ)
    (invalidPdu : σ → β) : ℕ → ℕ → ℕ → σ → Option (List MacRead × Except β σ)
  | 0, _, _, _ => none
  | fuel + 1, o, pduLen, s =>
    if pduLen = 0 then some ([], .ok s)
    else
      let h := decodeAt mem o
      let header := (range' o h.macSubheaderLen).map fun i ↦ (⟨i, none⟩ : MacRead)
      if h.total > pduLen then
        some (header ++ (range' o (min pduLen 30)).map fun i ↦ ⟨i, none⟩,
          .error (invalidPdu s))
      else
        match (visit s o h).2 with
        | .error b => some (header ++ (visit s o h).1, .error b)
        | .ok s' =>
          (walkSubPdus visit invalidPdu fuel (o + h.total) (pduLen - h.total) s').map fun r ↦
            (header ++ (visit s o h).1 ++ r.1, r.2)

/-- The C-RNTI of a sub-PDU. -/
def crntiAt (o : ℕ) : ℕ := ((mem (o + 1)).toNat <<< 8) ||| (mem (o + 2)).toNat

/-- The loop of `lcid_crnti_lookahead`. -/
def lookaheadVisit (_ : Unit) (o : ℕ) (h : UlSubheader) : List MacRead × Except ℕ Unit :=
  match ulSchLcid h.lcid with
  | .cRnti => ([ceRead o h 0, ceRead o h 1], .error (crntiAt mem o))
  | .padding => ([], .error 0)
  | _ => ([], .ok ())

/-- `lcid_crnti_lookahead`: what it inspects and the RNTI, 0 without one. -/
def lcidCrntiLookahead (pduLen : ℕ) : Option (List MacRead × ℕ) :=
  (walkSubPdus mem (lookaheadVisit mem) (fun _ ↦ 0) (pduLen + 1) 0 pduLen ()).map fun r ↦
    (r.1, match r.2 with
      | .error rnti => rnti
      | .ok () => 0)

/-- The loop that looks for an octet of a CCCH message that is not 0. -/
def zeroScan : ℕ → ℕ → List ℕ
  | 0, _ => []
  | n + 1, i => if mem i = 0 then i :: zeroScan n (i + 1) else [i]

/-- The loop of `estimate_ul_buffer_long_bsr`: an octet for each LCG of the bitmap. -/
def lcgReads (bitmap : UInt8) (read : ℕ → MacRead) : ℕ → ℕ → ℕ → List MacRead
  | 0, _, _ => []
  | left + 1, n, m =>
    if bitmap.toNat.testBit n then read m :: lcgReads bitmap read left (n + 1) (m + 1)
    else lcgReads bitmap read left (n + 1) m

/-- What the `switch` over the LCID inspects. -/
def subPduReads (ue : GnbUe) (o : ℕ) (h : UlSubheader) : List MacRead :=
  match ulSchLcid h.lcid with
  | .ccch64Bits => (zeroScan mem h.total o).map fun i ↦ ⟨i, none⟩
  | .singleEntryPhr => if ue.harqPid < 0 then [] else [ceRead o h 0, ceRead o h 1]
  | .cRnti => if ue.raIdle then [ceRead o h 0, ceRead o h 1] else []
  | .sTruncatedBsr | .sBsr => [ceRead o h 0]
  | .lTruncatedBsr | .lBsr =>
    ceRead o h 0 :: lcgReads (mem (o + h.macSubheaderLen)) (ceRead o h) 8 0 1
  | _ => []

/-- Bytes of the buffer. -/
def pduBytes (o n : ℕ) : List UInt8 := (range n).map fun i ↦ mem (o + i)

/-- What the `switch` does; the estimator reads a long BSR out of the buffer. -/
def subPduAt (ue : GnbUe) (o : ℕ) (h : UlSubheader) : Except UlPduEnd GnbUe :=
  match ulSchLcid h.lcid with
  | .lTruncatedBsr | .lBsr =>
    .ok { ue with
      estimatedUlBuffer := estimateUlBufferLongBsr (pduBytes mem (o + h.macSubheaderLen) 9) }
  | _ => ue.subPdu h (pduBytes mem o h.total)

/-- The loop of `nr_process_mac_pdu`. -/
def processVisit (ue : GnbUe) (o : ℕ) (h : UlSubheader) :
    List MacRead × Except (UlPduEnd × GnbUe) GnbUe :=
  (subPduReads mem ue o h, (subPduAt mem ue o h).mapError (·, ue))

/-- `nr_process_mac_pdu`: what it inspects, and how it ends. -/
def nrProcessMacPduAt (pduLen : ℕ) (ue : GnbUe) : Option (List MacRead × (UlPduEnd × GnbUe)) :=
  (walkSubPdus mem (processVisit mem) (.invalidPdu, ·) (pduLen + 1) 0 pduLen ue).map fun r ↦
    (⟨0, none⟩ :: r.1, match r.2 with
      | .error e => e
      | .ok ue => (.finished, ue))

/-- **The sub-PDUs that a loop reaches are in order**: the subheader fits, and so does what the loop
reads of a MAC CE (`ceFits`). -/
def Framed {σ β : Type} (visit : σ → ℕ → UlSubheader → List MacRead × Except β σ)
    (ceFits : ℕ → UlSubheader → Prop) : ℕ → ℕ → ℕ → σ → Prop
  | 0, _, _, _ => True
  | fuel + 1, o, pduLen, s =>
    pduLen = 0 ∨ (decodeAt mem o).macSubheaderLen ≤ pduLen ∧
      (pduLen < (decodeAt mem o).total ∨ ceFits o (decodeAt mem o) ∧
        ∀ s', (visit s o (decodeAt mem o)).2 = .ok s' →
          Framed visit ceFits fuel (o + (decodeAt mem o).total)
            (pduLen - (decodeAt mem o).total) s')

/-- A long BSR has an octet for each LCG of its bitmap. -/
def LongBsrFits (o : ℕ) (h : UlSubheader) : Prop :=
  ulSchLcid h.lcid = .lTruncatedBsr ∨ ulSchLcid h.lcid = .lBsr →
    (range 8).countP ((mem (o + h.macSubheaderLen)).toNat.testBit ·) + 1 ≤ h.macLen

end Buffer

variable {mem : ℕ → UInt8} {σ β : Type} {o n pduLen fuel : ℕ} {h : UlSubheader} {ue : GnbUe}
  {visit : σ → ℕ → UlSubheader → List MacRead × Except β σ} {invalidPdu : σ → β}

/-! ### The loop -/

theorem decodeAt_subheader_pos (mem : ℕ → UInt8) (o : ℕ) :
    0 < (decodeAt mem o).macSubheaderLen := by
  rw [decodeAt]
  split <;> first | exact Nat.zero_lt_one | split <;> exact Nat.succ_pos _

/-- **The loop ends**: each sub-PDU has at least one octet. -/
theorem walkSubPdus_isSome (mem : ℕ → UInt8)
    (visit : σ → ℕ → UlSubheader → List MacRead × Except β σ) (invalidPdu : σ → β) (o : ℕ) (s : σ)
    (hfuel : pduLen < fuel) : (walkSubPdus mem visit invalidPdu fuel o pduLen s).isSome := by
  induction fuel generalizing o pduLen s with
  | zero => omega
  | succ fuel ih =>
    rw [walkSubPdus]
    split
    · rfl
    · dsimp only
      split
      · rfl
      · split
        · rfl
        · rw [isSome_map]
          have hpos := decodeAt_subheader_pos mem o
          refine ih _ _ ?_
          rw [UlSubheader.total] at *
          omega

/-- The subheader is in bounds if it fits. -/
theorem header_inBounds_iff (o n pduLen : ℕ) (hpos : 0 < n) :
    (∀ r ∈ (range' o n).map fun i ↦ (⟨i, none⟩ : MacRead), r.InBounds (o + pduLen)) ↔
      n ≤ pduLen := by
  simp only [List.forall_mem_map, mem_range'_1, MacRead.InBounds]
  constructor
  · intro h
    have := (h (o + n - 1) (by omega)).1
    omega
  · exact fun hle i hi ↦ ⟨by omega, nofun⟩

/-- **In bounds if and only if framed**, for a loop whose reads of one sub-PDU are. -/
theorem walkSubPdus_inBounds_iff (ceFits : ℕ → UlSubheader → Prop)
    (hvisit : ∀ s o pduLen, (decodeAt mem o).total ≤ pduLen →
      ((∀ x ∈ (visit s o (decodeAt mem o)).1, x.InBounds (o + pduLen)) ↔
        ceFits o (decodeAt mem o)))
    (hwalk : walkSubPdus mem visit invalidPdu fuel o pduLen s = some r) :
    (∀ x ∈ r.1, x.InBounds (o + pduLen)) ↔ Framed mem visit ceFits fuel o pduLen s := by
  induction fuel generalizing o pduLen s r with
  | zero => cases hwalk
  | succ fuel ih =>
    have hheader := header_inBounds_iff o _ pduLen (decodeAt_subheader_pos mem o)
    rw [walkSubPdus] at hwalk
    rw [Framed]
    split at hwalk
    · rename_i hzero
      cases hwalk
      simp [hzero]
    rename_i hzero
    rw [or_iff_right hzero]
    dsimp only at hwalk
    split at hwalk
    · -- the sub-PDU is longer than what is left
      rename_i hlong
      cases hwalk
      rw [forall_mem_append, hheader, and_congr_right_iff]
      refine fun _ ↦ iff_of_true ?_ (.inl hlong)
      rw [header_inBounds_iff o _ pduLen (by omega)]
      exact Nat.min_le_left _ _
    rename_i hfits
    rw [or_iff_right hfits]
    have hv := hvisit s o pduLen (Nat.not_lt.1 hfits)
    split at hwalk
    · -- the loop ends here
      rename_i b hb
      cases hwalk
      rw [forall_mem_append, hheader, hv, hb]
      refine and_congr_right fun _ ↦ (and_iff_left ?_).symm
      exact nofun
    · rename_i s' hs'
      obtain ⟨r', hr', rfl⟩ := map_eq_some_iff.1 hwalk
      have hrest := ih hr'
      rw [Nat.add_assoc, Nat.add_sub_cancel' (Nat.not_lt.1 hfits)] at hrest
      rw [forall_mem_append, forall_mem_append, hheader, hv, hrest, hs', and_assoc]
      refine and_congr_right fun _ ↦ and_congr_right fun _ ↦ ⟨fun hf s'' heq ↦ ?_, fun hf ↦ ?_⟩
      · cases heq
        exact hf
      · exact hf _ rfl

/-! ### One sub-PDU -/

theorem ceRead_inBounds_iff (hle : h.total ≤ pduLen) :
    (ceRead o h i).InBounds (o + pduLen) ↔ i < h.macLen := by
  rw [UlSubheader.total] at hle
  simp only [MacRead.InBounds, ceRead, some.injEq, forall_eq', UlSubheader.total]
  omega

/-- The buffer sizes of a long BSR are read one after the other. -/
theorem lcgReads_eq (bitmap : UInt8) (read : ℕ → MacRead) (left n m : ℕ) :
    lcgReads bitmap read left n m =
      (range' m ((range' n left).countP (bitmap.toNat.testBit ·))).map read := by
  induction left generalizing n m with
  | zero => rfl
  | succ left ih =>
    rw [lcgReads, range'_succ, countP_cons]
    split
    · rw [ih, range'_succ, map_cons]
    · exact ih _ _

theorem longBsr_inBounds_iff (bitmap : UInt8) (hle : h.total ≤ pduLen) :
    (∀ x ∈ ceRead o h 0 :: lcgReads bitmap (ceRead o h) 8 0 1, x.InBounds (o + pduLen)) ↔
      (range 8).countP (bitmap.toNat.testBit ·) + 1 ≤ h.macLen := by
  rw [lcgReads_eq, range_eq_range', forall_mem_cons, List.forall_mem_map, ceRead_inBounds_iff hle]
  generalize (range' 0 8).countP (bitmap.toNat.testBit ·) = k
  simp only [mem_range'_1, ceRead_inBounds_iff hle]
  constructor
  · rintro ⟨h₀, hk⟩
    rcases Nat.eq_zero_or_pos k with rfl | hpos
    · omega
    · have := hk k (by omega)
      omega
  · exact fun hk ↦ ⟨by omega, fun i hi ↦ by omega⟩

/-- MAC CEs of a fixed size have it. -/
theorem decodeAt_macLen (mem : ℕ → UInt8) (o : ℕ) :
    (ulSchLcid (decodeAt mem o).lcid = .singleEntryPhr ∨
      ulSchLcid (decodeAt mem o).lcid = .cRnti → (decodeAt mem o).macLen = 2) ∧
    (ulSchLcid (decodeAt mem o).lcid = .sTruncatedBsr ∨ ulSchLcid (decodeAt mem o).lcid = .sBsr →
      (decodeAt mem o).macLen = 1) := by
  have hlcid : (decodeAt mem o).lcid = (mem o).toNat % 64 := by
    rw [decodeAt]
    split <;> first | rfl | split <;> rfl
  rw [hlcid]
  constructor <;> rintro (heq | heq) <;> simp [decodeAt, heq]

theorem lookahead_inBounds (s : Unit) (o : ℕ) (hle : (decodeAt mem o).total ≤ pduLen) :
    (∀ x ∈ (lookaheadVisit mem s o (decodeAt mem o)).1, x.InBounds (o + pduLen)) ↔ True := by
  rw [iff_true, lookaheadVisit]
  split
  · rename_i heq
    have hlen := (decodeAt_macLen mem o).1 (.inr heq)
    simp [ceRead_inBounds_iff hle, hlen]
  · exact nofun
  · exact nofun

theorem mem_zeroScan (hk : k ∈ zeroScan mem n i) : i ≤ k ∧ k < i + n := by
  induction n generalizing i with
  | zero => cases hk
  | succ n ih =>
    rw [zeroScan] at hk
    split at hk
    · rcases mem_cons.1 hk with rfl | hk
      · omega
      · have := ih hk
        omega
    · rw [mem_singleton] at hk
      omega

theorem subPduReads_inBounds_iff (ue : GnbUe) (o : ℕ) (hle : (decodeAt mem o).total ≤ pduLen) :
    (∀ x ∈ subPduReads mem ue o (decodeAt mem o), x.InBounds (o + pduLen)) ↔
      LongBsrFits mem o (decodeAt mem o) := by
  obtain ⟨htwo, hone⟩ := decodeAt_macLen mem o
  have hpair : (decodeAt mem o).macLen = 2 →
      ∀ x ∈ [ceRead o (decodeAt mem o) 0, ceRead o (decodeAt mem o) 1],
        x.InBounds (o + pduLen) := by
    intro hlen
    simp [ceRead_inBounds_iff hle, hlen]
  rw [subPduReads, LongBsrFits]
  split
  case h_1 heq =>
    refine iff_of_true ?_ (by simp [heq])
    simp only [List.forall_mem_map, MacRead.InBounds]
    exact fun i hi ↦ ⟨by have := mem_zeroScan hi; omega, nofun⟩
  case h_2 heq =>
    refine iff_of_true ?_ (by simp [heq])
    split
    · exact nofun
    · exact hpair (htwo (.inl heq))
  case h_3 heq =>
    refine iff_of_true ?_ (by simp [heq])
    split
    · exact hpair (htwo (.inr heq))
    · exact nofun
  case h_4 heq =>
    refine iff_of_true ?_ (by simp [heq])
    simp [ceRead_inBounds_iff hle, hone (.inl heq)]
  case h_5 heq =>
    refine iff_of_true ?_ (by simp [heq])
    simp [ceRead_inBounds_iff hle, hone (.inr heq)]
  case h_6 heq => simp only [longBsr_inBounds_iff _ hle, heq, true_or, forall_const]
  case h_7 heq => simp only [longBsr_inBounds_iff _ hle, heq, or_true, forall_const]
  case h_8 hne₁ hne₂ hne₃ hne₄ hne₅ hne₆ hne₇ =>
    exact iff_of_true nofun fun heq ↦ (heq.elim hne₆ hne₇).elim

/-! ### The two readings of a PDU -/

theorem length_pduBytes (o n : ℕ) : (pduBytes mem o n).length = n := by
  rw [pduBytes, length_map, length_range]

theorem getElem?_pduBytes (hi : i < n) : (pduBytes mem o n)[i]? = some (mem (o + i)) := by
  rw [pduBytes, getElem?_map, getElem?_range hi, map_some]

theorem drop_pduBytes (mem : ℕ → UInt8) (o n k : ℕ) :
    (pduBytes mem o n).drop k = pduBytes mem (o + k) (n - k) := by
  refine ext_getElem? fun i ↦ ?_
  rw [getElem?_drop]
  by_cases hi : i < n - k
  · rw [getElem?_pduBytes (by omega), getElem?_pduBytes hi, Nat.add_assoc]
  · rw [getElem?_eq_none (by rw [length_pduBytes]; omega),
      getElem?_eq_none (by rw [length_pduBytes]; omega)]

theorem take_pduBytes (mem : ℕ → UInt8) (o : ℕ) (hk : k ≤ n) :
    (pduBytes mem o n).take k = pduBytes mem o k := by
  rw [pduBytes, ← map_take, take_range, Nat.min_eq_left hk, pduBytes]

/-- The length is found in the list if its octets are there. -/
theorem decodeLength_pduBytes (lcid : ℕ)
    (h : (if (mem o).toNat.testBit 6 then 3 else 2) ≤ pduLen) :
    decodeLength lcid (pduBytes mem o pduLen) =
      some (if (mem o).toNat.testBit 6 then
          ⟨lcid, 3, (mem (o + 1)).toNat * 256 + (mem (o + 2)).toNat⟩
        else ⟨lcid, 2, (mem (o + 1)).toNat⟩) := by
  have h0 : (pduBytes mem o pduLen)[0]? = some (mem o) := getElem?_pduBytes (by split at h <;> omega)
  have h1 : (pduBytes mem o pduLen)[1]? = some (mem (o + 1)) :=
    getElem?_pduBytes (by split at h <;> omega)
  rw [decodeLength, h0, h1]
  split at h
  · rename_i hbit
    have h2 : (pduBytes mem o pduLen)[2]? = some (mem (o + 2)) := getElem?_pduBytes (by omega)
    rw [h2]
    simp [hbit]
  · rename_i hbit
    simp [hbit]

/-- The subheader is found in the list if all its octets are there. -/
theorem decodeUlMacSubPduHeader_pduBytes (h : (decodeAt mem o).macSubheaderLen ≤ pduLen) :
    decodeUlMacSubPduHeader (pduBytes mem o pduLen) = some (decodeAt mem o) := by
  have hpos := decodeAt_subheader_pos mem o
  have h0 : (pduBytes mem o pduLen)[0]? = some (mem o) := getElem?_pduBytes (by omega)
  rw [decodeUlMacSubPduHeader, h0, bind_some, subheaderOf]
  cases hlcid : ulSchLcid ((mem o).toNat % 64) <;> simp only [decodeAt, hlcid] at h ⊢
  all_goals exact decodeLength_pduBytes _ (by split at h <;> simp_all)

/-- The `switch` looks at its sub-PDU only. -/
theorem subPdu_take (ue : GnbUe) (h : UlSubheader) (pdu : List UInt8) :
    ue.subPdu h (pdu.take h.total) = ue.subPdu h pdu := by
  have hce : ((pdu.take h.total).drop h.macSubheaderLen).take h.macLen =
      (pdu.drop h.macSubheaderLen).take h.macLen := by
    rw [drop_take, take_take, UlSubheader.total, Nat.add_sub_cancel_left, Nat.min_self]
  have hall : (pdu.take h.total).take (h.macSubheaderLen + h.macLen) =
      pdu.take (h.macSubheaderLen + h.macLen) := by
    rw [take_take, UlSubheader.total, Nat.min_self]
  simp only [GnbUe.subPdu, hce, hall]

/-- The estimate takes one octet for each LCG of the bitmap. -/
theorem estimateLcgs_take (bitmap : UInt8) (left n : ℕ) (payload : List UInt8)
    (hk : (range' n left).countP (bitmap.toNat.testBit ·) ≤ k) :
    estimateLcgs bitmap left n (payload.take k) = estimateLcgs bitmap left n payload := by
  induction left generalizing n payload k with
  | zero => rfl
  | succ left ih =>
    rw [range'_succ, countP_cons] at hk
    rw [estimateLcgs, estimateLcgs]
    split
    · rename_i hbit
      rw [if_pos hbit] at hk
      obtain ⟨k, rfl⟩ : ∃ k', k = k' + 1 := ⟨k - 1, by omega⟩
      cases payload with
      | nil => rfl
      | cons octet payload =>
        rw [take_succ_cons, headD_cons, tail_cons, headD_cons, tail_cons, ih _ _ (by omega)]
    · exact ih _ _ (by omega)

/-- The octets that are read of a long BSR at `a`. -/
def longBsrLen (mem : ℕ → UInt8) (a : ℕ) : ℕ := (range 8).countP ((mem a).toNat.testBit ·) + 1

/-- **A long BSR is read alike, however many octets follow it.** -/
theorem estimateUlBufferLongBsr_pduBytes (hn : longBsrLen mem a ≤ n) :
    estimateUlBufferLongBsr (pduBytes mem a n) =
      estimateUlBufferLongBsr (pduBytes mem a (longBsrLen mem a)) := by
  have hcons : ∀ n, pduBytes mem a (n + 1) = mem a :: pduBytes mem (a + 1) n := by
    intro n
    have hdrop := drop_pduBytes mem a (n + 1) 1
    rw [pduBytes, range_succ_eq_map, map_cons, drop_one, tail_cons] at hdrop
    rw [pduBytes, range_succ_eq_map, map_cons, hdrop]
    rfl
  obtain ⟨n, rfl⟩ : ∃ n', n = n' + 1 := ⟨n - 1, by rw [longBsrLen] at hn; omega⟩
  rw [longBsrLen] at hn ⊢
  rw [hcons, hcons, ← take_pduBytes mem (a + 1) (Nat.le_of_succ_le_succ hn)]
  exact (estimateLcgs_take _ 8 0 _ (by rw [range_eq_range']; exact Nat.le_refl _)).symm

theorem subPduAt_eq (ue : GnbUe) (hle : h.total ≤ pduLen) (hbsr : LongBsrFits mem o h) :
    subPduAt mem ue o h = ue.subPdu h (pduBytes mem o pduLen) := by
  have htake : pduBytes mem o h.total = (pduBytes mem o pduLen).take h.total :=
    (take_pduBytes mem o hle).symm
  have hce : ulSchLcid h.lcid = .lTruncatedBsr ∨ ulSchLcid h.lcid = .lBsr →
      estimateUlBufferLongBsr (pduBytes mem (o + h.macSubheaderLen) 9) =
      estimateUlBufferLongBsr (((pduBytes mem o pduLen).drop h.macSubheaderLen).take h.macLen) := by
    intro heq
    rw [UlSubheader.total] at hle
    have hnine : longBsrLen mem (o + h.macSubheaderLen) ≤ 9 :=
      Nat.succ_le_succ (countP_le_length.trans (length_range.le))
    rw [drop_pduBytes, take_pduBytes _ _ (by omega), estimateUlBufferLongBsr_pduBytes hnine,
      estimateUlBufferLongBsr_pduBytes (hbsr heq)]
  rw [subPduAt, htake, subPdu_take]
  split
  · rename_i heq
    rw [hce (.inl heq)]
    simp only [GnbUe.subPdu, heq]
  · rename_i heq
    rw [hce (.inr heq)]
    simp only [GnbUe.subPdu, heq]
  · rfl

/-- One after the other, the sub-PDUs of a buffer are those of the list. -/
theorem walkSubPdus_processVisit (hfuel : pduLen < fuel) (hn : pduLen ≤ n)
    (hframed : Framed mem (processVisit mem) (LongBsrFits mem) fuel o pduLen ue) :
    ∃ r, walkSubPdus mem (processVisit mem) (.invalidPdu, ·) fuel o pduLen ue = some r ∧
      (match r.2 with
        | .error e => e
        | .ok ue => (.finished, ue)) = processMacPduLoop n ue (pduBytes mem o pduLen) := by
  induction fuel generalizing o pduLen n ue with
  | zero => omega
  | succ fuel ih =>
    rw [Framed] at hframed
    rw [walkSubPdus]
    split
    · rename_i hzero
      subst hzero
      exact ⟨_, rfl, processMacPduLoop_nil.symm⟩
    rename_i hpos
    obtain ⟨hheader, hframed⟩ := hframed.resolve_left hpos
    obtain ⟨n, rfl⟩ : ∃ n', n = n' + 1 := ⟨n - 1, by omega⟩
    have hne : pduBytes mem o pduLen ≠ [] := by
      rw [ne_eq, ← length_eq_zero_iff, length_pduBytes]
      exact hpos
    rw [processMacPduLoop, if_neg hne, decodeUlMacSubPduHeader_pduBytes hheader]
    dsimp only
    rw [← UlSubheader.total, length_pduBytes]
    split
    · exact ⟨_, rfl, rfl⟩
    rename_i hfits
    obtain ⟨hbsr, hframed⟩ := hframed.resolve_left hfits
    have hle := Nat.not_lt.1 hfits
    have hstep := subPduAt_eq ue hle hbsr
    rw [processVisit] at hframed ⊢
    rw [hstep] at hframed ⊢
    cases hsub : ue.subPdu (decodeAt mem o) (pduBytes mem o pduLen) with
    | error e => exact ⟨_, rfl, rfl⟩
    | ok ue' =>
      have hsubheader := decodeAt_subheader_pos mem o
      have hlt : 0 < (decodeAt mem o).total := Nat.add_pos_left hsubheader _
      obtain ⟨r, hr, heq⟩ := ih (by omega) (show pduLen - (decodeAt mem o).total ≤ n by omega)
        (hframed ue' (by rw [hsub]; rfl))
      dsimp only [Except.mapError]
      rw [hr, drop_pduBytes, ← heq]
      exact ⟨_, rfl, rfl⟩

/-- **A PDU whose sub-PDUs are in order is read as the list of its bytes**, whatever is behind it. -/
theorem nrProcessMacPduAt_eq
    (h : Framed mem (processVisit mem) (LongBsrFits mem) (pduLen + 1) 0 pduLen ue) :
    (nrProcessMacPduAt mem pduLen ue).map (·.2) =
      some (nrProcessMacPdu ue (pduBytes mem 0 pduLen)) := by
  obtain ⟨r, hr, heq⟩ := walkSubPdus_processVisit (Nat.lt_succ_self _) (Nat.le_refl _) h
  rw [nrProcessMacPduAt, hr, nrProcessMacPdu, length_pduBytes, ← heq]
  rfl

/-! ### Both functions -/

/-- **Parsing stays in bounds**: both functions end, and each byte that they inspect is in the PDU
and, in a MAC CE, inside the sub-PDU. -/
def ParsesInBounds (mem : ℕ → UInt8) (pduLen : ℕ) (ue : GnbUe) : Prop :=
  (∃ r, nrProcessMacPduAt mem pduLen ue = some r ∧ ∀ x ∈ r.1, x.InBounds pduLen) ∧
    ∃ r, lcidCrntiLookahead mem pduLen = some r ∧ ∀ x ∈ r.1, x.InBounds pduLen

/-- **When parsing stays in bounds.** -/
theorem parsesInBounds_iff (mem : ℕ → UInt8) (pduLen : ℕ) (ue : GnbUe) :
    ParsesInBounds mem pduLen ue ↔
      0 < pduLen ∧
      Framed mem (processVisit mem) (LongBsrFits mem) (pduLen + 1) 0 pduLen ue ∧
      Framed mem (lookaheadVisit mem) (fun _ _ ↦ True) (pduLen + 1) 0 pduLen () := by
  obtain ⟨r, hr⟩ := isSome_iff_exists.1 (walkSubPdus_isSome mem (processVisit mem)
    (UlPduEnd.invalidPdu, ·) 0 ue (Nat.lt_succ_self pduLen))
  obtain ⟨r', hr'⟩ := isSome_iff_exists.1 (walkSubPdus_isSome mem (lookaheadVisit mem)
    (fun _ ↦ 0) 0 () (Nat.lt_succ_self pduLen))
  have hprocess := walkSubPdus_inBounds_iff (LongBsrFits mem)
    (fun ue o pduLen hle ↦ subPduReads_inBounds_iff ue o hle) hr
  have hlookahead := walkSubPdus_inBounds_iff (fun _ _ ↦ True)
    (fun s o pduLen hle ↦ lookahead_inBounds s o hle) hr'
  rw [Nat.zero_add] at hprocess hlookahead
  rw [ParsesInBounds, nrProcessMacPduAt, lcidCrntiLookahead, hr, hr']
  simp only [map_some, some.injEq, exists_eq_left', forall_mem_cons]
  rw [hprocess, hlookahead, and_assoc]
  refine and_congr_left fun _ ↦ ?_
  exact ⟨fun h ↦ h.1, fun h ↦ ⟨h, nofun⟩⟩

/-- A PDU of one octet that announces an SDU of SRB1, and a long BSR of one octet whose bitmap has
all LCGs: **bytes behind the PDU are read**. -/
theorem parses_out_of_bounds :
    ¬ ParsesInBounds (fun _ ↦ 0x01) 1 {} ∧
    ¬ ParsesInBounds (fun i ↦ [0x3E, 0x01, 0xFF].getD i 0) 3 {} ∧
    ¬ ParsesInBounds (fun _ ↦ 0) 0 {} := by
  refine ⟨?_, ?_, ?_⟩
  · rintro ⟨⟨r, hr, hin⟩, -⟩
    have hmem : ⟨1, none⟩ ∈ r.1 := by
      have hreads := congrArg (Option.map fun r ↦ decide ((⟨1, none⟩ : MacRead) ∈ r.1)) hr
      exact of_decide_eq_true (some.inj (hreads.symm.trans (by decide)))
    exact absurd (hin _ hmem).1 (by decide)
  · rintro ⟨⟨r, hr, hin⟩, -⟩
    have hmem : ⟨3, some (2, 3)⟩ ∈ r.1 := by
      have hreads := congrArg (Option.map fun r ↦ decide ((⟨3, some (2, 3)⟩ : MacRead) ∈ r.1)) hr
      exact of_decide_eq_true (some.inj (hreads.symm.trans (by decide)))
    exact absurd (hin _ hmem).1 (by decide)
  · rintro ⟨⟨r, hr, hin⟩, -⟩
    have hmem : ⟨0, none⟩ ∈ r.1 := by
      have hreads := congrArg (Option.map fun r ↦ decide ((⟨0, none⟩ : MacRead) ∈ r.1)) hr
      exact of_decide_eq_true (some.inj (hreads.symm.trans (by decide)))
    exact absurd (hin _ hmem).1 (by decide)

end OaiRan.Mac
