import OaiRan.Rlc.Um.Entity

/-!
# The PDU format of the unacknowledged mode

38.322 6.2.2.3 as a bit string: two bits of segmentation information, then the SN unless the SDU
is complete, then the SO unless the segment is the first one. `serialize_sdu` writes that format
(`serializeSdu_eq`) and `recv_pdu` reads it back (`decodePdu_append`). Whatever else `recv_pdu`
makes of an arbitrary buffer, a segment it accepts has a payload and a sane header
(`segment_of_decodePdu`).
-/

namespace OaiRan.Rlc.Um

open BitString List

variable {c : UmConfig}

variable {k len sn so : ℕ} {bits rest : List Bool} {buf buffer hdr payload : List UInt8}
  {isFirst isLast : Bool}

/-- The SN field with its reserved bits, or the reserved bits of a complete SDU. -/
def snBits (c : UmConfig) (isFirst isLast : Bool) (sn : ℕ) : List Bool :=
  if isFirst && isLast then natBits 6 0
  else (if c.snFieldLength = 12 then natBits 2 0 else []) ++ natBits c.snFieldLength sn

/-- The header of a segment, as bits. -/
def headerBits (c : UmConfig) (isFirst isLast : Bool) (sn so : ℕ) : List Bool :=
  natBits 1 (1 - isFirst.toNat) ++ natBits 1 (1 - isLast.toNat) ++ snBits c isFirst isLast sn ++
    soBits isFirst so

/-- The header is what `compute_pdu_header_size` says, in bytes. -/
theorem length_headerBits (hc : c.snFieldLength = 6 ∨ c.snFieldLength = 12) (g : NrRlcSduSegment)
    (sn so : ℕ) :
    ((headerBits c g.isFirst g.isLast sn so).length : ℤ) = 8 * computePduHeaderSize c g := by
  rcases g with ⟨_, _, _, _, - | -, - | -⟩ <;> rcases hc with hc | hc <;>
    simp [headerBits, snBits, soBits, computePduHeaderSize, hc]

/-! ### Writing -/

section

variable (h : SduHeap) (g : NrRlcSduSegment)
include h g

theorem serializeSn_wrote (he : e.Wrote len bits)
    (hroom : bits.length + (snBits c g.isFirst g.isLast (h.sn g).toNat).length ≤ 8 * len) :
    ∃ e', serializeSn c h g e = some e' ∧
      e'.Wrote len (bits ++ snBits c g.isFirst g.isLast (h.sn g).toNat) := by
  unfold serializeSn snBits at *
  split at hroom
  · rename_i hfl
    simp only [hfl, if_true]
    exact putBits_wrote he 0 6 (by simpa using hroom)
  · rename_i hfl
    simp only [hfl, Bool.false_eq_true, if_false]
    split at hroom
    · rename_i hlen
      simp only [hlen, if_true, length_append, length_natBits] at hroom ⊢
      obtain ⟨e₁, he₁, h₁⟩ := putBits_wrote he 0 2 (by omega)
      obtain ⟨e₂, he₂, h₂⟩ := putBits_wrote h₁ (h.sn g).toNat 12
        (by rw [length_append, length_natBits]; omega)
      exact ⟨e₂, by rw [he₁, Option.bind_some, he₂], by rwa [← append_assoc]⟩
    · rename_i hlen
      simp only [hlen, if_false, nil_append]
      exact putBits_wrote he _ _ (by simpa using hroom)

theorem serializeHeader_wrote {size : ℤ}
    (hc : c.snFieldLength = 6 ∨ c.snFieldLength = 12) (hroom : computePduHeaderSize c g ≤ size) :
    ∃ e, serializeHeader c h g size = some e ∧
      e.Wrote size.toNat (headerBits c g.isFirst g.isLast (h.sn g).toNat g.so.toNat) := by
  have hlen := length_headerBits hc g (h.sn g).toNat g.so.toNat
  have hinit := wrote_init (replicate size.toNat 0)
  rw [length_replicate] at hinit
  simp only [headerBits, length_append, length_natBits] at hlen
  obtain ⟨e₁, he₁, h₁⟩ := putBits_wrote hinit (1 - g.isFirst.toNat) 1
    (by rw [length_nil]; omega)
  obtain ⟨e₂, he₂, h₂⟩ := putBits_wrote h₁ (1 - g.isLast.toNat) 1
    (by simp only [length_append, length_nil, length_natBits]; omega)
  obtain ⟨e₃, he₃, h₃⟩ := serializeSn_wrote (c := c) h g h₂
    (by simp only [length_append, length_nil, length_natBits]; omega)
  rw [serializeHeader]
  simp only [he₁, he₂, he₃, Option.bind_eq_bind, Option.bind_some]
  rcases hf : g.isFirst with - | -
  · rw [hf] at h₃ hlen
    simp only [soBits, Bool.false_eq_true, if_false, length_natBits] at hlen
    obtain ⟨e₄, he₄, h₄⟩ := putBits_wrote h₃ g.so.toNat 16
      (by simp only [length_append, length_nil, length_natBits]; omega)
    exact ⟨e₄, he₄, by simpa [headerBits, soBits] using h₄⟩
  · exact ⟨e₃, rfl, by simpa [headerBits, soBits, hf] using h₃⟩

/-- **`serialize_sdu` writes the format**, if the header fits. -/
theorem serializeSdu_eq (size : ℤ)
    (hc : c.snFieldLength = 6 ∨ c.snFieldLength = 12) (hroom : computePduHeaderSize c g ≤ size) :
    ∃ hdr : List UInt8, serializeSdu c h g size = some (hdr ++ h.bytes g) ∧
      (hdr.length : ℤ) = computePduHeaderSize c g ∧
      bitsOf hdr = headerBits c g.isFirst g.isLast (h.sn g).toNat g.so.toNat := by
  obtain ⟨e, he, hw⟩ := serializeHeader_wrote h g hc hroom
  have hlen := length_headerBits hc g (h.sn g).toNat g.so.toNat
  obtain ⟨hbyte, hbits⟩ := hw.bitsOf_take (n := (computePduHeaderSize c g).toNat) (by omega)
  refine ⟨e.buffer.take e.byte, by rw [serializeSdu, he]; rfl, ?_, by rw [hbyte]; exact hbits⟩
  have := congrArg length hbits
  rw [length_bitsOf, ← hbyte] at this
  omega

end

/-! ### Reading -/

theorem decodeReserved_of_drop_eq
    (h : (bitsOf buf).drop k = (if c.snFieldLength = 12 then natBits 2 0 else []) ++ rest) :
    ∃ k', decodeReserved c (decoderAt buf k) = some (decoderAt buf k') ∧
      (bitsOf buf).drop k' = rest := by
  unfold decodeReserved
  split at h
  · rename_i hlen
    obtain ⟨hg, hd⟩ := getBits_of_drop_eq h
    exact ⟨k + 2, by simp [hlen, hg], hd⟩
  · rename_i hlen
    exact ⟨k, by simp [hlen], by simpa using h⟩

section

variable (hsn : sn < 2 ^ c.snFieldLength) (hso : so < 2 ^ 16) (hfirst : isFirst = true ↔ so = 0)
include hsn hso hfirst

theorem decodeSegment_of_drop_eq (hfl : (isFirst && isLast) = false)
    (h : (bitsOf buf).drop k = snBits c isFirst isLast sn ++ (soBits isFirst so ++ rest)) :
    ∃ k', decodeSegment c isFirst (decoderAt buf k) = some (sn, so, decoderAt buf k') ∧
      (bitsOf buf).drop k' = rest := by
  simp only [snBits, hfl, Bool.false_eq_true, if_false, append_assoc] at h
  obtain ⟨k₁, hk₁, h₁⟩ := decodeReserved_of_drop_eq h
  obtain ⟨hg, h₂⟩ := getBits_of_drop_eq h₁
  obtain ⟨k₃, hk₃, h₃⟩ := decodeSo_of_drop_eq hso hfirst h₂
  refine ⟨k₃, ?_, h₃⟩
  rw [decodeSegment]
  simp only [Option.bind_eq_bind, Option.bind_some, hk₁, hg, hk₃, Nat.mod_eq_of_lt hsn]

/-- **`recv_pdu` reads the format back.** -/
theorem decodePdu_append
    (hbits : bitsOf hdr = headerBits c isFirst isLast sn so) (hne : payload ≠ []) :
    decodePdu c (hdr ++ payload) =
      if isFirst && isLast then .complete payload
      else .segment (nrRlcNewPdu sn so isFirst isLast payload) := by
  have hall : (bitsOf (hdr ++ payload)).drop 0 =
      natBits 2 (2 * (1 - isFirst.toNat) + (1 - isLast.toNat)) ++
        (snBits c isFirst isLast sn ++ (soBits isFirst so ++ bitsOf payload)) := by
    rw [bitsOf_append, hbits, headerBits]
    cases isFirst <;> cases isLast <;> simp [natBits_succ]
  obtain ⟨hsi, hrest⟩ := getBits_of_drop_eq hall
  have hpay : 0 < payload.length := length_pos_iff.2 hne
  rw [decodePdu, nrRlcPduDecoderInit_eq, hsi]
  rcases hfl : (isFirst && isLast) with - | -
  · obtain ⟨k', hdec, hk'⟩ := decodeSegment_of_drop_eq hsn hso hfirst hfl hrest
    -- what is left after the header is the payload
    have hbyte : k' / 8 = hdr.length := by
      have hlen := congrArg length hk'
      rw [length_drop, length_bitsOf, length_bitsOf, length_append] at hlen
      omega
    have hF : ((2 * (1 - isFirst.toNat) + (1 - isLast.toNat)) % 2 ^ 2 &&& 2 == 0) = isFirst := by
      cases isFirst <;> cases isLast <;> rfl
    have hL : ((2 * (1 - isFirst.toNat) + (1 - isLast.toNat)) % 2 ^ 2 &&& 1 == 0) = isLast := by
      cases isFirst <;> cases isLast <;> rfl
    simp only [hF, hL, hfl, Bool.false_eq_true, if_false, hdec, decoderAt_byte, hbyte, drop_left]
    rw [if_neg (by rw [length_append]; omega)]
  · obtain ⟨rfl, rfl⟩ := Bool.and_eq_true_iff.1 hfl
    have hhdr : hdr.length = 1 := by
      have := congrArg length hbits
      simpa [headerBits, snBits, soBits] using this
    have hdrop : (hdr ++ payload).drop 1 = payload := by rw [← hhdr, drop_left]
    simp only [Bool.toNat_true, Nat.sub_self, Nat.mul_zero, Nat.add_zero, Nat.zero_mod,
      Nat.zero_and, BEq.rfl, Bool.and_self, if_true, hdrop, length_append]
    rw [if_neg (by omega)]

end

/-- What `recv_pdu` has checked about a segment it goes on with. -/
theorem segment_of_decodePdu (h : decodePdu c buffer = .segment pdu) :
    ∃ (sn so : ℕ) (isFirst isLast : Bool) (payload : List UInt8),
      pdu = nrRlcNewPdu sn so isFirst isLast payload ∧ payload ≠ [] := by
  rw [decodePdu] at h
  rcases hsi : nrRlcPduDecoderGetBits (nrRlcPduDecoderInit buffer) 2 with - | ⟨si, d⟩
  · simp only [hsi, reduceCtorEq] at h
  · simp only [hsi] at h
    split at h
    · split at h <;> simp at h
    · rcases hseg : decodeSegment c (si &&& 2 == 0) d with - | ⟨sn, so, d'⟩
      · simp [hseg] at h
      · simp only [hseg] at h
        split at h
        · simp at h
        · rename_i hlen
          exact ⟨sn, so, _, _, _, (UmPdu.segment.inj h).symm, by simpa using hlen⟩

end OaiRan.Rlc.Um
