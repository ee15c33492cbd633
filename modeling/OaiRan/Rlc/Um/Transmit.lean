import OaiRan.Rlc.Um.Codec
import OaiRan.Rlc.Um.System

/-!
# Segmentation in the unacknowledged mode

The transmitting side cuts the head of `tx_list` to whatever size it is granted. `Transmitted`
says what has left it: the accepted SDUs that are done are each covered by consecutive PDUs under
one SN, and the head of `tx_list` is covered as far as its `so`.

One grant breaks this. The header of a complete SDU has one byte and, with a 12-bit SN, that of
its first segment two; a grant of two bytes passes the room check and then fails it again inside
`resegment`, after the SDU was unlinked. `LosesHead` is that case, and it is the only one
(`generateTxPdu_cases`).
-/

namespace OaiRan.Rlc.Um

open BitString List Option

variable {c : UmConfig}

variable {h' h₁ h₂ h₃ : SduHeap} {a sn : ℕ} {data : List UInt8} {hdr id pduSize : ℤ}
  {accepted current done sent : List (List UInt8)} {blocks : List (List (List UInt8))}
  {next : Option NrRlcSduSegment} {t t' : UmTrace}

/-! ### PDUs that cover an SDU -/

/-- The PDU carries the bytes from `a` to `b` of an SDU, under the given SN. -/
def Carries (c : UmConfig) (sn : ℕ) (data : List UInt8) (a b : ℕ) (pdu : List UInt8) : Prop :=
  ∃ hdr, pdu = hdr ++ (data.drop a).take (b - a) ∧
    bitsOf hdr = headerBits c (a == 0) (b == data.length) sn a

/-- The PDUs carry the bytes of an SDU up to `k`, one after the other and under one SN. -/
inductive Covers (c : UmConfig) (sn : ℕ) (data : List UInt8) : ℕ → List (List UInt8) → Prop
  | nil : Covers c sn data 0 []
  | snoc {a b : ℕ} {pdus : List (List UInt8)} {pdu : List UInt8} : Covers c sn data a pdus →
      a ≤ b → b ≤ data.length → Carries c sn data a b pdu → Covers c sn data b (pdus ++ [pdu])

/-! ### The shape of `tx_list` -/

/-- The bytes of the SDU that a segment belongs to. -/
def sduData (h : SduHeap) (g : NrRlcSduSegment) : List UInt8 := (h.cell g.sdu).data

/-- A segment in `tx_list` is what is left of its SDU from `so` on. -/
structure TailSegment (h : SduHeap) (g : NrRlcSduSegment) : Prop where
  sdu_lt : g.sdu < h.brk
  so_nonneg : 0 ≤ g.so
  so_add_size : g.so + g.size = (sduData h g).length
  isLast : g.isLast = true
  isFirst_iff : g.isFirst = true ↔ g.so = 0
  size_pos : g.so ≠ 0 → 0 < g.size
  length_le : ((sduData h g).length : ℤ) ≤ nrSduMax

/-- Only the head of `tx_list` has been cut. -/
structure TxShape (c : UmConfig) (s : UmTx) : Prop where
  segment : ∀ g ∈ s.txList, TailSegment s.heap g
  uncut : ∀ g ∈ s.txList.tail, g.so = 0
  txNext_nonneg : 0 ≤ s.txNext
  txNext_lt : s.txNext < c.snModulus

/-- The grant that loses the head of `tx_list`: two bytes for a complete SDU that has to be
segmented under a 12-bit SN. -/
def LosesHead (c : UmConfig) (s : UmTx) (size : ℤ) : Prop :=
  c.snFieldLength = 12 ∧ size = 2 ∧ ∃ g ∈ s.txList.head?, g.isFirst = true ∧ 2 ≤ g.size

instance (s : UmTx) (size : ℤ) : Decidable (LosesHead c s size) :=
  inferInstanceAs (Decidable (_ ∧ _ ∧ _))

/-- Two heaps with the same SDUs, up to their counters. -/
structure SameSdus (h h' : SduHeap) : Prop where
  data_eq : ∀ a, (h'.cell a).data = (h.cell a).data
  brk_le : h.brk ≤ h'.brk

theorem SameSdus.trans (h : SameSdus h₁ h₂) (h' : SameSdus h₂ h₃) : SameSdus h₁ h₃ :=
  ⟨fun a ↦ (h'.data_eq a).trans (h.data_eq a), h.brk_le.trans h'.brk_le⟩

theorem sameSdus_update (h : SduHeap) (a : ℕ)
    (hf : ∀ s, (f s).data = s.data) : SameSdus h (h.update a f) :=
  ⟨fun _ ↦ h.update_data a _ hf, le_rfl⟩

theorem sameSdus_takeHead (s : UmTx) (g : NrRlcSduSegment) (rest : List NrRlcSduSegment) :
    SameSdus s.heap (takeHead c s g rest).heap :=
  sameSdus_update s.heap g.sdu (f := fun u ↦ { u with sn := s.txNext }) fun _ ↦ rfl

theorem sameSdus_free (h : SduHeap) (g : NrRlcSduSegment) :
    SameSdus h (nrRlcFreeSduSegment h g).1 :=
  sameSdus_update h g.sdu (f := fun s ↦ { s with freeCount := s.freeCount + 1 }) fun _ ↦ rfl

variable {h : SduHeap} {g : NrRlcSduSegment} {s s' : UmTx} {rest : List NrRlcSduSegment} {b : ℕ}
  {pdu buffer : List UInt8} {size sduId : ℤ} {e e' : NrRlcEntityUm}

theorem SameSdus.sduData_eq (hh : SameSdus h h') (g : NrRlcSduSegment) :
    sduData h' g = sduData h g := hh.data_eq g.sdu

theorem TailSegment.mono (hg : TailSegment h g) (hh : SameSdus h h') : TailSegment h' g := by
  have hdata : sduData h' g = sduData h g := hh.data_eq g.sdu
  refine ⟨hg.sdu_lt.trans_le hh.brk_le, hg.so_nonneg, ?_, hg.isLast, hg.isFirst_iff,
    hg.size_pos, ?_⟩
  · rw [hdata]; exact hg.so_add_size
  · rw [hdata]; exact hg.length_le

theorem TxShape.of_txList (hs : TxShape c s) (hh : SameSdus s.heap s'.heap)
    (hg : s.txList = g :: rest) : ∀ g' ∈ rest, TailSegment s'.heap g' ∧ g'.so = 0 := by
  intro g' hg'
  exact ⟨(hs.segment g' (by simp [hg, hg'])).mono hh, hs.uncut g' (by simp [hg, hg'])⟩

/-! ### One call of `generate_pdu` -/

theorem Carries.ne_nil (h : Carries c sn data a b pdu) : pdu ≠ [] := by
  obtain ⟨hdr, rfl, hbits⟩ := h
  intro hnil
  obtain ⟨rfl, -⟩ := append_eq_nil_iff.1 hnil
  simp [headerBits, natBits_succ] at hbits

/-- The segment `g` has been sent as one PDU that fits. -/
theorem emitPdu_eq (size : ℤ) (hc : c.snFieldLength = 6 ∨ c.snFieldLength = 12)
    (hroom : computePduHeaderSize c g + g.size ≤ size) (hsize : 0 ≤ g.size) (hso : 0 ≤ g.so)
    (hb : g.so + g.size = b) (hdata : sduData s.heap g = data)
    (hfirst : g.isFirst = true ↔ g.so = 0) (hlast : g.isLast = true ↔ b = data.length) :
    ∃ pdu, emitPdu c s g size = some ({ s with
        txNext := if !g.isFirst && g.isLast then (s.txNext + 1) % c.snModulus else s.txNext
        txSize := s.txSize - g.size
        heap := (nrRlcFreeSduSegment s.heap g).1 }, pdu) ∧
      Carries c (s.heap.sn g).toNat data g.so.toNat b pdu ∧ (pdu.length : ℤ) ≤ size := by
  obtain ⟨hdr, hser, hlen, hbits⟩ := serializeSdu_eq s.heap g size hc (by omega)
  have hbytes : s.heap.bytes g = (data.drop g.so.toNat).take (b - g.so.toNat) := by
    rw [SduHeap.bytes, ← sduData, hdata, show g.size.toNat = b - g.so.toNat by omega]
  refine ⟨hdr ++ s.heap.bytes g, by rw [emitPdu, hser]; rfl, ⟨hdr, by rw [hbytes], ?_⟩, ?_⟩
  · have hF : (g.so.toNat == 0) = g.isFirst := by
      rw [Bool.eq_iff_iff, hfirst, beq_iff_eq]
      omega
    have hL : (b == data.length) = g.isLast := by rw [Bool.eq_iff_iff, hlast, beq_iff_eq]
    rw [hbits, hF, hL]
  · rw [length_append, hbytes, length_take, length_drop]
    omega

/-- A call of `generate_pdu` sent the bytes of the head `g` of `tx_list` up to `b`, and what is
left of it is `next`. -/
structure Emitted (c : UmConfig) (s s' : UmTx) (g : NrRlcSduSegment) (b : ℕ)
    (next : Option NrRlcSduSegment) (pdu : List UInt8) : Prop where
  sameSdus : SameSdus s.heap s'.heap
  so_le : g.so ≤ b
  le_length : b ≤ (sduData s.heap g).length
  carries : Carries c s.txNext.toNat (sduData s.heap g) g.so.toNat b pdu
  next_eq : next = none ↔ b = (sduData s.heap g).length
  next_spec : ∀ n ∈ next, n.sdu = g.sdu ∧ n.so = b ∧ g.so < b ∧ TailSegment s'.heap n
  txNext_eq : s'.txNext =
    if next = none ∧ g.so ≠ 0 then (s.txNext + 1) % c.snModulus else s.txNext

/-- The head fits as a whole. -/
theorem generateTxPdu_whole
    (hc : c.snFieldLength = 6 ∨ c.snFieldLength = 12) (hl : s.txList = g :: rest)
    (hg : TailSegment s.heap g) (hroom : computePduHeaderSize c g + 1 ≤ size)
    (hfit : computePduHeaderSize c g + g.size ≤ size) :
    ∃ s' pdu, generateTxPdu c s size = some (s', pdu) ∧ s'.txList = rest ∧
      Emitted c s s' g (sduData s.heap g).length none pdu ∧ (pdu.length : ℤ) ≤ size := by
  have hso := hg.so_nonneg
  have hsum := hg.so_add_size
  have hsize : 0 ≤ g.size := by
    by_cases h0 : g.so = 0
    · omega
    · exact (hg.size_pos h0).le
  have hsame := sameSdus_takeHead (c := c) s g rest
  obtain ⟨pdu, hemit, hcar, hlen⟩ := emitPdu_eq (s := takeHead c s g rest) size hc hfit hsize hso hsum
    (hsame.sduData_eq g) hg.isFirst_iff (by simp [hg.isLast])
  have hsn : (takeHead c s g rest).heap.sn g = s.txNext := by simp [takeHead, SduHeap.sn]
  rw [hsn] at hcar
  have hgen : generateTxPdu c s size = emitPdu c (takeHead c s g rest) g size := by
    rw [generateTxPdu, hl]
    simp only
    rw [if_neg (by omega), if_neg (by omega)]
  refine ⟨_, pdu, hgen.trans hemit, rfl, ⟨hsame.trans (sameSdus_free _ g), by omega, le_rfl, hcar,
    by simp, by simp, ?_⟩, hlen⟩
  by_cases h0 : g.so = 0
  · simp [h0, hg.isFirst_iff.2 h0, takeHead]
  · simp [h0, mt hg.isFirst_iff.1 h0, hg.isLast, takeHead]

theorem resegment_of_room
    (hhdr : computePduHeaderSize c { g with isLast := false } = hdr) (hroom : hdr + 1 ≤ pduSize) :
    ∃ h', resegment c h g pduSize = (h', some
        ({ g with size := pduSize - hdr, isLast := false },
          { g with ptr := h.brk, size := hdr + g.size - pduSize, so := g.so + (pduSize - hdr),
                   isFirst := false })) ∧ SameSdus h h' ∧ h'.sn g = h.sn g := by
  set h' := h.update g.sdu fun s ↦ { s with refCount := s.refCount + 1 } with hh'
  have hdata : ∀ a, (h'.cell a).data = (h.cell a).data := fun a ↦ h.update_data _ _ fun _ ↦ rfl
  refine ⟨{ h' with brk := h.brk + 1 }, ?_, ⟨hdata, Nat.le_succ _⟩, by simp [SduHeap.sn, hh']⟩
  rw [resegment]
  simp only [hhdr]
  rw [if_neg (by omega), show g.size - (hdr + g.size - pduSize) = pduSize - hdr by omega]
  rfl

/-- The header does not get smaller when the segment is no longer the last one. -/
theorem computePduHeaderSize_le_cut (g : NrRlcSduSegment) :
    computePduHeaderSize c g ≤ computePduHeaderSize c { g with isLast := false } := by
  unfold computePduHeaderSize
  cases g.isFirst <;> cases g.isLast <;> simp
  split <;> omega

/-- The head is cut: as many of its bytes go as the grant has room for. -/
theorem generateTxPdu_cut (hc : c.snFieldLength = 6 ∨ c.snFieldLength = 12)
    (hl : s.txList = g :: rest) (hg : TailSegment s.heap g)
    (hroom : computePduHeaderSize c { g with isLast := false } + 1 ≤ size)
    (hcut : size < computePduHeaderSize c g + g.size) :
    ∃ s' pdu b next, generateTxPdu c s size = some (s', pdu) ∧ s'.txList = next :: rest ∧
      Emitted c s s' g b (some next) pdu ∧ (pdu.length : ℤ) ≤ size := by
  have hso := hg.so_nonneg
  have hsum := hg.so_add_size
  have hle := computePduHeaderSize_le_cut (c := c) g
  obtain ⟨hdr, hhdr⟩ : ∃ hdr, computePduHeaderSize c { g with isLast := false } = hdr := ⟨_, rfl⟩
  rw [hhdr] at hroom hle
  obtain ⟨heap, hreseg, hsame', hsn'⟩ :=
    resegment_of_room (h := (takeHead c s g rest).heap) hhdr hroom
  have hsame := (sameSdus_takeHead (c := c) s g rest).trans hsame'
  set first : NrRlcSduSegment := { g with size := size - hdr, isLast := false } with hfirst
  set next : NrRlcSduSegment :=
    { g with ptr := (takeHead c s g rest).heap.brk, size := hdr + g.size - size,
             so := g.so + (size - hdr), isFirst := false } with hnext
  obtain ⟨b, hb⟩ : ∃ b : ℕ, g.so + (size - hdr) = b := ⟨(g.so + (size - hdr)).toNat, by omega⟩
  set u : UmTx := { takeHead c s g rest with
    heap := heap
    txList := next :: rest
    bstatusTxSize := (takeHead c s g rest).bstatusTxSize +
      (computePduHeaderSize c next + next.size) } with hu
  have hgen : generateTxPdu c s size = emitPdu c u first size := by
    rw [generateTxPdu, hl]
    simp only [hreseg]
    rw [if_neg (by omega), if_pos (by omega)]
  have hhdr' : computePduHeaderSize c first = hdr := hhdr
  obtain ⟨pdu, hemit, hcar, hlen⟩ := emitPdu_eq (s := u) (g := first) size hc
    (by rw [hhdr', hfirst]; simp) (by simp only [hfirst]; omega) hso hb
    (hsame.sduData_eq first) hg.isFirst_iff
    (by simp only [hfirst, Bool.false_eq_true, false_iff, sduData] at *; omega)
  have hsn : u.heap.sn first = s.txNext := by
    rw [show u.heap.sn first = heap.sn g from rfl, hsn']
    simp [takeHead, SduHeap.sn]
  rw [hsn] at hcar
  have hfinal : SameSdus s.heap (nrRlcFreeSduSegment u.heap first).1 :=
    hsame.trans (sameSdus_free _ _)
  have hdata : sduData (nrRlcFreeSduSegment u.heap first).1 next = sduData s.heap g :=
    hfinal.data_eq g.sdu
  have htail : TailSegment (nrRlcFreeSduSegment u.heap first).1 next := by
    refine ⟨hg.sdu_lt.trans_le hfinal.brk_le, ?_, ?_, hg.isLast, ?_, fun _ ↦ ?_, ?_⟩
    · simp only [hnext]; omega
    · rw [hdata]; simp only [hnext]; omega
    · simp only [hnext, Bool.false_eq_true, false_iff]; omega
    · simp only [hnext]; omega
    · rw [hdata]; exact hg.length_le
  refine ⟨_, pdu, b, next, hgen.trans hemit, rfl, ⟨hfinal, by omega, by omega, hcar, ?_, ?_, ?_⟩,
    hlen⟩
  · simp only [reduceCtorEq, false_iff]
    omega
  · rintro n ⟨⟩
    exact ⟨rfl, hb, by omega, htail⟩
  · simp [hfirst, hu, takeHead]

/-- **All that a call of `generate_pdu` can do**, the losing grant apart. -/
theorem generateTxPdu_cases (hc : c.snFieldLength = 6 ∨ c.snFieldLength = 12) (hs : TxShape c s)
    (hok : ¬ LosesHead c s size) :
    (generateTxPdu c s size = some (s, []) ∧
        ∀ g ∈ s.txList.head?, size < computePduHeaderSize c g + 1) ∨
      ∃ g rest s' pdu b next, s.txList = g :: rest ∧ generateTxPdu c s size = some (s', pdu) ∧
        s'.txList = next.toList ++ rest ∧ Emitted c s s' g b next pdu ∧
        (pdu.length : ℤ) ≤ size := by
  rcases hl : s.txList with - | ⟨g, rest⟩
  · exact .inl ⟨by rw [generateTxPdu, hl], by simp⟩
  have hg := hs.segment g (by simp [hl])
  by_cases hroom : computePduHeaderSize c g + 1 ≤ size
  · by_cases hfit : computePduHeaderSize c g + g.size ≤ size
    · obtain ⟨s', pdu, hgen, hlist, hem, hlen⟩ := generateTxPdu_whole hc hl hg hroom hfit
      exact .inr ⟨g, rest, s', pdu, _, none, rfl, hgen, by simpa using hlist, hem, hlen⟩
    · -- a second failure of the room check is exactly the losing grant
      have hroom' : computePduHeaderSize c { g with isLast := false } + 1 ≤ size := by
        by_contra hno
        refine hok ?_
        have hlast := hg.isLast
        unfold computePduHeaderSize at hroom hfit hno
        rcases hc with hc | hc <;> rcases hf : g.isFirst with - | - <;>
          simp [hc, hf, hlast] at hroom hfit hno <;> try omega
        exact ⟨hc, by omega, g, by simp [hl], hf, by omega⟩
      obtain ⟨s', pdu, b, next, hgen, hlist, hem, hlen⟩ :=
        generateTxPdu_cut hc hl hg hroom' (by omega)
      exact .inr ⟨g, rest, s', pdu, b, some next, rfl, hgen, by simpa using hlist, hem, hlen⟩
  · refine .inl ⟨?_, fun g' hg' ↦ ?_⟩
    · rw [generateTxPdu, hl]
      simp only
      rw [if_pos (by omega)]
    · obtain rfl : g = g' := by simpa using hg'
      omega

/-- The losing grant does lose the head. -/
theorem generateTxPdu_of_losesHead (hs : TxShape c s) (h : LosesHead c s size) :
    ∃ g s', g ∈ s.txList.head? ∧
      generateTxPdu c s size = some (s', []) ∧ s.txList = g :: s'.txList := by
  obtain ⟨hc, rfl, g, hg, hf, hsize⟩ := h
  rcases hl : s.txList with - | ⟨g', rest⟩
  · simp [hl] at hg
  · obtain rfl : g' = g := by simpa [hl] using hg
    have hlast := (hs.segment g' (by simp [hl])).isLast
    have hhdr : computePduHeaderSize c g' = 1 := by simp [computePduHeaderSize, hf, hlast]
    have hhdr' : computePduHeaderSize c { g' with isLast := false } = 2 := by
      simp [computePduHeaderSize, hf, hc]
    have hgen : ∃ heap, generateTxPdu c s 2 =
        some ({ takeHead c s g' rest with heap := heap }, []) := by
      rw [generateTxPdu, hl]
      simp only [hhdr]
      rw [if_neg (by omega), if_pos (by omega), resegment]
      simp only [hhdr']
      exact ⟨_, rfl⟩
    obtain ⟨heap, hgen⟩ := hgen
    exact ⟨g', _, by simp, hgen, rfl⟩

/-! ### Runs -/

/-- What has left the transmitting side: `done` are the SDUs that are sent, each by the PDUs of
one block, and `current` are the PDUs sent so far of the head of `tx_list`. -/
structure Transmitted (c : UmConfig) (s : UmTx) (accepted sent : List (List UInt8))
    (done : List (List UInt8)) (blocks : List (List (List UInt8)))
    (current : List (List UInt8)) : Prop where
  accepted_eq : accepted = done ++ s.txList.map (sduData s.heap)
  sent_eq : sent = blocks.flatten ++ current
  done_covered : List.Forall₂
    (fun data pdus ↦ pdus ≠ [] ∧ ∃ sn < 2 ^ c.snFieldLength, Covers c sn data data.length pdus)
    done blocks
  current_nil : s.txList = [] → current = []
  current_covered : ∀ g ∈ s.txList.head?,
    Covers c s.txNext.toNat (sduData s.heap g) g.so.toNat current

theorem sduData_newSdu_of_lt (hg : g.sdu < h.brk) (buffer : List UInt8) (id : ℤ) :
    sduData (nrRlcNewSdu h buffer id).1 g = sduData h g := by
  simp [sduData, nrRlcNewSdu, Function.update_of_ne hg.ne]

/-- All that `recv_sdu` does to the transmitting side. -/
theorem recvSdu_cases (he : recvSdu c e buffer sduId = some e') :
    (buffer.length : ℤ) ≤ nrSduMax ∧
      (acceptsSdu c e.tx buffer = false ∧ e'.tx = e.tx ∨
        acceptsSdu c e.tx buffer = true ∧ e'.tx.txNext = e.tx.txNext ∧
          e'.tx.heap = (nrRlcNewSdu e.tx.heap buffer sduId).1 ∧
          e'.tx.txList = e.tx.txList ++ [(nrRlcNewSdu e.tx.heap buffer sduId).2]) := by
  unfold recvSdu at he
  dsimp only at he
  split at he
  · cases he
  · refine ⟨by omega, ?_⟩
    have htx : ∀ e₁ : NrRlcEntityUm, (if e.sduRejected ≠ 0 ∧ e.tCurrent > e.tLogBufferFull + 1000
        then { e with sduRejected := 0, tLogBufferFull := e.tCurrent } else e) = e₁ →
        e₁.tx = e.tx := by
      rintro e₁ rfl
      split <;> rfl
    generalize (if e.sduRejected ≠ 0 ∧ e.tCurrent > e.tLogBufferFull + 1000
        then { e with sduRejected := 0, tLogBufferFull := e.tCurrent } else e) = e₁ at he htx
    have htx := htx e₁ rfl
    rw [htx] at he
    split at he <;> cases he
    · refine .inl ⟨?_, rfl⟩
      simp only [acceptsSdu, decide_eq_false_iff_not]
      omega
    · refine .inr ⟨?_, rfl, rfl, rfl⟩
      simp only [acceptsSdu, decide_eq_true_eq]
      omega

theorem tailSegment_newSdu (hlen : (buffer.length : ℤ) ≤ nrSduMax) :
    TailSegment (nrRlcNewSdu h buffer id).1 (nrRlcNewSdu h buffer id).2 := by
  have hdata : sduData (nrRlcNewSdu h buffer id).1 (nrRlcNewSdu h buffer id).2 = buffer := by
    simp [sduData, nrRlcNewSdu]
  refine ⟨Nat.lt_succ_self _, le_rfl, ?_, rfl, by simp [nrRlcNewSdu], by simp [nrRlcNewSdu], ?_⟩
  · rw [hdata]; simp [nrRlcNewSdu]
  · rw [hdata]; exact hlen

theorem TxShape.recvSdu (hs : TxShape c e.tx) (he : recvSdu c e buffer sduId = some e') :
    TxShape c e'.tx := by
  obtain ⟨hlen, ⟨-, htx⟩ | ⟨-, hnext, hheap, hlist⟩⟩ := recvSdu_cases he
  · rwa [htx]
  · refine ⟨fun g hg ↦ ?_, fun g hg ↦ ?_, ?_, ?_⟩
    · rw [hheap]
      rw [hlist, mem_append, mem_singleton] at hg
      rcases hg with hg | rfl
      · have h := hs.segment g hg
        have hdata := sduData_newSdu_of_lt h.sdu_lt buffer sduId
        refine ⟨h.sdu_lt.trans (Nat.lt_succ_self _), h.so_nonneg, ?_, h.isLast, h.isFirst_iff,
          h.size_pos, ?_⟩
        · rw [hdata]; exact h.so_add_size
        · rw [hdata]; exact h.length_le
      · exact tailSegment_newSdu hlen
    · rw [hlist] at hg
      rcases hl : e.tx.txList with - | ⟨g₀, rest⟩
      · simp [hl] at hg
      · simp only [hl, cons_append, tail_cons, mem_append, mem_singleton] at hg
        rcases hg with hg | rfl
        · exact hs.uncut g (by simp [hl, hg])
        · rfl
    · rw [hnext]; exact hs.txNext_nonneg
    · rw [hnext]; exact hs.txNext_lt

theorem Transmitted.recvSdu (hs : TxShape c e.tx)
    (h : Transmitted c e.tx accepted sent done blocks current)
    (he : recvSdu c e buffer sduId = some e') :
    Transmitted c e'.tx
      (if acceptsSdu c e.tx buffer then accepted ++ [buffer] else accepted) sent done blocks
      current := by
  obtain ⟨-, ⟨hacc, htx⟩ | ⟨hacc, hnext, hheap, hlist⟩⟩ := recvSdu_cases he
  · rw [hacc, htx]
    exact h
  · have hdata : ∀ g ∈ e.tx.txList, sduData e'.tx.heap g = sduData e.tx.heap g := fun g hg ↦ by
      rw [hheap]
      exact sduData_newSdu_of_lt (hs.segment g hg).sdu_lt buffer sduId
    rw [hacc, if_pos rfl]
    refine ⟨?_, h.sent_eq, h.done_covered, fun hnil ↦ by simp [hlist] at hnil, fun g hg ↦ ?_⟩
    · rw [hlist, map_append, map_congr_left hdata, h.accepted_eq, append_assoc,
        map_singleton, hheap]
      simp [sduData, nrRlcNewSdu]
    · rw [hnext]
      rcases hl : e.tx.txList with - | ⟨g₀, rest⟩
      · obtain rfl : (nrRlcNewSdu e.tx.heap buffer sduId).2 = g := by
          simpa [hlist, hl] using hg
        rw [h.current_nil hl]
        exact .nil
      · obtain rfl : g₀ = g := by simpa [hlist, hl] using hg
        rw [hdata g₀ (by simp [hl])]
        exact h.current_covered g₀ (by simp [hl])

theorem TxShape.emitted (hs : TxShape c s)
    (hl : s.txList = g :: rest) (hl' : s'.txList = next.toList ++ rest)
    (h : Emitted c s s' g b next pdu) : TxShape c s' := by
  have hrest := hs.of_txList h.sameSdus hl
  have hpos : 0 < c.snModulus := hs.txNext_nonneg.trans_lt hs.txNext_lt
  refine ⟨fun g' hg' ↦ ?_, fun g' hg' ↦ ?_, ?_, ?_⟩
  · rw [hl', mem_append, mem_toList] at hg'
    rcases hg' with hg' | hg'
    · exact (h.next_spec g' hg').2.2.2
    · exact (hrest g' hg').1
  · have hmem : g' ∈ rest := by
      rcases next with - | n <;> simp only [hl', toList, nil_append,
        singleton_append, tail_cons] at hg'
      · exact mem_of_mem_tail hg'
      · exact hg'
    exact (hrest g' hmem).2
  · rw [h.txNext_eq]
    split
    · exact Int.emod_nonneg _ hpos.ne'
    · exact hs.txNext_nonneg
  · rw [h.txNext_eq]
    split
    · exact Int.emod_lt_of_pos _ hpos
    · exact hs.txNext_lt

theorem Transmitted.emitted (hM : c.snModulus = 2 ^ c.snFieldLength) (hs : TxShape c s)
    (ht : Transmitted c s accepted sent done blocks current) (hl : s.txList = g :: rest)
    (hl' : s'.txList = next.toList ++ rest) (h : Emitted c s s' g b next pdu) :
    ∃ done' blocks' current',
      Transmitted c s' accepted (sent ++ [pdu]) done' blocks' current' := by
  have hdata : rest.map (sduData s'.heap) = rest.map (sduData s.heap) :=
    map_congr_left fun g' _ ↦ h.sameSdus.sduData_eq g'
  have hcov : Covers c s.txNext.toNat (sduData s.heap g) b (current ++ [pdu]) := by
    have hle := h.so_le
    exact (ht.current_covered g (by simp [hl])).snoc (by omega) h.le_length h.carries
  have hacc := ht.accepted_eq
  rw [hl, map_cons] at hacc
  rcases next with - | n
  · -- the SDU is done: its PDUs become a block, and the next SDU has not been cut
    obtain rfl := h.next_eq.1 rfl
    have hsn : s.txNext.toNat < 2 ^ c.snFieldLength := by
      have h₁ := hs.txNext_lt
      have h₂ := hs.txNext_nonneg
      zify
      omega
    refine ⟨done ++ [sduData s.heap g], blocks ++ [current ++ [pdu]], [], ?_, ?_, ?_, fun _ ↦ rfl,
      fun g' hg' ↦ ?_⟩
    · rw [hacc, hl', toList_none, nil_append, hdata, append_assoc]
      rfl
    · rw [ht.sent_eq]
      simp
    · exact rel_append ht.done_covered
        (.cons ⟨by simp, _, hsn, hcov⟩ .nil)
    · have hmem : g' ∈ rest := by
        rw [hl', toList_none, nil_append] at hg'
        exact mem_of_mem_head? hg'
      rw [((hs.of_txList h.sameSdus hl) g' hmem).2]
      exact .nil
  · obtain ⟨hsdu, hso, -, -⟩ := h.next_spec n rfl
    have hn : sduData s'.heap n = sduData s.heap g := by
      rw [h.sameSdus.sduData_eq n, sduData, hsdu, sduData]
    refine ⟨done, blocks, current ++ [pdu], ?_, ?_, ht.done_covered, fun hnil ↦ ?_, fun g' hg' ↦ ?_⟩
    · rw [hacc, hl', toList_some, singleton_append, map_cons, hdata, hn]
    · rw [ht.sent_eq, append_assoc]
    · simp [hl'] at hnil
    · obtain rfl : n = g' := by simpa [hl'] using hg'
      rw [hn, hso, h.txNext_eq, if_neg (by simp), Int.toNat_natCast]
      exact hcov

/-- No grant is the losing one. -/
def KeepsHead (c : UmConfig) (t : UmTrace) : UmOp → Prop
  | .generatePdu size => ¬ LosesHead c t.entity.tx size
  | _ => True

instance (t : UmTrace) : (op : UmOp) → Decidable (KeepsHead c t op)
  | .generatePdu size => inferInstanceAs (Decidable (¬ LosesHead c t.entity.tx size))
  | .recvSdu .. | .recvPdu _ | .setTime _ => isTrue trivial

theorem txShape_init (p : UmParams) : TxShape p.config {} := by
  refine ⟨nofun, nofun, le_rfl, ?_⟩
  rw [p.snModulus_eq]
  positivity

theorem transmitted_step {p : UmParams} {op : UmOp}
    (h : TxShape p.config t.entity.tx ∧ ∃ done blocks current,
      Transmitted p.config t.entity.tx t.accepted t.sent done blocks current)
    (hok : KeepsHead p.config t op) (hs : (umSystem p.config).step t op = some t') :
    TxShape p.config t'.entity.tx ∧ ∃ done blocks current,
      Transmitted p.config t'.entity.tx t'.accepted t'.sent done blocks current := by
  obtain ⟨hshape, done, blocks, current, ht⟩ := h
  rcases step_cases hs with ⟨buffer, id, e, rfl, he, rfl⟩ | ⟨size, e, pdu, rfl, he, rfl⟩ |
    ⟨buffer, rfl, rfl⟩ | ⟨now, rfl, rfl⟩
  · exact ⟨hshape.recvSdu he, done, blocks, current, ht.recvSdu hshape he⟩
  · obtain ⟨⟨tx, pdu'⟩, hgen, hpair⟩ := map_eq_some_iff.1 he
    cases hpair
    rcases generateTxPdu_cases p.snFieldLength_eq hshape hok with ⟨hnone, -⟩ |
      ⟨g, rest, s', pdu, b, next, hl, hgen', hl', hem, -⟩
    · obtain ⟨rfl, rfl⟩ := Prod.mk.inj (some.inj (hnone.symm.trans hgen))
      exact ⟨hshape, done, blocks, current, by simpa using ht⟩
    · obtain ⟨rfl, rfl⟩ := Prod.mk.inj (some.inj (hgen'.symm.trans hgen))
      refine ⟨hshape.emitted hl hl' hem, ?_⟩
      simp only [hem.carries.ne_nil, if_false]
      exact ht.emitted p.snModulus_eq hshape hl hl' hem
  · exact ⟨hshape, done, blocks, current, ht⟩
  · exact ⟨hshape, done, blocks, current, ht⟩

theorem transmitted_of_reach (p : UmParams) (h : (umSystem p.config).Reach (KeepsHead p.config) t) :
    TxShape p.config t.entity.tx ∧ ∃ done blocks current,
      Transmitted p.config t.entity.tx t.accepted t.sent done blocks current :=
  h.invariant ⟨txShape_init p, [], [], [], ⟨rfl, rfl, .nil, fun _ ↦ rfl, by simp [umSystem]⟩⟩
    transmitted_step

/-- **The transmitting side loses nothing, the losing grant apart.** What was accepted is either
sent in consecutive PDUs under one SN or still in `tx_list`; a call that returns 0 changes
nothing and a PDU fits its grant; and from any such state the losing grant returns 0 and drops
the head of `tx_list`. -/
theorem transmits_everything_of_keepsHead (p : UmParams) {t : UmTrace}
    (h : (umSystem p.config).Reach (KeepsHead p.config) t) :
    (∃ done blocks current,
      Transmitted p.config t.entity.tx t.accepted t.sent done blocks current) ∧
    ∀ size : ℤ,
      (¬ LosesHead p.config t.entity.tx size →
        ∃ e pdu, t.entity.generatePdu p.config size = some (e, pdu) ∧
          (pdu = [] → e.tx = t.entity.tx) ∧ (pdu ≠ [] → (pdu.length : ℤ) ≤ size)) ∧
      (LosesHead p.config t.entity.tx size →
        ∃ e g, t.entity.generatePdu p.config size = some (e, []) ∧
          t.entity.tx.txList = g :: e.tx.txList) := by
  obtain ⟨hshape, ht⟩ := transmitted_of_reach p h
  refine ⟨ht, fun size ↦ ⟨fun hok ↦ ?_, fun hlose ↦ ?_⟩⟩
  · rcases generateTxPdu_cases p.snFieldLength_eq hshape hok with ⟨hnone, -⟩ |
      ⟨g, rest, s', pdu, b, next, -, hgen, -, hem, hlen⟩
    · exact ⟨t.entity, [], by rw [NrRlcEntityUm.generatePdu, hnone]; rfl, fun _ ↦ rfl,
        fun hne ↦ absurd rfl hne⟩
    · exact ⟨{ t.entity with tx := s' }, pdu, by rw [NrRlcEntityUm.generatePdu, hgen]; rfl,
        fun hnil ↦ absurd hnil hem.carries.ne_nil, fun _ ↦ hlen⟩
  · obtain ⟨g, s', -, hgen, hl⟩ := generateTxPdu_of_losesHead hshape hlose
    exact ⟨{ t.entity with tx := s' }, g, by rw [NrRlcEntityUm.generatePdu, hgen]; rfl, hl⟩

/-- A grant of two bytes for an SDU of two bytes: nothing is sent and nothing is left. -/
theorem sdu_lost_by_grant_of_two :
    ∃ t, (umSystem longSnParams.config).exec (fun _ _ ↦ True) {}
        [.recvSdu [0xaa, 0xbb] 0, .generatePdu 2] = some t ∧
      t.accepted = [[0xaa, 0xbb]] ∧ t.sent = [] ∧ t.entity.tx.txList = [] ∧
      t.entity.tx.bstatusTxSize = 0 :=
  ⟨_, rfl, by decide, by decide, by decide, by decide⟩

/-- Three bytes in grants of three and six. -/
theorem transmits_three_bytes :
    ∃ t, (umSystem longSnParams.config).Reach (KeepsHead longSnParams.config) t ∧
      t.sent = [[0x40, 0, 1], [0x80, 0, 0, 1, 2, 3]] ∧
      ∃ done blocks current,
        Transmitted longSnParams.config t.entity.tx t.accepted t.sent done blocks current :=
  have h := StepSystem.reach_get_exec (umSystem longSnParams.config)
    (KeepsHead longSnParams.config)
    [.recvSdu [1, 2, 3] 0, .generatePdu 3, .generatePdu 6] (by decide)
  ⟨_, h, by decide, (transmits_everything_of_keepsHead longSnParams h).1⟩

end OaiRan.Rlc.Um
