import OaiRan.Nfapi.P7Segment

/-!
# What a P7 node sends

The datagrams of a message in closed form (`P7Sent.split`): the segments carry the PHY and the sequence
number of the message, their number, the M bit except on the last one, a valid checksum, and pieces
that make up the body. The time stamps of the VNF are not covered by the checksum.
-/

namespace OaiRan.Nfapi

open ByteOrder InFlight List

/-! ### Packed headers -/

@[simp] theorem length_toBytes (h : NrP7Header) : h.toBytes.length = nrP7HeaderLength := rfl

theorem nrP7MessageHeaderUnpack_toBytes (h : NrP7Header) (rest : List UInt8) :
    nrP7MessageHeaderUnpack (h.toBytes ++ rest) = some h := by
  have h16 (x : UInt16) : UInt16.ofNat (ofBeBytes (beBytes 2 x.toNat)) = x := by
    rw [ofBeBytes_beBytes_of_lt x.toNat_lt, UInt16.ofNat_toNat]
  have h32 (x : UInt32) : UInt32.ofNat (ofBeBytes (beBytes 4 x.toNat)) = x := by
    rw [ofBeBytes_beBytes_of_lt x.toNat_lt, UInt32.ofNat_toNat]
  show some (NrP7Header.mk (.ofNat (ofBeBytes (beBytes 2 h.phyId.toNat)))
    (.ofNat (ofBeBytes (beBytes 2 h.messageId.toNat)))
    (.ofNat (ofBeBytes (beBytes 4 h.messageLength.toNat)))
    (.ofNat (ofBeBytes (beBytes 2 h.mSegmentSequence.toNat)))
    (.ofNat (ofBeBytes (beBytes 4 h.checksum.toNat)))
    (.ofNat (ofBeBytes (beBytes 4 h.transmitTimestamp.toNat)))) = some h
  simp only [h16, h32]

/-- The bytes that are set for a segment are two of the length and one of `m_segment_sequence`. -/
theorem set_toBytes (h : NrP7Header) (hs : s < 2 ^ 16) (hc : c < 2 ^ 8) :
    ((h.toBytes.set 6 (.ofNat (s / 2 ^ 8))).set 7 (.ofNat s)).set 8 (.ofNat c) =
      { h with
        messageLength := .ofNat (h.messageLength.toNat / 2 ^ 16 * 2 ^ 16 + s)
        mSegmentSequence :=
          .ofNat (c * 2 ^ 8 + h.mSegmentSequence.toNat % 2 ^ 8) : NrP7Header }.toBytes := by
  have hl := h.messageLength.toNat_lt
  have hlen : (UInt32.ofNat (h.messageLength.toNat / 2 ^ 16 * 2 ^ 16 + s)).toNat =
      h.messageLength.toNat / 2 ^ 16 * 2 ^ 16 + s := UInt32.toNat_ofNat_of_lt' (by
        show _ < 2 ^ 32
        omega)
  have hmss : (UInt16.ofNat (c * 2 ^ 8 + h.mSegmentSequence.toNat % 2 ^ 8)).toNat =
      c * 2 ^ 8 + h.mSegmentSequence.toNat % 2 ^ 8 := UInt16.toNat_ofNat_of_lt' (by
        show _ < 2 ^ 16
        omega)
  simp only [NrP7Header.toBytes, beBytes, hlen, hmss, nil_append, cons_append,
    set_cons_succ, set_cons_zero, cons.injEq, UInt8.ofNat_eq_iff_mod_eq_toNat,
    UInt8.toNat_ofNat', true_and, and_true]
  omega

theorem nrP7UpdateChecksum_toBytes (crc32 : UInt32 → List UInt8 → UInt32) (h : NrP7Header)
    (rest : List UInt8) (len : ℕ) :
    nrP7UpdateChecksum crc32 (h.toBytes ++ rest) len =
      { h with checksum := nrCalculateChecksum crc32 (h.toBytes ++ rest) len : NrP7Header }.toBytes
        ++ rest := rfl

theorem nrP7UpdateTransmitTimestamp_toBytes (h : NrP7Header) (rest : List UInt8)
    (timestamp : UInt32) :
    nrP7UpdateTransmitTimestamp (h.toBytes ++ rest) timestamp =
      { h with transmitTimestamp := timestamp : NrP7Header }.toBytes ++ rest := rfl

/-- The checksum is not taken over itself, nor over the time stamp. -/
theorem nrCalculateChecksum_congr (crc32 : UInt32 → List UInt8 → UInt32) {h h' : NrP7Header}
    (hphy : h.phyId = h'.phyId) (hid : h.messageId = h'.messageId)
    (hlen : h.messageLength = h'.messageLength) (hmss : h.mSegmentSequence = h'.mSegmentSequence)
    (rest : List UInt8) (len : ℕ) :
    nrCalculateChecksum crc32 (h.toBytes ++ rest) len =
      nrCalculateChecksum crc32 (h'.toBytes ++ rest) len := by
  have htake : (h.toBytes ++ rest).take 10 = (h'.toBytes ++ rest).take 10 := by
    show beBytes 2 h.phyId.toNat ++ beBytes 2 h.messageId.toNat ++ beBytes 4 h.messageLength.toNat ++
      beBytes 2 h.mSegmentSequence.toNat = _
    rw [hphy, hid, hlen, hmss]
    rfl
  have hdrop : (h.toBytes ++ rest).drop nrP7HeaderLength = (h'.toBytes ++ rest).drop
      nrP7HeaderLength := rfl
  rw [nrCalculateChecksum, nrCalculateChecksum, htake, hdrop]

/-! ### What is sent -/

/-- The `m_segment_sequence` of a segment. -/
def segmentMss (more : Bool) (segment : ℕ) (sequenceNumber : UInt32) : UInt16 :=
  .ofNat ((more.toNat * 2 ^ 7 + segment) * 2 ^ 8 + sequenceNumber.toNat % 2 ^ 4)

/-- A datagram with a segment of a message. -/
structure IsSegment (checksumEnabled : Bool) (crc32 : UInt32 → List UInt8 → UInt32)
    (phyId : UInt16) (mss : UInt16) (chunk : List UInt8) (datagram : List UInt8)
    (header : NrP7Header) : Prop where
  datagram_eq : datagram = header.toBytes ++ chunk
  phyId_eq : header.phyId = phyId
  mss_eq : header.mSegmentSequence = mss
  checksum_eq : checksumEnabled = true →
    header.checksum = nrCalculateChecksum crc32 datagram datagram.length

/-- With a checksum, if there is to be one. -/
theorem isSegment_checksum (checksumEnabled : Bool) (crc32 : UInt32 → List UInt8 → UInt32)
    (h : NrP7Header) (chunk : List UInt8) :
    ∃ header, IsSegment checksumEnabled crc32 h.phyId h.mSegmentSequence chunk
      (if checksumEnabled then nrP7UpdateChecksum crc32 (h.toBytes ++ chunk)
        (chunk.length + nrP7HeaderLength) else h.toBytes ++ chunk) header := by
  cases checksumEnabled with
  | false => exact ⟨h, rfl, rfl, rfl, fun hf ↦ (nomatch hf)⟩
  | true =>
    rw [if_pos rfl, nrP7UpdateChecksum_toBytes]
    refine ⟨_, rfl, rfl, rfl, fun _ ↦ ?_⟩
    exact nrCalculateChecksum_congr crc32 (h := h) rfl rfl rfl rfl _ _

/-- A piece of the message. -/
def chunk (body : List UInt8) (size k : ℕ) : List UInt8 := (body.drop (k * size)).take size

theorem flatMap_chunk (body : List UInt8) (size n : ℕ) :
    (range n).flatMap (chunk body size) = body.take (n * size) := by
  induction n with
  | zero => simp
  | succ n ih =>
    rw [range_succ, flatMap_append, ih, flatMap_singleton, chunk, Nat.succ_mul, take_add]

section Send

variable (sender : P7Node) (cfg : P7Config) (crc32 : UInt32 → List UInt8 → UInt32)
  (timestamp : ℕ → UInt32)

theorem length_sendSegments (msgBodyLen segBodyLen segmentCount n segment offset : ℕ)
    (buffer : List UInt8) :
    (sendSegments sender cfg crc32 timestamp msgBodyLen segBodyLen segmentCount n segment offset
      buffer).length = n := by
  induction n generalizing segment offset buffer with
  | zero => rfl
  | succ n ih => rw [sendSegments, length_cons, ih]

/-- The stamp is in the header. -/
theorem stamp_toBytes (h : NrP7Header) (body : List UInt8) (segment : ℕ) :
    ∃ h' : NrP7Header, stamp sender timestamp (h.toBytes ++ body) segment = h'.toBytes ++ body ∧
      h'.phyId = h.phyId ∧ h'.mSegmentSequence = h.mSegmentSequence := by
  cases sender with
  | vnf => exact ⟨_, nrP7UpdateTransmitTimestamp_toBytes h body _, rfl, rfl⟩
  | pnf => exact ⟨h, rfl, rfl, rfl⟩

variable {segment size segmentCount : ℕ}

/-- The header of a segment. -/
theorem exists_segmentHeader (h : NrP7Header) (body : List UInt8) (size : ℕ) (more : Bool)
    (hsize : size + nrP7HeaderLength < 2 ^ 16) (hsegment : segment < 2 ^ 7) :
    ∃ h' : NrP7Header, (((((h.toBytes ++ body).take nrP7HeaderLength).set 6
      (.ofNat ((size + nrP7HeaderLength) / 2 ^ 8))).set 7 (.ofNat (size + nrP7HeaderLength))).set 8
      (.ofNat (more.toNat * 2 ^ 7 + segment))) = h'.toBytes ∧ h'.phyId = h.phyId ∧
      h'.mSegmentSequence =
        .ofNat ((more.toNat * 2 ^ 7 + segment) * 2 ^ 8 + h.mSegmentSequence.toNat % 2 ^ 8) := by
  have hbyte : more.toNat * 2 ^ 7 + segment < 2 ^ 8 := by
    have := more.toNat_le
    omega
  refine ⟨_, set_toBytes h hsize hbyte, rfl, rfl⟩

/-- A segment before the last one is full. -/
theorem full_of_next
    (hge : (segmentCount - 1) * size ≤ bodyLength) (hnext : segment + 1 < segmentCount) :
    size ≤ bodyLength - segment * size := by
  have hmul : (segment + 1) * size ≤ (segmentCount - 1) * size :=
    Nat.mul_le_mul_right size (by omega)
  rw [Nat.succ_mul] at hmul
  omega

/-- The size of a segment is that of its piece of the body: the rest if it is the last one. -/
theorem segment_size (hsize : size < 2 ^ 16)
    (hle : bodyLength ≤ segmentCount * size) (hge : (segmentCount - 1) * size ≤ bodyLength)
    (hsegment : segment < segmentCount) :
    (if decide (segment + 1 = segmentCount) = true then bodyLength - size * segment else size) %
      2 ^ 16 = min size (bodyLength - segment * size) := by
  rw [Nat.mul_comm size]
  split
  · rename_i heq
    obtain rfl := of_decide_eq_true heq
    rw [Nat.succ_mul] at hle
    have hrest : bodyLength - segment * size ≤ size := by omega
    rw [Nat.min_eq_right hrest, Nat.mod_eq_of_lt (hrest.trans_lt hsize)]
  · rename_i hne
    rw [decide_eq_true_eq] at hne
    rw [Nat.mod_eq_of_lt hsize, Nat.min_eq_left (full_of_next hge (by omega))]

theorem length_chunk (body : List UInt8) (size k : ℕ) :
    (chunk body size k).length = min size (body.length - k * size) := by
  rw [chunk, length_take, length_drop]

/-- **The segments**, from one of them on. -/
theorem sendSegments_get (hcount : segmentCount ≤ 2 ^ 7)
    (hle : body.length ≤ segmentCount * (cfg.segmentSize - nrP7HeaderLength))
    (hge : (segmentCount - 1) * (cfg.segmentSize - nrP7HeaderLength) ≤ body.length)
    (n segment : ℕ) (hn : segment + n = segmentCount) (h : NrP7Header) (i : ℕ) (hi : i < n) :
    ∃ datagram header, (sendSegments sender cfg crc32 timestamp body.length
      (cfg.segmentSize - nrP7HeaderLength) segmentCount n segment
      (nrP7HeaderLength + segment * (cfg.segmentSize - nrP7HeaderLength))
      (h.toBytes ++ body))[i]? = some datagram ∧
      IsSegment cfg.checksumEnabled crc32 h.phyId
        (.ofNat (((segment + i + 1 ≠ segmentCount : Bool).toNat * 2 ^ 7 + (segment + i)) * 2 ^ 8 +
          h.mSegmentSequence.toNat % 2 ^ 8))
        (chunk body (cfg.segmentSize - nrP7HeaderLength) (segment + i)) datagram header := by
  have hbound : cfg.segmentSize - nrP7HeaderLength + nrP7HeaderLength < 2 ^ 16 := by
    rw [Nat.sub_add_cancel cfg.header_lt.le]
    exact cfg.lt
  induction n generalizing segment h i with
  | zero => exact absurd hi (Nat.not_lt_zero i)
  | succ n ih =>
    have hsegment : segment < segmentCount := by omega
    have hsize := segment_size (Nat.lt_of_le_of_lt (Nat.le_add_right _ _) hbound) hle hge hsegment
    rw [sendSegments, hsize, ← length_chunk]
    rcases i with - | i
    · obtain ⟨h', heq, hphy, hmss⟩ := exists_segmentHeader h body
        (chunk body (cfg.segmentSize - nrP7HeaderLength) segment).length
        (!decide (segment + 1 = segmentCount)) (by
          rw [length_chunk]
          exact lt_of_le_of_lt (Nat.add_le_add_right (Nat.min_le_left _ _) _) hbound)
        (hsegment.trans_le hcount)
      have hchunk : ((h.toBytes ++ body).drop
          (nrP7HeaderLength + segment * (cfg.segmentSize - nrP7HeaderLength))).take
          (chunk body (cfg.segmentSize - nrP7HeaderLength) segment).length =
          chunk body (cfg.segmentSize - nrP7HeaderLength) segment := by
        rw [← drop_drop, ← length_toBytes h, drop_left, length_chunk, ← take_take,
          ← length_drop, take_length]
        rfl
      obtain ⟨header, hheader⟩ := isSegment_checksum cfg.checksumEnabled crc32 h'
        (chunk body (cfg.segmentSize - nrP7HeaderLength) segment)
      rw [getElem?_cons_zero, heq, hchunk]
      refine ⟨_, header, rfl, ?_⟩
      rw [hphy, hmss] at hheader
      simpa using hheader
    · -- the other ones, with a header that may have been stamped
      obtain ⟨h', hstamp, hphy, hmss⟩ := stamp_toBytes sender timestamp h body segment
      have hfull : (chunk body (cfg.segmentSize - nrP7HeaderLength) segment).length =
          cfg.segmentSize - nrP7HeaderLength := by
        rw [length_chunk, Nat.min_eq_left (full_of_next hge (by omega))]
      rw [getElem?_cons_succ, hstamp, hfull, Nat.add_assoc, ← Nat.succ_mul]
      have hrest := ih (segment + 1) (by omega) h' i (by omega)
      rw [hphy, hmss] at hrest
      rwa [Nat.add_right_comm segment 1 i] at hrest

/-- A message that has been sent, in at most 128 segments. -/
structure P7Sent (checksumEnabled : Bool) where
  cfg : P7Config
  timestamp : ℕ → UInt32
  sequenceNumber : UInt32
  msg : NrP7Message
  datagrams : List (List UInt8)
  checksumEnabled_eq : cfg.checksumEnabled = checksumEnabled
  sent : nrP7PackAndSend sender cfg crc32 timestamp sequenceNumber msg = some datagrams
  length_le : datagrams.length ≤ 2 ^ 7

end Send

namespace P7Sent

variable {sender : P7Node} {crc32 : UInt32 → List UInt8 → UInt32} {checksumEnabled : Bool}
  (s : P7Sent sender crc32 checksumEnabled)

/-- The sequence number that its segments carry. -/
def sequence : UInt8 := .ofNat (s.sequenceNumber.toNat % 2 ^ 4)

/-- The number of segments. -/
def count : ℕ := s.datagrams.length

/-- A segment. -/
def datagram (k : ℕ) : List UInt8 := s.datagrams.getD k []

/-- What a segment carries of the body. -/
def piece (k : ℕ) : List UInt8 := (s.datagram k).drop nrP7HeaderLength

/-- **The segments of a message**: the same PHY and sequence number, numbered, all but the last one
marked, with pieces that make up the body. -/
structure Split : Prop where
  pos : 0 < s.count
  segment : ∀ k < s.count, ∃ header, IsSegment checksumEnabled crc32 s.msg.phyId
    (segmentMss (k + 1 ≠ s.count) k s.sequenceNumber) (s.piece k) (s.datagram k) header
  body : (range s.count).flatMap s.piece = s.msg.body
  length_lt : ∀ k < s.count, (s.datagram k).length < 2 ^ 16

theorem drop_isSegment {checksumEnabled : Bool} {phyId mss : UInt16} {chunk datagram : List UInt8}
    {header : NrP7Header} (h : IsSegment checksumEnabled crc32 phyId mss chunk datagram header) :
    datagram.drop nrP7HeaderLength = chunk := by
  rw [h.datagram_eq, ← length_toBytes header, drop_left]

/-- What is packed. -/
def packedHeader : NrP7Header := s.msg.header (p7SetMss 0 0 s.sequenceNumber.toNat)

theorem packedHeader_mss_mod :
    s.packedHeader.mSegmentSequence.toNat % 2 ^ 8 = s.sequenceNumber.toNat % 2 ^ 4 := by
  show (UInt16.ofNat (0 % 2 * 2 ^ 7 + 0 % 2 ^ 3 * 2 ^ 4 + s.sequenceNumber.toNat % 2 ^ 4)).toNat %
    2 ^ 8 = s.sequenceNumber.toNat % 2 ^ 4
  rw [UInt16.toNat_ofNat']
  omega

theorem packedHeader_mss : s.packedHeader.mSegmentSequence = segmentMss false 0 s.sequenceNumber := by
  show UInt16.ofNat _ = UInt16.ofNat _
  simp

/-- The datagrams, from the packed message. -/
theorem datagrams_eq : s.datagrams =
    if nrP7HeaderLength + s.msg.body.length > s.cfg.segmentSize then
      let segBodyLen := s.cfg.segmentSize - nrP7HeaderLength
      let segmentCount := s.msg.body.length / segBodyLen +
        if s.msg.body.length % segBodyLen ≠ 0 then 1 else 0
      sendSegments sender s.cfg crc32 s.timestamp s.msg.body.length segBodyLen segmentCount
        segmentCount 0 nrP7HeaderLength (s.packedHeader.toBytes ++ s.msg.body)
    else
      [stamp sender s.timestamp (if s.cfg.checksumEnabled then
        nrP7UpdateChecksum crc32 (s.packedHeader.toBytes ++ s.msg.body)
          (nrP7HeaderLength + s.msg.body.length)
        else s.packedHeader.toBytes ++ s.msg.body) 0] := by
  obtain ⟨buffer, hpack, hdatagrams⟩ := Option.map_eq_some_iff.1 s.sent
  rw [nrP7MessagePack] at hpack
  split at hpack
  · cases hpack
    have hlen : ((s.msg.header (p7SetMss 0 0 s.sequenceNumber.toNat)).toBytes ++
        s.msg.body).length = nrP7HeaderLength + s.msg.body.length := by
      rw [length_append, length_toBytes]
    dsimp only at hdatagrams
    rw [hlen, Nat.add_sub_cancel_left] at hdatagrams
    exact hdatagrams.symm
  · cases hpack

theorem split_of_single (hle : ¬ nrP7HeaderLength + s.msg.body.length > s.cfg.segmentSize) :
    s.Split := by
  have hdatagrams := s.datagrams_eq
  rw [if_neg hle] at hdatagrams
  obtain ⟨header, hseg⟩ :=
    isSegment_checksum s.cfg.checksumEnabled crc32 s.packedHeader s.msg.body
  rw [Nat.add_comm s.msg.body.length] at hseg
  -- the time stamp is not covered by the checksum
  obtain ⟨header', hseg'⟩ : ∃ header', IsSegment s.cfg.checksumEnabled crc32 s.msg.phyId
      (segmentMss false 0 s.sequenceNumber) s.msg.body (s.datagram 0) header' := by
    rw [datagram, hdatagrams, getD_cons_zero, hseg.datagram_eq, ← s.packedHeader_mss]
    cases sender with
    | pnf => exact ⟨header, hseg.datagram_eq ▸ hseg⟩
    | vnf =>
      refine ⟨_, nrP7UpdateTransmitTimestamp_toBytes header _ _, hseg.phyId_eq, hseg.mss_eq,
        fun hc ↦ ?_⟩
      have hchecksum := hseg.checksum_eq hc
      rw [hseg.datagram_eq, length_append, length_toBytes] at hchecksum
      have hstamp : stamp .vnf s.timestamp (header.toBytes ++ s.msg.body) 0 =
          { header with transmitTimestamp := s.timestamp 0 }.toBytes ++ s.msg.body :=
        nrP7UpdateTransmitTimestamp_toBytes header _ _
      rw [hstamp, length_append, length_toBytes]
      refine hchecksum.trans ?_
      exact @nrCalculateChecksum_congr crc32 header { header with transmitTimestamp := s.timestamp 0 }
        rfl rfl rfl rfl _ _
  have hcount : s.count = 1 := by rw [count, hdatagrams, length_singleton]
  have hpiece : s.piece 0 = s.msg.body := drop_isSegment hseg'
  rw [s.checksumEnabled_eq] at hseg'
  refine ⟨hcount ▸ Nat.one_pos, fun k hk ↦ ?_, ?_, fun k hk ↦ ?_⟩
  · obtain rfl : k = 0 := by omega
    rw [hpiece, hcount]
    exact ⟨header', hseg'⟩
  · rw [hcount, range_one, flatMap_singleton, hpiece]
  · obtain rfl : k = 0 := by omega
    rw [hseg'.datagram_eq, length_append, length_toBytes]
    have := s.cfg.lt
    omega

/-- The number of segments of a length. -/
theorem ceil_bounds (hsize : 0 < size) :
    b ≤ (b / size + if b % size ≠ 0 then 1 else 0) * size ∧
      ((b / size + if b % size ≠ 0 then 1 else 0) - 1) * size ≤ b := by
  have hdiv := Nat.div_add_mod b size
  have hmod := Nat.mod_lt b hsize
  rw [Nat.mul_comm] at hdiv
  split
  · rw [Nat.add_sub_cancel, Nat.succ_mul]
    omega
  · rw [Nat.add_zero]
    have hsub : (b / size - 1) * size ≤ b / size * size := Nat.mul_le_mul_right _ (Nat.sub_le _ _)
    omega

theorem split_of_several (hgt : nrP7HeaderLength + s.msg.body.length > s.cfg.segmentSize) :
    s.Split := by
  have hdatagrams := s.datagrams_eq
  rw [if_pos hgt] at hdatagrams
  dsimp only at hdatagrams
  have hheader := s.cfg.header_lt
  have hbound := s.cfg.lt
  obtain ⟨hle, hge⟩ := ceil_bounds (b := s.msg.body.length)
    (Nat.sub_pos_of_lt s.cfg.header_lt)
  have hcount : s.count = s.msg.body.length / (s.cfg.segmentSize - nrP7HeaderLength) +
      if s.msg.body.length % (s.cfg.segmentSize - nrP7HeaderLength) ≠ 0 then 1 else 0 := by
    rw [count, hdatagrams, length_sendSegments]
  rw [← hcount] at hle hge hdatagrams
  have hseg (k : ℕ) (hk : k < s.count) : ∃ header, IsSegment checksumEnabled crc32 s.msg.phyId
      (segmentMss (k + 1 ≠ s.count) k s.sequenceNumber)
      (chunk s.msg.body (s.cfg.segmentSize - nrP7HeaderLength) k) (s.datagram k) header := by
    obtain ⟨datagram, header, hget, hseg⟩ := sendSegments_get sender s.cfg crc32 s.timestamp
      (show s.count ≤ 2 ^ 7 from s.length_le) hle hge s.count 0 (Nat.zero_add _) s.packedHeader k hk
    rw [Nat.zero_mul, Nat.add_zero, ← hdatagrams] at hget
    rw [s.packedHeader_mss_mod, Nat.zero_add, s.checksumEnabled_eq] at hseg
    refine ⟨header, ?_⟩
    rw [P7Sent.datagram, getD_eq_getElem?_getD, hget]
    exact hseg
  have hpiece (k : ℕ) (hk : k < s.count) :
      s.piece k = chunk s.msg.body (s.cfg.segmentSize - nrP7HeaderLength) k := by
    obtain ⟨header, hseg⟩ := hseg k hk
    exact drop_isSegment hseg
  refine ⟨?_, fun k hk ↦ ?_, ?_, fun k hk ↦ ?_⟩
  · -- a message of more than a segment is not empty
    refine Nat.pos_of_ne_zero fun hzero ↦ ?_
    rw [hzero, Nat.zero_mul] at hle
    omega
  · rw [hpiece k hk]
    exact hseg k hk
  · rw [flatMap_congr fun k hk ↦ hpiece k (mem_range.1 hk), flatMap_chunk, take_of_length_le hle]
  · obtain ⟨header, hseg⟩ := hseg k hk
    rw [hseg.datagram_eq, length_append, length_toBytes, length_chunk]
    omega

theorem split : s.Split := by
  by_cases h : nrP7HeaderLength + s.msg.body.length > s.cfg.segmentSize
  · exact s.split_of_several h
  · exact s.split_of_single h

end P7Sent

end OaiRan.Nfapi
