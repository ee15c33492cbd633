import OaiRan.Lib.StepSystem
import OaiRan.Nfapi.P7Sent

/-!
# P7 segments are put together again

The queue of a node is the image of the messages in flight (`entry`): of each, the segments that have
arrived. A segment that arrives does in the code what `InFlight.arrive` does (`handleSegment_refines`),
and a message that is complete is put together, **provided that it is shorter than 2¹⁶ bytes**
(`reassemble_of_fits`). A longer one is cut off or overruns the buffer.
-/

namespace OaiRan.Nfapi

open ByteOrder InFlight List P7Sent Option UInt8 Nat

/-! ### Fields of `m_segment_sequence` -/

section Mss

variable {more : Bool} {segment : ℕ} (sequenceNumber : UInt32)

theorem toNat_segmentMss (more : Bool) (h : segment < 2 ^ 7) :
    (segmentMss more segment sequenceNumber).toNat =
      (more.toNat * 2 ^ 7 + segment) * 2 ^ 8 + sequenceNumber.toNat % 2 ^ 4 := by
  refine UInt16.toNat_ofNat_of_lt' ?_
  show _ < 2 ^ 16
  have := more.toNat_le
  omega

theorem p7GetMore_segmentMss (h : segment < 2 ^ 7) :
    p7GetMore (segmentMss more segment sequenceNumber) = more := by
  rw [p7GetMore, toNat_segmentMss sequenceNumber more h]
  cases more <;> simp <;> omega

theorem p7GetSegment_segmentMss (h : segment < 2 ^ 7) :
    p7GetSegment (segmentMss more segment sequenceNumber) = segment := by
  rw [p7GetSegment, toNat_segmentMss sequenceNumber more h]
  omega

theorem p7GetSequence_segmentMss (h : segment < 2 ^ 7) :
    p7GetSequence (segmentMss more segment sequenceNumber) =
      .ofNat (sequenceNumber.toNat % 2 ^ 4) := by
  have hmod : ((more.toNat * 2 ^ 7 + segment) * 2 ^ 8 + sequenceNumber.toNat % 2 ^ 4) % 2 ^ 8 =
      sequenceNumber.toNat % 2 ^ 4 := by omega
  rw [p7GetSequence, toNat_segmentMss sequenceNumber more h, hmod]

end Mss

section Flights

variable {sender : P7Node} {crc32 : UInt32 → List UInt8 → UInt32} {checked : Bool}

variable {k : ℕ} {buffer buffer' d : List UInt8}

/-- A message in flight in a reassembly queue. -/
def entry (f : Flight (P7Sent sender crc32 checked) UInt32) : RxMessage :=
  { sequenceNumber := f.msg.sequence
    numSegmentsReceived := .ofNat f.arrived.length
    numSegmentsExpected := if f.msg.count - 1 ∈ f.arrived then .ofNat f.msg.count else 255
    segments := fun i ↦ if i ∈ f.arrived then f.msg.datagram i else []
    rxHrTime := f.since }

variable {f : Flight (P7Sent sender crc32 checked) UInt32} {n : ℕ}

/-- One more segment. -/
theorem entry_store (hpart : part < f.msg.count) :
    entry { f with arrived := part :: f.arrived } =
      (entry f).store part (part + 1 ≠ f.msg.count) (f.msg.datagram part) := by
  have hreceived : ofNat (f.arrived.length + 1) = .ofNat f.arrived.length + 1 := by
    rw [ofNat_add]
    rfl
  have hsegments : (fun i ↦ if i ∈ part :: f.arrived then f.msg.datagram i else []) =
      Function.update (fun i ↦ if i ∈ f.arrived then f.msg.datagram i else []) part
        (f.msg.datagram part) := by
    funext i
    by_cases hi : i = part
    · subst hi
      simp
    · simp [hi]
  have hexpected : (if f.msg.count - 1 ∈ part :: f.arrived then ofNat f.msg.count else 255) =
      if decide (part + 1 ≠ f.msg.count) = true then
        if f.msg.count - 1 ∈ f.arrived then ofNat f.msg.count else 255
      else .ofNat (part + 1) := by
    by_cases hlast : part + 1 = f.msg.count
    · simp [← hlast]
    · have hne : f.msg.count - 1 ≠ part := by omega
      simp [hlast, hne]
  rw [entry, RxMessage.store]
  simp only [entry, length_cons, hreceived, hsegments, hexpected]

/-- Several segments, of which this one has not arrived, and no other message in flight with its
sequence number. -/
abbrev SegmentAdmissible (m : P7Sent sender crc32 checked) (part : ℕ)
    (fs : List (Flight (P7Sent sender crc32 checked) UInt32)) : Prop :=
  Admissible sequence count m part fs

abbrev ValidFlights (fs : List (Flight (P7Sent sender crc32 checked) UInt32)) : Prop :=
  Valid sequence count fs

variable {m : P7Sent sender crc32 checked} {part : ℕ} {now : UInt32}
  {fs : List (Flight (P7Sent sender crc32 checked) UInt32)}

theorem find?_map_entry (k : UInt8) :
    (fs.map entry).find? (·.sequenceNumber = k) = (lookup sequence k fs).map entry := by
  rw [find?_map]
  rfl

/-- **A segment is added to the queue as it arrives in flight.** -/
theorem rxReassemblyQueueAddSegment_refines (h : SegmentAdmissible m part fs) :
    rxReassemblyQueueAddSegment (fs.map entry) now m.sequence part (part + 1 ≠ m.count)
      (m.datagram part) = ((record sequence m part now fs).map entry,
        entry (extended sequence m part now fs)) := by
  rw [rxReassemblyQueueAddSegment]
  rw [mod_eq_of_lt (m.split.length_lt part h.lt), take_length, find?_map_entry, record, extended]
  cases hlookup : lookup sequence m.sequence fs with
  | none =>
    have hexpected : (if decide (part + 1 ≠ m.count) = true then (255 : UInt8)
        else .ofNat (part + 1)) = if m.count - 1 ∈ [part] then ofNat m.count else 255 := by
      have hlt := h.lt
      by_cases hlast : part + 1 = m.count
      · simp [← hlast]
      · have hne : m.count - 1 ≠ part := by omega
        simp [hlast, hne]
    have hsegments : Function.update (fun _ ↦ []) part (m.datagram part) =
        fun i ↦ if i ∈ [part] then m.datagram i else [] := by
      funext i
      by_cases hi : i = part
      · subst hi
        simp
      · simp [hi]
    simp only [map_none, hexpected, hsegments, map_cons, entry]
    rfl
  | some f =>
    obtain ⟨rfl, -⟩ := h.same f hlookup
    have hstore := entry_store h.lt
    simp only [map_some, ← hstore]
    refine Prod.ext ?_ rfl
    symm
    refine map_updateFirst (·.sequenceNumber = f.msg.sequence) _ entry _ fs fun g hg ↦ ?_
    obtain rfl := some.inj (hlookup.symm.trans hg)
    exact hstore

/-- **The counters agree exactly if all segments have arrived.** -/
theorem received_eq_expected_iff
    (hnodup : f.arrived.Nodup) (hlt : ∀ k ∈ f.arrived, k < f.msg.count) :
    (entry f).numSegmentsReceived = (entry f).numSegmentsExpected ↔
      f.arrived.length = f.msg.count := by
  have hcount : f.msg.count ≤ 2 ^ 7 := f.msg.length_le
  have hpos := f.msg.split.pos
  have hle : f.arrived.length ≤ f.msg.count := by
    have := (hnodup.subperm fun k hk ↦ mem_range.2 (hlt k hk)).length_le
    rwa [length_range] at this
  show ofNat f.arrived.length =
    (if f.msg.count - 1 ∈ f.arrived then .ofNat f.msg.count else 255) ↔ _
  split
  · rw [← UInt8.toNat_inj, UInt8.toNat_ofNat', UInt8.toNat_ofNat', Nat.mod_eq_of_lt (by omega),
      mod_eq_of_lt (by omega)]
  · rename_i hlast
    refine iff_of_false (fun heq ↦ ?_) fun heq ↦ hlast ?_
    · have hnat := congrArg toNat heq
      rw [toNat_ofNat', mod_eq_of_lt (by omega)] at hnat
      change f.arrived.length = 255 at hnat
      omega
    · exact (perm_range_of_nodup hnodup hlt heq).mem_iff.2 (mem_range.2 (by omega))

/-! ### Putting a message together -/

/-- What the first `n` segments contribute: the first one with its header. -/
def assembled (m : P7Sent sender crc32 checked) (n : ℕ) : List UInt8 :=
  (range n).flatMap fun i ↦ if i = 0 then m.datagram i else m.piece i

theorem assembled_succ (m : P7Sent sender crc32 checked) (n : ℕ) :
    assembled m (n + 1) = assembled m n ++ if n = 0 then m.datagram n else m.piece n := by
  rw [assembled, range_succ, flatMap_append, flatMap_singleton]
  rfl

/-- **All of them make up the message.** -/
theorem assembled_count (m : P7Sent sender crc32 checked) :
    ∃ header : NrP7Header, assembled m m.count = header.toBytes ++ m.msg.body ∧
      p7GetSequence header.mSegmentSequence = m.sequence := by
  obtain ⟨header, hseg⟩ := m.split.segment 0 m.split.pos
  refine ⟨header, ?_, ?_⟩
  · obtain ⟨n, hn⟩ := exists_eq_succ_of_ne_zero m.split.pos.ne'
    rw [← m.split.body, hn, assembled, range_succ_eq_map, flatMap_cons, flatMap_cons,
      if_pos rfl, hseg.datagram_eq, append_assoc]
    refine congrArg (header.toBytes ++ ·) (congrArg (m.piece 0 ++ ·) ?_)
    refine flatMap_congr fun i hi ↦ ?_
    obtain ⟨j, -, rfl⟩ := mem_map.1 hi
    exact if_neg (succ_ne_zero j)
  · rw [hseg.mss_eq, p7GetSequence_segmentMss m.sequenceNumber (by decide)]
    rfl

theorem assembled_length_mono (m : P7Sent sender crc32 checked) (h : n ≤ k) :
    (assembled m n).length ≤ (assembled m k).length := by
  induction h with
  | refl => exact le_rfl
  | step _ ih =>
    rw [assembled_succ, length_append]
    exact ih.trans (le_add_right _ _)

theorem length_datagram (hk : k < m.count) :
    (m.datagram k).length = nrP7HeaderLength + (m.piece k).length := by
  obtain ⟨header, hseg⟩ := m.split.segment k hk
  rw [hseg.datagram_eq, length_append, length_toBytes]

/-- A message in flight all of whose segments have arrived. -/
structure Complete (f : Flight (P7Sent sender crc32 checked) UInt32) : Prop where
  segments : ∀ k < f.msg.count, (entry f).segments k = f.msg.datagram k
  expected : (entry f).numSegmentsExpected.toNat = f.msg.count

theorem complete_of_length (hnodup : f.arrived.Nodup) (hlt : ∀ k ∈ f.arrived, k < f.msg.count)
    (hlen : f.arrived.length = f.msg.count) : Complete f := by
  have hmem (k : ℕ) (hk : k < f.msg.count) : k ∈ f.arrived :=
    (perm_range_of_nodup hnodup hlt hlen).mem_iff.2 (mem_range.2 hk)
  have hcount : f.msg.count ≤ 2 ^ 7 := f.msg.length_le
  have hpos := f.msg.split.pos
  refine ⟨fun k hk ↦ if_pos (hmem k hk), ?_⟩
  show (if f.msg.count - 1 ∈ f.arrived then ofNat f.msg.count else 255).toNat = _
  rw [if_pos (hmem _ (by omega)), toNat_ofNat', mod_eq_of_lt (by omega)]

/-- The length is counted modulo 2¹⁶. -/
theorem length_foldl (h : Complete f) (hn : n ≤ f.msg.count) :
    (range n).foldl (fun (length : UInt16) i ↦
      length + (.ofNat ((entry f).segments i).length - if i > 0 then 18 else 0)) 0 =
      .ofNat (assembled f.msg n).length := by
  induction n with
  | zero => rfl
  | succ n ih =>
    rw [range_succ, foldl_append, ih (le_of_succ_le hn), foldl_cons,
      foldl_nil, h.segments n hn, assembled_succ, length_append, UInt16.ofNat_add]
    congr 1
    by_cases hzero : n = 0
    · subst hzero
      simp
    · rw [if_pos (Nat.pos_of_ne_zero hzero), if_neg hzero, length_datagram hn, UInt16.ofNat_add,
        UInt16.add_comm]
      exact UInt16.add_sub_cancel _ _

theorem length_of_complete (h : Complete f) :
    (entry f).length = .ofNat (nrP7HeaderLength + f.msg.msg.body.length) := by
  obtain ⟨header, heq, -⟩ := assembled_count f.msg
  rw [RxMessage.length, h.expected, length_foldl h le_rfl, heq, length_append, length_toBytes]

/-- The message and its header have less than 2¹⁶ bytes. -/
def P7Sent.Fits (m : P7Sent sender crc32 checked) : Prop :=
  nrP7HeaderLength + m.msg.body.length < 2 ^ 16

/-- The buffer and the offset after `n` segments have been copied. -/
theorem copySegments_of_fits (h : Complete f) (hfits : f.msg.Fits)
    (hbuffer : nrP7HeaderLength + f.msg.msg.body.length ≤ buffer.length) (hn : n ≤ f.msg.count) :
    (range n).foldlM (copySegment (entry f)) (buffer, 0) =
      some (assembled f.msg n ++ buffer.drop (assembled f.msg n).length,
        .ofNat (assembled f.msg n).length) := by
  obtain ⟨header, heq, -⟩ := assembled_count f.msg
  have htotal : (assembled f.msg f.msg.count).length =
      nrP7HeaderLength + f.msg.msg.body.length := by
    rw [heq, length_append, length_toBytes]
  induction n with
  | zero => rfl
  | succ n ih =>
    have hroom := assembled_length_mono f.msg hn
    rw [htotal, assembled_succ, length_append] at hroom
    have hoffset : (UInt16.ofNat (assembled f.msg n).length).toNat = (assembled f.msg n).length := by
      refine UInt16.toNat_ofNat_of_lt' (lt_of_le_of_lt ?_ hfits)
      exact (le_add_right _ _).trans hroom
    -- the copy goes behind what has been copied before
    have hcopy (data : List UInt8)
        (hdata : (assembled f.msg n).length + data.length ≤ buffer.length) :
        copyAt (assembled f.msg n ++ buffer.drop (assembled f.msg n).length)
          (assembled f.msg n).length data = some (assembled f.msg n ++ data ++
            buffer.drop ((assembled f.msg n).length + data.length)) := by
      rw [copyAt, if_pos, overwrite, take_left, drop_append, drop_of_length_le,
        nil_append, drop_drop]
      · congr 3
        omega
      · omega
      · rw [length_append, length_drop]
        omega
    rw [range_succ, foldlM_append, ih (le_of_succ_le hn)]
    show (copySegment (entry f) _ n >>= fun s ↦ some s) = _
    rw [bind_eq_bind, bind_fun_some, copySegment, h.segments n hn, assembled_succ]
    by_cases hzero : n = 0
    · subst hzero
      have hcopy := hcopy (f.msg.datagram 0) (hroom.trans hbuffer)
      rw [if_pos rfl, if_pos rfl]
      show (copyAt _ (assembled f.msg 0).length (f.msg.datagram 0)).map _ = _
      rw [hcopy, map_some, length_append, UInt16.ofNat_add]
    · rw [if_neg hzero] at hroom
      rw [if_neg hzero, if_neg hzero]
      have hcopy := hcopy (f.msg.piece n) (hroom.trans hbuffer)
      have hge : ¬ (f.msg.datagram n).length < nrP7HeaderLength := by
        rw [length_datagram hn]
        exact not_lt.2 (le_add_right _ _)
      rw [if_neg hge, hoffset]
      show (copyAt _ _ (f.msg.piece n)).map _ = _
      rw [hcopy, map_some, length_append, UInt16.ofNat_add]
      rfl

/-- The message with the header of its first segment. -/
def P7Sent.DeliveredAs (m : P7Sent sender crc32 checked) (d : List UInt8) : Prop :=
  ∃ header : NrP7Header, d = header.toBytes ++ m.msg.body ∧
    p7GetSequence header.mSegmentSequence = m.sequence

/-- **A message of less than 2¹⁶ bytes is put together**, whatever buffer there is. -/
theorem reassemble_of_fits (h : Complete f) (hfits : f.msg.Fits) (buffer : List UInt8) :
    ∃ buffer' d, reassemble buffer (entry f) = some (buffer', d) ∧ f.msg.DeliveredAs d := by
  obtain ⟨header, heq, hsequence⟩ := assembled_count f.msg
  have hlength : (entry f).length.toNat = nrP7HeaderLength + f.msg.msg.body.length := by
    rw [length_of_complete h]
    exact UInt16.toNat_ofNat_of_lt' hfits
  have hassembled : (header.toBytes ++ f.msg.msg.body).length =
      nrP7HeaderLength + f.msg.msg.body.length := by
    rw [length_append, length_toBytes]
  rw [reassemble]
  rw [hlength, h.expected]
  obtain ⟨start, hstart⟩ : ∃ start, start =
      if buffer.length < nrP7HeaderLength + f.msg.msg.body.length then
        replicate (nrP7HeaderLength + f.msg.msg.body.length) 0 else buffer := ⟨_, rfl⟩
  have hroom : nrP7HeaderLength + f.msg.msg.body.length ≤ start.length := by
    rw [hstart]
    split
    · rw [length_replicate]
    · exact not_lt.1 ‹_›
  rw [← hstart, copySegments_of_fits h hfits hroom le_rfl, map_some, heq]
  refine ⟨_, _, rfl, header, ?_, hsequence⟩
  rw [← hassembled, take_left]

/-- What is dispatched never has more bytes. -/
theorem length_of_reassemble {msg : RxMessage}
    (h : reassemble buffer msg = some (buffer', d)) : d.length < 2 ^ 16 := by
  obtain ⟨⟨buffer'', offset⟩, -, heq⟩ := map_eq_some_iff.1 h
  cases heq
  exact (length_take_le _ _).trans_lt msg.length.toNat_lt

/-! ### One segment -/

theorem map_eraseP_entry (k : UInt8) :
    (fs.map entry).eraseP (·.sequenceNumber = k) =
      (fs.eraseP fun f ↦ f.msg.sequence = k).map entry := by
  rw [eraseP_map]
  rfl

/-- The last segment but for one, or an earlier one. -/
theorem handleSegment_of_incomplete (h : SegmentAdmissible m part fs) (hfs : ValidFlights fs)
    (hlen : (extended sequence m part now fs).arrived.length ≠ m.count) (buffer : List UInt8) :
    handleSegment { msgQueue := fs.map entry, reassemblyBuffer := buffer } now m.sequence part
      (part + 1 ≠ m.count) (m.datagram part) =
      some ({ msgQueue := (arrive sequence count m part now fs).1.map entry,
              reassemblyBuffer := buffer }, []) := by
  obtain ⟨hnodup, hlt, -⟩ := h.nodup_extended hfs now
  have hmsg : (extended sequence m part now fs).msg = m := h.msg_extended
  have hneq : ¬ (entry (extended sequence m part now fs)).numSegmentsReceived =
      (entry (extended sequence m part now fs)).numSegmentsExpected := by
    rw [received_eq_expected_iff hnodup (hmsg.symm ▸ hlt), hmsg]
    exact hlen
  rw [handleSegment]
  dsimp only
  rw [rxReassemblyQueueAddSegment_refines h, if_neg hneq, arrive, if_neg hlen]

/-- The last one. -/
theorem handleSegment_of_complete (h : SegmentAdmissible m part fs) (hfs : ValidFlights fs)
    (hlen : (extended sequence m part now fs).arrived.length = m.count) (buffer : List UInt8) :
    Complete (extended sequence m part now fs) ∧
      handleSegment { msgQueue := fs.map entry, reassemblyBuffer := buffer } now m.sequence part
        (part + 1 ≠ m.count) (m.datagram part) =
      (reassemble buffer (entry (extended sequence m part now fs))).map fun r ↦
        ({ msgQueue := (arrive sequence count m part now fs).1.map entry,
           reassemblyBuffer := r.1 }, [r.2]) := by
  obtain ⟨hnodup, hlt, -⟩ := h.nodup_extended hfs now
  have hmsg : (extended sequence m part now fs).msg = m := h.msg_extended
  have hlen' : (extended sequence m part now fs).arrived.length =
      (extended sequence m part now fs).msg.count := hmsg.symm ▸ hlen
  have heq := (received_eq_expected_iff hnodup (hmsg.symm ▸ hlt)).2 hlen'
  have hsequence : (entry (extended sequence m part now fs)).sequenceNumber =
      m.sequence := congrArg sequence hmsg
  refine ⟨complete_of_length hnodup (hmsg.symm ▸ hlt) hlen', ?_⟩
  rw [handleSegment]
  dsimp only
  rw [rxReassemblyQueueAddSegment_refines h, if_pos heq, arrive, if_pos hlen,
    rxReassemblyQueueRemoveMsg, hsequence, map_eraseP_entry]

end Flights

end OaiRan.Nfapi
