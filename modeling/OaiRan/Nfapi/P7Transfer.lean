import OaiRan.Nfapi.P7Reassembly

/-!
# P7 messages from node to node

The segments of many messages arrive at a node, in any order. Next to the queues of the node goes a
record of the messages in flight (`P7Flights`), which the queues represent in every state.

If every segment of a message arrives once, while no other segment has its sequence number and the
message does not become stale, then it is dispatched once and leaves the queue, **exactly if it has
less than 2¹⁶ bytes** (`p7_message_received_iff`). A PNF cannot pack a longer message, a VNF can.
-/

namespace OaiRan.Nfapi

open ByteOrder InFlight Function P7Sent List Option

section Node

variable (node : P7Node) (crc32 : UInt32 → List UInt8 → UInt32) (checked : Bool)

/-- A segment arrives. -/
structure P7Arrival where
  sent : P7Sent node.peer crc32 checked
  part : ℕ
  clock : P7Clock

/-- The messages in flight to a node, by queue. -/
abbrev P7Flights := UInt16 → List (Flight (P7Sent node.peer crc32 checked) UInt32)

variable {node crc32 checked}

namespace P7Arrival

variable (a : P7Arrival node crc32 checked) (fs : P7Flights node crc32 checked)

def datagram : List UInt8 := a.sent.datagram a.part

/-- The queue it goes to. -/
def queue : UInt16 := node.queueOf a.sent.msg.phyId

/-- The messages in flight once it has arrived. A message of one segment never is. -/
def recorded : P7Flights node crc32 checked :=
  if a.sent.count = 1 then fs
  else update fs a.queue (arrive sequence count a.sent a.part a.clock.rxHrTime (fs a.queue)).1

/-- Whether stale messages are then removed: not by a VNF that has got a whole message. -/
def removes : Bool := node = .pnf ∨ a.sent.count ≠ 1

/-- Whether a message in flight is then too old. -/
def finds (f : Flight (P7Sent node.peer crc32 checked) UInt32) : Bool :=
  a.removes && stale (node.removalTime a.clock) f.since

/-- The messages in flight afterwards. -/
def next : P7Flights node crc32 checked :=
  update (a.recorded fs) a.queue ((a.recorded fs a.queue).filter fun f ↦ !a.finds f)

/-- Whether it is the last segment of its message that was missing. -/
def Finishes : Prop :=
  a.sent.count = 1 ∨ (extended sequence a.sent a.part a.clock.rxHrTime
    (fs a.queue)).arrived.length = a.sent.count

/-- It goes to a queue that there is, has not arrived yet, and has a sequence number of its own. -/
structure Arrives (connected : UInt16 → Bool) : Prop where
  lt : a.part < a.sent.count
  connected : connected a.queue = true
  admissible : a.sent.count ≠ 1 → SegmentAdmissible a.sent a.part (fs a.queue)

/-- The same, of a message that fits. -/
structure Allowed (connected : UInt16 → Bool) : Prop extends a.Arrives fs connected where
  fits : a.sent.Fits

end P7Arrival

/-- **The queues of the node represent the messages in flight.** -/
structure Represents (connected : UInt16 → Bool) (rxs : P7Rxs)
    (fs : P7Flights node crc32 checked) : Prop where
  valid : ∀ q, ValidFlights (fs q)
  queue : ∀ q, connected q = true → ∃ rx, rxs.queues q = some rx ∧ rx.msgQueue = (fs q).map entry

variable {connected : UInt16 → Bool} {rxs : P7Rxs} {fs : P7Flights node crc32 checked}
  {a : P7Arrival node crc32 checked}

/-! ### The parts of a node's turn -/

variable {rx : P7Rx} {rxs' : P7Rxs} {ds : List (List UInt8)} {part : ℕ}
  {as : List (P7Arrival node crc32 checked)}

theorem Represents.set (h : Represents connected rxs fs) (q : UInt16) (hl : ValidFlights l)
    (hrx : rx.msgQueue = l.map entry) : Represents connected (rxs.set q rx) (update fs q l) := by
  refine ⟨fun q' ↦ ?_, fun q' hq' ↦ ?_⟩
  · by_cases heq : q' = q
    · subst heq
      rwa [update_self]
    · rw [update_of_ne heq]
      exact h.valid q'
  · by_cases heq : q' = q
    · subst heq
      exact ⟨rx, by simp [P7Rxs.set], by rw [update_self, hrx]⟩
    · obtain ⟨rx', hrx', hqueue⟩ := h.queue q' hq'
      exact ⟨rx', by simpa [P7Rxs.set, heq] using hrx', by rw [update_of_ne heq, hqueue]⟩

theorem removeOldMsgs_map_entry
    (l : List (Flight (P7Sent node.peer crc32 checked) UInt32)) (now : UInt32) :
    rxReassemblyQueueRemoveOldMsgs (l.map entry) now =
      (l.filter fun f ↦ !stale now f.since).map entry := by
  rw [rxReassemblyQueueRemoveOldMsgs, List.filter_map]
  rfl

theorem Represents.removeOldMsgs (h : Represents connected rxs fs)
    (hq : connected q = true) (now : UInt32) :
    Represents connected (rxs.removeOldMsgs q now)
      (update fs q ((fs q).filter fun f ↦ !stale now f.since)) := by
  obtain ⟨rx, hrx, hqueue⟩ := h.queue q hq
  rw [P7Rxs.removeOldMsgs, hrx]
  refine h.set q ((h.valid q).filter _) ?_
  rw [hqueue]
  exact removeOldMsgs_map_entry _ _

/-- The header of a segment and its checksum. -/
theorem unpack_datagram (hlt : a.part < a.sent.count) :
    ∃ header, nrP7MessageHeaderUnpack a.datagram = some header ∧
      header.phyId = a.sent.msg.phyId ∧ header.mSegmentSequence =
        segmentMss (a.part + 1 ≠ a.sent.count) a.part a.sent.sequenceNumber ∧
      ¬ (checked ∧ nrCalculateChecksum crc32 a.datagram a.datagram.length ≠ header.checksum) := by
  obtain ⟨header, hseg⟩ := a.sent.split.segment a.part hlt
  refine ⟨header, ?_, hseg.phyId_eq, hseg.mss_eq, ?_⟩
  · rw [P7Arrival.datagram, hseg.datagram_eq, nrP7MessageHeaderUnpack_toBytes]
  · rintro ⟨hchecksum, hne⟩
    exact hne (hseg.checksum_eq hchecksum).symm

theorem part_lt (hlt : a.part < a.sent.count) : a.part < 2 ^ 7 :=
  hlt.trans_le (show a.sent.count ≤ 2 ^ 7 from a.sent.length_le)

/-- **A message of one segment** is dispatched at once. -/
theorem nrHandleP7Message_of_single (rxs : P7Rxs) (hlt : a.part < a.sent.count)
    (hone : a.sent.count = 1) :
    nrHandleP7Message node checked crc32 rxs a.clock a.datagram =
      some (if a.removes then rxs.removeOldMsgs a.queue (node.removalTime a.clock) else rxs,
        [a.datagram]) ∧ a.sent.DeliveredAs a.datagram := by
  obtain ⟨header, hunpack, hphy, hmss, hchecksum⟩ := unpack_datagram hlt
  have hpart := part_lt hlt
  have hzero : a.part = 0 := by omega
  constructor
  · rw [nrHandleP7Message, hunpack]
    dsimp only
    rw [if_neg hchecksum, hmss, p7GetMore_segmentMss _ hpart, p7GetSegment_segmentMss _ hpart,
      if_pos (by simp [hzero, hone]), hphy]
    cases node <;> simp [P7Arrival.removes, hone, P7Arrival.queue]
  · obtain ⟨header', hassembled, hsequence⟩ := assembled_count a.sent
    refine ⟨header', ?_, hsequence⟩
    rw [← hassembled, hone, P7Arrival.datagram, hzero]
    simp [assembled]

/-- **A segment** goes to the queue of its PHY. -/
theorem nrHandleP7Message_of_segment (hlt : a.part < a.sent.count) (hone : a.sent.count ≠ 1)
    (hrx : rxs.queues a.queue = some rx) :
    nrHandleP7Message node checked crc32 rxs a.clock a.datagram =
      (handleSegment rx a.clock.rxHrTime a.sent.sequence a.part (a.part + 1 ≠ a.sent.count)
        a.datagram).map fun r ↦
          ((rxs.set a.queue r.1).removeOldMsgs a.queue (node.removalTime a.clock), r.2) := by
  obtain ⟨header, hunpack, hphy, hmss, hchecksum⟩ := unpack_datagram hlt
  have hpart := part_lt hlt
  have hsegment : ¬ ((!decide (a.part + 1 ≠ a.sent.count)) = true ∧ a.part = 0) := by
    rintro ⟨hlast, hzero⟩
    rw [hzero] at hlast
    exact hone (Eq.symm (by simpa using hlast))
  rw [nrHandleP7Message, hunpack]
  dsimp only
  rw [if_neg hchecksum, hmss, p7GetMore_segmentMss _ hpart, p7GetSegment_segmentMss _ hpart,
    if_neg hsegment, hphy, p7GetSequence_segmentMss _ hpart]
  rw [show rxs.queues (node.queueOf a.sent.msg.phyId) = some rx from hrx]
  rfl

/-! ### A turn keeps the representation -/

theorem next_of_removes (hremoves : a.removes = true) : a.next fs =
    update (a.recorded fs) a.queue ((a.recorded fs a.queue).filter fun f ↦
      !stale (node.removalTime a.clock) f.since) := by
  simp only [P7Arrival.next, P7Arrival.finds, hremoves, Bool.true_and]

theorem next_of_not_removes (hremoves : a.removes = false) : a.next fs = a.recorded fs := by
  simp [P7Arrival.next, P7Arrival.finds, hremoves]

section

variable (h : Represents connected rxs fs) (ha : a.Arrives fs connected)
include h ha

theorem Represents.single (hone : a.sent.count = 1) :
    Represents connected
      (if a.removes then rxs.removeOldMsgs a.queue (node.removalTime a.clock) else rxs)
      (a.next fs) := by
  have hrecorded : a.recorded fs = fs := if_pos hone
  cases hremoves : a.removes with
  | true =>
    rw [if_pos rfl, next_of_removes hremoves, hrecorded]
    exact h.removeOldMsgs ha.connected _
  | false =>
    rw [if_neg Bool.false_ne_true, next_of_not_removes hremoves, hrecorded]
    exact h

/-- The queue is left as `handleSegment` leaves it. -/
theorem Represents.segment (hone : a.sent.count ≠ 1) (hrx : rx.msgQueue =
      (arrive sequence count a.sent a.part a.clock.rxHrTime (fs a.queue)).1.map entry) :
    Represents connected ((rxs.set a.queue rx).removeOldMsgs a.queue (node.removalTime a.clock))
      (a.next fs) := by
  have hremoves : a.removes = true := by simp [P7Arrival.removes, hone]
  have hset := h.set a.queue ((h.valid a.queue).arrive (ha.admissible hone)) hrx
  rw [next_of_removes hremoves, P7Arrival.recorded, if_neg hone]
  exact hset.removeOldMsgs ha.connected _

/-- **One turn**: the representation is kept, and something is dispatched exactly with the last
segment: the message, or less than 2¹⁶ bytes of one that does not fit. -/
theorem nrHandleP7Message_refines
    (hstep : nrHandleP7Message node checked crc32 rxs a.clock a.datagram = some (rxs', ds)) :
    Represents connected rxs' (a.next fs) ∧ (¬ a.Finishes fs → ds = []) ∧
      (a.Finishes fs → ∃ d, ds = [d] ∧ (a.sent.Fits → a.sent.DeliveredAs d) ∧
        (¬ a.sent.Fits → d.length < 2 ^ 16)) := by
  by_cases hone : a.sent.count = 1
  · obtain ⟨heq, hdelivered⟩ := nrHandleP7Message_of_single rxs ha.lt hone
    obtain ⟨rfl, rfl⟩ := Prod.mk.inj (some.inj (heq.symm.trans hstep))
    refine ⟨h.single ha hone, fun hf ↦ absurd (.inl hone) hf,
      fun _ ↦ ⟨_, rfl, fun _ ↦ hdelivered, fun _ ↦ ?_⟩⟩
    exact a.sent.split.length_lt a.part ha.lt
  · obtain ⟨⟨queue, buffer⟩, hrx, rfl⟩ := h.queue a.queue ha.connected
    have hadm := ha.admissible hone
    rw [nrHandleP7Message_of_segment ha.lt hone hrx] at hstep
    obtain ⟨⟨rx', ds'⟩, hseg, heq⟩ := map_eq_some_iff.1 hstep
    cases heq
    by_cases hlen : (extended sequence a.sent a.part a.clock.rxHrTime
        (fs a.queue)).arrived.length = a.sent.count
    · have hcomplete := handleSegment_of_complete hadm (h.valid _) hlen buffer
      rw [P7Arrival.datagram, hcomplete.2] at hseg
      obtain ⟨⟨buffer', d⟩, hreassemble, heq⟩ := map_eq_some_iff.1 hseg
      cases heq
      refine ⟨h.segment ha hone rfl, fun hf ↦ absurd (.inr hlen) hf,
        fun _ ↦ ⟨d, rfl, fun hfits ↦ ?_, fun _ ↦ length_of_reassemble hreassemble⟩⟩
      have hmsg : (extended sequence a.sent a.part a.clock.rxHrTime
          (fs a.queue)).msg = a.sent := hadm.msg_extended
      obtain ⟨buffer'', d', heq, hdelivered⟩ :=
        reassemble_of_fits hcomplete.1 (hmsg.symm ▸ hfits) buffer
      rw [hreassemble] at heq
      cases heq
      exact hmsg ▸ hdelivered
    · rw [P7Arrival.datagram, handleSegment_of_incomplete hadm (h.valid _) hlen buffer] at hseg
      cases hseg
      refine ⟨h.segment ha hone rfl, fun _ ↦ rfl, fun hf ↦ ?_⟩
      exact absurd hf (not_or.2 ⟨hone, hlen⟩)

/-- A message that fits never leads to an undefined copy. -/
theorem nrHandleP7Message_isSome (hfits : a.sent.Fits) :
    ∃ rxs' ds, nrHandleP7Message node checked crc32 rxs a.clock a.datagram = some (rxs', ds) := by
  by_cases hone : a.sent.count = 1
  · exact ⟨_, _, (nrHandleP7Message_of_single rxs ha.lt hone).1⟩
  · obtain ⟨⟨queue, buffer⟩, hrx, rfl⟩ := h.queue a.queue ha.connected
    have hadm := ha.admissible hone
    rw [nrHandleP7Message_of_segment ha.lt hone hrx]
    by_cases hlen : (extended sequence a.sent a.part a.clock.rxHrTime
        (fs a.queue)).arrived.length = a.sent.count
    · have hcomplete := handleSegment_of_complete hadm (h.valid _) hlen buffer
      have hmsg : (extended sequence a.sent a.part a.clock.rxHrTime
          (fs a.queue)).msg = a.sent := hadm.msg_extended
      obtain ⟨buffer', d, heq, -⟩ := reassemble_of_fits hcomplete.1 (hmsg.symm ▸ hfits) buffer
      rw [P7Arrival.datagram, hcomplete.2, heq]
      exact ⟨_, _, rfl⟩
    · rw [P7Arrival.datagram, handleSegment_of_incomplete hadm (h.valid _) hlen buffer]
      exact ⟨_, _, rfl⟩

end

/-! ### The segments of one message -/

variable (node checked crc32) in
/-- Datagrams arrive one after the other. -/
def nrHandleP7Messages : P7Rxs → List (P7Clock × List UInt8) → Option (P7Rxs × List (List UInt8))
  | rxs, [] => some (rxs, [])
  | rxs, (clock, msg) :: msgs => do
    let (rxs, ds) ← nrHandleP7Message node checked crc32 rxs clock msg
    let (rxs, ds') ← nrHandleP7Messages rxs msgs
    return (rxs, ds ++ ds')

/-- Where a message is on its way: `todo` are the segments that are still to arrive. -/
inductive Phase (m : P7Sent node.peer crc32 checked)
    (l : List (Flight (P7Sent node.peer crc32 checked) UInt32)) (todo : List ℕ) : Prop
  | waiting (hnone : lookup sequence m.sequence l = none) (hperm : todo.Perm (range m.count))
  | flying (f : Flight (P7Sent node.peer crc32 checked) UInt32)
      (hsome : lookup sequence m.sequence l = some f) (hmsg : f.msg = m)
      (hseveral : m.count ≠ 1) (hperm : (f.arrived ++ todo).Perm (range m.count))
  | done (hnone : lookup sequence m.sequence l = none) (hnil : todo = [])

variable {m : P7Sent node.peer crc32 checked} {todo : List ℕ}
  {l : List (Flight (P7Sent node.peer crc32 checked) UInt32)}

/-- A message of which a segment is still to arrive. -/
theorem Phase.admissible (h : Phase m l (part :: todo)) :
    part < m.count ∧ (m.count ≠ 1 → SegmentAdmissible m part l) := by
  cases h with
  | waiting hnone hperm =>
    have hlt : part < m.count := mem_range.1 (hperm.mem_iff.1 mem_cons_self)
    exact ⟨hlt, fun hone ↦ ⟨hlt, by omega, fun f hf ↦ absurd hf (by rw [hnone]; nofun)⟩⟩
  | flying f hsome hmsg hseveral hperm =>
    have hlt : part < m.count := mem_range.1 (hperm.mem_iff.1 (mem_append_right _ mem_cons_self))
    refine ⟨hlt, fun _ ↦ ⟨hlt, by omega, fun f' hf' ↦ ?_⟩⟩
    obtain rfl := some.inj (hsome.symm.trans hf')
    have hnodup := hperm.nodup_iff.2 nodup_range
    exact ⟨hmsg, fun hmem ↦ (nodup_append.1 hnodup).2.2 part hmem part mem_cons_self rfl⟩
  | done _ hnil => cases hnil

/-- The next segment of the message arrives. -/
theorem Phase.arrive (h : Phase m l (part :: todo)) (hl : ValidFlights l) (hone : m.count ≠ 1)
    (now : UInt32) :
    Phase m (arrive sequence count m part now l).1 todo ∧
      ((extended sequence m part now l).arrived.length = m.count ↔ todo = []) := by
  have hadm := h.admissible.2 hone
  -- what has arrived, and what has not
  have hperm : ((extended sequence m part now l).arrived ++ todo).Perm (range m.count) := by
    rw [extended]
    cases h with
    | waiting hnone hperm => rwa [hnone]
    | flying f hsome hmsg hseveral hperm =>
      rw [hsome]
      exact (perm_middle.symm).trans hperm
    | done _ hnil => cases hnil
  have hlen := hperm.length_eq
  rw [length_append, length_range] at hlen
  have hiff : (extended sequence m part now l).arrived.length = m.count ↔ todo = [] := by
    rw [← length_eq_zero_iff]
    omega
  refine ⟨?_, hiff⟩
  rw [InFlight.arrive]
  split
  · rename_i hfull
    exact .done (lookup_eraseP_self (keys_record hl.keys) _) (hiff.1 hfull)
  · exact .flying _ lookup_record_self hadm.msg_extended hone hperm

/-- Nothing happens to the flight of the message. -/
theorem Phase.congr (h : Phase m l todo)
    (hlookup : lookup sequence m.sequence l' = lookup sequence m.sequence l) : Phase m l' todo := by
  cases h with
  | waiting hnone hperm => exact .waiting (hlookup.trans hnone) hperm
  | flying f hsome hmsg hseveral hperm => exact .flying f (hlookup.trans hsome) hmsg hseveral hperm
  | done hnone hnil => exact .done (hlookup.trans hnone) hnil

/-- The message is not found to be too old when the segment has arrived. -/
def P7Arrival.Spares (a : P7Arrival node crc32 checked)
    (fs : P7Flights node crc32 checked) (m : P7Sent node.peer crc32 checked) :
    Prop :=
  ∀ f, lookup sequence m.sequence (a.recorded fs (node.queueOf m.msg.phyId)) = some f →
    a.queue = node.queueOf m.msg.phyId → a.finds f = false

theorem lookup_next (hv : ValidFlights (a.recorded fs (node.queueOf m.msg.phyId)))
    (hspares : a.Spares fs m) :
    lookup sequence m.sequence (a.next fs (node.queueOf m.msg.phyId)) =
      lookup sequence m.sequence (a.recorded fs (node.queueOf m.msg.phyId)) := by
  rw [P7Arrival.next]
  by_cases hq : node.queueOf m.msg.phyId = a.queue
  · rw [hq, update_self]
    rw [hq] at hv
    refine lookup_filter (fun f hf ↦ ?_) hv.keys
    rw [hspares f (by rwa [hq]) hq.symm]
    rfl
  · rw [update_of_ne hq]

/-- A run of arrivals: the segments with the sequence number of `m` are its own, the others are
allowed, and `m` does not become stale. -/
def Undisturbed (connected : UInt16 → Bool) (m : P7Sent node.peer crc32 checked) :
    P7Flights node crc32 checked → List (P7Arrival node crc32 checked) → Prop
  | _, [] => True
  | fs, a :: as =>
    (if a.sent.sequence = m.sequence then a.sent = m else a.Allowed fs connected) ∧
      a.Spares fs m ∧ Undisturbed connected m (a.next fs) as

/-- The segments of `m` among the arrivals. -/
def ownParts (m : P7Sent node.peer crc32 checked)
    (as : List (P7Arrival node crc32 checked)) : List ℕ :=
  (as.filter fun a ↦ a.sent.sequence = m.sequence).map P7Arrival.part

/-- Once all segments have arrived, the message is in flight no longer. -/
theorem Phase.lookup_eq_none (h : Phase m l []) (hl : ValidFlights l) :
    lookup sequence m.sequence l = none := by
  cases h with
  | waiting hnone hperm => exact hnone
  | flying f hsome hmsg hseveral hperm =>
    have hlen := hperm.length_eq
    rw [append_nil, length_range, ← hmsg] at hlen
    exact absurd hlen (hl.flight f (mem_of_lookup hsome).1).incomplete.ne
  | done hnone _ => exact hnone

theorem valid_recorded (h : Represents connected rxs fs) (ha : a.Arrives fs connected)
    (q : UInt16) : ValidFlights (a.recorded fs q) := by
  rw [P7Arrival.recorded]
  split
  · exact h.valid q
  · rename_i hone
    by_cases hq : q = a.queue
    · subst hq
      rw [update_self]
      exact (h.valid a.queue).arrive (ha.admissible hone)
    · rw [update_of_ne hq]
      exact h.valid q

/-- **A segment of the message itself.** -/
theorem Phase.own (h : Phase a.sent (fs a.queue) (a.part :: todo))
    (hrep : Represents connected rxs fs) (hconnected : connected a.queue = true)
    (hspares : a.Spares fs a.sent) :
    a.Arrives fs connected ∧ Phase a.sent (a.next fs a.queue) todo ∧
      (a.Finishes fs ↔ todo = []) := by
  obtain ⟨hlt, hadm⟩ := h.admissible
  have ha : a.Arrives fs connected := ⟨hlt, hconnected, hadm⟩
  have hlookup := lookup_next (m := a.sent) (valid_recorded hrep ha _) hspares
  refine ⟨ha, ?_⟩
  by_cases hone : a.sent.count = 1
  · have hrecorded : a.recorded fs = fs := if_pos hone
    rw [hrecorded] at hlookup
    cases h with
    | waiting hnone hperm =>
      have hlen := hperm.length_eq
      rw [hone, length_cons, length_range, Nat.succ.injEq] at hlen
      have hnil := length_eq_zero_iff.1 hlen
      exact ⟨.done (hlookup.trans hnone) hnil, iff_of_true (.inl hone) hnil⟩
    | flying f hsome hmsg hseveral hperm => exact absurd hone hseveral
    | done _ hnil => cases hnil
  · obtain ⟨hphase, hiff⟩ := h.arrive (hrep.valid _) hone a.clock.rxHrTime
    have hrecorded : a.recorded fs a.queue = (InFlight.arrive sequence count a.sent a.part
        a.clock.rxHrTime (fs a.queue)).1 := by
      rw [P7Arrival.recorded, if_neg hone, update_self]
    exact ⟨(hrecorded ▸ hphase).congr hlookup, (or_iff_right hone).trans hiff⟩

/-- **A segment of another message.** -/
theorem Phase.other (h : Phase m (fs (node.queueOf m.msg.phyId)) todo)
    (hrep : Represents connected rxs fs) (ha : a.Arrives fs connected)
    (hne : a.sent.sequence ≠ m.sequence) (hspares : a.Spares fs m) :
    Phase m (a.next fs (node.queueOf m.msg.phyId)) todo := by
  refine h.congr ((lookup_next (valid_recorded hrep ha _) hspares).trans ?_)
  rw [P7Arrival.recorded]
  split
  · rfl
  · by_cases hq : node.queueOf m.msg.phyId = a.queue
    · rw [hq, update_self]
      exact lookup_arrive_of_ne hne.symm
    · rw [update_of_ne hq]

/-! ### The run -/

/-- The sequence number in the header of a message that is dispatched. -/
def dispatchedSequence (d : List UInt8) : Option UInt8 :=
  (nrP7MessageHeaderUnpack d).map fun header ↦ p7GetSequence header.mSegmentSequence

theorem dispatchedSequence_of_delivered (h : m.DeliveredAs d) :
    dispatchedSequence d = some m.sequence := by
  obtain ⟨header, rfl, hsequence⟩ := h
  rw [dispatchedSequence, nrP7MessageHeaderUnpack_toBytes, map_some, hsequence]

/-- What has been dispatched with the sequence number of the message. -/
def ownDispatches (m : P7Sent node.peer crc32 checked) (ds : List (List UInt8)) :
    List (List UInt8) :=
  ds.filter fun d ↦ dispatchedSequence d = some m.sequence

/-- Another message that fits. -/
theorem ownDispatches_other (hrep : Represents connected rxs fs) (ha : a.Allowed fs connected)
    (hne : a.sent.sequence ≠ m.sequence)
    (hstep : nrHandleP7Message node checked crc32 rxs a.clock a.datagram =
      some (rxs', ds)) : ownDispatches m ds = [] := by
  obtain ⟨-, hnil, hone⟩ := nrHandleP7Message_refines hrep ha.toArrives hstep
  by_cases hfinishes : a.Finishes fs
  · obtain ⟨d, rfl, hd, -⟩ := hone hfinishes
    refine filter_eq_nil_iff.2 fun d' hd' ↦ ?_
    rw [mem_singleton.1 hd', dispatchedSequence_of_delivered (hd ha.fits)]
    simpa using hne
  · rw [hnil hfinishes]
    rfl

/-- The datagrams of a run. -/
def datagrams (as : List (P7Arrival node crc32 checked)) : List (P7Clock × List UInt8) :=
  as.map fun a ↦ (a.clock, a.datagram)

/-- The messages in flight after a run. -/
def flightsAfter (fs : P7Flights node crc32 checked)
    (as : List (P7Arrival node crc32 checked)) : P7Flights node crc32 checked :=
  as.foldl (fun fs a ↦ a.next fs) fs

/-- What a run has dispatched of a message that fits: nothing if no segment was still to arrive, and
otherwise the message. -/
def DispatchedOnce (m : P7Sent node.peer crc32 checked) (todo : List ℕ)
    (ds : List (List UInt8)) : Prop :=
  if todo = [] then ownDispatches m ds = [] else ∃ d, ownDispatches m ds = [d] ∧ m.DeliveredAs d

theorem ownDispatches_append (ds ds' : List (List UInt8)) :
    ownDispatches m (ds ++ ds') = ownDispatches m ds ++ ownDispatches m ds' := filter_append ..

/-- The dispatches of one more segment of the message. -/
theorem DispatchedOnce.own (hiff : finishes ↔ todo = [])
    (hnil : ¬ finishes → ds = []) (hone : finishes → ∃ d, ds = [d] ∧ m.DeliveredAs d)
    (hrest : DispatchedOnce m todo ds') : DispatchedOnce m (part :: todo) (ds ++ ds') := by
  rw [DispatchedOnce, if_neg (cons_ne_nil _ _), ownDispatches_append]
  rw [DispatchedOnce] at hrest
  by_cases htodo : todo = []
  · rw [if_pos htodo] at hrest
    obtain ⟨d, rfl, hd⟩ := hone (hiff.2 htodo)
    refine ⟨d, ?_, hd⟩
    rw [hrest, append_nil]
    simp [ownDispatches, dispatchedSequence_of_delivered hd]
  · rw [if_neg htodo] at hrest
    rw [hnil fun h ↦ htodo (hiff.1 h)]
    exact hrest

theorem nrHandleP7Messages_spec (hrep : Represents connected rxs fs)
    (hconnected : connected (node.queueOf m.msg.phyId) = true)
    (hphase : Phase m (fs (node.queueOf m.msg.phyId)) (ownParts m as))
    (hrun : Undisturbed connected m fs as)
    (hstep : nrHandleP7Messages node crc32 checked rxs (datagrams as) = some (rxs', ds)) :
    Represents connected rxs' (flightsAfter fs as) ∧
      Phase m (flightsAfter fs as (node.queueOf m.msg.phyId)) [] ∧
      (m.Fits → DispatchedOnce m (ownParts m as) ds) ∧
      (¬ m.Fits → ∀ d ∈ ownDispatches m ds, d.length < 2 ^ 16) := by
  induction as generalizing rxs fs ds with
  | nil =>
    cases hstep
    exact ⟨hrep, hphase, fun _ ↦ rfl, fun _ _ hd ↦ (nomatch hd)⟩
  | cons a as ih =>
    obtain ⟨⟨rxs₁, ds₁⟩, hfirst, hstep⟩ := bind_eq_some_iff.1 hstep
    obtain ⟨⟨rxs₂, ds₂⟩, hrest, heq⟩ := bind_eq_some_iff.1 hstep
    cases heq
    obtain ⟨hhead, hspares, hrun⟩ := hrun
    by_cases hown : a.sent.sequence = m.sequence
    · rw [if_pos hown] at hhead
      subst hhead
      have hparts : ownParts a.sent (a :: as) = a.part :: ownParts a.sent as := by
        simp [ownParts]
      rw [hparts] at hphase ⊢
      obtain ⟨ha, hphase', hiff⟩ := hphase.own hrep hconnected hspares
      obtain ⟨hrep', hnil, hone⟩ := nrHandleP7Message_refines hrep ha hfirst
      obtain ⟨hrep'', hphase'', honce, hshort⟩ := ih hrep' hphase' hrun hrest
      refine ⟨hrep'', hphase'', fun hfits ↦ ?_, fun hfits d hd ↦ ?_⟩
      · refine .own hiff hnil (fun hf ↦ ?_) (honce hfits)
        obtain ⟨d, hds, hd, -⟩ := hone hf
        exact ⟨d, hds, hd hfits⟩
      · rw [ownDispatches_append, mem_append] at hd
        refine hd.elim (fun hd ↦ ?_) (hshort hfits d)
        have hmem := mem_of_mem_filter hd
        by_cases hf : a.Finishes fs
        · obtain ⟨d', rfl, -, hd'⟩ := hone hf
          exact mem_singleton.1 hmem ▸ hd' hfits
        · rw [hnil hf] at hmem
          cases hmem
    · rw [if_neg hown] at hhead
      have hparts : ownParts m (a :: as) = ownParts m as := by simp [ownParts, hown]
      rw [hparts] at hphase ⊢
      obtain ⟨hrep', -, -⟩ := nrHandleP7Message_refines hrep hhead.toArrives hfirst
      have hfilter : ownDispatches m (ds₁ ++ ds₂) = ownDispatches m ds₂ := by
        rw [ownDispatches_append, ownDispatches_other hrep hhead hown hfirst, nil_append]
      rw [DispatchedOnce, hfilter]
      exact ih hrep' (hphase.other hrep hhead.toArrives hown hspares) hrun hrest

/-- The head of a run: it arrives, and the message goes on to its next phase. -/
theorem Undisturbed.head (hrun : Undisturbed connected m fs (a :: as))
    (hrep : Represents connected rxs fs) (hconnected : connected (node.queueOf m.msg.phyId) = true)
    (hphase : Phase m (fs (node.queueOf m.msg.phyId)) (ownParts m (a :: as))) :
    a.Arrives fs connected ∧ (m.Fits → a.sent.Fits) ∧
      Phase m (a.next fs (node.queueOf m.msg.phyId)) (ownParts m as) := by
  obtain ⟨hhead, hspares, -⟩ := hrun
  by_cases hown : a.sent.sequence = m.sequence
  · rw [if_pos hown] at hhead
    subst hhead
    have hparts : ownParts a.sent (a :: as) = a.part :: ownParts a.sent as := by simp [ownParts]
    rw [hparts] at hphase
    obtain ⟨ha, hphase', -⟩ := hphase.own hrep hconnected hspares
    exact ⟨ha, id, hphase'⟩
  · rw [if_neg hown] at hhead
    have hparts : ownParts m (a :: as) = ownParts m as := by simp [ownParts, hown]
    rw [hparts] at hphase
    exact ⟨hhead.toArrives, fun _ ↦ hhead.fits, hphase.other hrep hhead.toArrives hown hspares⟩

/-- A run of messages that fit is defined. -/
theorem nrHandleP7Messages_isSome (hrep : Represents connected rxs fs)
    (hconnected : connected (node.queueOf m.msg.phyId) = true)
    (hphase : Phase m (fs (node.queueOf m.msg.phyId)) (ownParts m as))
    (hrun : Undisturbed connected m fs as) (hfits : m.Fits) :
    ∃ rxs' ds, nrHandleP7Messages node crc32 checked rxs (datagrams as) = some (rxs', ds) := by
  induction as generalizing rxs fs with
  | nil => exact ⟨_, _, rfl⟩
  | cons a as ih =>
    obtain ⟨ha, hafits, hphase'⟩ := hrun.head hrep hconnected hphase
    obtain ⟨rxs₁, ds₁, hfirst⟩ := nrHandleP7Message_isSome hrep ha (hafits hfits)
    obtain ⟨hrep', -⟩ := nrHandleP7Message_refines hrep ha hfirst
    obtain ⟨rxs₂, ds₂, hrest⟩ := ih hrep' hphase' hrun.2.2
    refine ⟨rxs₂, ds₁ ++ ds₂, ?_⟩
    show (nrHandleP7Message node checked crc32 rxs a.clock a.datagram >>= _) = _
    rw [hfirst]
    show (nrHandleP7Messages node crc32 checked rxs₁ (datagrams as) >>= _) = _
    rw [hrest]
    rfl

/-! ### The node in any state -/

variable (node crc32 checked) in
/-- A node and the messages in flight to it. -/
structure P7Link where
  rxs : P7Rxs
  flights : P7Flights node crc32 checked

variable (node crc32 checked connected) in
/-- A node, from the time when its queues are empty. -/
def p7System : StepSystem (P7Link node crc32 checked) (P7Arrival node crc32 checked) where
  init :=
    { rxs := { queues := fun q ↦ if connected q then some .init else none }
      flights := fun _ ↦ [] }
  step link a := (nrHandleP7Message node checked crc32 link.rxs a.clock a.datagram).map
    fun r ↦ { rxs := r.1, flights := a.next link.flights }

/-- Segments of messages that fit, each of which arrives at most once. -/
def P7Link.Ok (connected : UInt16 → Bool) (link : P7Link node crc32 checked)
    (a : P7Arrival node crc32 checked) : Prop := a.Allowed link.flights connected

/-- **The queues represent the messages in flight, in every state.** -/
theorem represents_of_reach {link : P7Link node crc32 checked}
    (h : (p7System node crc32 checked connected).Reach (P7Link.Ok connected) link) :
    Represents connected link.rxs link.flights := by
  refine h.invariant (P := fun link ↦ Represents connected link.rxs link.flights) ⟨?_, ?_⟩ ?_
  · exact fun q ↦ ⟨nodup_nil, fun f hf ↦ (nomatch hf)⟩
  · intro q hq
    exact ⟨.init, if_pos hq, rfl⟩
  · intro s t a hs hok hstep
    obtain ⟨⟨rxs', ds⟩, hhandle, rfl⟩ := map_eq_some_iff.1 hstep
    exact (nrHandleP7Message_refines hs hok.toArrives hhandle).1

/-- No message in the queue has the sequence number of `m`. -/
def NotHeld (m : P7Sent node.peer crc32 checked) (rxs : P7Rxs) : Prop :=
  ∀ rx, rxs.queues (node.queueOf m.msg.phyId) = some rx →
    ∀ msg ∈ rx.msgQueue, msg.sequenceNumber ≠ m.sequence

theorem notHeld_iff (hrep : Represents connected rxs fs)
    (hconnected : connected (node.queueOf m.msg.phyId) = true) :
    NotHeld m rxs ↔ lookup sequence m.sequence (fs (node.queueOf m.msg.phyId)) = none := by
  obtain ⟨rx, hrx, hqueue⟩ := hrep.queue _ hconnected
  rw [lookup_eq_none]
  constructor
  · intro h f hf
    exact h rx hrx (entry f) (hqueue ▸ mem_map_of_mem hf)
  · intro h rx' hrx' msg hmsg
    obtain rfl := some.inj (hrx.symm.trans hrx')
    rw [hqueue] at hmsg
    obtain ⟨f, hf, rfl⟩ := mem_map.1 hmsg
    exact h f hf

/-- **One message is dispatched, with the body that was sent, and the queue does not hold it.** -/
def ReceivedOnce (m : P7Sent node.peer crc32 checked) (rxs : P7Rxs)
    (dispatched : List (List UInt8)) : Prop :=
  (∃ d, ownDispatches m dispatched = [d] ∧ d.drop nrP7HeaderLength = m.msg.body) ∧ NotHeld m rxs

section Run

variable {link : P7Link node crc32 checked} {as : List (P7Arrival node crc32 checked)}

theorem not_received_of_not_fits (hrep : Represents connected link.rxs link.flights)
    (hconnected : connected (node.queueOf m.msg.phyId) = true) (hfree : NotHeld m link.rxs)
    (hparts : (ownParts m as).Perm (range m.count))
    (hrun : Undisturbed connected m link.flights as) (hfits : ¬ m.Fits) :
    ¬ ∃ rxs' ds, nrHandleP7Messages node crc32 checked link.rxs (datagrams as) =
      some (rxs', ds) ∧ ReceivedOnce m rxs' ds := by
  rintro ⟨rxs', ds, hstep, ⟨d, hd, hbody⟩, -⟩
  have hphase : Phase m (link.flights (node.queueOf m.msg.phyId)) (ownParts m as) :=
    .waiting ((notHeld_iff hrep hconnected).1 hfree) hparts
  obtain ⟨-, -, -, hshort⟩ := nrHandleP7Messages_spec hrep hconnected hphase hrun hstep
  have hlen := hshort hfits d (by rw [hd]; exact mem_singleton_self d)
  refine hfits ?_
  -- the bytes behind the header are too few
  have hdrop := congrArg length hbody
  rw [length_drop] at hdrop
  show 18 + m.msg.body.length < 2 ^ 16
  change d.length - 18 = m.msg.body.length at hdrop
  omega

/-- **A message whose segments all arrive once, undisturbed, is received exactly if it has less than
2¹⁶ bytes with its header**: in every state of the node, in any order of arrival, whatever other
messages that fit arrive in between. -/
theorem p7_message_received_iff
    (hreach : (p7System node crc32 checked connected).Reach (P7Link.Ok connected) link)
    (m : P7Sent node.peer crc32 checked)
    (hconnected : connected (node.queueOf m.msg.phyId) = true) (hfree : NotHeld m link.rxs)
    (hparts : (ownParts m as).Perm (range m.count))
    (hrun : Undisturbed connected m link.flights as) :
    (∃ rxs' ds, nrHandleP7Messages node crc32 checked link.rxs (datagrams as) =
      some (rxs', ds) ∧ ReceivedOnce m rxs' ds) ↔
      nrP7HeaderLength + m.msg.body.length < 2 ^ 16 := by
  have hrep := represents_of_reach hreach
  constructor
  · intro hreceived
    by_contra hfits
    exact not_received_of_not_fits hrep hconnected hfree hparts hrun hfits hreceived
  · intro hfits
    have hphase : Phase m (link.flights (node.queueOf m.msg.phyId)) (ownParts m as) :=
      .waiting ((notHeld_iff hrep hconnected).1 hfree) hparts
    obtain ⟨rxs', ds, hstep⟩ := nrHandleP7Messages_isSome hrep hconnected hphase hrun hfits
    obtain ⟨hrep', hphase', honce, -⟩ := nrHandleP7Messages_spec hrep hconnected hphase hrun hstep
    refine ⟨rxs', ds, hstep, ?_, (notHeld_iff hrep' hconnected).2
      (hphase'.lookup_eq_none (hrep'.valid _))⟩
    have hne : ownParts m as ≠ [] := by
      intro hnil
      have hlen := hparts.length_eq
      rw [hnil, length_range] at hlen
      exact m.split.pos.ne hlen
    have honce := honce hfits
    rw [DispatchedOnce, if_neg hne] at honce
    obtain ⟨d, hd, header, rfl, -⟩ := honce
    refine ⟨_, hd, ?_⟩
    rw [← length_toBytes header, drop_left]

end Run

/-! ### A message that travels alone -/

theorem since_of_mem_arrive (hl : ∀ f ∈ l, f.since = t)
    (hf : f ∈ (arrive sequence count m part t l).1) : f.since = t := by
  have hrecord : f ∈ record sequence m part t l := by
    rw [arrive] at hf
    split at hf
    · exact eraseP_subset hf
    · exact hf
  rcases mem_record hrecord with hf | rfl
  · exact hl f hf
  · rw [extended]
    split
    · rename_i g hg
      exact hl g (mem_of_lookup hg).1
    · rfl

/-- Nothing else arrives, and no time passes. -/
theorem undisturbed_alone (connected : UInt16 → Bool) (t : UInt32) (hown : ∀ a ∈ as, a.sent = m)
    (hclock : ∀ a ∈ as, a.clock = { rxHrTime := t, now := t })
    (hfs : ∀ f ∈ fs (node.queueOf m.msg.phyId), f.since = t) :
    Undisturbed connected m fs as := by
  induction as generalizing fs with
  | nil => trivial
  | cons a as ih =>
    have hsent := hown a mem_cons_self
    subst hsent
    have hrecorded : ∀ f ∈ a.recorded fs a.queue, f.since = t := by
      rw [P7Arrival.recorded]
      split
      · exact hfs
      · rw [update_self, hclock a mem_cons_self]
        exact fun f hf ↦ since_of_mem_arrive hfs hf
    refine ⟨by rw [if_pos rfl], fun f hf _ ↦ ?_, ?_⟩
    · have hsince := hrecorded f (mem_of_lookup hf).1
      have hremoval : node.removalTime a.clock = t := by
        rw [hclock a mem_cons_self]
        cases node <;> rfl
      rw [P7Arrival.finds, hremoval, hsince]
      simp [stale]
    · refine ih (fun b hb ↦ hown b (mem_cons_of_mem a hb))
        (fun b hb ↦ hclock b (mem_cons_of_mem a hb)) fun f hf ↦ ?_
      change f ∈ a.next fs a.queue at hf
      rw [P7Arrival.next, update_self] at hf
      exact hrecorded f (mem_of_mem_filter hf)

end Node

/-- All segments of a message, in order. -/
def inOrder {node : P7Node} {crc32 : UInt32 → List UInt8 → UInt32} {checked : Bool}
    (m : P7Sent node.peer crc32 checked) : List (P7Arrival node crc32 checked) :=
  (range m.count).map fun part ↦ { sent := m, part, clock := { rxHrTime := 0, now := 0 } }

theorem ownParts_inOrder {node : P7Node} (m : P7Sent node.peer crc32 checked) :
    ownParts m (inOrder m) = List.range m.count := by
  simp [ownParts, inOrder, List.filter_map, Function.comp_def]

theorem undisturbed_inOrder {node : P7Node} (m : P7Sent node.peer crc32 checked)
    (connected : UInt16 → Bool) : Undisturbed connected m (fun _ ↦ []) (inOrder m) := by
  refine undisturbed_alone connected 0 (fun a ha ↦ ?_) (fun a ha ↦ ?_) fun f hf ↦ (nomatch hf)
  all_goals
    obtain ⟨part, -, rfl⟩ := mem_map.1 ha
    rfl

/-- A message that a VNF without checksums sends in several segments. -/
theorem exists_vnf_sent (segmentSize : ℕ) (body : List UInt8)
    (hheader : nrP7HeaderLength < segmentSize) (hlt : segmentSize < 2 ^ 16)
    (hseveral : segmentSize < nrP7HeaderLength + body.length)
    (hpacks : nrP7HeaderLength + body.length ≤ 1024 * 1024 * 3)
    (hcount : body.length / (segmentSize - nrP7HeaderLength) +
      (if body.length % (segmentSize - nrP7HeaderLength) ≠ 0 then 1 else 0) ≤ 2 ^ 7) :
    ∃ m : P7Sent P7Node.pnf.peer (fun _ _ ↦ 0) false, m.msg.body = body ∧
      m.cfg.segmentSize = segmentSize ∧ m.msg.phyId = 0 := by
  let cfg : P7Config := { segmentSize, checksumEnabled := false, header_lt := hheader, lt := hlt }
  let msg : NrP7Message := { phyId := 0, messageId := 0, transmitTimestamp := 0, body }
  have hpack : nrP7MessagePack msg (p7SetMss 0 0 1) P7Node.vnf.txBufferSize =
      some ((msg.header (p7SetMss 0 0 1)).toBytes ++ body) := if_pos hpacks
  have hlen : ((msg.header (p7SetMss 0 0 1)).toBytes ++ body).length =
      nrP7HeaderLength + body.length := by
    rw [List.length_append, length_toBytes]
  obtain ⟨datagrams, hsent⟩ : ∃ datagrams,
      nrP7PackAndSend .vnf cfg (fun _ _ ↦ 0) (fun _ ↦ 0) 1 msg = some datagrams :=
    ⟨_, congrArg (Option.map _) hpack⟩
  refine ⟨⟨cfg, fun _ ↦ 0, 1, msg, datagrams, rfl, hsent, ?_⟩, rfl, rfl, rfl⟩
  have heq := (congrArg (Option.map _) hpack).symm.trans hsent
  rw [Option.map_some] at heq
  cases heq
  rw [hlen, if_pos hseveral, length_sendSegments, Nat.add_sub_cancel_left]
  exact hcount

/-- Three bytes, in segments of two. -/
theorem three_bytes_received :
    ∃ m : P7Sent P7Node.pnf.peer (fun _ _ ↦ 0) false, m.msg.body = [1, 2, 3] ∧
      m.cfg.segmentSize = 20 ∧ ∃ rxs' ds, nrHandleP7Messages .pnf (fun _ _ ↦ 0) false
        (p7System .pnf (fun _ _ ↦ 0) false fun q ↦ q == 0).init.rxs (datagrams (inOrder m)) =
          some (rxs', ds) ∧ ReceivedOnce m rxs' ds := by
  obtain ⟨m, hbody, hsize, -⟩ := exists_vnf_sent 20 [1, 2, 3] (by decide) (by decide)
    (by decide) (by decide) (by decide)
  refine ⟨m, hbody, hsize, (p7_message_received_iff .init m rfl ?_ ?_ ?_).2 ?_⟩
  · rintro rx hrx msg hmsg
    cases hrx
    cases hmsg
  · rw [ownParts_inOrder]
  · exact undisturbed_inOrder m _
  · rw [hbody]
    decide

/-- **65536 bytes with the header are not received**, in the 48 segments of the default size: their
length is counted as 0. -/
theorem long_message_not_received :
    ∃ m : P7Sent P7Node.pnf.peer (fun _ _ ↦ 0) false, m.msg.body = replicate 65518 0 ∧
      m.cfg.segmentSize = 1400 ∧ ¬ ∃ rxs' ds, nrHandleP7Messages .pnf (fun _ _ ↦ 0) false
        (p7System .pnf (fun _ _ ↦ 0) false fun q ↦ q == 0).init.rxs (datagrams (inOrder m)) =
          some (rxs', ds) ∧ ReceivedOnce m rxs' ds := by
  obtain ⟨m, hbody, hsize, -⟩ := exists_vnf_sent 1400 (replicate 65518 0) (by decide) (by decide)
    (by rw [length_replicate]; decide) (by rw [length_replicate]; decide)
    (by rw [length_replicate]; decide)
  refine ⟨m, hbody, hsize, not_received_of_not_fits (represents_of_reach .init) rfl ?_ ?_
    (undisturbed_inOrder m _) ?_⟩
  · rintro rx hrx msg hmsg
    cases hrx
    cases hmsg
  · rw [ownParts_inOrder]
  · rw [P7Sent.Fits, hbody, length_replicate]
    decide

end OaiRan.Nfapi
