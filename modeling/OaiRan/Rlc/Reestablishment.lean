import OaiRan.Rlc.ReassemblySafety
import OaiRan.Rlc.Um.TxAccounting

/-!
# Re-establishment with reconfiguration

`clear_entity` resets all that an entity has gathered, and the `reconfigure` functions set what the
network configures. But `sn_modulus` and `window_size` are computed **by creation only**. So an entity
that is re-established and reconfigured behaves as a new one exactly if the new SN field length is the
one it was created with (`freshStart_iff`).

## The two directions, and what each rests on

With the same field length the two entities are in the same state and have the same parameters; this is
`foldl_reconfigure`, by induction over the reconfigurations. With another one they are told apart by
PDUs that the window of one of them takes and that of the other does not (`segmentsOfForty`,
`sduOfThreeThousand`). That direction takes `rx_maxsize` to be what every entity is created with, since
an entity without room discards all PDUs.

What an entity has passed to the upper layers is compared from the re-establishment on, and the new
entity is created in the memory that the other one leaves.
-/

namespace OaiRan.Rlc

open List

/-- A call of one of an entity's functions. -/
inductive RlcCall
  | recvSdu (buffer : List UInt8) (sduId : ℤ)
  | recvPdu (buffer : List UInt8)
  | generatePdu (size : ℤ)
  | discardSdu (sduId : ℤ)
  | setTime (now : UInt64)
  | bufferStatus (maxsize : ℤ)

/-- What can be seen after a call: the PDU, the calls to the upper layers so far, and the buffer
status (`status_size`, `tx_size` and `retx_size`) if it was asked for. -/
structure RlcOutput where
  pdu : List UInt8 := []
  delivered : List (List (Option UInt8))
  acked : List ℤ := []
  maxRetxReached : ℕ := 0
  status : Option (ℤ × ℤ × ℤ) := none

/-- What is seen of a sequence of calls; `none` where the program ends. -/
def outputs {ε : Type} (call : ε → RlcCall → Option (ε × RlcOutput)) :
    ε → List RlcCall → List (Option RlcOutput)
  | _, [] => []
  | e, i :: is =>
    match call e i with
    | none => [none]
    | some (e, o) => some o :: outputs call e is

def rlcRxMaxsize : ℤ := 10000000

namespace Um

/-- What `nr_rlc_entity_um_reconfigure` is given; the SN field length may be left as it is. -/
structure UmReconfig where
  tReassembly : ℤ
  snFieldLength : Option ℕ
  snFieldLength_eq : ∀ n ∈ snFieldLength, n = 6 ∨ n = 12

def UmConfig.reconfigure (c : UmConfig) (r : UmReconfig) : UmConfig :=
  { c with tReassembly := r.tReassembly, snFieldLength := r.snFieldLength.getD c.snFieldLength }

/-- What creation with the parameters of an entity computes. -/
def UmConfig.created (c : UmConfig) : UmConfig :=
  { c with snModulus := 1 <<< c.snFieldLength, windowSize := (1 <<< c.snFieldLength) / 2 }

/-- A new entity, in a memory. -/
def NrRlcEntityUm.new (heap : SduHeap) : NrRlcEntityUm := { tx := { heap } }

/-- The entity for one who watches the calls to the upper layer from now on. -/
def NrRlcEntityUm.watched (e : NrRlcEntityUm) : NrRlcEntityUm :=
  { e with rx := { e.rx with delivered := [], reassembled := [] } }

def umCall (c : UmConfig) (e : NrRlcEntityUm) (call : RlcCall) :
    Option (NrRlcEntityUm × RlcOutput) :=
  let seen (e : NrRlcEntityUm) : NrRlcEntityUm × RlcOutput := (e, { delivered := e.rx.delivered })
  match call with
  | .recvSdu buffer sduId => (recvSdu c e buffer sduId).map seen
  | .recvPdu buffer => some (seen (e.recvPdu c buffer))
  | .generatePdu size =>
    (e.generatePdu c size).map fun (e, pdu) ↦ (e, { delivered := e.rx.delivered, pdu })
  | .discardSdu sduId => some (seen { e with tx := discardSdu c e.tx sduId })
  | .setTime now => some (seen (e.setTime c now))
  | .bufferStatus _ =>
    some (e, { delivered := e.rx.delivered, status := some (0, e.tx.bstatusTxSize, 0) })

/-- **A fresh start**: after re-establishment and reconfiguration, every sequence of calls shows what
it shows of a new entity with these parameters. -/
def FreshStart (c : UmConfig) (r : UmReconfig) (e : NrRlcEntityUm) : Prop :=
  ∀ calls, outputs (umCall (c.reconfigure r)) (clearEntity e).watched calls =
    outputs (umCall (c.reconfigure r).created) (.new (clearEntity e).tx.heap) calls

/-- What reconfigurations leave. -/
theorem foldl_reconfigure (p : UmParams) (rs : List UmReconfig) :
    ∃ t n, (n = 6 ∨ n = 12) ∧ rs.foldl UmConfig.reconfigure p.config =
      ⟨p.rxMaxsize, p.txMaxsize, t, n, 1 <<< p.snFieldLength, (1 <<< p.snFieldLength) / 2⟩ := by
  induction rs using reverseRecOn with
  | nil => exact ⟨_, _, p.snFieldLength_eq, rfl⟩
  | append_singleton rs r ih =>
    obtain ⟨t, n, hn, heq⟩ := ih
    rw [foldl_append, heq]
    refine ⟨_, r.snFieldLength.getD n, ?_, rfl⟩
    cases hlen : r.snFieldLength with
    | none => exact hn
    | some n' => exact r.snFieldLength_eq n' hlen

section Congr

variable (r tx t m w : ℤ) (n : ℕ)

theorem actionsSduFull_congr :
    actionsSduFull ⟨r, tx, t, n, m, w⟩ = actionsSduFull ⟨r, 0, 0, n, m, w⟩ := rfl

theorem actionsSduNotFull_congr :
    actionsSduNotFull ⟨r, tx, t, n, m, w⟩ = actionsSduNotFull ⟨r, 0, 0, n, m, w⟩ := rfl

theorem startTReassembly_congr :
    startTReassembly ⟨r, tx, t, n, m, w⟩ = startTReassembly ⟨r, 0, 0, n, m, w⟩ := rfl

theorem stopTReassembly_congr :
    stopTReassembly ⟨r, tx, t, n, m, w⟩ = stopTReassembly ⟨r, 0, 0, n, m, w⟩ := rfl

theorem decodePdu_congr : decodePdu ⟨r, tx, t, n, m, w⟩ = decodePdu ⟨r, 0, 0, n, m, w⟩ := rfl

/-- Reception does not depend on `tx_maxsize` and `t_reassembly`. -/
theorem recvPdu_congr : recvPdu ⟨r, tx, t, n, m, w⟩ = recvPdu ⟨r, 0, 0, n, m, w⟩ := by
  have hactions : receptionActions ⟨r, tx, t, n, m, w⟩ = receptionActions ⟨r, 0, 0, n, m, w⟩ := by
    funext _ s x
    rw [receptionActions, receptionActions, actionsSduFull_congr, actionsSduNotFull_congr,
      startTReassembly_congr, stopTReassembly_congr]
  funext _ s buffer
  rw [recvPdu, recvPdu, decodePdu_congr r tx t, hactions]
  rfl

end Congr

/-- Two segments of an SDU, with the SN 40 and either field length. -/
def segmentsOfForty (n : ℕ) : List RlcCall :=
  if n = 6 then [.recvPdu [0x68, 7], .recvPdu [0xA8, 0, 1, 8]]
  else [.recvPdu [0x40, 40, 7], .recvPdu [0x80, 40, 0, 1, 8]]

theorem outputs_recvPdu (c : UmConfig) (heap : SduHeap) (b b' : List UInt8) :
    (outputs (umCall c) (.new heap) [.recvPdu b, .recvPdu b']).map (Option.map RlcOutput.delivered) =
      [some (recvPdu c 0 {} b).delivered, some (recvPdu c 0 (recvPdu c 0 {} b) b').delivered] := rfl

/-- They are **below the window of 32 and within that of 2048**. -/
theorem outputs_segmentsOfForty (tx t : ℤ) (heap : SduHeap) (hn : n = 6 ∨ n = 12)
    (hk : k = 6 ∨ k = 12) :
    (outputs (umCall ⟨rlcRxMaxsize, tx, t, n, 1 <<< k, (1 <<< k) / 2⟩) (.new heap)
      (segmentsOfForty n)).map (Option.map RlcOutput.delivered) =
      [some [], some (if k = 6 then [] else [[some 7, some 8]])] := by
  rcases hn with rfl | rfl
  all_goals
    rw [segmentsOfForty]
    first | rw [if_pos rfl] | rw [if_neg (by decide)]
    rw [outputs_recvPdu, recvPdu_congr]
    rcases hk with rfl | rfl <;> decide

theorem freshStart_created_iff (p : UmParams) (rs : List UmReconfig) (r : UmReconfig)
    (e : NrRlcEntityUm) :
    (((rs.foldl UmConfig.reconfigure p.config).reconfigure r).snFieldLength = p.snFieldLength →
      FreshStart (rs.foldl UmConfig.reconfigure p.config) r e) ∧
    (p.rxMaxsize = rlcRxMaxsize → FreshStart (rs.foldl UmConfig.reconfigure p.config) r e →
      ((rs.foldl UmConfig.reconfigure p.config).reconfigure r).snFieldLength = p.snFieldLength) := by
  obtain ⟨t, n, hn, heq⟩ := foldl_reconfigure p (rs ++ [r])
  rw [foldl_append, foldl_cons, foldl_nil] at heq
  rw [FreshStart, heq]
  constructor
  · rintro (rfl : n = _) calls
    rfl
  · intro hp h
    have hcalls := congrArg (map (Option.map RlcOutput.delivered)) (h (segmentsOfForty n))
    change (outputs _ (NrRlcEntityUm.new (clearEntity e).tx.heap) _).map _ = _ at hcalls
    rw [UmConfig.created, hp, outputs_segmentsOfForty _ _ _ hn p.snFieldLength_eq,
      outputs_segmentsOfForty _ _ _ hn hn] at hcalls
    rcases hn with rfl | rfl <;> rcases p.snFieldLength_eq with hlen | hlen <;>
      simp_all

end Um

namespace Am

/-- What `nr_rlc_entity_am_reconfigure` is given; the SN field length may be left as it is. -/
structure AmReconfig where
  (tPollRetransmit tReassembly tStatusProhibit pollPdu pollByte maxRetxThreshold : ℤ)
  snFieldLength : Option ℕ
  snFieldLength_eq : ∀ n ∈ snFieldLength, n = 12 ∨ n = 18

def AmConfig.reconfigure (c : AmConfig) (r : AmReconfig) : AmConfig :=
  { c with
    tPollRetransmit := r.tPollRetransmit
    tReassembly := r.tReassembly
    tStatusProhibit := r.tStatusProhibit
    pollPdu := r.pollPdu
    pollByte := r.pollByte
    maxRetxThreshold := r.maxRetxThreshold
    snFieldLength := r.snFieldLength.getD c.snFieldLength }

/-- What creation with the parameters of an entity computes. -/
def AmConfig.created (c : AmConfig) : AmConfig :=
  { c with snModulus := 1 <<< c.snFieldLength, windowSize := (1 <<< c.snFieldLength) / 2 }

/-- A new entity, in a memory. -/
def NrRlcEntityAm.new (heap : SduHeap) : NrRlcEntityAm := { tx := { heap } }

/-- The entity for one who watches the calls to the upper layers from now on. -/
def NrRlcEntityAm.watched (e : NrRlcEntityAm) : NrRlcEntityAm :=
  { e with
    rx := { e.rx with delivered := [], reassembled := [] }
    tx := { e.tx with acked := [], maxRetxReached := 0 } }

def amCall (c : AmConfig) (e : NrRlcEntityAm) (call : RlcCall) :
    Option (NrRlcEntityAm × RlcOutput) :=
  let output (e : NrRlcEntityAm) : RlcOutput :=
    { delivered := e.rx.delivered, acked := e.tx.acked, maxRetxReached := e.tx.maxRetxReached }
  match call with
  | .recvSdu buffer sduId => (e.recvSdu c buffer sduId).map fun e ↦ (e, output e)
  | .recvPdu buffer => some (e.recvPdu c buffer, output (e.recvPdu c buffer))
  | .generatePdu size => (e.generatePdu c size).map fun (e, pdu) ↦ (e, { output e with pdu })
  | .discardSdu sduId => some (e.discardSdu c sduId, output (e.discardSdu c sduId))
  | .setTime now => (e.setTime c now).map fun e ↦ (e, output e)
  | .bufferStatus maxsize =>
    let statusSize := if statusToReport c e.tCurrent e.rx then statusSize c e.rx maxsize else 0
    some (e, { output e with status := some (statusSize, e.tx.bstatusTxSize, e.tx.bstatusRetxSize) })

/-- **A fresh start**, as for the unacknowledged mode. -/
def FreshStart (c : AmConfig) (r : AmReconfig) (e : NrRlcEntityAm) : Prop :=
  ∀ calls, outputs (amCall (c.reconfigure r)) e.reestablishment.watched calls =
    outputs (amCall (c.reconfigure r).created) (.new e.reestablishment.tx.heap) calls

/-- What reconfigurations leave. -/
theorem foldl_reconfigure (p : AmParams) (rs : List AmReconfig) :
    ∃ a b c d e f n, (n = 12 ∨ n = 18) ∧ rs.foldl AmConfig.reconfigure p.config =
      ⟨a, b, c, d, e, f, n, 1 <<< p.snFieldLength, (1 <<< p.snFieldLength) / 2, p.rxMaxsize,
        p.txMaxsize⟩ := by
  induction rs using reverseRecOn with
  | nil => exact ⟨_, _, _, _, _, _, _, p.snFieldLength_eq, rfl⟩
  | append_singleton rs r ih =>
    obtain ⟨a, b, c, d, e, f, n, hn, heq⟩ := ih
    rw [foldl_append, heq]
    refine ⟨_, _, _, _, _, _, r.snFieldLength.getD n, ?_, rfl⟩
    cases hlen : r.snFieldLength with
    | none => exact hn
    | some n' => exact r.snFieldLength_eq n' hlen

/-- A whole SDU, with the SN 3000 and either field length. -/
def sduOfThreeThousand (n : ℕ) : List UInt8 :=
  if n = 12 then [0x8B, 0xB8, 7] else [0x80, 0x0B, 0xB8, 7]

/-- It is **above the window of 2048 and within that of 131072**. -/
theorem outputs_sduOfThreeThousand (a b c d e f tx : ℤ) (heap : SduHeap)
    (hn : n = 12 ∨ n = 18) (hk : k = 12 ∨ k = 18) :
    (outputs (amCall ⟨a, b, c, d, e, f, n, 1 <<< k, (1 <<< k) / 2, rlcRxMaxsize, tx⟩) (.new heap)
      [.recvPdu (sduOfThreeThousand n)]).map (Option.map RlcOutput.delivered) =
      [some (if k = 12 then [] else [[some 7]])] := by
  have hdec : decodePdu ⟨a, b, c, d, e, f, n, 1 <<< k, (1 <<< k) / 2, rlcRxMaxsize, tx⟩
      (sduOfThreeThousand n) = .segment false (nrRlcNewPdu 3000 0 true true [7]) := by
    rcases hn with rfl | rfl <;> rfl
  show [some (NrRlcEntityAm.recvPdu _ (.new heap) _).rx.delivered] = _
  rw [NrRlcEntityAm.recvPdu, hdec]
  show [some (recvDataPdu _ 0 {} false _).delivered] = _
  rcases hk with rfl | rfl <;> rfl

theorem freshStart_created_iff (p : AmParams) (rs : List AmReconfig) (r : AmReconfig)
    (e : NrRlcEntityAm) :
    (((rs.foldl AmConfig.reconfigure p.config).reconfigure r).snFieldLength = p.snFieldLength →
      FreshStart (rs.foldl AmConfig.reconfigure p.config) r e) ∧
    (p.rxMaxsize = rlcRxMaxsize → FreshStart (rs.foldl AmConfig.reconfigure p.config) r e →
      ((rs.foldl AmConfig.reconfigure p.config).reconfigure r).snFieldLength = p.snFieldLength) := by
  obtain ⟨a, b, c, d, e', f, n, hn, heq⟩ := foldl_reconfigure p (rs ++ [r])
  rw [foldl_append, foldl_cons, foldl_nil] at heq
  rw [FreshStart, heq]
  constructor
  · rintro (rfl : n = _) calls
    rfl
  · intro hp h
    have hcalls := congrArg (map (Option.map RlcOutput.delivered))
      (h [.recvPdu (sduOfThreeThousand n)])
    change (outputs _ (NrRlcEntityAm.new e.reestablishment.tx.heap) _).map _ = _ at hcalls
    rw [AmConfig.created, hp, outputs_sduOfThreeThousand _ _ _ _ _ _ _ _ hn p.snFieldLength_eq,
      outputs_sduOfThreeThousand _ _ _ _ _ _ _ _ hn hn] at hcalls
    rcases hn with rfl | rfl <;> rcases p.snFieldLength_eq with hlen | hlen <;>
      simp_all

end Am

/-- **Re-establishment with reconfiguration is a fresh start exactly if the SN field length is then the
one of the creation**, whatever the entity has done and however often it was reconfigured before. That
it is not otherwise takes an entity with room for what it receives, as all of them are created. -/
theorem freshStart_iff (p : Um.UmParams) (q : Am.AmParams) :
    (∀ (rs : List Um.UmReconfig) r e,
      (((rs.foldl Um.UmConfig.reconfigure p.config).reconfigure r).snFieldLength =
        p.snFieldLength → Um.FreshStart (rs.foldl Um.UmConfig.reconfigure p.config) r e) ∧
      (p.rxMaxsize = rlcRxMaxsize → Um.FreshStart (rs.foldl Um.UmConfig.reconfigure p.config) r e →
        ((rs.foldl Um.UmConfig.reconfigure p.config).reconfigure r).snFieldLength =
          p.snFieldLength)) ∧
    ∀ (rs : List Am.AmReconfig) r e,
      (((rs.foldl Am.AmConfig.reconfigure q.config).reconfigure r).snFieldLength =
        q.snFieldLength → Am.FreshStart (rs.foldl Am.AmConfig.reconfigure q.config) r e) ∧
      (q.rxMaxsize = rlcRxMaxsize → Am.FreshStart (rs.foldl Am.AmConfig.reconfigure q.config) r e →
        ((rs.foldl Am.AmConfig.reconfigure q.config).reconfigure r).snFieldLength =
          q.snFieldLength) :=
  ⟨Um.freshStart_created_iff p, Am.freshStart_created_iff q⟩

/-- An AM entity with 12-bit SNs. -/
def twelveBits : Am.AmParams := { Am.shortSnParams with rxMaxsize := rlcRxMaxsize }

/-- A UM entity with 6-bit SNs. -/
def sixBits : Um.UmParams := { Um.shortSnParams with rxMaxsize := rlcRxMaxsize }

/-- An AM entity that keeps its field length starts afresh; a UM entity that does not, does not. -/
theorem twelveBits_freshStart :
    Am.FreshStart twelveBits.config ⟨50, 40, 0, -1, -1, 4, none, fun _ h ↦ (nomatch h)⟩ {} ∧
    ¬ Um.FreshStart sixBits.config ⟨35, some 12, fun _ h ↦ .inr (Option.some.inj h).symm⟩ {} := by
  obtain ⟨hum, ham⟩ := freshStart_iff sixBits twelveBits
  exact ⟨(ham [] _ {}).1 rfl, fun h ↦ absurd ((hum [] _ {}).2 rfl h) (by decide)⟩

/-- **It is given 18-bit SNs**, and goes on with a window of 2048. -/
theorem eighteenBits_not_freshStart : ¬ Am.FreshStart twelveBits.config
    ⟨45, 35, 0, -1, -1, 8, some 18, fun _ h ↦ .inr (Option.some.inj h).symm⟩ {} := by
  intro h
  have heq := (Am.freshStart_created_iff twelveBits [] _ {}).2 rfl h
  exact absurd heq (by decide)

end OaiRan.Rlc
