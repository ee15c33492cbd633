import OaiRan.Lib.StepSystem
import OaiRan.Rlc.Am.Transmit

/-!
# Runs of an acknowledged-mode entity

The entry points of the entity as the inputs of a `StepSystem`. Beside the entity the state keeps
the buffers that were passed to `recv_pdu`, oldest first.
-/

namespace OaiRan.Rlc.Am

open Option NrRlcEntityAm

variable {now tCurrent : UInt64} {s s' : AmRx}

/-- A call of one of the entity's entry points. -/
inductive AmOp
  | recvSdu (buffer : List UInt8) (sduId : ℤ)
  | generatePdu (size : ℤ)
  | recvPdu (buffer : List UInt8)
  | setTime (now : UInt64)
  | discardSdu (sduId : ℤ)
  | reestablishment
  deriving DecidableEq, Repr

structure AmTrace where
  entity : NrRlcEntityAm := {}
  received : List (List UInt8) := []

variable (c : AmConfig)

/-- The entity under any sequence of calls, from its creation on. -/
def amSystem : StepSystem AmTrace AmOp where
  init := {}
  step t
    | .recvSdu buffer sduId => (t.entity.recvSdu c buffer sduId).map fun e ↦ { t with entity := e }
    | .generatePdu size => (t.entity.generatePdu c size).map fun (e, _) ↦ { t with entity := e }
    | .recvPdu buffer =>
      some { entity := t.entity.recvPdu c buffer, received := t.received ++ [buffer] }
    | .setTime now => (t.entity.setTime c now).map fun e ↦ { t with entity := e }
    | .discardSdu sduId => some { t with entity := t.entity.discardSdu c sduId }
    | .reestablishment => some { t with entity := t.entity.reestablishment }

/-- An entity of 12-bit SNs that polls with every PDU. -/
def shortSnParams : AmParams := ⟨100000, 100000, 45, 35, 0, 1, -1, 8, 12, .inl rfl⟩

variable {c}

/-! ### The receiving side

All that a step can do to it. -/

variable {e e' : NrRlcEntityAm} {size : ℤ} {pdu : List UInt8}

theorem recvSdu_rx (h : e.recvSdu c buffer sduId = some e') : e'.rx = e.rx := by
  unfold recvSdu at h
  dsimp only at h
  split at h
  · cases h
  · split at h <;> split at h <;> obtain rfl := some.inj h <;> rfl

theorem discardSdu_rx (e : NrRlcEntityAm) (sduId : ℤ) : (e.discardSdu c sduId).rx = e.rx := by
  unfold discardSdu
  dsimp only
  split
  · rfl
  · split <;> rfl

theorem setTime_rx (h : e.setTime c now = some e') : e'.rx = checkTReassembly c now e.rx := by
  obtain ⟨tx, -, rfl⟩ := map_eq_some_iff.1 h
  rfl

/-- The fields that asking for a report and making one change. -/
def AmRx.withStatus (s : AmRx) (statusTriggered : Bool) (tStatusProhibitStart : UInt64) : AmRx :=
  { s with statusTriggered := statusTriggered, tStatusProhibitStart := tStatusProhibitStart }

theorem triggerStatus_eq (s : AmRx) (p : Bool) : ∃ b u, triggerStatus s p = s.withStatus b u := by
  rw [triggerStatus]
  split
  · exact ⟨true, s.tStatusProhibitStart, rfl⟩
  · exact ⟨s.statusTriggered, s.tStatusProhibitStart, rfl⟩

theorem generateStatus_rx
    (h : generateStatus c tCurrent s size = some (s', pdu)) : ∃ b u, s' = s.withStatus b u := by
  obtain ⟨pdu', -, h⟩ := map_eq_some_iff.1 h
  split at h
  · exact ⟨s.statusTriggered, s.tStatusProhibitStart, (Prod.mk.inj h).1.symm⟩
  · exact ⟨false, tCurrent, (Prod.mk.inj h).1.symm⟩

theorem generatePdu_rx (h : e.generatePdu c size = some (e', pdu)) :
    ∃ b u, e'.rx = e.rx.withStatus b u := by
  have hdata : ∀ {o : Option (AmTx × List UInt8)},
      (o.map fun r ↦ ({ e with tx := r.1 }, r.2)) = some (e', pdu) →
      ∃ b u, e'.rx = e.rx.withStatus b u := by
    intro o ho
    obtain ⟨⟨tx, pdu'⟩, -, heq⟩ := map_eq_some_iff.1 ho
    cases heq
    exact ⟨e.rx.statusTriggered, e.rx.tStatusProhibitStart, rfl⟩
  rw [generatePdu] at h
  split at h
  · split at h
    · cases h
    · exact hdata h
    · rename_i hstatus
      cases h
      exact generateStatus_rx hstatus
  · exact hdata h

/-- The transmitting side makes the PDU, unless it is a status report. -/
theorem generatePdu_tx (h : e.generatePdu c size = some (e', pdu)) :
    e'.tx = e.tx ∨ generateDataPdu c e.tCurrent e.tx size = some (e'.tx, pdu) := by
  have hdata : (generateDataPdu c e.tCurrent e.tx size).map
      (fun r ↦ ({ e with tx := r.1 }, r.2)) = some (e', pdu) →
      generateDataPdu c e.tCurrent e.tx size = some (e'.tx, pdu) := by
    intro ho
    obtain ⟨⟨tx, pdu'⟩, hgen, heq⟩ := map_eq_some_iff.1 ho
    cases heq
    exact hgen
  rw [generatePdu] at h
  split at h
  · split at h
    · cases h
    · exact .inr (hdata h)
    · cases h
      exact .inl rfl
  · exact .inr (hdata h)

/-- What is stored, counted, delivered and reassembled: everything but the SN variables and the
timers. -/
def AmRx.data (s : AmRx) :
    List NrRlcPdu × ℤ × List (List (Option UInt8)) × List (ℤ × List NrRlcPdu) :=
  (s.rxList, s.rxSize, s.delivered, s.reassembled)

theorem triggerStatus_data (s : AmRx) (p : Bool) : (triggerStatus s p).data = s.data := by
  rw [triggerStatus]
  split <;> rfl

theorem updateNextHighest_data (s : AmRx) (x : ℤ) : (updateNextHighest c s x).data = s.data := by
  rw [updateNextHighest]
  split <;> rfl

theorem updateHighestStatus_data (s : AmRx) (x : ℤ) :
    (updateHighestStatus c s x).data = s.data := by
  rw [updateHighestStatus]
  split <;> rfl

theorem timerActions_data (t : UInt64) (s : AmRx) :
    (startTReassembly c t (stopTReassembly c s)).data = s.data := by
  rw [startTReassembly, restartTReassembly, stopTReassembly]
  split <;> split <;> (try split) <;> rfl

theorem checkTReassembly_data (now : UInt64) (s : AmRx) :
    (checkTReassembly c now s).data = s.data := by
  rw [checkTReassembly]
  split
  · rfl
  · rw [restartTReassembly]
    split <;> rfl

/-- The PDU is accepted and its SDU is full then. -/
def completes (c : AmConfig) (s : AmRx) (pdu : NrRlcPdu) : Bool :=
  acceptsPdu c s pdu && sduFull (putPdu c s pdu).rxList pdu.sn

theorem updateRxNext_data (hdata : s.data = s'.data) (hnext : s.rxNext = s'.rxNext)
    (x : ℤ) : (updateRxNext c s x).data = (updateRxNext c s' x).data := by
  simp only [AmRx.data, Prod.mk.injEq] at hdata
  obtain ⟨h₁, h₂, h₃, h₄⟩ := hdata
  rw [updateRxNext, updateRxNext, hnext, h₁]
  split <;> simp [AmRx.data, h₁, h₂, h₃, h₄]

/-- **What the reception of a data PDU does to the data.** -/
theorem recvDataPdu_data (t : UInt64) (s : AmRx) (p : Bool) (pdu : NrRlcPdu) :
    (recvDataPdu c t s p pdu).data =
      if completes c s pdu then
        (updateRxNext c (reassembleAndDeliver (putPdu c s pdu) pdu.sn) pdu.sn).data
      else if acceptsPdu c s pdu then (putPdu c s pdu).data else s.data := by
  have hlist : ∀ s x, (updateNextHighest c s x).rxList = s.rxList := fun s x ↦
    congrArg Prod.fst (updateNextHighest_data s x)
  rw [recvDataPdu, completes]
  rcases hacc : acceptsPdu c s pdu with - | -
  · simp [triggerStatus_data]
  · simp only [if_true, triggerStatus_data, receptionActions, timerActions_data, Bool.true_and, hlist]
    split
    · refine updateRxNext_data ?_ ?_ _
      · rw [updateHighestStatus_data, updateNextHighest]
        split <;> rfl
      · rw [updateHighestStatus, updateNextHighest]
        split <;> split <;> rfl
    · exact updateNextHighest_data _ _

variable {t t' : AmTrace} {op : AmOp}

theorem step_rx_cases (h : (amSystem c).step t op = some t') :
    (∃ b u, t'.entity.rx = t.entity.rx.withStatus b u) ∨
    (∃ buffer p pdu, op = .recvPdu buffer ∧ decodePdu c buffer = .segment p pdu ∧
      t'.entity.rx = recvDataPdu c t.entity.tCurrent t.entity.rx p pdu) ∨
    (∃ now, op = .setTime now ∧ t'.entity.rx = checkTReassembly c now t.entity.rx) ∨
    (op = .reestablishment ∧ t'.entity.rx =
      { delivered := t.entity.rx.delivered, reassembled := t.entity.rx.reassembled }) := by
  have hsame : ∀ s : AmRx, ∃ b u, s = s.withStatus b u := fun s ↦
    ⟨s.statusTriggered, s.tStatusProhibitStart, rfl⟩
  rcases op with ⟨buffer, sduId⟩ | size | buffer | now | sduId | -
  · obtain ⟨e, he, rfl⟩ := map_eq_some_iff.1 h
    left
    rw [show (_ : NrRlcEntityAm).rx = t.entity.rx from recvSdu_rx he]
    exact hsame _
  · obtain ⟨⟨e, pdu⟩, he, rfl⟩ := map_eq_some_iff.1 h
    exact .inl (generatePdu_rx he)
  · cases h
    rcases hdec : decodePdu c buffer with p | - | ⟨p, pdu⟩
    · left
      simpa only [recvPdu, hdec] using triggerStatus_eq t.entity.rx p
    · left
      simpa only [recvPdu, hdec] using hsame t.entity.rx
    · right; left
      exact ⟨buffer, p, pdu, rfl, hdec, by simp only [recvPdu, hdec]⟩
  · obtain ⟨e, he, rfl⟩ := map_eq_some_iff.1 h
    exact .inr (.inr (.inl ⟨now, rfl, setTime_rx he⟩))
  · cases h
    left
    rw [show (_ : NrRlcEntityAm).rx = t.entity.rx from discardSdu_rx _ sduId]
    exact hsame _
  · cases h
    exact .inr (.inr (.inr ⟨rfl, rfl⟩))

/-! ### The transmitting side

All that a step can do to it. -/

/-- What a call makes of the transmitting side. -/
inductive TxStep (c : AmConfig) (e : NrRlcEntityAm) : AmOp → AmTx → Prop
  | same (op : AmOp) : TxStep c e op e.tx
  | addSdu (buffer : List UInt8) (sduId : ℤ) :
      TxStep c e (.recvSdu buffer sduId) (addSdu c e.tx buffer sduId)
  | data {size : ℤ} {tx : AmTx} {pdu : List UInt8}
      (made : generateDataPdu c e.tCurrent e.tx size = some (tx, pdu)) :
      TxStep c e (.generatePdu size) tx
  | control {buffer : List UInt8} (isControl : decodePdu c buffer = .control) :
      TxStep c e (.recvPdu buffer) (processControlPdu c e.tx buffer)
  | pollTimer {now : UInt64} {tx : AmTx}
      (checked : checkTPollRetransmit c now e.tx = some tx) :
      TxStep c e (.setTime now) tx
  | discard (sduId : ℤ) : TxStep c e (.discardSdu sduId) (e.discardSdu c sduId).tx
  | clear : TxStep c e .reestablishment e.reestablishment.tx

theorem step_tx (h : (amSystem c).step t op = some t') : TxStep c t.entity op t'.entity.tx := by
  rcases op with ⟨buffer, sduId⟩ | size | buffer | now | sduId | -
  · obtain ⟨e, he, rfl⟩ := map_eq_some_iff.1 h
    unfold recvSdu at he
    dsimp only at he
    split at he
    · cases he
    · split at he <;> split at he <;> cases he
      · exact .addSdu buffer sduId
      · exact .same _
      · exact .addSdu buffer sduId
      · exact .same _
  · obtain ⟨⟨e, pdu⟩, he, rfl⟩ := map_eq_some_iff.1 h
    show TxStep c t.entity _ e.tx
    rcases generatePdu_tx he with heq | heq
    · rw [heq]
      exact .same _
    · exact .data heq
  · cases h
    show TxStep c t.entity _ (t.entity.recvPdu c buffer).tx
    rw [recvPdu]
    rcases hdec : decodePdu c buffer with p | - | ⟨p, pdu⟩
    · exact .same _
    · exact .control hdec
    · exact .same _
  · obtain ⟨e, he, rfl⟩ := map_eq_some_iff.1 h
    obtain ⟨tx, htx, rfl⟩ := map_eq_some_iff.1 he
    exact .pollTimer htx
  · cases h
    exact .discard sduId
  · cases h
    exact .clear

end OaiRan.Rlc.Am
