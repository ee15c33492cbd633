import OaiRan.Rlc.Um.Entity

/-!
# Runs of an unacknowledged-mode entity

The entry points of the entity as the inputs of a `StepSystem`. Beside the entity the state keeps
what went in and what came out: the SDUs that `recv_sdu` accepted, the PDUs that `generate_pdu`
returned and the buffers that were passed to `recv_pdu`, oldest first.
-/

namespace OaiRan.Rlc.Um

variable {e e' : NrRlcEntityUm} {buffer pdu : List UInt8} {sduId size : ℤ}

/-- A call of one of the entity's entry points. -/
inductive UmOp
  | recvSdu (buffer : List UInt8) (sduId : ℤ)
  | generatePdu (size : ℤ)
  | recvPdu (buffer : List UInt8)
  | setTime (now : UInt64)
  deriving DecidableEq, Repr

structure UmTrace where
  entity : NrRlcEntityUm := {}
  accepted : List (List UInt8) := []
  sent : List (List UInt8) := []
  received : List (List UInt8) := []

variable (c : UmConfig)

/-- `recv_sdu` takes the SDU: it does not make the buffer too big. -/
def acceptsSdu (s : UmTx) (buffer : List UInt8) : Bool := s.txSize + buffer.length ≤ c.txMaxsize

/-- The entity under any sequence of calls, from its creation on. -/
def umSystem : StepSystem UmTrace UmOp where
  init := {}
  step t
    | .recvSdu buffer sduId =>
      (recvSdu c t.entity buffer sduId).map fun e ↦
        { t with
          entity := e
          accepted := if acceptsSdu c t.entity.tx buffer then t.accepted ++ [buffer]
            else t.accepted }
    | .generatePdu size =>
      (t.entity.generatePdu c size).map fun (e, pdu) ↦
        { t with entity := e, sent := if pdu = [] then t.sent else t.sent ++ [pdu] }
    | .recvPdu buffer =>
      some { t with entity := t.entity.recvPdu c buffer, received := t.received ++ [buffer] }
    | .setTime now => some { t with entity := t.entity.setTime c now }

/-- An entity of 6-bit SNs with a reassembly timer of 35 ms. -/
def shortSnParams : UmParams := ⟨100000, 100000, 35, 6, .inl rfl⟩

/-- An entity of 12-bit SNs with a reassembly timer of 35 ms. -/
def longSnParams : UmParams := ⟨100000, 100000, 35, 12, .inr rfl⟩

variable {c}

/-- All that a step can do. -/
theorem step_cases (h : (umSystem c).step t op = some t') :
    (∃ buffer sduId e, op = .recvSdu buffer sduId ∧ recvSdu c t.entity buffer sduId = some e ∧
      t' = { t with
        entity := e
        accepted := if acceptsSdu c t.entity.tx buffer then t.accepted ++ [buffer]
          else t.accepted }) ∨
    (∃ size e pdu, op = .generatePdu size ∧ t.entity.generatePdu c size = some (e, pdu) ∧
      t' = { t with entity := e, sent := if pdu = [] then t.sent else t.sent ++ [pdu] }) ∨
    (∃ buffer, op = .recvPdu buffer ∧ t' =
      { t with entity := t.entity.recvPdu c buffer, received := t.received ++ [buffer] }) ∨
    (∃ now, op = .setTime now ∧ t' = { t with entity := t.entity.setTime c now }) := by
  rcases op with ⟨buffer, sduId⟩ | size | buffer | now
  · obtain ⟨e, he, rfl⟩ := Option.map_eq_some_iff.1 h
    exact .inl ⟨buffer, sduId, e, rfl, he, rfl⟩
  · obtain ⟨⟨e, pdu⟩, he, rfl⟩ := Option.map_eq_some_iff.1 h
    exact .inr (.inl ⟨size, e, pdu, rfl, he, rfl⟩)
  · exact .inr (.inr (.inl ⟨buffer, rfl, (Option.some.inj h).symm⟩))
  · exact .inr (.inr (.inr ⟨now, rfl, (Option.some.inj h).symm⟩))

/-! ### The two sides do not touch each other -/

theorem recvSdu_rx (h : recvSdu c e buffer sduId = some e') : e'.rx = e.rx := by
  unfold recvSdu at h
  dsimp only at h
  split at h
  · cases h
  · split at h <;> split at h <;> obtain rfl := Option.some.inj h <;> rfl

theorem generatePdu_rx (h : e.generatePdu c size = some (e', pdu)) : e'.rx = e.rx := by
  obtain ⟨⟨tx, pdu'⟩, -, h⟩ := Option.map_eq_some_iff.1 h
  cases h
  rfl

end OaiRan.Rlc.Um
