import OaiRan.Sdap.Link

/-!
# End markers

When the UE moves a QoS flow to another DRB, `nr_sdap_ue_qfi2drb_config` and the reflective mapping of
`nr_sdap_rx_entity` tell the gNB with an end marker on the DRB that the flow leaves. **A flow without
a rule leaves the default DRB with two markers** if the flag of an earlier rule is still in the table,
or if a downlink PDU moves it. An update that `nr_sdap_qfi2drb_map_update` refuses leaves the flow on
the DRB that has got the marker.
-/

namespace OaiRan.Sdap

open List Function SdapEntity

/-- RRC maps a flow to a DRB, or a downlink PDU of the flow with RDI set arrives on the DRB. -/
inductive Remapping
  | rrc (drb : ℕ) (hdrb : 0 < drb) (hasSdapRx hasSdapTx : Bool)
  | downlink (drb : ℕ) (hdrb : 0 < drb) (rqi : Bool) (sdu : List UInt8)

namespace Remapping

def drb : Remapping → ℕ
  | rrc drb .. | downlink drb .. => drb

/-- The entity of the UE afterwards, and the end markers. -/
def apply (m : Remapping) (entity : SdapEntity) (qfi : Qfi) :
    SdapEntity × List (ℕ × List UInt8) :=
  match m with
  | rrc drb _ hasSdapRx hasSdapTx => ueQfi2drbConfigOne entity qfi drb hasSdapRx hasSdapTx
  | downlink drb _ rqi sdu =>
    let (entity, _, controls) := rxUe entity drb true (sdapHdr qfi rqi true :: sdu)
    (entity, controls)

/-- When the flow is moved with one marker and for good. -/
def Clean (m : Remapping) (entity : SdapEntity) (qfi : Qfi) : Prop :=
  let rule := entity.qfi2drbTable qfi
  match m with
  | rrc drb .. =>
    (rule.drbId = 0 → entity.defaultDrb ≠ 0 → ¬rule.hasSdapTx ∧ entity.defaultDrb ≠ drb) ∧
      (entity.flowDrb qfi ≠ 0 → rule.drbId = 0 ∨ rule.drbId ≠ drb ∧ rule.hasSdapTx →
        0 < qfi.val ∧ drb ≤ avlblDrb)
  | downlink drb .. =>
    (rule.drbId = 0 → entity.defaultDrb = 0) ∧
      (rule.drbId ≠ 0 → rule.drbId ≠ drb → rule.hasSdapTx)

end Remapping

/-- One marker for a flow that leaves the default DRB, or a rule with an uplink header. -/
def endMarkers (entity : SdapEntity) (qfi : Qfi) (drb : ℕ) : List (ℕ × List UInt8) :=
  let rule := entity.qfi2drbTable qfi
  if rule.drbId = 0 then
    if entity.defaultDrb ≠ 0 then [(entity.defaultDrb, ctrlPdu qfi)] else []
  else if rule.drbId ≠ drb ∧ rule.hasSdapTx then [(rule.drbId, ctrlPdu qfi)] else []

/-- No PDU of the flow is sent on a DRB, whichever flows (`before`) have sent since. -/
def NoneOn (entity : SdapEntity) (qfi : Qfi) (drb : ℕ) : Prop :=
  ∀ (before : List (ℕ × List UInt8 × Qfi × Bool)) (rbId : ℕ) (sdu : List UInt8) (dc : Bool),
    ∀ pdu ∈ (nrSdapTxEntity false (before.foldl
      (fun e (rbId, sdu, qfi, dc) ↦ (nrSdapTxEntity false e rbId sdu qfi dc).1) entity)
        rbId sdu qfi dc).2, pdu.1 ≠ drb

variable {entity : SdapEntity} {qfi : Qfi} {drb : ℕ}

/-- Transmissions, of this flow or of others, do not move a flow. -/
theorem flowDrb_nrSdapTxEntity (rbId : ℕ) (sdu : List UInt8) (qfi' : Qfi) (dc : Bool) :
    (nrSdapTxEntity false entity rbId sdu qfi' dc).1.flowDrb qfi = entity.flowDrb qfi := by
  have hentity : (nrSdapTxEntity false entity rbId sdu qfi' dc).1 = (qfi2drbMap entity qfi').1 := by
    simp only [nrSdapTxEntity]
    split_ifs <;> rfl
  rw [hentity]
  rcases eq_or_ne qfi qfi' with rfl | hne
  · exact flowDrb_qfi2drbMap _ _
  · simp only [flowDrb, qfi2drbMap_of_ne _ hne, qfi2drbMap_defaultDrb]

/-- As long as the flow is mapped to some DRB, this is where its PDUs go. -/
theorem noneOn_iff (h : entity.flowDrb qfi ≠ 0) :
    NoneOn entity qfi drb ↔ entity.flowDrb qfi ≠ drb := by
  constructor
  · intro hnone
    simpa [txDrb, h] using
      hnone [] 0 [0] false _ (nrSdapTxEntity_snd _ _ _ _ _ (by simp) (by simp [maxSdu]))
  · intro hne before rbId sdu dc pdu hpdu
    generalize he : before.foldl _ entity = e at hpdu
    have hflow : e.flowDrb qfi = entity.flowDrb qfi := by
      rw [← he]
      refine foldlRecOn (motive := fun e : SdapEntity ↦ e.flowDrb qfi = entity.flowDrb qfi) before _ rfl
        fun e he s _ ↦ ?_
      rw [flowDrb_nrSdapTxEntity, he]
    rw [← hflow] at h hne
    rw [nrSdapTxEntity] at hpdu
    simp only [qfi2drbMap_snd] at hpdu
    grind

theorem apply_downlink (h : 0 < drb) (rqi : Bool) (sdu : List UInt8) :
    (Remapping.downlink drb h rqi sdu).apply entity qfi = reflectiveMapping entity drb qfi := by
  simp [Remapping.apply, rxUe, testBit_sdapHdr, hdrQfi_sdapHdr]

theorem flowDrb_reflectiveMapping (h : 0 < drb) :
    (reflectiveMapping entity drb qfi).1.flowDrb qfi = drb := by
  simp [reflectiveMapping, flowDrb, h.ne']

theorem flowDrb_configOne (h : 0 < drb) (rx tx : Bool) :
    (ueQfi2drbConfigOne entity qfi drb rx tx).1.flowDrb qfi =
      if 0 < qfi ∧ drb ≤ avlblDrb then drb else entity.flowDrb qfi := by
  have hupdate (e : SdapEntity) (he : e.flowDrb qfi = entity.flowDrb qfi) :
      (qfi2drbMapUpdate e qfi drb rx tx).flowDrb qfi =
        if 0 < qfi ∧ drb ≤ avlblDrb then drb else entity.flowDrb qfi := by
    rw [qfi2drbMapUpdate]
    split_ifs <;> simp_all [flowDrb, h.ne']
  rw [ueQfi2drbConfigOne]
  refine hupdate _ ?_
  split
  · exact flowDrb_qfi2drbMap _ _
  · rfl

end OaiRan.Sdap
