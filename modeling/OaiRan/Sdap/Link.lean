import OaiRan.Lib.StepSystem
import OaiRan.Sdap.Entity

/-!
# SDAP from end to end

A gNB and a UE that are configured alike, with SDUs in both directions and DL PDUs that ask for
reflective mapping. PDCP is lossless: a PDU that it takes arrives on the same DRB. A configuration
that ends the program is not one of the events (`DrbConfig`).

## Main results

* `sdap_correct_iff`: in every state that is reached, an SDU arrives intact **exactly if** the flag
  that the sender's table has for its QFI is the one that the DRB is configured with
  (`HeaderAgrees`), and an end marker stays hidden exactly if its DRB has a UL header, because then
  PDCP drops it; on any other DRB it is pushed to GTP-U as a byte of user data (`MarkerHidden`). It
  rests on one invariant: both ends know of every DRB the same session and the same headers
  (`Mirrored`).
* `headerLink_unmapped_not_correct`: a flow that falls to a default DRB with headers.
-/

namespace OaiRan.Sdap

open Function Option

variable {gnb side ue : SdapSide} {controls : List (ℕ × List UInt8)}

/-- The two ends. -/
structure SdapLink where
  (gnb ue : SdapSide)

inductive SdapEvent
  /-- RRC configures a DRB, at both ends. -/
  | addDrb (cfg : DrbConfig)
  /-- RRC reconfigures a DRB; the gNB has nothing to do. -/
  | reconfigure (cfg : DrbConfig) (toRelease : List Qfi)
  /-- RRC releases a DRB, at both ends. -/
  | releaseDrb (drb : ℕ)
  /-- The gNB sends an SDU. -/
  | dl (pduSession rbId : ℕ) (sdu : List UInt8) (qfi : Qfi) (rqi : Bool)
  /-- The UE sends an SDU. -/
  | ul (pduSession rbId : ℕ) (sdu : List UInt8) (qfi : Qfi)
  /-- Any other DL PDU, such as one with the RDI bit, which the gNB itself never sets. -/
  | dlPdu (drb : ℕ) (pdu : List UInt8)

/-- What an event leads to. -/
structure SdapOutput where
  /-- The PDU of an SDU and its DRB. -/
  submitted : List (ℕ × List UInt8)
  /-- What the receiver hands on of it. -/
  delivered : List (List UInt8)
  /-- The control PDUs of the UE that PDCP takes, and their DRBs. -/
  controls : List (ℕ × List UInt8)
  /-- What the gNB hands on of them. -/
  controlsDelivered : List (List UInt8)

/-- The UE's control PDUs are taken by its own PDCP and arrive at the gNB. -/
def carryControls (link : SdapLink) (controls : List (ℕ × List UInt8)) :
    List (ℕ × List UInt8) × List (List UInt8) :=
  let taken := controls.filter fun c ↦ (link.ue.drbs c.1).isSome
  (taken, taken.flatMap fun c ↦ gnbDataInd link.gnb c.1 c.2)

/-- An event at the UE alone, after which its control PDUs are carried. -/
def withControls (link : SdapLink) (controls : List (ℕ × List UInt8)) : SdapLink × SdapOutput :=
  let (taken, delivered) := carryControls link controls
  (link, { submitted := [], delivered := [], controls := taken, controlsDelivered := delivered })

/-- `SDAP_HDR_UL_DATA_PDU`. -/
def hdrUlDataPdu : Bool := true

def sdapStep (link : SdapLink) : SdapEvent → SdapLink × SdapOutput
  | .addDrb cfg =>
    let (gnb, _) := addDrb true link.gnb cfg
    let (ue, controls) := addDrb false link.ue cfg
    withControls { gnb, ue } controls
  | .reconfigure cfg toRelease =>
    let (ue, controls) := reconfigureDrb link.ue cfg toRelease
    withControls { link with ue } controls
  | .releaseDrb drb =>
    withControls { gnb := releaseDrb link.gnb drb, ue := releaseDrb link.ue drb } []
  | .dl pduSession rbId sdu qfi rqi =>
    let (gnb, submitted) := sdapDataReq true link.gnb pduSession rbId sdu qfi rqi
    match submitted with
    | none => withControls { link with gnb } []
    | some (drb, pdu) =>
      let (ue, delivered, controls) := ueDataInd link.ue drb pdu
      let (link, out) := withControls { gnb, ue } controls
      (link, { out with submitted := [(drb, pdu)], delivered })
  | .ul pduSession rbId sdu qfi =>
    let (ue, submitted) := sdapDataReq false link.ue pduSession rbId sdu qfi hdrUlDataPdu
    match submitted with
    | none => withControls { link with ue } []
    | some (drb, pdu) =>
      let (link, out) := withControls { link with ue } []
      (link, { out with submitted := [(drb, pdu)], delivered := gnbDataInd link.gnb drb pdu })
  | .dlPdu drb pdu =>
    let (ue, _, controls) := ueDataInd link.ue drb pdu
    withControls { link with ue } controls

/-- The link under every history of events. -/
def sdapSystem : StepSystem SdapLink SdapEvent where
  init := { gnb := .init, ue := .init }
  step link event := some (sdapStep link event).1

/-! ### Both ends know the same DRBs -/

/-- The other end's view of a PDCP entity. -/
def PdcpDrb.flip (pdcp : PdcpDrb) : PdcpDrb :=
  { pdcp with hasSdapRx := pdcp.hasSdapTx, hasSdapTx := pdcp.hasSdapRx }

/-- Every DRB is known at both ends with the same headers, and its session has an entity. -/
structure Mirrored (link : SdapLink) : Prop where
  drbs : ∀ drb, link.ue.drbs drb = (link.gnb.drbs drb).map PdcpDrb.flip
  gnb : ∀ drb pdcp, link.gnb.drbs drb = some pdcp → (link.gnb.entities pdcp.pduSession).isSome
  ue : ∀ drb pdcp, link.ue.drbs drb = some pdcp → (link.ue.entities pdcp.pduSession).isSome

/-- An end on which entities may change, but none is lost. -/
structure SameDrbs (side side' : SdapSide) : Prop where
  drbs : side'.drbs = side.drbs
  entities : ∀ pduSession, (side.entities pduSession).isSome → (side'.entities pduSession).isSome

theorem SameDrbs.refl (side : SdapSide) : SameDrbs side side := ⟨rfl, fun _ h ↦ h⟩

theorem sameDrbs_setEntity (side : SdapSide) (pduSession : ℕ) (entity : SdapEntity) :
    SameDrbs side (side.setEntity pduSession entity) := by
  refine ⟨rfl, fun session h ↦ ?_⟩
  by_cases hs : session = pduSession
  · subst hs
    simp [SdapSide.setEntity]
  · simpa [SdapSide.setEntity, hs] using h

theorem sameDrbs_reconfigureDrb (side : SdapSide) (cfg : DrbConfig) (toRelease : List Qfi) :
    SameDrbs side (reconfigureDrb side cfg toRelease).1 := by
  rw [reconfigureDrb]
  split
  · exact .refl side
  · exact sameDrbs_setEntity _ _ _

theorem sameDrbs_sdapDataReq (isGnb : Bool) (side : SdapSide) (pduSession rbId : ℕ)
    (sdu : List UInt8) (qfi : Qfi) (rqi : Bool) :
    SameDrbs side (sdapDataReq isGnb side pduSession rbId sdu qfi rqi).1 := by
  rw [sdapDataReq]
  split
  · exact .refl side
  · exact sameDrbs_setEntity _ _ _

theorem sameDrbs_ueDataInd (side : SdapSide) (drb : ℕ) (pdu : List UInt8) :
    SameDrbs side (ueDataInd side drb pdu).1 := by
  rw [ueDataInd]
  split
  · exact .refl side
  · split
    · exact .refl side
    · split
      · exact .refl side
      · exact sameDrbs_setEntity _ _ _

variable {link : SdapLink} {qfi' : Qfi} {pdcp : PdcpDrb} {sdu : List UInt8}

theorem Mirrored.congr (h : Mirrored link) (hgnb : SameDrbs link.gnb link'.gnb)
    (hue : SameDrbs link.ue link'.ue) : Mirrored link' := by
  refine ⟨fun drb ↦ ?_, fun drb pdcp hpdcp ↦ ?_, fun drb pdcp hpdcp ↦ ?_⟩
  · rw [hue.drbs, hgnb.drbs, h.drbs]
  · rw [hgnb.drbs] at hpdcp
    exact hgnb.entities _ (h.gnb drb pdcp hpdcp)
  · rw [hue.drbs] at hpdcp
    exact hue.entities _ (h.ue drb pdcp hpdcp)

/-- The session of every DRB has an entity. -/
def HasEntities (side : SdapSide) : Prop :=
  ∀ drb pdcp, side.drbs drb = some pdcp → (side.entities pdcp.pduSession).isSome

/-- What `add_drb` does to the DRBs. -/
theorem addDrb_drbs (isGnb : Bool) (side : SdapSide) (cfg : DrbConfig) :
    (addDrb isGnb side cfg).1.drbs = if (side.drbs cfg.drbId).isSome then side.drbs
      else update side.drbs cfg.drbId (some
        { pduSession := cfg.pduSession
          hasSdapRx := isSdapRx isGnb cfg
          hasSdapTx := isSdapTx isGnb cfg }) := by
  rw [addDrb]
  split <;> rfl

theorem hasEntities_addDrb (isGnb : Bool) (cfg : DrbConfig)
    (h : HasEntities side) : HasEntities (addDrb isGnb side cfg).1 := by
  rw [addDrb]
  split
  · exact h
  · intro drb pdcp hpdcp
    by_cases hdrb : drb = cfg.drbId
    · subst hdrb
      simp only [SdapSide.setEntity, update_self, some.injEq] at hpdcp ⊢
      rw [← hpdcp, update_self]
      rfl
    · have hold : side.drbs drb = some pdcp := (update_of_ne hdrb _ _).symm.trans hpdcp
      exact (sameDrbs_setEntity _ _ _).entities _ (h drb pdcp hold)

theorem hasEntities_releaseDrb (drb : ℕ) (h : HasEntities side) :
    HasEntities (releaseDrb side drb) := by
  rw [releaseDrb]
  split
  · exact h
  · intro drb' pdcp' hpdcp'
    have hold : side.drbs drb' = some pdcp' := by
      by_cases hdrb : drb' = drb
      · subst hdrb
        simp at hpdcp'
      · simpa [hdrb] using hpdcp'
    have hentity := h drb' pdcp' hold
    dsimp only
    split
    · exact hentity
    · rename_i pdcp _ _ _ _
      by_cases hs : pdcp'.pduSession = pdcp.pduSession
      · rw [hs]
        simp
      · rwa [update_of_ne hs]

theorem releaseDrb_drbs (side : SdapSide) (drb : ℕ) :
    (releaseDrb side drb).drbs = update side.drbs drb none := by
  rw [releaseDrb]
  split
  · rename_i hnone
    rw [← hnone, update_eq_self]
  · rfl

/-- A DRB that changes at both ends. -/
theorem Mirrored.update_drbs (h : Mirrored link) (drb : ℕ) (pdcp : Option PdcpDrb) (drb' : ℕ) :
    update link.ue.drbs drb (pdcp.map PdcpDrb.flip) drb' =
      (update link.gnb.drbs drb pdcp drb').map PdcpDrb.flip := by
  rw [apply_update fun _ ↦ Option.map PdcpDrb.flip]
  simp only [← h.drbs]

theorem mirrored_step (h : Mirrored link) (event : SdapEvent) :
    Mirrored (sdapStep link event).1 := by
  cases event with
  | addDrb cfg =>
    refine ⟨fun drb ↦ ?_, hasEntities_addDrb true cfg h.gnb, hasEntities_addDrb false cfg h.ue⟩
    change (addDrb false link.ue cfg).1.drbs drb = ((addDrb true link.gnb cfg).1.drbs drb).map _
    rw [addDrb_drbs, addDrb_drbs, h.drbs cfg.drbId, isSome_map]
    split
    · exact h.drbs drb
    · exact h.update_drbs _ (some ⟨cfg.pduSession, isSdapRx true cfg, isSdapTx true cfg⟩) drb
  | reconfigure cfg toRelease =>
    exact h.congr (.refl _) (sameDrbs_reconfigureDrb _ _ _)
  | releaseDrb drb =>
    refine ⟨fun drb' ↦ ?_, hasEntities_releaseDrb drb h.gnb, hasEntities_releaseDrb drb h.ue⟩
    change (releaseDrb link.ue drb).drbs drb' = ((releaseDrb link.gnb drb).drbs drb').map _
    rw [releaseDrb_drbs, releaseDrb_drbs]
    exact h.update_drbs drb none drb'
  | dl pduSession rbId sdu qfi rqi =>
    have hgnb := sameDrbs_sdapDataReq true link.gnb pduSession rbId sdu qfi rqi
    rw [sdapStep]
    dsimp only
    split
    · exact h.congr hgnb (.refl _)
    · exact h.congr hgnb (sameDrbs_ueDataInd _ _ _)
  | ul pduSession rbId sdu qfi =>
    have hue := sameDrbs_sdapDataReq false link.ue pduSession rbId sdu qfi hdrUlDataPdu
    rw [sdapStep]
    dsimp only
    split <;> exact h.congr (.refl _) hue
  | dlPdu drb pdu =>
    exact h.congr (.refl _) (sameDrbs_ueDataInd _ _ _)

/-- **Both ends know the same DRBs in every state.** -/
theorem mirrored_of_reach {ok : SdapLink → SdapEvent → Prop} (h : sdapSystem.Reach ok link) :
    Mirrored link := by
  refine h.invariant ⟨fun _ ↦ rfl, fun _ _ h ↦ (nomatch h), fun _ _ h ↦ (nomatch h)⟩ ?_
  intro s t event hs _ hstep
  cases hstep
  exact mirrored_step hs event

/-! ### What a transfer has to do -/

/-- The PDU has the header of the flow before the SDU if the DRB is configured with one, and is the
SDU itself otherwise. -/
def CarriesHeader (pdcp : PdcpDrb) (sdu : List UInt8) (qfi : Qfi) (pdu : List UInt8) : Prop :=
  if pdcp.hasSdapTx then ∃ hdr, pdu = hdr :: sdu ∧ hdrQfi hdr = qfi else pdu = sdu

/-- An SDU of `sender` arrives as it should. -/
def Transferred (sender : SdapSide) (sdu : List UInt8) (qfi : Qfi) (out : SdapOutput) : Prop :=
  ∃ drb pdcp pdu, sender.drbs drb = some pdcp ∧ out.submitted = [(drb, pdu)] ∧
    CarriesHeader pdcp sdu qfi pdu ∧ out.delivered = [sdu]

/-- **No control PDU is handed on as user data, and every SDU is transferred.** -/
def Correct (link : SdapLink) (event : SdapEvent) : Prop :=
  let out := (sdapStep link event).2
  out.controlsDelivered = [] ∧
    match event with
    | .dl _ _ sdu qfi _ => Transferred link.gnb sdu qfi out
    | .ul _ _ sdu qfi => Transferred link.ue sdu qfi out
    | _ => True

/-- The SDUs that the layer is made for. -/
def SdapEvent.InRange : SdapEvent → Prop
  | .dl _ _ sdu qfi _ => 0 < qfi.val ∧ 1 ≤ sdu.length ∧ sdu.length ≤ maxSdu
  | .ul _ _ sdu qfi => 0 < qfi.val ∧ 1 ≤ sdu.length ∧ sdu.length ≤ maxSdu
  | _ => True

/-! ### When it does so -/

/-- The DRB of a flow: that of its rule, or else the default DRB; 0 if there is neither. -/
def SdapEntity.flowDrb (entity : SdapEntity) (qfi : Qfi) : ℕ :=
  if (entity.qfi2drbTable qfi).drbId ≠ 0 then (entity.qfi2drbTable qfi).drbId else entity.defaultDrb

/-- The flow has a DRB and the flag in the table is the one of that DRB, or it has none and `rb_id` is
a DRB without a header. -/
def HeaderAgrees (sender : SdapSide) (pduSession rbId : ℕ) (qfi : Qfi) : Prop :=
  ∃ entity, sender.entities pduSession = some entity ∧
    if entity.flowDrb qfi ≠ 0 then
      ∃ pdcp, sender.drbs (entity.flowDrb qfi) = some pdcp ∧
        pdcp.hasSdapTx = (entity.qfi2drbTable qfi).hasSdapTx
    else ∃ pdcp, sender.drbs rbId = some pdcp ∧ pdcp.hasSdapTx = false

/-- A DRB on which an end marker is not seen above: there is no such DRB, or it has a UL header. -/
def HidesMarkers (ue : ℕ → Option PdcpDrb) (drb : ℕ) : Prop :=
  ∀ pdcp, ue drb = some pdcp → pdcp.hasSdapTx = true

/-- The flow moves to `drb` with an end marker only if its old DRB hides it; one is sent if the flow
is on the default DRB without a rule, or has a rule for another DRB and `wanted` says so. -/
def MarkerHidden (ue : ℕ → Option PdcpDrb) (entity : SdapEntity) (drb : ℕ) (wanted : Qfi2Drb → Bool)
    (qfi : Qfi) : Prop :=
  let rule := entity.qfi2drbTable qfi
  entity.flowDrb qfi ≠ 0 → rule.drbId = 0 ∨ rule.drbId ≠ drb ∧ wanted rule →
    HidesMarkers ue (entity.flowDrb qfi)

/-- RRC's mapping asks for the flag in the table. -/
def ConfigHidden (ue : ℕ → Option PdcpDrb) (entity : Option SdapEntity) (cfg : DrbConfig) : Prop :=
  ∀ e, entity = some e → ∀ qfi ∈ cfg.mappedQfis, MarkerHidden ue e cfg.drbId (·.hasSdapTx) qfi

/-- The condition, on the state before the event. -/
def Condition (link : SdapLink) : SdapEvent → Prop
  | .addDrb cfg =>
    (link.ue.drbs cfg.drbId).isNone → ConfigHidden
      (update link.ue.drbs cfg.drbId (some
        { pduSession := cfg.pduSession
          hasSdapRx := isSdapRx false cfg
          hasSdapTx := isSdapTx false cfg })) (link.ue.entities cfg.pduSession) cfg
  | .reconfigure cfg _ => ConfigHidden link.ue.drbs (link.ue.entities cfg.pduSession) cfg
  | .releaseDrb _ => True
  | .dl pduSession rbId _ qfi _ => HeaderAgrees link.gnb pduSession rbId qfi
  | .ul pduSession rbId _ qfi => HeaderAgrees link.ue pduSession rbId qfi
  | .dlPdu drb pdu =>
    -- reflective mapping, whatever the flag in the table
    ∀ pdcp, link.ue.drbs drb = some pdcp → pdcp.hasSdapRx = true →
      ∀ entity, link.ue.entities pdcp.pduSession = some entity →
        ∀ hdr sdu, pdu = hdr :: sdu → sdu ≠ [] → hdr.toNat.testBit 7 = true →
          MarkerHidden link.ue.drbs entity drb (fun _ ↦ true) (hdrQfi hdr)

/-! ### End markers -/

/-- A list of control PDUs of one byte each, on DRBs with `p`. -/
def MarkersOn (p : ℕ → Prop) (controls : List (ℕ × List UInt8)) : Prop :=
  ∀ c ∈ controls, c.2.length = 1 ∧ p c.1

@[simp]
theorem markersOn_nil (p : ℕ → Prop) : MarkersOn p [] ↔ True :=
  iff_true_intro fun _ h ↦ (nomatch h)

@[simp]
theorem markersOn_append (p : ℕ → Prop) (cs ds : List (ℕ × List UInt8)) :
    MarkersOn p (cs ++ ds) ↔ MarkersOn p cs ∧ MarkersOn p ds :=
  List.forall_mem_append

@[simp]
theorem markersOn_submitCtrlPdu (p : ℕ → Prop) (drb : ℕ) (qfi : Qfi) :
    MarkersOn p (submitCtrlPdu drb qfi) ↔ (drb ≠ 0 → p drb) := by
  rw [submitCtrlPdu]
  split
  · simp [MarkersOn, ctrlPdu, *]
  · simp [*]

theorem qfi2drbMap_snd (entity : SdapEntity) (qfi : Qfi) :
    (qfi2drbMap entity qfi).2 = entity.flowDrb qfi := by
  rw [qfi2drbMap, SdapEntity.flowDrb]
  split
  · rfl
  · split
    · rfl
    · rename_i h
      exact (not_not.1 h).symm

/-- The end markers of a flow: to the default DRB if it has no rule, and to its DRB if it `moves`. -/
def flowMarkers (entity : SdapEntity) (qfi : Qfi) (moves : Prop) [Decidable moves] :
    List (ℕ × List UInt8) :=
  (if (entity.qfi2drbTable qfi).drbId = 0 ∧ entity.defaultDrb ≠ 0 then
    submitCtrlPdu entity.defaultDrb qfi else []) ++
  if moves then submitCtrlPdu (entity.flowDrb qfi) qfi else []

section Flow

variable (entity : SdapEntity) (qfi : Qfi) (drb : ℕ) (hasSdapRx hasSdapTx : Bool)

theorem reflectiveMapping_snd : (reflectiveMapping entity drb qfi).2 =
    flowMarkers entity qfi (drb ≠ (entity.qfi2drbTable qfi).drbId) := by
  rw [flowMarkers, ← qfi2drbMap_snd, reflectiveMapping]
  simp only [apply_ite Prod.snd]

theorem ueQfi2drbConfigOne_snd : (ueQfi2drbConfigOne entity qfi drb hasSdapRx hasSdapTx).2 =
    flowMarkers entity qfi
      ((entity.qfi2drbTable qfi).drbId ≠ drb ∧ (entity.qfi2drbTable qfi).hasSdapTx) := by
  rw [flowMarkers, ← qfi2drbMap_snd, ueQfi2drbConfigOne]
  simp only [apply_ite Prod.snd, and_comm]

/-- Both end markers go to the same DRB. -/
theorem markersOn_flowMarkers (p : ℕ → Prop) (moves : Prop) [Decidable moves] :
    MarkersOn p (flowMarkers entity qfi moves) ↔
      (entity.flowDrb qfi ≠ 0 → (entity.qfi2drbTable qfi).drbId = 0 ∨ moves →
        p (entity.flowDrb qfi)) := by
  rw [flowMarkers]
  by_cases hrule : (entity.qfi2drbTable qfi).drbId = 0
  · have hflow : entity.flowDrb qfi = entity.defaultDrb := by simp [SdapEntity.flowDrb, hrule]
    rw [hflow]
    by_cases hdefault : entity.defaultDrb = 0
    · simp [hdefault, submitCtrlPdu]
    · by_cases hmoves : moves <;> simp [hrule, hdefault, hmoves]
  · by_cases hmoves : moves <;> simp [hrule, hmoves]

theorem markersOn_reflectiveMapping (ue : ℕ → Option PdcpDrb) :
    MarkersOn (HidesMarkers ue) (reflectiveMapping entity drb qfi).2 ↔
      MarkerHidden ue entity drb (fun _ ↦ true) qfi := by
  rw [reflectiveMapping_snd, markersOn_flowMarkers, MarkerHidden]
  simp [eq_comm]

theorem markersOn_ueQfi2drbConfigOne (ue : ℕ → Option PdcpDrb) :
    MarkersOn (HidesMarkers ue) (ueQfi2drbConfigOne entity qfi drb hasSdapRx hasSdapTx).2 ↔
      MarkerHidden ue entity drb (·.hasSdapTx) qfi := by
  rw [ueQfi2drbConfigOne_snd, markersOn_flowMarkers, MarkerHidden]

/-! ### A list of flows is configured -/

theorem qfi2drbMapUpdate_defaultDrb :
    (qfi2drbMapUpdate entity qfi drb hasSdapRx hasSdapTx).defaultDrb = entity.defaultDrb := by
  rw [qfi2drbMapUpdate]
  split <;> rfl

variable {qfi} in
theorem qfi2drbMapUpdate_of_ne (h : qfi' ≠ qfi) :
    (qfi2drbMapUpdate entity qfi drb hasSdapRx hasSdapTx).qfi2drbTable qfi' =
      entity.qfi2drbTable qfi' := by
  rw [qfi2drbMapUpdate]
  split
  · exact update_of_ne h _ _
  · rfl

/-- **To look a flow up** at most gives a flow without a rule one for the default DRB. -/
theorem qfi2drbMap_fst : (qfi2drbMap entity qfi).1 = entity ∨
    (entity.qfi2drbTable qfi).drbId = 0 ∧ (qfi2drbMap entity qfi).1 = { entity with
      qfi2drbTable := update entity.qfi2drbTable qfi
        { entity.qfi2drbTable qfi with drbId := entity.defaultDrb } } := by
  rw [qfi2drbMap]
  split
  · exact .inl rfl
  · rename_i hrule
    split
    · rw [qfi2drbMapUpdate]
      split
      · exact .inr ⟨not_not.1 hrule, rfl⟩
      · exact .inl rfl
    · exact .inl rfl

theorem qfi2drbMap_defaultDrb : (qfi2drbMap entity qfi).1.defaultDrb = entity.defaultDrb := by
  rcases qfi2drbMap_fst entity qfi with heq | ⟨-, heq⟩ <;> rw [heq]

variable {qfi} in
theorem qfi2drbMap_of_ne (h : qfi' ≠ qfi) :
    (qfi2drbMap entity qfi).1.qfi2drbTable qfi' = entity.qfi2drbTable qfi' := by
  rcases qfi2drbMap_fst entity qfi with heq | ⟨-, heq⟩ <;> rw [heq]
  exact update_of_ne h _ _

/-- It does not move the flow. -/
theorem flowDrb_qfi2drbMap : (qfi2drbMap entity qfi).1.flowDrb qfi = entity.flowDrb qfi := by
  rcases qfi2drbMap_fst entity qfi with heq | ⟨hrule, heq⟩ <;> rw [heq]
  simp [SdapEntity.flowDrb, hrule]

/-- It leaves the flags alone. -/
theorem hasSdapTx_qfi2drbMap : ((qfi2drbMap entity qfi).1.qfi2drbTable qfi).hasSdapTx =
    (entity.qfi2drbTable qfi).hasSdapTx := by
  rcases qfi2drbMap_fst entity qfi with heq | ⟨-, heq⟩ <;> rw [heq]
  simp

theorem ueQfi2drbConfigOne_defaultDrb :
    (ueQfi2drbConfigOne entity qfi drb hasSdapRx hasSdapTx).1.defaultDrb = entity.defaultDrb := by
  rw [ueQfi2drbConfigOne]
  rw [qfi2drbMapUpdate_defaultDrb]
  split
  · exact qfi2drbMap_defaultDrb _ _
  · rfl

variable {qfi} in
theorem ueQfi2drbConfigOne_of_ne (h : qfi' ≠ qfi) :
    (ueQfi2drbConfigOne entity qfi drb hasSdapRx hasSdapTx).1.qfi2drbTable qfi' =
      entity.qfi2drbTable qfi' := by
  rw [ueQfi2drbConfigOne]
  rw [qfi2drbMapUpdate_of_ne _ _ _ _ h]
  split
  · exact qfi2drbMap_of_ne _ h
  · rfl

variable {qfi} in
/-- Another flow is not affected. -/
theorem markerHidden_configOne_of_ne (h : qfi' ≠ qfi) (ue : ℕ → Option PdcpDrb)
    (wanted : Qfi2Drb → Bool) :
    MarkerHidden ue (ueQfi2drbConfigOne entity qfi drb hasSdapRx hasSdapTx).1 drb wanted qfi' ↔
      MarkerHidden ue entity drb wanted qfi' := by
  simp only [MarkerHidden, SdapEntity.flowDrb, ueQfi2drbConfigOne_of_ne _ _ _ _ h,
    ueQfi2drbConfigOne_defaultDrb]

/-- The flow itself has its new rule, for which no end marker is sent again. If the DRB or the QFI is
one that the table does not take, it is on the DRB on which it was. -/
theorem markerHidden_configOne_self (ue : ℕ → Option PdcpDrb)
    (h : MarkerHidden ue entity drb (·.hasSdapTx) qfi) :
    MarkerHidden ue (ueQfi2drbConfigOne entity qfi drb hasSdapRx hasSdapTx).1 drb (·.hasSdapTx)
      qfi := by
  rw [ueQfi2drbConfigOne]
  dsimp only
  rw [qfi2drbMapUpdate]
  split
  · rename_i hvalid
    intro _ hsent
    simp [hvalid.2.1.ne'] at hsent
  · split
    · rename_i _ hmoves
      intro hflow _
      rw [flowDrb_qfi2drbMap] at hflow ⊢
      exact h hflow (.inr hmoves)
    · exact h

end Flow

/-- **The end markers of a configuration are hidden exactly if every flow's is**, in the table as it
was before. -/
theorem markersOn_ueQfi2drbConfig (ue : ℕ → Option PdcpDrb) (drb : ℕ) (hasSdapRx hasSdapTx : Bool)
    (entity : SdapEntity) (qfis : List Qfi) :
    MarkersOn (HidesMarkers ue) (ueQfi2drbConfig drb hasSdapRx hasSdapTx entity qfis).2 ↔
      ∀ qfi ∈ qfis, MarkerHidden ue entity drb (·.hasSdapTx) qfi := by
  induction qfis generalizing entity with
  | nil => simp [ueQfi2drbConfig]
  | cons qfi qfis ih =>
    rw [ueQfi2drbConfig]
    rw [markersOn_append, markersOn_ueQfi2drbConfigOne, ih, List.forall_mem_cons]
    refine and_congr_right fun hqfi ↦ forall₂_congr fun qfi' _ ↦ ?_
    by_cases hne : qfi' = qfi
    · subst hne
      exact iff_of_true (markerHidden_configOne_self _ _ _ _ _ _ hqfi) hqfi
    · exact markerHidden_configOne_of_ne _ _ _ _ hne _ _

/-! ### What arrives -/

/-- **A control PDU is seen above exactly on a DRB without a UL header.** -/
theorem carryControls_eq_nil_iff (h : Mirrored link) (hone : ∀ c ∈ controls, c.2.length = 1) :
    (carryControls link controls).2 = [] ↔ MarkersOn (HidesMarkers link.ue.drbs) controls := by
  rw [carryControls, List.flatMap_eq_nil_iff]
  simp only [List.mem_filter]
  refine ⟨fun hnil c hc ↦ ⟨hone c hc, fun pdcp hpdcp ↦ ?_⟩, fun hhides c hc ↦ ?_⟩
  · have hind := hnil c ⟨hc, by rw [hpdcp]; rfl⟩
    rw [h.drbs] at hpdcp
    obtain ⟨gnbPdcp, hgnb, rfl⟩ := map_eq_some_iff.1 hpdcp
    show gnbPdcp.hasSdapRx = true
    by_contra hrx
    simp [gnbDataInd, hgnb, tooShort, hrx, sdapHdrLength, hone c hc, h.gnb _ _ hgnb] at hind
  · obtain ⟨pdcp, hpdcp⟩ := isSome_iff_exists.1 hc.2
    have hrx := (hhides c hc.1).2 pdcp hpdcp
    rw [h.drbs] at hpdcp
    obtain ⟨gnbPdcp, hgnb, rfl⟩ := map_eq_some_iff.1 hpdcp
    change gnbPdcp.hasSdapRx = true at hrx
    simp [gnbDataInd, hgnb, tooShort, hrx, sdapHdrLength, hone c hc.1]

theorem length_of_markersOn
    (h : MarkersOn p controls) : ∀ c ∈ controls, c.2.length = 1 := fun c hc ↦ (h c hc).1

/-- On a UE without DRBs every end marker is hidden. -/
theorem markerHidden_none (entity : SdapEntity) (drb : ℕ) (wanted : Qfi2Drb → Bool) (qfi : Qfi) :
    MarkerHidden (fun _ ↦ none) entity drb wanted qfi := fun _ _ _ h ↦ (nomatch h)

theorem length_ueQfi2drbConfig (drb : ℕ) (hasSdapRx hasSdapTx : Bool) (entity : SdapEntity)
    (qfis : List Qfi) :
    ∀ c ∈ (ueQfi2drbConfig drb hasSdapRx hasSdapTx entity qfis).2, c.2.length = 1 :=
  length_of_markersOn <| (markersOn_ueQfi2drbConfig (fun _ ↦ none) drb hasSdapRx hasSdapTx entity
    qfis).2 fun qfi _ ↦ markerHidden_none entity drb _ qfi

theorem length_reflectiveMapping (entity : SdapEntity) (drb : ℕ) (qfi : Qfi) :
    ∀ c ∈ (reflectiveMapping entity drb qfi).2, c.2.length = 1 :=
  length_of_markersOn <| (markersOn_reflectiveMapping entity qfi drb fun _ ↦ none).2
    (markerHidden_none entity drb _ qfi)

/-! ### Configuration events -/

theorem carryControls_ueQfi2drbConfig (h : Mirrored link) (entity : SdapEntity) (cfg : DrbConfig) :
    (carryControls link (ueQfi2drbConfig cfg.drbId (isSdapRx false cfg) (isSdapTx false cfg) entity
      cfg.mappedQfis).2).2 = [] ↔ ConfigHidden link.ue.drbs (some entity) cfg := by
  rw [carryControls_eq_nil_iff h (length_ueQfi2drbConfig _ _ _ _ _), markersOn_ueQfi2drbConfig]
  simp [ConfigHidden]

theorem correct_reconfigure_iff (h : Mirrored link) (cfg : DrbConfig) (toRelease : List Qfi) :
    Correct link (.reconfigure cfg toRelease) ↔ Condition link (.reconfigure cfg toRelease) := by
  have hnext := mirrored_step h (.reconfigure cfg toRelease)
  have hdrbs := (sameDrbs_reconfigureDrb link.ue cfg toRelease).drbs
  show (carryControls (sdapStep link (.reconfigure cfg toRelease)).1
    (reconfigureDrb link.ue cfg toRelease).2).2 = [] ∧ True ↔
      ConfigHidden link.ue.drbs (link.ue.entities cfg.pduSession) cfg
  rw [and_true]
  cases hentity : link.ue.entities cfg.pduSession with
  | none => simp [reconfigureDrb, hentity, carryControls, ConfigHidden]
  | some entity =>
    have hcontrols : (reconfigureDrb link.ue cfg toRelease).2 =
        (ueQfi2drbConfig cfg.drbId (isSdapRx false cfg) (isSdapTx false cfg) entity
          cfg.mappedQfis).2 := by
      simp [reconfigureDrb, hentity, nrReconfigureSdapEntity]
    rw [hcontrols, carryControls_ueQfi2drbConfig hnext]
    show ConfigHidden (reconfigureDrb link.ue cfg toRelease).1.drbs _ _ ↔ _
    rw [hdrbs]

theorem correct_addDrb_iff (h : Mirrored link) (cfg : DrbConfig) :
    Correct link (.addDrb cfg) ↔ Condition link (.addDrb cfg) := by
  have hnext := mirrored_step h (.addDrb cfg)
  have hdrbs := addDrb_drbs false link.ue cfg
  show (carryControls (sdapStep link (.addDrb cfg)).1 (addDrb false link.ue cfg).2).2 = [] ∧ True ↔ _
  rw [and_true, Condition]
  cases hdrb : link.ue.drbs cfg.drbId with
  | some pdcp => simp [addDrb, hdrb, carryControls]
  | none =>
    rw [hdrb] at hdrbs
    cases hentity : link.ue.entities cfg.pduSession with
    | none =>
      -- the entity is new
      have hcontrols : (addDrb false link.ue cfg).2 = [] := by
        simp [addDrb, hdrb, hentity, newNrSdapEntity, apply_ite Prod.snd]
      simp [hcontrols, carryControls, ConfigHidden]
    | some entity =>
      have hcontrols : (addDrb false link.ue cfg).2 =
          (ueQfi2drbConfig cfg.drbId (isSdapRx false cfg) (isSdapTx false cfg) entity
            cfg.mappedQfis).2 := by
        simp [addDrb, hdrb, hentity, newNrSdapEntity]
      rw [hcontrols, carryControls_ueQfi2drbConfig hnext]
      show ConfigHidden (addDrb false link.ue cfg).1.drbs _ _ ↔ _
      simp [hdrbs]

/-! ### Data events -/

theorem length_ueDataInd (ue : SdapSide) (drb : ℕ) (pdu : List UInt8) :
    ∀ c ∈ (ueDataInd ue drb pdu).2.2, c.2.length = 1 := by
  rw [ueDataInd]
  split
  · exact fun _ h ↦ (nomatch h)
  · split
    · exact fun _ h ↦ (nomatch h)
    · split
      · exact fun _ h ↦ (nomatch h)
      · rw [rxUe]
        dsimp only
        split
        · exact length_reflectiveMapping _ _ _
        · exact fun _ h ↦ (nomatch h)

theorem tooShort_cons (hrx : pdcp.hasSdapRx = true) (hdr : UInt8) (sdu : List UInt8) :
    tooShort pdcp (hdr :: sdu) = true ↔ sdu = [] := by
  simp only [tooShort, hrx, sdapHdrLength]
  cases sdu <;> simp

theorem tooShort_of_not_rx (hrx : pdcp.hasSdapRx = false) (sdu : List UInt8) :
    tooShort pdcp sdu = true ↔ sdu = [] := by
  simp only [tooShort, hrx, sdapHdrLength]
  cases sdu <;> simp

theorem correct_dlPdu_iff (h : Mirrored link) (drb : ℕ) (pdu : List UInt8) :
    Correct link (.dlPdu drb pdu) ↔ Condition link (.dlPdu drb pdu) := by
  have hnext := mirrored_step h (.dlPdu drb pdu)
  have hdrbs := (sameDrbs_ueDataInd link.ue drb pdu).drbs
  show (carryControls (sdapStep link (.dlPdu drb pdu)).1 (ueDataInd link.ue drb pdu).2.2).2 = [] ∧
    True ↔ _
  rw [and_true, carryControls_eq_nil_iff hnext (length_ueDataInd _ _ _)]
  show MarkersOn (HidesMarkers (ueDataInd link.ue drb pdu).1.drbs) _ ↔ _
  rw [hdrbs, Condition]
  cases hpdcp : link.ue.drbs drb with
  | none => simp [ueDataInd, hpdcp]
  | some pdcp =>
    obtain ⟨entity, hentity⟩ := isSome_iff_exists.1 (h.ue drb pdcp hpdcp)
    cases hrx : pdcp.hasSdapRx with
    | false =>
      have hcontrols : (ueDataInd link.ue drb pdu).2.2 = [] := by
        simp only [ueDataInd, hpdcp, hentity, rxUe, hrx]
        split <;> rfl
      simp [hcontrols, hrx]
    | true =>
      rcases pdu with - | ⟨hdr, sdu⟩
      · simp [ueDataInd, hpdcp, tooShort]
      by_cases hsdu : sdu = []
      · simp [ueDataInd, hpdcp, tooShort_cons hrx, hsdu]
      cases hrdi : hdr.toNat.testBit 7 with
      | false =>
        have hcontrols : (ueDataInd link.ue drb (hdr :: sdu)).2.2 = [] := by
          simp [ueDataInd, hpdcp, hentity, rxUe, hrdi, tooShort_cons hrx, hsdu]
        simp [hcontrols, hrdi]
      | true =>
        have hcontrols : (ueDataInd link.ue drb (hdr :: sdu)).2.2 =
            (reflectiveMapping entity drb (hdrQfi hdr)).2 := by
          simp [ueDataInd, hpdcp, hentity, rxUe, hrdi, hrx, tooShort_cons hrx, hsdu]
        rw [hcontrols, markersOn_reflectiveMapping]
        simp [hrx, hrdi, hsdu, hentity]

theorem hdrQfi_sdapHdr (qfi : Qfi) (bit6 bit7 : Bool) : hdrQfi (sdapHdr qfi bit6 bit7) = qfi := by
  revert qfi bit6 bit7
  decide

theorem testBit_sdapHdr (qfi : Qfi) (bit6 bit7 : Bool) :
    (sdapHdr qfi bit6 bit7).toNat.testBit 7 = bit7 := by
  revert qfi bit6 bit7
  decide

section Data

variable (isGnb : Bool) (sender : SdapSide) (pduSession rbId : ℕ) (qfi : Qfi) (rqi : Bool)

/-- The DRB that an SDU is submitted to. -/
def SdapEntity.txDrb (entity : SdapEntity) (rbId : ℕ) (qfi : Qfi) : ℕ :=
  if entity.flowDrb qfi ≠ 0 then entity.flowDrb qfi else rbId

/-- Whether it gets a header. -/
def SdapEntity.txHeader (entity : SdapEntity) (qfi : Qfi) : Bool :=
  entity.flowDrb qfi ≠ 0 && (entity.qfi2drbTable qfi).hasSdapTx

theorem headerAgrees_iff :
    HeaderAgrees sender pduSession rbId qfi ↔
      ∃ entity pdcp, sender.entities pduSession = some entity ∧
        sender.drbs (entity.txDrb rbId qfi) = some pdcp ∧
        pdcp.hasSdapTx = entity.txHeader qfi := by
  refine exists_congr fun entity ↦ ?_
  by_cases hflow : entity.flowDrb qfi = 0 <;> simp [SdapEntity.txDrb, SdapEntity.txHeader, hflow]

/-- The header that `nr_sdap_tx_entity` writes. -/
def txHdr : UInt8 :=
  if isGnb then sdapHdr qfi rqi false else sdapHdr qfi false rqi

theorem nrSdapTxEntity_snd (entity : SdapEntity) (hpos : 1 ≤ sdu.length)
    (hle : sdu.length ≤ maxSdu) :
    (nrSdapTxEntity isGnb entity rbId sdu qfi rqi).2 = some (entity.txDrb rbId qfi,
      if entity.txHeader qfi then txHdr isGnb qfi rqi :: sdu else sdu) := by
  have hrange : ¬(sdu.length = 0 ∨ sdu.length > maxSdu) := by omega
  rw [nrSdapTxEntity]
  simp only [qfi2drbMap_snd, hasSdapTx_qfi2drbMap, hrange, if_false]
  by_cases hflow : entity.flowDrb qfi = 0
  · simp [SdapEntity.txDrb, SdapEntity.txHeader, hflow]
  · cases htx : (entity.qfi2drbTable qfi).hasSdapTx <;>
      simp [SdapEntity.txDrb, SdapEntity.txHeader, hflow, htx, txHdr]

/-- A PDU carries the header that its DRB is configured with **exactly if** the sender uses that
flag. -/
theorem carriesHeader_iff (pdcp : PdcpDrb) (sdu : List UInt8) (hasHeader : Bool) :
    CarriesHeader pdcp sdu qfi (if hasHeader then txHdr isGnb qfi rqi :: sdu else sdu) ↔
      pdcp.hasSdapTx = hasHeader := by
  have hqfi : hdrQfi (txHdr isGnb qfi rqi) = qfi := by
    cases isGnb <;> exact hdrQfi_sdapHdr _ _ _
  cases htx : pdcp.hasSdapTx <;> cases hasHeader <;> simp [CarriesHeader, htx, hqfi]

/-- **What is submitted**: nothing without an entity or without the DRB. -/
theorem sdapDataReq_snd (hpos : 1 ≤ sdu.length) (hle : sdu.length ≤ maxSdu) :
    (sdapDataReq isGnb sender pduSession rbId sdu qfi rqi).2 =
      (sender.entities pduSession).bind fun entity ↦
        (sender.drbs (entity.txDrb rbId qfi)).map fun _ ↦ (entity.txDrb rbId qfi,
          if entity.txHeader qfi then txHdr isGnb qfi rqi :: sdu else sdu) := by
  rw [sdapDataReq]
  cases sender.entities pduSession with
  | none => rfl
  | some entity =>
    dsimp only [bind_some]
    rw [nrSdapTxEntity_snd isGnb rbId qfi rqi entity hpos hle]
    cases hdrb : sender.drbs (entity.txDrb rbId qfi) <;> simp [Option.filter, hdrb]

/-- A PDU with the right header is unpacked by the UE, and its RDI bit is 0. -/
theorem ueDataInd_of_carried (hpdcp : ue.drbs drb = some pdcp)
    (hentity : (ue.entities pdcp.pduSession).isSome) (hsdu : sdu ≠ []) :
    (ueDataInd ue drb (if pdcp.hasSdapRx then txHdr true qfi rqi :: sdu else sdu)).2 =
      ([sdu], []) := by
  obtain ⟨entity, hentity⟩ := isSome_iff_exists.1 hentity
  cases hrx : pdcp.hasSdapRx with
  | false =>
    simp [ueDataInd, hpdcp, hentity, rxUe, hrx, tooShort_of_not_rx hrx, hsdu, sdapHdrLength]
  | true =>
    simp [ueDataInd, hpdcp, hentity, rxUe, hrx, tooShort_cons hrx, hsdu, sdapHdrLength, txHdr,
      testBit_sdapHdr]

/-- And by the gNB. -/
theorem gnbDataInd_of_carried (hpdcp : gnb.drbs drb = some pdcp)
    (hentity : (gnb.entities pdcp.pduSession).isSome) (hsdu : sdu ≠ []) :
    gnbDataInd gnb drb (if pdcp.hasSdapRx then txHdr false qfi rqi :: sdu else sdu) = [sdu] := by
  cases hrx : pdcp.hasSdapRx with
  | false =>
    simp [gnbDataInd, hpdcp, hentity, rxGnb, hrx, tooShort_of_not_rx hrx, hsdu, sdapHdrLength]
  | true =>
    simp [gnbDataInd, hpdcp, hentity, rxGnb, hrx, tooShort_cons hrx, hsdu, sdapHdrLength]

/-- **An SDU is transferred exactly if the flags agree**, provided that a PDU with the right header is
unpacked. -/
theorem transferred_iff (hpos : 1 ≤ sdu.length) (hle : sdu.length ≤ maxSdu)
    (hsubmitted : out.submitted = (sdapDataReq isGnb sender pduSession rbId sdu qfi rqi).2.toList)
    (hunpacked : ∀ drb pdcp, sender.drbs drb = some pdcp →
      (sdapDataReq isGnb sender pduSession rbId sdu qfi rqi).2 =
        some (drb, if pdcp.hasSdapTx then txHdr isGnb qfi rqi :: sdu else sdu) →
      out.controlsDelivered = [] ∧ out.delivered = [sdu]) :
    out.controlsDelivered = [] ∧ Transferred sender sdu qfi out ↔
      HeaderAgrees sender pduSession rbId qfi := by
  rw [headerAgrees_iff]
  have hreq := sdapDataReq_snd isGnb sender pduSession rbId qfi rqi hpos hle
  constructor
  · rintro ⟨-, drb, pdcp, pdu, hpdcp, hsub, hcarries, -⟩
    rw [hsubmitted, toList_eq_singleton_iff, hreq] at hsub
    obtain ⟨entity, hentity, hmap⟩ := bind_eq_some_iff.1 hsub
    obtain ⟨_, -, heq⟩ := map_eq_some_iff.1 hmap
    cases heq
    exact ⟨entity, pdcp, hentity, hpdcp, (carriesHeader_iff _ _ _ _ _ _).1 hcarries⟩
  · rintro ⟨entity, pdcp, hentity, hpdcp, hagrees⟩
    rw [hentity, bind_some, hpdcp, map_some, ← hagrees] at hreq
    obtain ⟨hcontrols, hdelivered⟩ := hunpacked _ pdcp hpdcp hreq
    refine ⟨hcontrols, _, pdcp, _, hpdcp, by rw [hsubmitted, hreq]; rfl, ?_, hdelivered⟩
    rw [carriesHeader_iff]

theorem correct_dl_iff (h : Mirrored link) (hpos : 1 ≤ sdu.length) (hle : sdu.length ≤ maxSdu) :
    Correct link (.dl pduSession rbId sdu qfi rqi) ↔
      Condition link (.dl pduSession rbId sdu qfi rqi) := by
  refine transferred_iff true link.gnb pduSession rbId qfi rqi hpos hle ?_ ?_
  · rw [sdapStep]
    dsimp only
    cases (sdapDataReq true link.gnb pduSession rbId sdu qfi rqi).2 <;> rfl
  · intro drb pdcp hpdcp hreq
    have hue : link.ue.drbs drb = some pdcp.flip := by
      rw [h.drbs, hpdcp]
      rfl
    have hind : (ueDataInd link.ue drb
        (if pdcp.hasSdapTx then txHdr true qfi rqi :: sdu else sdu)).2 = ([sdu], []) :=
      ueDataInd_of_carried qfi rqi hue (h.ue _ _ hue) (List.length_pos_iff.1 hpos)
    rw [sdapStep]
    dsimp only
    rw [hreq]
    refine ⟨?_, congrArg Prod.fst hind⟩
    dsimp only
    rw [congrArg Prod.snd hind]
    rfl

theorem correct_ul_iff (h : Mirrored link) (hpos : 1 ≤ sdu.length) (hle : sdu.length ≤ maxSdu) :
    Correct link (.ul pduSession rbId sdu qfi) ↔ Condition link (.ul pduSession rbId sdu qfi) := by
  refine transferred_iff false link.ue pduSession rbId qfi hdrUlDataPdu hpos hle ?_ ?_
  · rw [sdapStep]
    dsimp only
    cases (sdapDataReq false link.ue pduSession rbId sdu qfi hdrUlDataPdu).2 <;> rfl
  · intro drb pdcp hpdcp hreq
    obtain ⟨gnbPdcp, hgnb, rfl⟩ := map_eq_some_iff.1 ((h.drbs _).symm.trans hpdcp)
    have hind : gnbDataInd link.gnb drb
        (if gnbPdcp.hasSdapRx then txHdr false qfi hdrUlDataPdu :: sdu else sdu) = [sdu] :=
      gnbDataInd_of_carried qfi hdrUlDataPdu hgnb (h.gnb _ _ hgnb) (List.length_pos_iff.1 hpos)
    rw [sdapStep]
    dsimp only
    rw [hreq]
    exact ⟨rfl, hind⟩

end Data

/-! ### The link -/

/-- **SDAP transfers an SDU of 1 to 8999 bytes intact, and hides its control PDUs, exactly under
`Condition`**, after every history of configurations and transfers. -/
theorem sdap_correct_iff {link : SdapLink} (hreach : sdapSystem.Reach (fun _ _ ↦ True) link)
    (event : SdapEvent) (hrange : event.InRange) : Correct link event ↔ Condition link event := by
  have h := mirrored_of_reach hreach
  cases event with
  | addDrb cfg => exact correct_addDrb_iff h cfg
  | reconfigure cfg toRelease => exact correct_reconfigure_iff h cfg toRelease
  | releaseDrb drb => exact iff_of_true ⟨rfl, trivial⟩ trivial
  | dl pduSession rbId sdu qfi rqi =>
    exact correct_dl_iff pduSession rbId qfi rqi h hrange.2.1 hrange.2.2
  | ul pduSession rbId sdu qfi => exact correct_ul_iff pduSession rbId qfi h hrange.2.1 hrange.2.2
  | dlPdu drb pdu => exact correct_dlPdu_iff h drb pdu

/-- A default DRB with headers in both directions and QFI 1 mapped to it. -/
def headerDrb : DrbConfig where
  drbId := 1
  pduSession := 10
  sdapHeaderUl := true
  sdapHeaderDl := true
  defaultDrb := true
  mappedQfis := [⟨1, by decide⟩]
  drbId_pos := by decide
  drbId_le := by decide
  mapped := nofun

/-- The link after it has been added. -/
def headerLink : SdapLink := (sdapStep sdapSystem.init (.addDrb headerDrb)).1

theorem headerLink_reach : sdapSystem.Reach (fun _ _ ↦ True) headerLink :=
  .step .init trivial rfl

/-- The mapped flow is transferred. -/
theorem headerLink_mapped_correct : Correct headerLink (.dl 10 1 [69, 0] 1 false) :=
  (sdap_correct_iff headerLink_reach (.dl 10 1 [69, 0] 1 false)
    ⟨by decide, by decide, by decide⟩).2 ⟨_, rfl, _, rfl, rfl⟩

/-- **QFI 9 is not listed.** It goes to the default DRB, but the table has no flag for it: the SDU is
sent without a header, and the UE takes its first byte for one. -/
theorem headerLink_unmapped_not_correct :
    (sdapStep headerLink (.dl 10 1 [69, 0] 9 false)).2.submitted = [(1, [69, 0])] ∧
      (sdapStep headerLink (.dl 10 1 [69, 0] 9 false)).2.delivered = [[0]] ∧
      ¬ Correct headerLink (.dl 10 1 [69, 0] 9 false) := by
  have hdelivered : (sdapStep headerLink (.dl 10 1 [69, 0] 9 false)).2.delivered = [[0]] := by
    decide
  refine ⟨by decide, hdelivered, ?_⟩
  rintro ⟨-, drb, pdcp, pdu, -, -, -, hsdu⟩
  exact absurd hsdu (by decide)

end OaiRan.Sdap
