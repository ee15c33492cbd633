import OaiRan.Mac.UlReads

/-!
# Which bytes the UE inspects of a downlink MAC PDU

`nr_ue_process_mac_pdu` goes over the sub-PDUs of a buffer of `pdu_len` bytes. In a two-step random
access procedure `nr_ue_validate_successrar` first goes over the subheaders of a MSGB. As for the
uplink (`Mac.UlReads`), the buffer is memory that goes on behind the PDU, each byte that is inspected is
logged, and so is each SDU that is handed to RLC.

`get_mac_len` looks at the subheader within bounds, but compares **the length of the SDU alone** with
what is left; a fixed-size MAC CE is read without a check; and a CCCH message with a length that is too
large ends the program. `dlParsesInBounds_iff` says what has to fit for every sub-PDU that is reached.
-/

namespace OaiRan.UeMac

open OaiRan.Mac List Option

/-! ### State and LCIDs -/

/-- `nrRA_UE_state_t`. -/
inductive RaState
  | ueIdle
  | generatePreamble
  | waitRar
  | waitMsgb
  | waitContentionResolution
  | succeeded
  | failed
  deriving DecidableEq

/-- The part of the UE's state that decides which bytes are inspected. -/
structure UeRa where
  /-- `ra_type == RA_2_STEP`. -/
  raTwoStep : Bool := false
  raState : RaState := .ueIdle
  raActive : Bool := false
  /-- `cont_res_id`. -/
  contResId : ℕ → UInt8 := fun _ ↦ 0
  tagId : ℕ := 0
  /-- `IS_SOFTMODEM_IQPLAYER`. -/
  iqPlayer : Bool := false

/-- What the `switch` distinguishes. -/
inductive DlSchLcid
  | ccch
  /-- A MAC CE with a length field. -/
  | variableLen
  /-- A MAC CE of a fixed size whose content is not looked at. -/
  | fixedLen (macLen : ℕ)
  | taCommand
  | conResId
  | padding
  | sdu
  | unknown
  deriving DecidableEq

/-- The `switch` over `rx_lcid`. -/
def dlSchLcid (lcid : ℕ) : DlSchLcid :=
  if lcid = 0x00 then .ccch
  else if lcid = 0x35 ∨ lcid = 0x36 ∨ lcid = 0x37 ∨ lcid = 0x32 then .variableLen
  else if lcid = 0x2F then .fixedLen 2
  else if lcid = 0x30 then .fixedLen 2
  else if lcid = 0x31 then .fixedLen 3
  else if lcid = 0x33 then .fixedLen 2
  else if lcid = 0x34 then .fixedLen 2
  else if lcid = 0x38 then .fixedLen 1
  else if lcid = 0x39 then .fixedLen 4
  else if lcid = 0x3A then .fixedLen 1
  else if lcid = 0x3B then .fixedLen 0
  else if lcid = 0x3C then .fixedLen 0
  else if lcid = 0x3D then .taCommand
  else if lcid = 0x3E then .conResId
  else if lcid = 0x3F then .padding
  else if 1 ≤ lcid ∧ lcid ≤ 32 then .sdu
  else .unknown

/-- An SDU that is handed to RLC: `len` bytes from `start` on. -/
structure DlSdu where
  (lcid start len : ℕ)
  deriving DecidableEq

/-- How the loop goes on after a sub-PDU. -/
inductive DlNext
  | goesOn (ue : UeRa) (total : ℕ)
  | ends
  /-- An assertion fails. -/
  | aborts

/-- What is done with a sub-PDU. -/
structure DlVisit where
  reads : List ℕ
  sdus : List DlSdu := []
  next : DlNext

/-- What `get_mac_len` inspects, returns and sets. -/
structure MacLen where
  reads : List ℕ := []
  ok : Bool := false
  macLen : ℕ := 0
  subheaderLen : ℕ := 1

/-- Subheader and payload. -/
def MacLen.total (m : MacLen) : ℕ := m.subheaderLen + m.macLen

/-- What is known of a PDU after it has been processed. -/
structure DlParse where
  reads : List ℕ := []
  sdus : List DlSdu := []
  aborted : Bool := false

section Buffer

variable (mem : ℕ → UInt8)

/-- `get_mac_len` at `o` with `pduLen` bytes left. The length is set even if it is too large. -/
def getMacLen (o pduLen : ℕ) : MacLen :=
  if pduLen < 2 then {}
  else if (mem o).toNat.testBit 6 then
    if pduLen < 3 then { reads := [o] }
    else
      let macLen := (mem (o + 1)).toNat * 256 + (mem (o + 2)).toNat
      ⟨[o, o + 1, o + 2], decide (macLen ≤ pduLen), macLen, 3⟩
  else ⟨[o, o + 1], decide ((mem (o + 1)).toNat ≤ pduLen), (mem (o + 1)).toNat, 2⟩

def checkRaContentionResolution (ue : UeRa) (o : ℕ) : Bool :=
  ue.iqPlayer || (range 6).all fun i ↦ mem (o + i) == ue.contResId i

/-- What follows from it, with the state that `nr_ra_succeeded` leaves. -/
def UeRa.resolved (ue : UeRa) (raSuccess : Bool) : UeRa :=
  if ue.raActive && raSuccess then { ue with raState := .succeeded, raActive := false }
  else if !raSuccess then { ue with raState := .ueIdle, raActive := false }
  else ue

/-- The body of the loop of `nr_ue_process_mac_pdu`. -/
def dlSubPdu (ue : UeRa) (o pduLen : ℕ) : DlVisit :=
  let lcid := (mem o).toNat % 64
  let m := getMacLen mem o pduLen
  match dlSchLcid lcid with
  | .ccch =>
    if m.ok then
      if (range m.total).all fun i ↦ mem (o + i) == 0 then
        ⟨o :: (m.reads ++ zeroScan mem m.total o), [], .ends⟩
      else
        ⟨o :: (m.reads ++ zeroScan mem m.total o),
          if 0 < m.macLen then [⟨0, o + m.subheaderLen, m.macLen⟩] else [], .goesOn ue m.total⟩
    else ⟨o :: m.reads, [], .aborts⟩
  | .variableLen => ⟨o :: m.reads, [], .goesOn ue m.total⟩
  | .fixedLen macLen => ⟨[o], [], .goesOn ue (1 + macLen)⟩
  | .taCommand =>
    if (mem (o + 1)).toNat / 64 ≠ ue.tagId then ⟨[o, o + 1], [], .ends⟩
    else ⟨[o, o + 1], [], .goesOn ue 2⟩
  | .conResId =>
    if ue.raState = .waitContentionResolution then
      ⟨range' o 7, [],
        .goesOn (ue.resolved (checkRaContentionResolution mem ue (o + 1))) 7⟩
    else ⟨[o], [], .goesOn ue 7⟩
  | .padding => ⟨[o], [], .ends⟩
  | .sdu =>
    if m.ok then
      ⟨o :: m.reads, [⟨lcid, o + m.subheaderLen, m.macLen⟩], .goesOn ue m.total⟩
    else ⟨o :: m.reads, [], .ends⟩
  | .unknown => ⟨[o], [], .goesOn ue 1⟩

/-- `while (!done && pdu_len > 0)`. -/
def dlWalk : ℕ → ℕ → ℕ → UeRa → Option DlParse
  | 0, _, _, _ => none
  | fuel + 1, o, pduLen, ue =>
    if pduLen = 0 then some {}
    else
      let v := dlSubPdu mem ue o pduLen
      match v.next with
      | .aborts => some ⟨v.reads, v.sdus, true⟩
      | .ends => some ⟨v.reads, v.sdus, false⟩
      | .goesOn ue' total =>
        (dlWalk fuel (o + total) (pduLen - total) ue').map fun r ↦
          ⟨v.reads ++ r.reads, v.sdus ++ r.sdus, r.aborted⟩

/-- The loop of `nr_ue_validate_successrar` from octet `n` on: what it inspects, and either the octet
it ends at or a failed assertion. -/
def successRarWalk (pduLen : ℕ) : ℕ → ℕ → UeRa → List ℕ × Option (ℕ × UeRa)
  | 0, n, ue => ([], some (n, ue))
  | fuel + 1, n, ue =>
    if n < pduLen then
      let octet := (mem n).toNat
      if octet.testBit 6 then ([n], none)
      else
        let next := if octet.testBit 5 then
            (n + 12, ue.resolved (checkRaContentionResolution mem ue (n + 1)))
          else (n + 1, ue)
        let reads := range' n (next.1 - n)
        if octet.testBit 7 then
          let r := successRarWalk pduLen fuel next.1 next.2
          (reads ++ r.1, r.2)
        else (reads, some next)
    else ([], some (n, ue))

/-- `nr_ue_process_mac_pdu`. After a MSGB octet 1 of the PDU is taken for a timing advance. -/
def nrUeProcessMacPdu (pduLen : ℕ) (ue : UeRa) : Option DlParse :=
  if ue.raTwoStep ∧ ue.raState = .waitMsgb then
    let r := successRarWalk mem pduLen pduLen 0 ue
    match r.2 with
    | none => some ⟨r.1, [], true⟩
    | some (n, ue') =>
      (dlWalk mem (pduLen + 1) n (pduLen - n) ue').map fun p ↦
        { p with reads := r.1 ++ 1 :: p.reads }
  else dlWalk mem (pduLen + 1) 0 pduLen ue

/-! ### What has to fit -/

/-- What a sub-PDU needs of the bytes that are left. -/
def SubPduFits (ue : UeRa) (o pduLen : ℕ) : Prop :=
  match dlSchLcid ((mem o).toNat % 64) with
  | .ccch => (getMacLen mem o pduLen).ok = true ∧ (getMacLen mem o pduLen).total ≤ pduLen
  | .sdu => (getMacLen mem o pduLen).ok = true → (getMacLen mem o pduLen).total ≤ pduLen
  | .taCommand => 2 ≤ pduLen
  | .conResId => ue.raState = .waitContentionResolution → 7 ≤ pduLen
  | _ => True

/-- **The sub-PDUs that the loop reaches fit.** -/
def DlFramed : ℕ → ℕ → ℕ → UeRa → Prop
  | 0, _, _, _ => True
  | fuel + 1, o, pduLen, ue =>
    pduLen = 0 ∨ SubPduFits mem ue o pduLen ∧
      ∀ ue' total, (dlSubPdu mem ue o pduLen).next = .goesOn ue' total →
        DlFramed fuel (o + total) (pduLen - total) ue'

/-- No subheader of a MSGB that is reached announces a fallback RAR, and each success RAR fits. -/
def SuccessRarsFit (pduLen : ℕ) : ℕ → ℕ → Prop
  | 0, _ => True
  | fuel + 1, n =>
    n < pduLen → (mem n).toNat.testBit 6 = false ∧
      ((mem n).toNat.testBit 5 = true → n + 12 ≤ pduLen) ∧
      ((mem n).toNat.testBit 7 = true →
        SuccessRarsFit pduLen fuel (if (mem n).toNat.testBit 5 then n + 12 else n + 1))

/-- What a PDU needs. -/
def DlPduFits (pduLen : ℕ) (ue : UeRa) : Prop :=
  if ue.raTwoStep ∧ ue.raState = .waitMsgb then
    2 ≤ pduLen ∧ SuccessRarsFit mem pduLen pduLen 0 ∧
      ∀ n ue', (successRarWalk mem pduLen pduLen 0 ue).2 = some (n, ue') →
        DlFramed mem (pduLen + 1) n (pduLen - n) ue'
  else DlFramed mem (pduLen + 1) 0 pduLen ue

/-- **Parsing stays in bounds**: it ends, no assertion fails, each byte that is inspected is in the PDU
and each SDU lies inside it. -/
def DlParsesInBounds (pduLen : ℕ) (ue : UeRa) : Prop :=
  ∃ r, nrUeProcessMacPdu mem pduLen ue = some r ∧ r.aborted = false ∧
    (∀ i ∈ r.reads, i < pduLen) ∧ ∀ d ∈ r.sdus, d.start + d.len ≤ pduLen

end Buffer

variable {mem : ℕ → UInt8} {o pduLen fuel : ℕ} {ue : UeRa}

/-! ### One sub-PDU -/

/-- `get_mac_len` inspects the subheader only as far as it goes. -/
theorem getMacLen_spec (mem : ℕ → UInt8) (o pduLen : ℕ) :
    (∀ i ∈ (getMacLen mem o pduLen).reads, i < o + pduLen) ∧
      0 < (getMacLen mem o pduLen).subheaderLen ∧
      ((getMacLen mem o pduLen).ok = true → (getMacLen mem o pduLen).subheaderLen ≤ pduLen) := by
  rw [getMacLen]
  split
  · exact ⟨nofun, Nat.zero_lt_one, fun h ↦ absurd h Bool.false_ne_true⟩
  split
  · split
    · refine ⟨fun i hi ↦ ?_, Nat.zero_lt_one, fun h ↦ absurd h Bool.false_ne_true⟩
      rw [mem_singleton.1 hi]
      omega
    · refine ⟨fun i hi ↦ ?_, Nat.succ_pos 2, fun _ ↦ ?_⟩
      · simp only [mem_cons, not_mem_nil, or_false] at hi
        omega
      · dsimp only
        omega
  · refine ⟨fun i hi ↦ ?_, Nat.succ_pos 1, fun _ ↦ ?_⟩
    · simp only [mem_cons, not_mem_nil, or_false] at hi
      omega
    · dsimp only
      omega

/-- A visit is in bounds: no assertion fails, and bytes and SDUs are before `last`. -/
def DlVisit.InBounds (v : DlVisit) (last : ℕ) : Prop :=
  v.next ≠ .aborts ∧ (∀ i ∈ v.reads, i < last) ∧ ∀ d ∈ v.sdus, d.start + d.len ≤ last

/-- All octets are zero: they are all inspected. -/
theorem mem_zeroScan_of_all (h : ∀ j < n, mem (i + j) = 0) (hj : j < n) :
    i + j ∈ zeroScan mem n i := by
  induction n generalizing i j with
  | zero => exact absurd hj (Nat.not_lt_zero j)
  | succ n ih =>
    have hzero : mem i = 0 := h 0 (Nat.succ_pos n)
    rw [zeroScan, if_pos hzero]
    rcases j with - | j
    · exact mem_cons_self ..
    · refine mem_cons_of_mem _ ?_
      rw [show i + (j + 1) = i + 1 + j by omega]
      refine ih (fun k hk ↦ ?_) (by omega)
      rw [show i + 1 + k = i + (k + 1) by omega]
      exact h (k + 1) (by omega)

theorem ccch_inBounds_iff (hpos : 0 < pduLen) {m : MacLen} (hreads : ∀ i ∈ m.reads, i < o + pduLen)
    (hsub : m.ok = true → m.subheaderLen ≤ pduLen) :
    (if m.ok then
      if (range m.total).all fun i ↦ mem (o + i) == 0 then
        ⟨o :: (m.reads ++ zeroScan mem m.total o), [], .ends⟩
      else
        ⟨o :: (m.reads ++ zeroScan mem m.total o),
          if 0 < m.macLen then [⟨0, o + m.subheaderLen, m.macLen⟩] else [], .goesOn ue m.total⟩
    else ⟨o :: m.reads, [], .aborts⟩ : DlVisit).InBounds (o + pduLen) ↔
      m.ok = true ∧ m.total ≤ pduLen := by
  rcases hok : m.ok with - | -
  · simp [DlVisit.InBounds]
  have hle := hsub hok
  rw [if_pos rfl, and_iff_right rfl]
  have hscan : m.total ≤ pduLen →
      ∀ i ∈ o :: (m.reads ++ zeroScan mem m.total o), i < o + pduLen := by
    intro htotal i hi
    rcases mem_cons.1 hi with rfl | hi
    · omega
    rcases mem_append.1 hi with hi | hi
    · exact hreads i hi
    · have := mem_zeroScan hi
      omega
  split
  · rename_i hzero
    refine ⟨fun h ↦ ?_, fun htotal ↦ ⟨by simp, hscan htotal, by simp⟩⟩
    -- The scan goes to the end of what the subheader announces.
    by_contra hlong
    have hall : ∀ j < m.total, mem (o + j) = 0 := fun j hj ↦ by
      simpa using all_eq_true.1 hzero j (mem_range.2 hj)
    have := h.2.1 (o + pduLen) (mem_cons_of_mem _ (mem_append_right _
      (mem_zeroScan_of_all hall (by omega))))
    omega
  · constructor
    · intro h
      by_contra hlong
      rw [MacLen.total] at hlong
      have hsdu := h.2.2
      rw [if_pos (by omega)] at hsdu
      have := hsdu _ (mem_singleton.2 rfl)
      dsimp only at this
      omega
    · intro htotal
      refine ⟨by simp, hscan htotal, ?_⟩
      rw [MacLen.total] at htotal
      split
      · intro d hd
        rw [mem_singleton.1 hd]
        dsimp only
        omega
      · simp

/-- **A sub-PDU is in bounds if and only if it fits.** -/
theorem dlSubPdu_inBounds_iff (mem : ℕ → UInt8) (ue : UeRa) (o : ℕ) (hpos : 0 < pduLen) :
    (dlSubPdu mem ue o pduLen).InBounds (o + pduLen) ↔ SubPduFits mem ue o pduLen := by
  obtain ⟨hreads, -, hsub⟩ := getMacLen_spec mem o pduLen
  have hcons : ∀ i ∈ o :: (getMacLen mem o pduLen).reads, i < o + pduLen := by
    intro i hi
    rcases mem_cons.1 hi with rfl | hi
    · omega
    · exact hreads i hi
  have hone : ∀ i ∈ [o], i < o + pduLen := by
    intro i hi
    rw [mem_singleton.1 hi]
    omega
  rw [dlSubPdu, SubPduFits]
  generalize dlSchLcid ((mem o).toNat % 64) = k
  cases k with
  | ccch => exact ccch_inBounds_iff hpos hreads hsub
  | variableLen => exact iff_of_true ⟨by simp, hcons, by simp⟩ trivial
  | fixedLen => exact iff_of_true ⟨by simp, hone, by simp⟩ trivial
  | taCommand =>
    have htwo : (∀ i ∈ [o, o + 1], i < o + pduLen) ↔ 2 ≤ pduLen := by
      simp only [mem_cons, not_mem_nil, or_false, forall_eq_or_imp, forall_eq]
      omega
    dsimp only
    rw [← htwo]
    split <;> simp [DlVisit.InBounds]
  | conResId =>
    dsimp only
    split
    · rename_i hwait
      have hseven : (∀ i ∈ range' o 7, i < o + pduLen) ↔ 7 ≤ pduLen := by
        simp only [mem_range'_1]
        refine ⟨fun h ↦ ?_, fun h i hi ↦ by omega⟩
        have := h (o + 6) (by omega)
        omega
      rw [← hseven]
      simp [DlVisit.InBounds, hwait]
    · rename_i hwait
      exact iff_of_true ⟨by simp, hone, by simp⟩ fun h ↦ absurd h hwait
  | padding => exact iff_of_true ⟨by simp, hone, by simp⟩ trivial
  | sdu =>
    dsimp only
    split
    · rename_i hok
      rw [MacLen.total]
      constructor
      · intro h _
        have := h.2.2 _ (mem_singleton.2 rfl)
        dsimp only at this
        omega
      · intro h
        refine ⟨by simp, hcons, fun d hd ↦ ?_⟩
        rw [mem_singleton.1 hd]
        have := h hok
        dsimp only
        omega
    · rename_i hok
      exact iff_of_true ⟨by simp, hcons, by simp⟩ fun h ↦ absurd h hok
  | unknown => exact iff_of_true ⟨by simp, hone, by simp⟩ trivial

/-- Each sub-PDU has at least one octet. -/
theorem total_pos (h : (dlSubPdu mem ue o pduLen).next = .goesOn ue' total) : 0 < total := by
  have hsub : 0 < (getMacLen mem o pduLen).total :=
    Nat.add_pos_left (getMacLen_spec mem o pduLen).2.1 _
  rw [dlSubPdu] at h
  split at h
  case h_1 =>
    split at h
    · split at h
      · cases h
      · cases h
        exact hsub
    · cases h
  case h_2 => cases h; exact hsub
  case h_3 => cases h; omega
  case h_4 =>
    split at h
    · cases h
    · cases h
      omega
  case h_5 =>
    split at h <;> cases h <;> omega
  case h_6 => cases h
  case h_7 =>
    split at h
    · cases h
      exact hsub
    · cases h
  case h_8 => cases h; omega

/-! ### The loops -/

/-- **The loop ends.** -/
theorem dlWalk_isSome (mem : ℕ → UInt8) (o : ℕ) (ue : UeRa) (hfuel : pduLen < fuel) :
    (dlWalk mem fuel o pduLen ue).isSome := by
  induction fuel generalizing o pduLen ue with
  | zero => omega
  | succ fuel ih =>
    rw [dlWalk]
    split
    · rfl
    · dsimp only
      split
      · rfl
      · rfl
      · rename_i hnext
        rw [isSome_map]
        have := total_pos hnext
        exact ih _ _ (by omega)

/-- What is left of a PDU after an octet: bytes and SDUs are in bounds. -/
def DlParse.InBounds (r : DlParse) (last : ℕ) : Prop :=
  r.aborted = false ∧ (∀ i ∈ r.reads, i < last) ∧ ∀ d ∈ r.sdus, d.start + d.len ≤ last

theorem dlWalk_inBounds_iff (last : ℕ) (hlast : o + pduLen = last ∨ pduLen = 0)
    (h : dlWalk mem fuel o pduLen ue = some r) :
    r.InBounds last ↔ DlFramed mem fuel o pduLen ue := by
  induction fuel generalizing o pduLen ue r with
  | zero => cases h
  | succ fuel ih =>
    rw [dlWalk] at h
    rw [DlFramed]
    split at h
    · rename_i hzero
      cases h
      exact iff_of_true ⟨rfl, by simp, by simp⟩ (.inl hzero)
    rename_i hzero
    obtain rfl := hlast.resolve_right hzero
    have hvisit := dlSubPdu_inBounds_iff mem ue o (Nat.pos_of_ne_zero hzero)
    rw [or_iff_right hzero, ← hvisit]
    dsimp only at h
    split at h
    · rename_i hnext
      cases h
      refine iff_of_false (fun h ↦ absurd h.1 (by simp)) fun h ↦ h.1.1 hnext
    · rename_i hnext
      cases h
      rw [DlVisit.InBounds, hnext]
      simp [DlParse.InBounds]
    · rename_i ue' total hnext
      obtain ⟨r', hr', rfl⟩ := map_eq_some_iff.1 h
      have hrest := ih (by omega) hr'
      have hgo : (∀ ue'' total', DlNext.goesOn ue' total = .goesOn ue'' total' →
          DlFramed mem fuel (o + total') (pduLen - total') ue'') ↔
          DlFramed mem fuel (o + total) (pduLen - total) ue' := by
        refine ⟨fun h ↦ h _ _ rfl, fun h ue'' total' heq ↦ ?_⟩
        cases heq
        exact h
      rw [hnext, hgo, ← hrest, DlVisit.InBounds, hnext]
      simp only [DlParse.InBounds, forall_mem_append, ne_eq, reduceCtorEq, not_false_eq_true,
        true_and]
      tauto

theorem successRarWalk_inBounds_iff (mem : ℕ → UInt8) (pduLen fuel n : ℕ) (ue : UeRa) :
    ((successRarWalk mem pduLen fuel n ue).2.isSome ∧
      ∀ i ∈ (successRarWalk mem pduLen fuel n ue).1, i < pduLen) ↔
      SuccessRarsFit mem pduLen fuel n := by
  induction fuel generalizing n ue with
  | zero => simp [successRarWalk, SuccessRarsFit]
  | succ fuel ih =>
    rw [successRarWalk, SuccessRarsFit]
    rcases Nat.lt_or_ge n pduLen with hlt | hge
    swap
    · rw [if_neg (by omega)]
      exact iff_of_true ⟨rfl, by simp⟩ fun h ↦ by omega
    simp only [hlt, forall_const]
    rcases h₆ : (mem n).toNat.testBit 6 with - | -
    swap
    · simp
    simp only [Bool.false_eq_true, if_false, true_and]
    -- A success RAR takes twelve octets, a backoff indicator one.
    have hreads : ∀ k, 0 < k → ((∀ i ∈ range' n (n + k - n), i < pduLen) ↔ n + k ≤ pduLen) := by
      intro k hk
      simp only [mem_range'_1]
      refine ⟨fun h ↦ ?_, fun h i hi ↦ by omega⟩
      have := h (n + k - 1) (by omega)
      omega
    rcases h₅ : (mem n).toNat.testBit 5 with - | -
    · simp only [Bool.false_eq_true, if_false, false_imp_iff, true_and]
      have hone := (hreads 1 Nat.one_pos).2 hlt
      rcases h₇ : (mem n).toNat.testBit 7 with - | -
      · simpa using hone
      · simp only [if_true, forall_mem_append, forall_const]
        rw [← ih (n := n + 1) ue]
        tauto
    · have htwelve := hreads 12 (by decide)
      rcases h₇ : (mem n).toNat.testBit 7 with - | -
      · simpa using htwelve
      · simp only [if_true, forall_mem_append, forall_const]
        rw [← ih (n := n + 12), ← htwelve]
        tauto

/-- **When parsing stays in bounds.** -/
theorem dlParsesInBounds_iff (mem : ℕ → UInt8) (pduLen : ℕ) (ue : UeRa) :
    DlParsesInBounds mem pduLen ue ↔ DlPduFits mem pduLen ue := by
  rw [DlParsesInBounds, nrUeProcessMacPdu, DlPduFits]
  split
  · have hrar := successRarWalk_inBounds_iff mem pduLen pduLen 0 ue
    generalize successRarWalk mem pduLen pduLen 0 ue = rar at hrar ⊢
    rcases rar with ⟨reads, - | ⟨n, ue'⟩⟩
    · refine iff_of_false ?_ fun h ↦ absurd (hrar.2 h.2.1).1 (by simp)
      rintro ⟨r, hr, habort, -⟩
      cases hr
      cases habort
    · obtain ⟨p, hp⟩ := isSome_iff_exists.1
        (dlWalk_isSome mem n ue' (Nat.lt_succ_of_le (Nat.sub_le pduLen n)))
      have hwalk := dlWalk_inBounds_iff pduLen (by omega) hp
      simp only [hp, map_some, some.injEq, exists_eq_left', Prod.mk.injEq, and_imp]
      have hframed : (∀ n' ue'', n = n' → ue' = ue'' →
          DlFramed mem (pduLen + 1) n' (pduLen - n') ue'') ↔
          DlFramed mem (pduLen + 1) n (pduLen - n) ue' := by
        refine ⟨fun h ↦ h _ _ rfl rfl, ?_⟩
        rintro h _ _ rfl rfl
        exact h
      rw [hframed, ← hwalk, ← hrar, DlParse.InBounds]
      simp only [forall_mem_append, forall_mem_cons, isSome_some, true_and]
      tauto
  · obtain ⟨p, hp⟩ := isSome_iff_exists.1
      (dlWalk_isSome mem 0 ue (Nat.lt_succ_self pduLen))
    have hwalk := dlWalk_inBounds_iff pduLen (.inl (Nat.zero_add _)) hp
    rw [← hwalk, hp]
    simp [DlParse.InBounds]

/-- An SDU of two bytes of which one is there, a CCCH message without a length field, and a timing
advance command without its octet: **bytes behind the PDU are handed to RLC**, the program ends, and a
byte behind the PDU is inspected. -/
theorem dl_parses_out_of_bounds :
    ¬ DlParsesInBounds (fun i ↦ [0x01, 0x02, 0xAA].getD i 0) 3 {} ∧
    ¬ DlParsesInBounds (fun _ ↦ 0x00) 1 {} ∧ ¬ DlParsesInBounds (fun _ ↦ 0x3D) 1 {} := by
  refine ⟨?_, ?_, ?_⟩
  · rintro ⟨r, hr, -, -, hsdus⟩
    have hmem : ⟨1, 2, 2⟩ ∈ r.sdus := by
      have hlog := congrArg (Option.map fun r ↦ decide ((⟨1, 2, 2⟩ : DlSdu) ∈ r.sdus)) hr
      exact of_decide_eq_true (some.inj (hlog.symm.trans (by decide)))
    exact absurd (hsdus _ hmem) (by decide)
  · rintro ⟨r, hr, habort, -⟩
    have hlog := congrArg (Option.map fun r ↦ r.aborted) hr
    rw [map_some, habort] at hlog
    exact absurd hlog (by decide)
  · rintro ⟨r, hr, -, hreads, -⟩
    have hmem : 1 ∈ r.reads := by
      have hlog := congrArg (Option.map fun r ↦ decide (1 ∈ r.reads)) hr
      exact of_decide_eq_true (some.inj (hlog.symm.trans (by decide)))
    exact absurd (hreads _ hmem) (by decide)

end OaiRan.UeMac
