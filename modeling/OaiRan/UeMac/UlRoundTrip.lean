import OaiRan.Mac.UlPdu
import OaiRan.UeMac.MuxSteps
import Mathlib.Data.Nat.Bitwise

/-!
# The gNB reads what the UE has written

The PDU of `nr_ue_get_sdu` is a row of SDUs with their subheaders (`SduStream`), the reports and
padding. It always fills the transport block, and `nr_process_mac_pdu` always reads it to its end.
The SDUs that it finds are those in the PDU; these are the ones that RLC gave, except that the UE
keeps the length of an SDU in 16 bits: of an SDU of 65536 bytes or more the bytes behind the first
`length % 65536` are lost.
-/

namespace OaiRan.UeMac

open CInt OaiRan.Mac List Option Nat UInt8

variable {ρ : Type} {R : Rlc ρ} {lc : LcInfo} {s t : Mux ρ} {mac : MacInst} {buflen : ℕ}

/-! ### The SDUs in a PDU -/

/-- A row of SDUs, with subheaders that hold their lengths. -/
inductive SduStream : List UInt8 → List (ℕ × List UInt8) → Prop
  | nil : SduStream [] []
  | snoc {pdu sdus size lcid sdu} : SduStream pdu sdus → lcid = 1 ∨ lcid = 2 ∨ 4 ≤ lcid ∧ lcid ≤ 32 →
      (size = 2 ∧ sdu.length < 2 ^ 8 ∨ size = 3 ∧ sdu.length < 2 ^ 16) →
      SduStream (pdu ++ (sduHeader size lcid sdu.length ++ sdu)) (sdus ++ [(lcid, sdu)])

/-- What is put into the PDU of what RLC gave. -/
def putSdus (taken : List (ℕ × List UInt8)) : List (ℕ × List UInt8) :=
  (taken.map fun sdu ↦ (sdu.1, sdu.2.take (sdu.2.length % 2 ^ 16))).filter fun sdu ↦ sdu.2 ≠ []

theorem putSdus_append
    (a b : List (ℕ × List UInt8)) : putSdus (a ++ b) = putSdus a ++ putSdus b := by
  simp [putSdus]

/-- One SDU. -/
theorem putSdus_singleton (lcid : ℕ) (sdu : List UInt8) :
    putSdus [(lcid, sdu)] =
      if sdu.length % 2 ^ 16 = 0 then [] else [(lcid, sdu.take (sdu.length % 2 ^ 16))] := by
  rw [putSdus, map_singleton, filter_cons, filter_nil]
  by_cases hzero : sdu.length % 2 ^ 16 = 0
  · rw [if_pos hzero, hzero, take_zero]
    rfl
  · have hne : sdu.take (sdu.length % 2 ^ 16) ≠ [] := by
      rw [Ne, take_eq_nil_iff]
      rintro (hnone | hnil)
      · exact hzero hnone
      · exact hzero (by rw [hnil]; rfl)
    rw [if_neg hzero, if_pos (decide_eq_true hne)]

/-- The number of bytes. -/
def sduBytes (sdus : List (ℕ × List UInt8)) : ℕ := (sdus.map (·.2.length)).sum

/-- Bytes are lost exactly when an SDU is too long. -/
theorem sduBytes_putSdus
    (taken : List (ℕ × List UInt8)) : sduBytes (putSdus taken) ≤ sduBytes taken ∧
    ((∃ sdu ∈ taken, 2 ^ 16 ≤ sdu.2.length) → sduBytes (putSdus taken) < sduBytes taken) := by
  induction taken with
  | nil => exact ⟨le_refl _, fun ⟨sdu, h, _⟩ ↦ absurd h not_mem_nil⟩
  | cons sdu taken ih =>
    obtain ⟨hle, hlt⟩ := ih
    have hcons : sduBytes (sdu :: taken) = sdu.2.length + sduBytes taken := by simp [sduBytes]
    have hput : sduBytes (putSdus (sdu :: taken)) =
        sdu.2.length % 2 ^ 16 + sduBytes (putSdus taken) := by
      rw [← singleton_append, putSdus_append, putSdus_singleton]
      split
      · rename_i hzero
        rw [hzero, nil_append, zero_add]
      · simp [sduBytes, min_eq_left (mod_le _ _)]
    refine ⟨by omega, ?_⟩
    rintro ⟨long, hmem, hlong⟩
    rcases mem_cons.1 hmem with rfl | hmem
    · have := Nat.mod_lt long.2.length (Nat.two_pow_pos 16)
      omega
    · have := hlt ⟨long, hmem, hlong⟩
      omega

/-- What is put is all there is exactly if no SDU is too long. -/
theorem putSdus_eq_iff (h : ∀ sdu ∈ taken, sdu.2 ≠ []) :
    putSdus taken = taken ↔ ∀ sdu ∈ taken, sdu.2.length < 2 ^ 16 := by
  constructor
  · intro heq sdu hsdu
    refine not_le.1 fun hlong ↦ ?_
    have := (sduBytes_putSdus taken).2 ⟨sdu, hsdu, hlong⟩
    rw [heq] at this
    omega
  · intro hshort
    have hmap : taken.map (fun sdu ↦ (sdu.1, sdu.2.take (sdu.2.length % 2 ^ 16))) = taken := by
      refine (map_congr_left fun sdu hsdu ↦ ?_).trans (map_id taken)
      rw [mod_eq_of_lt (hshort sdu hsdu), take_length]
      rfl
    rw [putSdus, hmap]
    exact filter_eq_self.2 fun sdu hsdu ↦ by simpa using h sdu hsdu

/-- While the SDUs are put into the PDU. -/
structure Mux.Writing (s : Mux ρ) : Prop where
  inRoom : s.InRoom
  stream : SduStream s.pdu (putSdus s.taken)
  nonempty : ∀ sdu ∈ s.taken, sdu.2 ≠ []

theorem Mux.Writing.taken (hs : s.Writing) (lc : LcInfo) (sdu : List UInt8) (rlc : ρ) :
    ∀ a ∈ (s.take lc sdu rlc).taken, a.2 ≠ [] := by
  rw [Mux.take]
  split
  · exact hs.nonempty
  · rename_i hne
    intro a ha
    rcases mem_append.1 ha with ha | ha
    · exact hs.nonempty a ha
    · rw [mem_singleton] at ha
      exact ha ▸ hne

theorem putSdus_take (s : Mux ρ) (lc : LcInfo) (sdu : List UInt8) (rlc : ρ) :
    putSdus (s.take lc sdu rlc).taken = putSdus s.taken ++ putSdus [(lc.lcid, sdu)] := by
  rw [Mux.take]
  split
  · rename_i hnil
    rw [hnil, putSdus_singleton, if_pos (by simp), append_nil]
  · rw [putSdus_append]

/-- **A turn puts one SDU behind the others**, or none. -/
theorem Mux.Writing.fillTurn (hs : s.Writing)
    (hlc : lc.lcid = 1 ∨ lc.lcid = 2 ∨ 4 ≤ lc.lcid ∧ lc.lcid ≤ 32)
    (h : fillTurn R lc s = some (go, t)) : t.Writing := by
  obtain ⟨hin, -, -⟩ := hs.inRoom.fillTurn h
  rcases fillTurn_cases hs.inRoom h with
    ⟨-, -, rfl⟩ | ⟨hroom, req, target, sdu, rlc, hreq, -, hlen, hans⟩
  · exact hs
  have hstream := hs.stream
  have hput := putSdus_take s lc sdu rlc
  rw [putSdus_singleton] at hput
  rcases Mux.answered_cases hans with ⟨hzero, -, rfl⟩ | ⟨hpos, u, rfl, -, rfl⟩
  · refine ⟨hin, ?_, hs.taken lc sdu rlc⟩
    rw [if_pos hzero, append_nil] at hput
    change SduStream s.pdu (putSdus (s.take lc sdu rlc).taken)
    rwa [hput]
  · refine ⟨hin, ?_, hs.taken lc sdu rlc⟩
    rw [if_neg (by omega)] at hput
    change SduStream (s.pdu ++ _) (putSdus (s.take lc sdu rlc).taken)
    rw [hput]
    refine .snoc hstream hlc ?_
    rw [length_take, min_eq_left (mod_le _ _), headerSize]
    have hlt := Nat.mod_lt sdu.length (Nat.two_pow_pos 16)
    split
    · exact .inl ⟨rfl, by omega⟩
    · exact .inr ⟨rfl, hlt⟩

/-! ### Reading the SDUs -/

variable {lcid : ℕ} {ue : GnbUe} {rest : List UInt8}

theorem ulSchLcid_sdu (h : lcid = 1 ∨ lcid = 2 ∨ 4 ≤ lcid ∧ lcid ≤ 32) :
    ulSchLcid lcid = .srb ∨ ulSchLcid lcid = .dtch := by
  rw [ulSchLcid]
  grind

/-- **The subheader of an SDU is read back.** -/
theorem decodeUlMacSubPduHeader_sduHeader {size n : ℕ}
    (hlcid : lcid = 1 ∨ lcid = 2 ∨ 4 ≤ lcid ∧ lcid ≤ 32)
    (hsize : size = 2 ∧ n < 2 ^ 8 ∨ size = 3 ∧ n < 2 ^ 16) (rest : List UInt8) :
    decodeUlMacSubPduHeader (sduHeader size lcid n ++ rest) = some ⟨lcid, size, n⟩ := by
  have hlt : lcid < 64 := by omega
  have hclass := ulSchLcid_sdu hlcid
  rcases hsize with ⟨rfl, hn⟩ | ⟨rfl, hn⟩
  · have hoctet : (ofNat (lcid % 64)).toNat = lcid := by
      rw [toNat_ofNat']
      omega
    have hlen : (ofNat n).toNat = n := by
      rw [toNat_ofNat']
      omega
    have hbit : lcid.testBit 6 = false := testBit_eq_false_of_lt (by omega)
    have hdec : decodeLength lcid (sduHeader 2 lcid n ++ rest) = some ⟨lcid, 2, n⟩ := by
      refine (decodeLength_short (by rwa [hoctet]) lcid _ rest).trans ?_
      rw [hlen]
    have hfirst : (sduHeader 2 lcid n ++ rest)[0]? = some (ofNat (lcid % 64)) := rfl
    rw [decodeUlMacSubPduHeader, hfirst, bind_some, hoctet, mod_eq_of_lt hlt, subheaderOf]
    rcases hclass with hclass | hclass <;> rw [hclass] <;> exact hdec
  · have hoctet : (ofNat (lcid % 64 + 64)).toNat = lcid + 64 := by
      rw [toNat_ofNat']
      omega
    have hhigh : (ofNat (n / 256)).toNat = n / 256 := by
      rw [toNat_ofNat']
      omega
    have hlow : (ofNat n).toNat = n % 256 := by
      rw [toNat_ofNat']
    have hbit : (lcid + 64).testBit 6 = true := by
      rw [testBit_eq_decide_div_mod_eq, decide_eq_true_eq]
      omega
    have hdec : decodeLength lcid (sduHeader 3 lcid n ++ rest) = some ⟨lcid, 3, n⟩ := by
      have hn' : n / 256 * 256 + n % 256 = n := by omega
      refine (decodeLength_long (by rwa [hoctet]) lcid rest).trans ?_
      rw [hhigh, hlow, hn']
    have hfirst : (sduHeader 3 lcid n ++ rest)[0]? = some (ofNat (lcid % 64 + 64)) := rfl
    have hmod : (lcid + 64) % 64 = lcid := by omega
    rw [decodeUlMacSubPduHeader, hfirst, bind_some, hoctet, hmod, subheaderOf]
    rcases hclass with hclass | hclass <;> rw [hclass] <;> exact hdec

/-- The gNB can take SDUs and power headroom reports from this UE. -/
structure Ready (ue : GnbUe) : Prop where
  cellGroup : ue.cellGroup = true
  harqPid : 0 ≤ ue.harqPid

/-- The `switch` for an SDU. -/
theorem subPdu_sdu (hue : Ready ue) {size : ℕ} (sdu : List UInt8)
    (hlcid : lcid = 1 ∨ lcid = 2 ∨ 4 ≤ lcid ∧ lcid ≤ 32) (hsize : size = 2 ∨ size = 3) :
    ∃ ue', (∀ rest, ue.subPdu ⟨lcid, size, sdu.length⟩
        (sduHeader size lcid sdu.length ++ sdu ++ rest) = .ok ue') ∧
      ue'.dataInd = ue.dataInd ++ [(lcid, sdu)] ∧ Ready ue' := by
  have hce : ∀ rest, ((sduHeader size lcid sdu.length ++ sdu ++ rest).drop size).take sdu.length =
      sdu := by
    intro rest
    rw [append_assoc, drop_left' (length_sduHeader hsize _ _), take_left]
  simp only [GnbUe.subPdu, hce]
  rcases ulSchLcid_sdu hlcid with hclass | hclass <;> simp only [hclass]
  · exact ⟨_, fun _ ↦ if_pos hue.cellGroup, rfl, hue.cellGroup, hue.harqPid⟩
  · exact ⟨_, fun _ ↦ rfl, rfl, hue.cellGroup, hue.harqPid⟩

/-- **A row of SDUs is read**, and what follows is read next. -/
theorem SduStream.read (h : SduStream pdu sdus) (hue : Ready ue) :
    sdus.length ≤ pdu.length ∧ ∃ ue', ue'.dataInd = ue.dataInd ++ sdus ∧ Ready ue' ∧
      ∀ n rest, processMacPduLoop (n + sdus.length) ue (pdu ++ rest) =
        processMacPduLoop n ue' rest := by
  induction h with
  | nil => exact ⟨le_refl _, ue, by simp, hue, fun _ _ ↦ rfl⟩
  | @snoc pdu sdus size lcid sdu h hlcid hsize ih =>
    obtain ⟨hle, ue₁, hind₁, hue₁, hread₁⟩ := ih
    have hsize' : size = 2 ∨ size = 3 := by omega
    have hlen := length_sduHeader hsize' lcid sdu.length
    refine ⟨by simp only [length_append, length_singleton]; omega, ?_⟩
    obtain ⟨ue₂, hsub, hind₂, hue₂⟩ := subPdu_sdu hue₁ sdu hlcid hsize'
    refine ⟨ue₂, by rw [hind₂, hind₁, append_assoc], hue₂, fun n rest ↦ ?_⟩
    have hfuel : n + (sdus ++ [(lcid, sdu)]).length = (n + 1) + sdus.length := by
      rw [length_append, length_singleton]
      omega
    rw [hfuel, append_assoc, hread₁]
    refine processMacPduLoop_append (h := ⟨lcid, size, sdu.length⟩) ?_ ?_ ?_ (hsub rest)
    · rw [append_assoc]
      exact decodeUlMacSubPduHeader_sduHeader hlcid hsize _
    · rw [length_append, hlen]
    · intro hnil
      have := congrArg length hnil
      rw [length_append, hlen, length_nil] at this
      omega

/-! ### Reading the reports -/

/-- A PDU without SDUs, which is read to its end. -/
def ReadsNoSdu (pdu : List UInt8) : Prop :=
  ∀ ue n, Ready ue → pdu.length ≤ n →
    (processMacPduLoop n ue pdu).1.accepted = true ∧ (processMacPduLoop n ue pdu).2.dataInd = ue.dataInd

theorem readsNoSdu_nil : ReadsNoSdu [] := by
  intro ue n _ _
  rw [processMacPduLoop_nil]
  exact ⟨rfl, rfl⟩

theorem readsNoSdu_padding (pad : List UInt8) : ReadsNoSdu (ulSchLcidPadding :: pad) := by
  intro ue n _ hn
  obtain ⟨k, rfl⟩ : ∃ k, n = k + 1 := ⟨n - 1, by rw [length_cons] at hn; omega⟩
  exact ⟨rfl, rfl⟩

/-- A report in front. -/
theorem ReadsNoSdu.append {sub : List UInt8} (hrest : ReadsNoSdu rest)
    (hdec : decodeUlMacSubPduHeader (sub ++ rest) = some h)
    (hlen : sub.length = h.macSubheaderLen + h.macLen) (hpos : sub ≠ [])
    (hsub : ∀ ue, Ready ue → ∃ ue', ue.subPdu h (sub ++ rest) = .ok ue' ∧
      ue'.dataInd = ue.dataInd ∧ Ready ue') : ReadsNoSdu (sub ++ rest) := by
  intro ue n hue hn
  have hsub_pos := length_pos_iff.2 hpos
  rw [length_append] at hn
  obtain ⟨k, rfl⟩ : ∃ k, n = k + 1 := ⟨n - 1, by omega⟩
  obtain ⟨ue', hok, hind, hue'⟩ := hsub ue hue
  rw [processMacPduLoop_append hdec hlen hpos hok, ← hind]
  exact hrest ue' k hue' (by omega)

theorem readsNoSdu_phr (hrest : ReadsNoSdu rest) (phr : Option (UInt8 × UInt8)) :
    ReadsNoSdu (phrBytes phr ++ rest) := by
  rcases phr with - | ⟨ph, pcmax⟩
  · exact hrest
  · change ReadsNoSdu ([ulSchLcidSingleEntryPhr, ph, pcmax] ++ rest)
    refine hrest.append (h := ⟨0x39, 1, 2⟩) rfl rfl (by simp) fun ue hue ↦
      ⟨_, if_neg (by simpa using hue.harqPid), rfl, hue.cellGroup, hue.harqPid⟩

theorem length_lcgEntries_le (es : List (ℕ × UInt8)) (space : ℕ) :
    (lcgEntries es space).length ≤ es.length ∧ (lcgEntries es space).length ≤ space := by
  induction es generalizing space with
  | nil => exact ⟨le_refl _, zero_le _⟩
  | cons e es ih =>
    rw [lcgEntries]
    split
    · obtain ⟨h₁, h₂⟩ := ih (space - 1)
      rw [length_cons, length_cons]
      omega
    · obtain ⟨h₁, h₂⟩ := ih space
      rw [length_cons]
      omega

/-- The `switch` for a BSR. -/
theorem subPdu_bsr (hlcid : lcid = 0x3B ∨ lcid = 0x3C ∨ lcid = 0x3D ∨ lcid = 0x3E)
    (n l : ℕ) (pdu : List UInt8) (ue : GnbUe) (hue : Ready ue) :
    ∃ ue', ue.subPdu ⟨lcid, n, l⟩ pdu = .ok ue' ∧ ue'.dataInd = ue.dataInd ∧ Ready ue' := by
  rcases hlcid with rfl | rfl | rfl | rfl <;>
    exact ⟨_, rfl, rfl, hue.cellGroup, hue.harqPid⟩

/-- A long BSR with so many entries as its length says. -/
theorem readsNoSdu_longBsr (hrest : ReadsNoSdu rest)
    (hoctet : octet = 0x3C ∨ octet = 0x3E) (bitmap : UInt8) (hlen : entries.length ≤ 8) :
    ReadsNoSdu ([octet, .ofNat (1 + entries.length), bitmap] ++ entries ++ rest) := by
  have hl : (ofNat (1 + entries.length)).toNat = 1 + entries.length := by
    rw [toNat_ofNat']
    omega
  have hdec : decodeUlMacSubPduHeader
      ([octet, .ofNat (1 + entries.length), bitmap] ++ entries ++ rest) =
        some ⟨octet.toNat, 2, 1 + entries.length⟩ := by
    have hfirst : ([octet, .ofNat (1 + entries.length), bitmap] ++ entries ++ rest)[0]? =
      some octet := rfl
    have hbit : octet.toNat.testBit 6 = false := by
      rcases hoctet with rfl | rfl <;> decide
    have hlcid : octet.toNat % 64 = octet.toNat := by
      rcases hoctet with rfl | rfl <;> decide
    have hclass : ulSchLcid octet.toNat = .lTruncatedBsr ∨ ulSchLcid octet.toNat = .lBsr := by
      rcases hoctet with rfl | rfl <;> decide
    rw [decodeUlMacSubPduHeader, hfirst, bind_some, hlcid, subheaderOf]
    have hlength := decodeLength_short hbit octet.toNat (.ofNat (1 + entries.length))
      ([bitmap] ++ entries ++ rest)
    rw [hl] at hlength
    rcases hclass with hclass | hclass <;> rw [hclass] <;> exact hlength
  refine hrest.append hdec ?_ (by simp) (subPdu_bsr ?_ _ _ _)
  · rw [length_append]
    change 3 + entries.length = 2 + (1 + entries.length)
    omega
  · rcases hoctet with rfl | rfl
    · exact .inr (.inl rfl)
    · exact .inr (.inr (.inr rfl))

theorem readsNoSdu_bsr (hrest : ReadsNoSdu rest) (space : ℕ) (bsr : Bsr) :
    ReadsNoSdu (bsrBytes space bsr ++ rest) := by
  cases bsr with
  | none => exact hrest
  | short trunc lcgId bufferSize =>
    cases trunc with
    | false =>
      exact hrest.append (h := ⟨0x3D, 1, 1⟩) rfl rfl (by simp [bsrBytes])
        (subPdu_bsr (.inr (.inr (.inl rfl))) _ _ _)
    | true =>
      exact hrest.append (h := ⟨0x3B, 1, 1⟩) rfl rfl (by simp [bsrBytes])
        (subPdu_bsr (.inl rfl) _ _ _)
  | long trunc lcgBsr =>
    have hle := (length_lcgEntries_le ((range 8).zip lcgBsr) (space - 3)).1
    rw [bsrBytes]
    generalize hes : lcgEntries ((range 8).zip lcgBsr) (space - 3) = entries at hle
    rw [length_zip, length_range] at hle
    rw [← length_map (f := fun e : ℕ × UInt8 ↦ e.2)]
    refine readsNoSdu_longBsr hrest ?_ _ (by rw [length_map]; omega)
    cases trunc with
    | false => exact .inr rfl
    | true => exact .inl rfl

/-- The bytes behind the SDUs are read to the end. -/
theorem readsNoSdu_tail (s : Mux ρ) (mac : MacInst) (buflen : ℕ) :
    ReadsNoSdu (s.tail mac buflen) := by
  rw [Mux.tail, append_assoc]
  refine readsNoSdu_phr (readsNoSdu_bsr ?_ _ _) _
  split
  · exact readsNoSdu_padding _
  · exact readsNoSdu_nil

/-! ### The whole PDU -/

theorem length_phrBytes (mac : MacInst) (buflen : ℕ) :
    (phrBytes (mac.phrSent buflen)).length = mac.phrLen buflen := by
  rw [MacInst.phrLen]
  cases mac.phrSent buflen with
  | none => rfl
  | some phr => rfl

/-- The BSR that is chosen fits. -/
theorem length_bsrBytes_le (s : Mux ρ) (mac : MacInst) (paddingLen : ℕ) :
    (bsrBytes paddingLen (s.chooseBsr mac paddingLen)).length ≤ paddingLen := by
  have hlong : ∀ trunc, 11 ≤ paddingLen ∨ 3 ≤ paddingLen →
      (bsrBytes paddingLen (.long trunc s.lcgBsr)).length ≤ paddingLen := by
    have hle := (length_lcgEntries_le ((range 8).zip s.lcgBsr) (paddingLen - 3)).2
    simp only [bsrBytes, length_append, length_map, length_cons, length_nil]
    omega
  rw [Mux.chooseBsr]
  split
  · omega
  split
  · exact hlong _ (by omega)
  split
  · rename_i htwo
    rw [htwo]
    exact le_refl 2
  split
  · exact hlong _ (by omega)
  · exact zero_le _

/-- **The transport block is filled.** -/
theorem length_tail (h : s.pdu.length + mac.phrLen buflen ≤ buflen) (hlt : buflen < 2 ^ 32) :
    (s.tail mac buflen).length = buflen - s.pdu.length := by
  have hpad : toUint32 ((buflen : ℤ) - s.pdu.length - mac.phrLen buflen) =
      buflen - s.pdu.length - mac.phrLen buflen := by
    rw [toUint32_of_nonneg (by omega) (by omega)]
    omega
  rw [Mux.tail, hpad, length_phrBytes]
  have hbsr := length_bsrBytes_le s mac (buflen - s.pdu.length - mac.phrLen buflen)
  generalize bsrBytes _ _ = bsr at *
  rw [length_append, length_append, length_phrBytes]
  split
  · rw [length_cons, length_replicate]
    omega
  · rw [length_nil]
    omega

/-- What the UE has written, and what the gNB reads of it. -/
structure UlMacPdu.Read (out : UlMacPdu) (buflen : ℕ) (ue : GnbUe) : Prop where
  length : out.pdu.length = buflen
  accepted : (nrProcessMacPdu ue out.pdu).1.accepted = true
  dataInd : (nrProcessMacPdu ue out.pdu).2.dataInd = ue.dataInd ++ putSdus out.taken
  nonempty : ∀ sdu ∈ out.taken, sdu.2 ≠ []

/-- **The gNB finds what is in the PDU.** -/
theorem nrUeGetSdu_read
    (hlcid : ∀ lc ∈ mac.lcOrderedList, lc.lcid ≠ 3) (hbuf : 3 ≤ buflen) (hlt : buflen < 2 ^ 32)
    (hue : Ready ue) (h : nrUeGetSdu R mac buflen rlc = some out) : out.Read buflen ue := by
  obtain ⟨s, hs, hout⟩ := bind_eq_some_iff.1 h
  have hinv : s.Writing ∧ s.endForTailer = buflen - mac.bsrLen buflen - mac.phrLen buflen := by
    refine multiplex_invariant (P := fun s ↦ s.Writing ∧
      s.endForTailer = buflen - mac.bsrLen buflen - mac.phrLen buflen) ?_ ?_ ?_ hs
    · exact fun _ _ _ _ _ _ h ↦ ⟨⟨⟨h.1.inRoom.le, h.1.inRoom.lt⟩, h.1.stream, h.1.nonempty⟩, h.2⟩
    · intro s t lc go hmem hs hturn
      have hrange := mac.lcid_mem lc hmem
      have hne := hlcid lc hmem
      refine ⟨hs.1.fillTurn (by omega) hturn, ?_⟩
      rcases fillTurn_cases hs.1.inRoom hturn with
        ⟨-, -, rfl⟩ | ⟨-, req, target, sdu, rlc, -, -, -, hans⟩
      · exact hs.2
      · rw [(Mux.answered_room hans).1]
        exact hs.2
    · refine ⟨⟨⟨zero_le _, ?_⟩, .nil, nofun⟩, rfl⟩
      rw [MacInst.start]
      dsimp only
      omega
  obtain ⟨hwriting, hend⟩ := hinv
  have hreports := mac.bsrLen_add_phrLen_le hbuf
  have hle := hwriting.inRoom.le
  have hpdu : out.pdu = s.pdu ++ s.tail mac buflen ∧ out.taken = s.taken := by
    rw [Mux.finish] at hout
    split at hout
    · simp at hout
    · simp only [some.injEq] at hout
      rw [← hout]
      exact ⟨rfl, rfl⟩
  have htail : (s.tail mac buflen).length = buflen - s.pdu.length := length_tail (by omega) hlt
  have hlength : out.pdu.length = buflen := by
    rw [hpdu.1, length_append, htail]
    omega
  obtain ⟨hcount, ue₁, hind, hue₁, hread⟩ := hwriting.stream.read hue
  have hprocess : nrProcessMacPdu ue out.pdu =
      processMacPduLoop (buflen - (putSdus s.taken).length) ue₁ (s.tail mac buflen) := by
    rw [nrProcessMacPdu, hlength, hpdu.1, ← hread]
    congr 1
    omega
  obtain ⟨haccepted, hsame⟩ := readsNoSdu_tail s mac buflen ue₁ (buflen - (putSdus s.taken).length)
    hue₁ (by omega)
  refine ⟨hlength, ?_, ?_, ?_⟩
  · rw [hprocess]
    exact haccepted
  · rw [hprocess, hsame, hind, hpdu.2]
  · rw [hpdu.2]
    exact hwriting.nonempty

/-- **What the gNB hands to its RLC is what the UE took from its own, in a PDU that fills the
transport block and is read to its end, exactly if no SDU has 65536 bytes or more.** The gNB has to
know the UE (it has a `CellGroup`) and the HARQ process. -/
theorem nrProcessMacPdu_nrUeGetSdu_iff {rlc : ρ} {out : UlMacPdu} {ue : GnbUe}
    (hlcid : ∀ lc ∈ mac.lcOrderedList, lc.lcid ≠ 3) (hbuf : 3 ≤ buflen) (hlt : buflen < 2 ^ 32)
    (hue : Ready ue) (h : nrUeGetSdu R mac buflen rlc = some out) :
    (out.pdu.length = buflen ∧ (nrProcessMacPdu ue out.pdu).1.accepted = true ∧
      (nrProcessMacPdu ue out.pdu).2.dataInd = ue.dataInd ++ out.taken) ↔
    ∀ sdu ∈ out.taken, sdu.2.length < 2 ^ 16 := by
  have hread := nrUeGetSdu_read hlcid hbuf hlt hue h
  rw [hread.dataInd, append_cancel_left_eq, ← putSdus_eq_iff hread.nonempty]
  exact ⟨fun h ↦ h.2.2, fun h ↦ ⟨hread.length, hread.accepted, h⟩⟩

/-! ### One channel -/

/-- A channel with so many bytes and no limit on its bit rate. -/
def oneChannel (bytes : ℕ) : MacInst where
  lcOrderedList := [⟨4, 1, 2 ^ 32 - 1⟩]
  nodup := by decide
  lcid_mem := by decide
  lcSchedInfo _ := ⟨bytes, 0, 1⟩

theorem oneChannel_isSome : (nrUeGetSdu fullRlc (oneChannel 10) 20 ()).isSome := by decide

/-- Ten bytes in a transport block of twenty. -/
theorem nrProcessMacPdu_ten_bytes :
    let out := (nrUeGetSdu fullRlc (oneChannel 10) 20 ()).get oneChannel_isSome
    out.taken = [(4, replicate 10 4)] ∧ out.pdu.length = 20 ∧
      (nrProcessMacPdu {} out.pdu).2.dataInd = [(4, replicate 10 4)] := by
  intro out
  have htaken : out.taken = [(4, replicate 10 4)] := by decide
  have hread := (nrProcessMacPdu_nrUeGetSdu_iff (by decide) (by decide) (by decide)
    (show Ready {} from ⟨rfl, Int.le_refl 0⟩) (some_get oneChannel_isSome).symm).2 (by
      change ∀ sdu ∈ out.taken, sdu.2.length < 2 ^ 16
      decide)
  exact ⟨htaken, hread.1, by rw [← htaken]; exact hread.2.2⟩

/-- 65536 bytes: the low sixteen bits of their number are zero. -/
def longSdu : List UInt8 := replicate 65536 4

theorem length_longSdu : longSdu.length = 65536 := length_replicate

/-- The only channel of `oneChannel`. -/
def onlyChannel : LcInfo := ⟨4, 1, 2 ^ 32 - 1⟩

/-- The state in which the channel is served. -/
def longSduStart : Mux Unit :=
  ((((oneChannel 65536).start 70000 ()).startRound).setCount 1).setShare

/-- MAC takes the 65536 bytes for none. -/
theorem fillTurn_longSdu : fillTurn fullRlc onlyChannel longSduStart =
    some (false, (longSduStart.take onlyChannel longSdu ()).noData onlyChannel) := by
  have hroom : longSduStart.room > 0 := by decide
  have hthree : ¬ toUint64 longSduStart.room < 3 := by decide
  have hreq : longSduStart.request onlyChannel = some (65536, 2 ^ 32 - 1) := by decide
  have hrlc : fullRlc.dataReq longSduStart.rlc onlyChannel.lcid 65536 = (longSdu, ()) := rfl
  have hnone : longSduStart.answered onlyChannel 65536 (2 ^ 32 - 1) longSdu () =
      (false, (longSduStart.take onlyChannel longSdu ()).noData onlyChannel) := by
    have hmod : longSdu.take (longSdu.length % 2 ^ 16) = [] := by
      rw [length_longSdu]
      rfl
    rw [Mux.answered, hmod]
    rfl
  rw [fillTurn, if_pos hroom, fillMacSdu, if_neg hthree, hreq, bind_some]
  simp only [hrlc]
  rw [length_longSdu, if_pos ⟨by decide, by decide⟩, hnone]

/-- The channel is not asked again. -/
theorem multiplex_longSdu :
    multiplex fullRlc (oneChannel 65536) 70000 () =
      some { (longSduStart.take onlyChannel longSdu ()).noData onlyChannel with
        lcpAllocationCounter := 1 } := by
  have hactive : (oneChannel 65536).selectLogicalChannels = [onlyChannel] := by decide
  have hvisit : visit fullRlc ((oneChannel 65536).start 70000 ()).startRound (onlyChannel, 1) =
      some ((longSduStart.take onlyChannel longSdu ()).noData onlyChannel) := by
    have hstatus : ((oneChannel 65536).start 70000 ()).startRound.lcidsDataStatus onlyChannel.lcid :=
      rfl
    rw [visit, if_pos hstatus]
    rw [← longSduStart, loopM, fillTurn_longSdu]
  have hround : lcpRound fullRlc [onlyChannel] ((oneChannel 65536).start 70000 ()) =
      some (false, { (longSduStart.take onlyChannel longSdu ()).noData onlyChannel with
        lcpAllocationCounter := 1 }) := by
    have hvisits : visits [onlyChannel] = [(onlyChannel, 1)] := by decide
    rw [lcpRound, hvisits, foldlM_cons, hvisit]
    rfl
  rw [multiplex, hactive, loopM, hround]

/-- **An SDU of 65536 bytes is lost.** -/
theorem nrProcessMacPdu_loses_longSdu :
    ∃ out, nrUeGetSdu fullRlc (oneChannel 65536) 70000 () = some out ∧
      out.taken = [(4, longSdu)] ∧ (nrProcessMacPdu {} out.pdu).2.dataInd = [] := by
  obtain ⟨out, hout, htaken⟩ : ∃ out, nrUeGetSdu fullRlc (oneChannel 65536) 70000 () = some out ∧
      out.taken = [(4, longSdu)] := by
    rw [nrUeGetSdu, multiplex_longSdu, bind_some]
    exact ⟨_, rfl, rfl⟩
  refine ⟨out, hout, htaken, ?_⟩
  have hread := nrUeGetSdu_read (by decide) (by decide) (by decide)
    (show Ready {} from ⟨rfl, Int.le_refl 0⟩) hout
  rw [hread.dataInd, htaken, putSdus_singleton, length_longSdu]
  rfl

end OaiRan.UeMac
