import Mathlib.Data.Nat.Notation
import Mathlib.Data.List.Basic

/-!
# Burst flags of the transmitter

The flags that `RU_write` passes to the radio for each slot. A run of slots that are not downlink is
a burst. The code asks for the slot before first, so **a burst of one slot is started and not
ended**; all longer ones are well bracketed (`wellBracketed_iff`).
-/

namespace OaiRan.Phy

/-- `NR_UPLINK_SLOT | NR_DOWNLINK_SLOT` is `NR_MIXED_SLOT`. -/
inductive SlotKind
  | downlink
  | uplink
  | mixed
  deriving DecidableEq

/-- `fapi_nr_tdd_table_t`: the `slot_config` of each symbol of each slot, `none` for `NULL`. -/
structure TddTable where
  tddPeriodInSlots : ℕ
  maxTddPeriodicityList : Option (ℕ → ℕ → ℕ)

/-- What is read of `fapi_nr_config_request_t`. -/
structure NrUeConfig where
  fdd : Bool
  tddTable1 : TddTable
  tddTable2 : Option TddTable

def nrUeSlotSelect (cfg : NrUeConfig) (nrSlot : ℕ) : SlotKind :=
  if cfg.fdd then .mixed
  else
    let period1 := cfg.tddTable1.tddPeriodInSlots
    let relSlot := nrSlot % (period1 + (cfg.tddTable2.map TddTable.tddPeriodInSlots).getD 0)
    let (tddTable, relSlot) := match cfg.tddTable2 with
      | none => (cfg.tddTable1, relSlot)
      | some table2 =>
        if relSlot ≥ period1 then (table2, relSlot - period1) else (cfg.tddTable1, relSlot)
    match tddTable.maxTddPeriodicityList with
    -- before the TDD configuration is received
    | none => .downlink
    | some slots =>
      if slots relSlot 0 = 1 then .uplink
      else if slots relSlot 0 = 2 then .mixed
      else if (List.range' 1 13).any fun i ↦ slots relSlot i != 0 then .mixed
      else .downlink

/-- `radio_tx_burst_flag_t`. -/
inductive TxBurst
  | invalid
  | middle
  | start
  | ending
  | startAndEnd
  deriving DecidableEq

/-- What `RU_write` reads; `fddRadio` is the duplex mode of the radio. -/
structure RuWriteUe where
  (receivedConfigRequest fddRadio continuousTx slMode2 slTxAction : Bool)
  slotsPerFrame : ℕ
  cfg : NrUeConfig

/-- The flags for a slot. -/
def ruWrite (ue : RuWriteUe) (slot : ℕ) : TxBurst :=
  if !ue.receivedConfigRequest then .invalid
  else if ue.fddRadio || ue.continuousTx then .middle
  else if ue.slMode2 then if ue.slTxAction then .startAndEnd else .invalid
  else if nrUeSlotSelect ue.cfg slot = .downlink then .invalid
  else if nrUeSlotSelect ue.cfg ((slot + ue.slotsPerFrame - 1) % ue.slotsPerFrame) = .downlink then
    .start
  else if nrUeSlotSelect ue.cfg ((slot + 1) % ue.slotsPerFrame) = .downlink then .ending
  else .middle

/-- A configured UE on a TDD carrier, without continuous transmission or sidelink. -/
def tddUe (slotsPerFrame : ℕ) (cfg : NrUeConfig) : RuWriteUe :=
  ⟨true, false, false, false, false, slotsPerFrame, cfg⟩

/-- Whether a slot is downlink; slots are counted over all frames. -/
def RuWriteUe.dl (ue : RuWriteUe) (n : ℕ) : Bool :=
  nrUeSlotSelect ue.cfg (n % ue.slotsPerFrame) == .downlink

def RuWriteUe.flags (ue : RuWriteUe) (n : ℕ) : TxBurst := ruWrite ue (n % ue.slotsPerFrame)

/-- The flags of slot `i` of a burst. -/
def burst (len i : ℕ) : TxBurst :=
  if len = 1 then .startAndEnd
  else if i = 0 then .start
  else if i + 1 = len then .ending
  else .middle

/-- A burst is what lies between two downlink slots. -/
structure RuWriteUe.WellBracketed (ue : RuWriteUe) : Prop where
  downlink : ∀ n, ue.dl n → ue.flags n = .invalid
  bursts : ∀ a len, ue.dl a → (∀ i < len, ¬ue.dl (a + i + 1)) → ue.dl (a + len + 1) →
    ∀ i < len, ue.flags (a + i + 1) = burst len i

theorem flags_succ (s : ℕ) (cfg : NrUeConfig) (n : ℕ) :
    (tddUe s cfg).flags (n + 1) =
      if (tddUe s cfg).dl (n + 1) then .invalid
      else if (tddUe s cfg).dl n then .start
      else if (tddUe s cfg).dl (n + 2) then .ending else .middle := by
  have hprev : ((n + 1) % s + s - 1) % s = n % s := by
    rcases s with - | s
    · simp
    · rw [Nat.add_succ_sub_one, Nat.mod_add_mod, Nat.add_right_comm, Nat.add_assoc,
        Nat.add_mod_right]
  have hnext : ((n + 1) % s + 1) % s = (n + 2) % s := Nat.mod_add_mod ..
  simp [RuWriteUe.flags, RuWriteUe.dl, ruWrite, tddUe, hprev, hnext]

/-- **The flags are well bracketed if and only if no burst has one slot only.** -/
theorem wellBracketed_iff (slotsPerFrame : ℕ) (cfg : NrUeConfig) :
    (tddUe slotsPerFrame cfg).WellBracketed ↔ ∀ n, (tddUe slotsPerFrame cfg).dl n →
      (tddUe slotsPerFrame cfg).dl (n + 2) → (tddUe slotsPerFrame cfg).dl (n + 1) := by
  have hflags := flags_succ slotsPerFrame cfg
  have hdl (n : ℕ) (hn : (tddUe slotsPerFrame cfg).dl n) :
      (tddUe slotsPerFrame cfg).flags n = .invalid := by
    simp_all [RuWriteUe.dl, RuWriteUe.flags, ruWrite, tddUe]
  generalize tddUe slotsPerFrame cfg = ue at *
  refine ⟨fun h n h₀ h₂ ↦ ?_, fun h ↦ ⟨hdl, fun a len ha hrun hend i hi ↦ ?_⟩⟩
  · by_contra h₁
    have hstart := h.bursts n 1 h₀ (by simpa using h₁) h₂ 0 Nat.one_pos
    simp [burst, hflags, h₀, h₁] at hstart
  · rw [hflags, if_neg (hrun i hi), burst]
    rcases i with - | i
    · have hlen : len ≠ 1 := by
        rintro rfl
        exact hrun 0 hi (h a ha hend)
      simp [ha, hlen]
    · have hlast : ue.dl (a + (i + 1) + 2) ↔ i + 1 + 1 = len := by
        refine ⟨fun hdl ↦ ?_, fun heq ↦ ?_⟩
        · by_contra hne
          exact hrun (i + 1 + 1) (by omega) hdl
        · subst heq
          exact hend
      have hprev : ¬ue.dl (a + (i + 1)) := hrun i (by omega)
      have hlen : len ≠ 1 := by omega
      rw [if_neg hprev, if_neg hlen, if_neg i.succ_ne_zero]
      simp only [hlast]

/-- Every second slot is an uplink slot: its burst is never ended. -/
theorem single_uplink_not_ended :
    ¬(tddUe 10 ⟨false, ⟨2, some fun slot _ ↦ slot⟩, none⟩).WellBracketed :=
  fun h ↦ absurd (h.bursts 0 1 (by decide) (by decide) (by decide) 0 Nat.one_pos) (by decide)

end OaiRan.Phy
