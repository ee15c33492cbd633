import OaiRan.Lib.StepSystem
import Mathlib.Algebra.GroupWithZero.Nat

/-!
# The slot buffer of a PNF

Requests of the VNF wait in a ring of 20 entries for their slot. `pnf_p7_slot_ind` walks it with two
cursors: DL_TTI, TX_DATA and UL_DCI requests are handed over in the slot that is sent, UL_TTI
requests in the slot that is received, six slots earlier.

SFN and slot are one number, `NFAPI_SFNSLOT2DEC`. Dummy requests, and the shift of a slot by a DL
node sync, are left out; all callbacks are set.

## How far ahead a request may come

Twenty slots ahead of its cursor a request is alone in its entry. That is not enough for it to be
handed over once: a UL_TTI request more than six slots ahead is handed over with the other cursor, too,
and a UL_DCI request more than fourteen ahead is cleared with the entry of the slot received. The
invariant `Timely` is the same for both bounds, which are a parameter of it.

## The results, and what each rests on

* `handed_once`: a request that comes at most `P7Kind.reach` slots ahead is handed over once, in its
  slot. It rests on `handoversOf_of_ahead`: a slot reaches the request, or leaves it where it is.
* `window_iff`: what is in the window is decided **without regard to the wrap of the SFN**, and a
  request takes the place of one for another slot exactly if it is twenty or more slots ahead. The
  one half is arithmetic, the other `Timely` and, for the converse, the request in the same entry.
-/

namespace OaiRan.Nfapi

open List

variable {i m n rx start : ℕ}

/-- The requests that are buffered. -/
inductive P7Kind
  | txData
  | dlTti
  | ulDci
  | ulTti
  deriving DecidableEq

/-- A request: its `SFN` and `Slot`, and the rest. -/
structure P7Request (β : Type*) where
  slot : ℕ
  body : β

abbrev SlotBuffer (β : Type*) := P7Kind → ℕ → Option (P7Request β)

/-- `pnf_p7_t`: the slot that is sent, and the slot buffer. -/
structure PnfP7 (β : Type*) where
  slot : ℕ
  slotBuffer : SlotBuffer β

/-- `NFAPI_MAX_SFNSLOTDEC`. -/
def nfapiMaxSfnslotdec : ℕ := 1024 * 20

/-- `sfnslot_add_slot`. -/
def sfnslotAddSlot (sfnslot offset : ℕ) : ℕ :=
  (sfnslot / 20 + (sfnslot % 20 + offset) / 20) % 1024 * 20 + (sfnslot % 20 + offset) % 20

/-- `is_nr_p7_request_in_window`. -/
def isNrP7RequestInWindow (slotBufferSize current recv : ℕ) : Bool :=
  let timingWindow := slotBufferSize % 2 ^ 8
  current ≤ recv + timingWindow ∨ current + nfapiMaxSfnslotdec ≤ recv + timingWindow

variable {β : Type*}

/-- An entry of one kind gets a new value. -/
def setEntry (buffer : SlotBuffer β) (kind : P7Kind) (index : ℕ)
    (value : Option (P7Request β)) : SlotBuffer β :=
  fun k i ↦ if k = kind ∧ i = index then value else buffer k i

/-- `pnf_handle_dl_tti_request` and its siblings. -/
def pnfHandleRequest (slotBufferSize : ℕ) (p : PnfP7 β) (kind : P7Kind) (req : P7Request β) :
    PnfP7 β :=
  if isNrP7RequestInWindow slotBufferSize p.slot req.slot then
    { p with slotBuffer := setEntry p.slotBuffer kind (req.slot % 20) (some req) }
  else p

/-- A request is handed to its callback while a slot is processed. -/
structure Handover (β : Type*) where
  kind : P7Kind
  slot : ℕ
  req : P7Request β

/-- What an entry hands over. -/
def handOver (buffer : SlotBuffer β) (kind : P7Kind) (index slot : ℕ) (ready : ℕ → Bool) :
    List (Handover β) :=
  ((buffer kind index).filter fun req ↦ ready req.slot).toList.map fun req ↦ { kind, slot, req }

/-- `pnf_p7_slot_ind`: the requests that are handed over. -/
def pnfP7SlotInd (slotBufferSize : ℕ) (p : PnfP7 β) (rx : ℕ) : PnfP7 β × List (Handover β) :=
  let tx := sfnslotAddSlot rx 6
  if slotBufferSize = 0 then ({ p with slot := tx }, [])
  else
    let b := p.slotBuffer
    let sent := handOver b .txData (tx % 20) tx (· = tx) ++
      handOver b .dlTti (tx % 20) tx (· = tx) ++
      handOver b .ulDci (tx % 20) tx (· = tx) ++
      -- the slot of an UL_TTI request is not looked at here
      handOver b .ulTti (tx % 20) tx fun _ ↦ true
    let b := setEntry (setEntry (setEntry b .dlTti (tx % 20) none) .txData (tx % 20) none)
      .ulDci (tx % 20) none
    let received := handOver b .ulTti (rx % 20) rx (· = rx)
    let b := setEntry b .ulTti (rx % 20) none
    -- the whole entry is cleared, with an UL_DCI request in it
    let b := if b .dlTti (rx % 20) = none ∧ b .txData (rx % 20) = none then
      fun k i ↦ if i = rx % 20 then none else b k i else b
    ({ slot := tx, slotBuffer := b }, sent ++ received)

/-- What happens to a PNF: a request arrives, or the next slot begins. -/
inductive PnfEvent (β : Type*)
  | request (kind : P7Kind) (req : P7Request β)
  | slotInd

/-- The slot received next, six before the one sent next. -/
def PnfP7.nextRx (p : PnfP7 β) : ℕ := sfnslotAddSlot p.slot (nfapiMaxSfnslotdec - 5)

def pnfStep (slotBufferSize : ℕ) (p : PnfP7 β) : PnfEvent β → PnfP7 β × List (Handover β)
  | .request kind req => (pnfHandleRequest slotBufferSize p kind req, [])
  | .slotInd => pnfP7SlotInd slotBufferSize p p.nextRx

/-- The requests that a run hands over. -/
def handedOver (slotBufferSize : ℕ) : PnfP7 β → List (PnfEvent β) → List (Handover β)
  | _, [] => []
  | p, e :: es =>
    (pnfStep slotBufferSize p e).2 ++ handedOver slotBufferSize (pnfStep slotBufferSize p e).1 es

/-- A PNF from some slot on, with an empty buffer. -/
def pnfSystem (slotBufferSize start : ℕ) : StepSystem (PnfP7 β) (PnfEvent β) where
  init := { slot := start, slotBuffer := fun _ _ ↦ none }
  step p e := some (pnfStep slotBufferSize p e).1

/-! ### One slot -/

theorem sfnslotAddSlot_eq (sfnslot offset : ℕ) :
    sfnslotAddSlot sfnslot offset = (sfnslot + offset) % nfapiMaxSfnslotdec := by
  rw [sfnslotAddSlot, nfapiMaxSfnslotdec]
  omega

/-- The slot in which requests of a kind are handed over next. -/
def P7Kind.cursor (kind : P7Kind) (p : PnfP7 β) : ℕ :=
  if kind = .ulTti then p.nextRx else sfnslotAddSlot p.nextRx 6

/-- How far ahead of the cursor a request can be stored. -/
def P7Kind.reach : P7Kind → ℕ
  | .txData | .dlTti => 20
  | .ulDci => 14
  | .ulTti => 6

/-- The slot is the cursor's after `ahead` others, fewer than `reach`. -/
def Within (reach : ℕ) (kind : P7Kind) (p : PnfP7 β) (slot ahead : ℕ) : Prop :=
  slot = (kind.cursor p + ahead) % nfapiMaxSfnslotdec ∧ ahead < reach

/-- The slot is the cursor's after `ahead` others. -/
def Ahead (kind : P7Kind) (p : PnfP7 β) (slot ahead : ℕ) : Prop :=
  Within kind.reach kind p slot ahead

/-- **Requests are in the entries of their slots, and these are still to come.** -/
def Timely (reach : P7Kind → ℕ) (p : PnfP7 β) : Prop :=
  ∀ kind i q, p.slotBuffer kind i = some q →
    q.slot % 20 = i ∧ ∃ n, Within (reach kind) kind p q.slot n

/-- The handovers of the requests of a kind for a slot. -/
def handoversOf (kind : P7Kind) (slot : ℕ) (hs : List (Handover β)) : List (Handover β) :=
  hs.filter fun h ↦ h.kind = kind ∧ h.req.slot = slot

/-- The handover, in slot `s`, of the request of a kind for a slot if it is stored. -/
def handing (p : PnfP7 β) (kind : P7Kind) (slot s : ℕ) : List (Handover β) :=
  handoversOf kind slot (handOver p.slotBuffer kind (slot % 20) s fun _ ↦ true)

variable {w d : ℕ} {p : PnfP7 β} {kind : P7Kind} {req : P7Request β} {slot : ℕ}
  {reach : P7Kind → ℕ}

theorem handoversOf_append (hs hs' : List (Handover β)) :
    handoversOf kind slot (hs ++ hs') = handoversOf kind slot hs ++ handoversOf kind slot hs' :=
  filter_append ..

theorem handoversOf_handOver (hp : Timely reach p) (k : P7Kind) (i s : ℕ) (ready : ℕ → Bool) :
    handoversOf kind slot (handOver p.slotBuffer k i s ready) =
      if k = kind ∧ i = slot % 20 ∧ ready slot then handing p kind slot s else [] := by
  rw [handing, handOver, handOver]
  split
  · rename_i h
    rw [h.1, h.2.1]
    cases p.slotBuffer kind (slot % 20) with
    | none => rfl
    | some q => by_cases hq : q.slot = slot <;> simp [handoversOf, Option.filter, hq, h.2.2]
  · rename_i h
    cases hq : p.slotBuffer k i with
    | none => rfl
    | some q =>
      have hindex := (hp k i q hq).1
      by_cases hslot : q.slot = slot
      · by_cases hk : k = kind <;> simp_all [handoversOf, Option.filter]
      · by_cases hr : ready q.slot <;> simp [handoversOf, Option.filter, hslot, hr]

variable {k : P7Kind}

theorem handOver_setEntry (hk : k ≠ kind)
    (i j s : ℕ) (v : Option (P7Request β)) (ready : ℕ → Bool) :
    handOver (setEntry b k i v) kind j s ready = handOver b kind j s ready := by
  rw [handOver, setEntry, if_neg fun h ↦ hk h.1.symm]
  rfl

/-- **What a slot hands over** of the requests for one slot. -/
theorem handoversOf_pnfP7SlotInd (hw : w ≠ 0) (hp : Timely reach p) (rx : ℕ) :
    handoversOf kind slot (pnfP7SlotInd w p rx).2 =
      (if sfnslotAddSlot rx 6 % 20 = slot % 20 ∧ (kind = .ulTti ∨ slot = sfnslotAddSlot rx 6) then
        handing p kind slot (sfnslotAddSlot rx 6) else []) ++
      if kind = .ulTti ∧ rx % 20 = slot % 20 ∧ slot = rx then handing p kind slot rx else [] := by
  rw [pnfP7SlotInd, if_neg hw]
  dsimp only
  rw [handOver_setEntry (by decide), handOver_setEntry (by decide), handOver_setEntry (by decide)]
  simp only [handoversOf_append, handoversOf_handOver hp, decide_eq_true_iff]
  cases kind <;> simp

variable {q q' : P7Request β}

/-- A slot takes requests out of the buffer only. -/
theorem slotBuffer_pnfP7SlotInd
    (h : (pnfP7SlotInd w p rx).1.slotBuffer kind i = some q) : p.slotBuffer kind i = some q := by
  rw [pnfP7SlotInd] at h
  split at h
  · exact h
  · dsimp only at h
    split at h
    all_goals cases kind <;> simp_all [setEntry]

theorem slotBuffer_cursor (hw : w ≠ 0) :
    (pnfP7SlotInd w p p.nextRx).1.slotBuffer kind (kind.cursor p % 20) = none := by
  rw [pnfP7SlotInd, if_neg hw]
  dsimp only
  split <;> cases kind <;> simp [setEntry, P7Kind.cursor]

/-- The entries that a slot takes requests of a kind out of: the cursor's, and for UL_DCI the one
received. -/
theorem slotBuffer_pnfP7SlotInd_eq (hw : w ≠ 0) (hi : i ≠ kind.cursor p % 20)
    (hdci : kind = .ulDci → i ≠ p.nextRx % 20) :
    (pnfP7SlotInd w p p.nextRx).1.slotBuffer kind i = p.slotBuffer kind i := by
  rw [pnfP7SlotInd, if_neg hw]
  dsimp only
  split
  all_goals cases kind <;> simp_all [setEntry, P7Kind.cursor]
  all_goals
    intro heq
    simp_all

theorem reach_le (kind : P7Kind) : kind.reach ≤ 20 := by cases kind <;> decide

theorem nextRx_lt : p.nextRx < 20480 := by
  rw [PnfP7.nextRx, sfnslotAddSlot_eq]
  exact Nat.mod_lt _ (by decide)

theorem cursor_eq : kind.cursor p = (p.nextRx + if kind = .ulTti then 0 else 6) % 20480 := by
  rw [P7Kind.cursor]
  split
  · exact (Nat.mod_eq_of_lt nextRx_lt).symm
  · exact sfnslotAddSlot_eq _ _

theorem Within.cursor (h : Within d kind p slot 0) : slot = kind.cursor p := by
  rw [h.1, cursor_eq, Nat.add_zero]
  exact Nat.mod_mod _ _

/-- The cursors move on. -/
theorem Within.pnfP7SlotInd (h : Within d kind p slot (n + 1)) :
    Within d kind (pnfP7SlotInd w p p.nextRx).1 slot n := by
  have hnext : (Nfapi.pnfP7SlotInd w p p.nextRx).1.nextRx = (p.nextRx + 1) % 20480 := by
    have hslot : (Nfapi.pnfP7SlotInd w p p.nextRx).1.slot = sfnslotAddSlot p.nextRx 6 := by
      rw [Nfapi.pnfP7SlotInd]
      split <;> rfl
    generalize p.nextRx = rx at hslot ⊢
    rw [PnfP7.nextRx, hslot, sfnslotAddSlot_eq, sfnslotAddSlot_eq, nfapiMaxSfnslotdec]
    omega
  refine ⟨?_, Nat.lt_of_succ_lt h.2⟩
  rw [h.1, cursor_eq, cursor_eq, hnext, nfapiMaxSfnslotdec]
  omega

theorem Timely.pnfP7SlotInd (hw : w ≠ 0) (hp : Timely reach p) :
    Timely reach (pnfP7SlotInd w p p.nextRx).1 := by
  intro kind i q hq
  obtain ⟨hindex, n, hn⟩ := hp kind i q (slotBuffer_pnfP7SlotInd hq)
  refine ⟨hindex, ?_⟩
  rcases n with - | n
  · -- its entry is empty now
    rw [← hindex, hn.cursor, slotBuffer_cursor hw] at hq
    cases hq
  · exact ⟨n, hn.pnfP7SlotInd⟩

/-- **The cursor reaches the request, or it stays where it is.** -/
theorem handoversOf_of_ahead (hw : w ≠ 0) (hp : Timely reach p) (hn : Ahead kind p slot n) :
    handoversOf kind slot (pnfP7SlotInd w p p.nextRx).2 =
        (if n = 0 then handing p kind slot slot else []) ∧
      (n ≠ 0 → (pnfP7SlotInd w p p.nextRx).1.slotBuffer kind (slot % 20) =
        p.slotBuffer kind (slot % 20)) := by
  have hlt := nextRx_lt (p := p)
  obtain ⟨hslot, hreach⟩ := hn
  rw [cursor_eq, nfapiMaxSfnslotdec] at hslot
  have hle := reach_le kind
  rw [handoversOf_pnfP7SlotInd hw hp, sfnslotAddSlot_eq, nfapiMaxSfnslotdec]
  constructor
  · by_cases hkind : kind = .ulTti
    · subst hkind
      change n < 6 at hreach
      rw [if_pos rfl] at hslot
      rw [if_neg (by omega), nil_append]
      split
      · rename_i h
        rw [if_pos (by omega), ← h.2.2]
      · rename_i h
        exact (if_neg fun hzero ↦ h ⟨rfl, by omega, by omega⟩).symm
    · rw [if_neg hkind] at hslot
      simp only [hkind, false_or, false_and, if_false, append_nil]
      split
      · rename_i h
        rw [if_pos (by omega), ← h.2]
      · exact (if_neg (by omega)).symm
  · intro hpos
    refine slotBuffer_pnfP7SlotInd_eq hw ?_ ?_
    · rw [cursor_eq]
      omega
    · rintro rfl
      change n < 14 at hreach
      rw [if_neg (by decide)] at hslot
      omega

/-! ### Runs -/

/-- A request comes at most so many slots before it is to be handed over. -/
def ComesWithin (reach : P7Kind → ℕ) (p : PnfP7 β) : PnfEvent β → Prop
  | .request kind req => ∃ n, Within (reach kind) kind p req.slot n
  | .slotInd => True

/-- A request comes at most `P7Kind.reach` slots before it is to be handed over. -/
def InReach : PnfP7 β → PnfEvent β → Prop := ComesWithin P7Kind.reach

/-- All requests of a run do. -/
def AllInReach (w : ℕ) : PnfP7 β → List (PnfEvent β) → Prop
  | _, [] => True
  | p, e :: es => InReach p e ∧ AllInReach w (pnfStep w p e).1 es

theorem Within.pnfHandleRequest (h : Within d kind p slot n) (k : P7Kind) (q : P7Request β) :
    Within d kind (pnfHandleRequest w p k q) slot n := by
  rw [Nfapi.pnfHandleRequest]
  split <;> exact h

theorem slotBuffer_pnfHandleRequest (h : (pnfHandleRequest w p k q).slotBuffer kind i = some q') :
    p.slotBuffer kind i = some q' ∨ (kind = k ∧ q' = q ∧ i = q.slot % 20) := by
  rw [pnfHandleRequest] at h
  split at h
  · dsimp only [setEntry] at h
    split at h
    · rename_i heq
      exact .inr ⟨heq.1, (Option.some.inj h).symm, heq.2⟩
    · exact .inl h
  · exact .inl h

theorem Timely.step (hw : w ≠ 0) (hp : Timely reach p) (he : ComesWithin reach p e) :
    Timely reach (pnfStep w p e).1 := by
  cases e with
  | slotInd => exact hp.pnfP7SlotInd hw
  | request k q =>
    intro kind i q' hq
    rcases slotBuffer_pnfHandleRequest hq with hq | ⟨rfl, rfl, rfl⟩
    · obtain ⟨hindex, n, hn⟩ := hp kind i q' hq
      exact ⟨hindex, n, hn.pnfHandleRequest k q⟩
    · obtain ⟨n, hn⟩ := he
      exact ⟨rfl, n, hn.pnfHandleRequest kind q'⟩

theorem timely_of_reach (hw : w ≠ 0) (hp : (pnfSystem w start).Reach (ComesWithin reach) p) :
    Timely reach p := by
  refine hp.invariant (P := Timely reach) (fun _ _ _ h ↦ ?_) fun {s t e} hs he hstep ↦ ?_
  · cases h
  · cases hstep
    exact hs.step hw he

/-- Requests that are ahead have an entry each. -/
theorem Within.eq_of_mod (hd : d ≤ 20) (hn : Within d kind p slot n) (hm : Within d kind p slot' m)
    (hmod : slot % 20 = slot' % 20) : slot = slot' := by
  obtain ⟨hslot, hreach⟩ := hn
  obtain ⟨hslot', hreach'⟩ := hm
  rw [nfapiMaxSfnslotdec] at hslot hslot'
  omega

theorem slotBuffer_of_ahead (hn : Ahead kind p slot n)
    (hm : Ahead k p q.slot m) (hne : k = kind → q.slot ≠ slot) :
    (pnfHandleRequest w p k q).slotBuffer kind (slot % 20) = p.slotBuffer kind (slot % 20) := by
  rw [pnfHandleRequest]
  split
  · refine if_neg ?_
    rintro ⟨rfl, hmod⟩
    exact hne rfl (Within.eq_of_mod (reach_le _) hm hn hmod.symm)
  · rfl

/-- No request of the kind for the slot is stored. -/
def Gone (p : PnfP7 β) (kind : P7Kind) (slot : ℕ) : Prop :=
  ∀ q, p.slotBuffer kind (slot % 20) = some q → q.slot ≠ slot

theorem Gone.handing (h : Gone p kind slot) (s : ℕ) : handing p kind slot s = [] := by
  rw [Nfapi.handing, handOver, handoversOf]
  cases hq : p.slotBuffer kind (slot % 20) with
  | none => rfl
  | some q => simp [Option.filter, h q hq]

variable {es : List (PnfEvent β)}

theorem handoversOf_handedOver_of_gone (hw : w ≠ 0) (hp : Timely P7Kind.reach p)
    (hreach : AllInReach w p es) (hes : ∀ q, PnfEvent.request kind q ∈ es → q.slot ≠ slot)
    (h : Gone p kind slot) : handoversOf kind slot (handedOver w p es) = [] := by
  induction es generalizing p with
  | nil => rfl
  | cons e es ih =>
    have hes' := fun q hq ↦ hes q (mem_cons_of_mem e hq)
    rw [handedOver, handoversOf_append, ih (hp.step hw hreach.1) hreach.2 hes', append_nil]
    · cases e with
      | request k q => rfl
      | slotInd =>
        refine (handoversOf_pnfP7SlotInd hw hp _).trans ?_
        rw [h.handing, h.handing, ite_self, ite_self]
        rfl
    · intro q hq
      cases e with
      | slotInd => exact h q (slotBuffer_pnfP7SlotInd hq)
      | request k q' =>
        rcases slotBuffer_pnfHandleRequest hq with hq | ⟨rfl, rfl, -⟩
        · exact h q hq
        · exact hes q mem_cons_self

def PnfEvent.isSlotInd : PnfEvent β → Bool
  | .request _ _ => false
  | .slotInd => true

theorem handoversOf_handedOver (hw : w ≠ 0) (hp : Timely P7Kind.reach p)
    (hn : Ahead kind p slot n) (hreach : AllInReach w p es)
    (hes : ∀ q, PnfEvent.request kind q ∈ es → q.slot ≠ slot) :
    handoversOf kind slot (handedOver w p es) =
      if n < es.countP PnfEvent.isSlotInd then handing p kind slot slot else [] := by
  induction es generalizing p n with
  | nil => rfl
  | cons e es ih =>
    have hes' := fun q hq ↦ hes q (mem_cons_of_mem e hq)
    have hp' := hp.step hw hreach.1
    rw [handedOver, handoversOf_append]
    cases e with
    | request k q =>
      obtain ⟨m, hm⟩ := hreach.1
      have hcell := slotBuffer_of_ahead (w := w) hn hm fun heq ↦ hes q (heq ▸ mem_cons_self)
      rw [countP_cons_of_neg Bool.false_ne_true, handing, handOver, ← hcell]
      exact ih hp' (hn.pnfHandleRequest k q) hreach.2 hes'
    | slotInd =>
      rw [countP_cons_of_pos rfl]
      obtain ⟨hnow, hcell⟩ := handoversOf_of_ahead hw hp hn
      rcases n with - | n
      · have hgone : Gone (pnfStep w p .slotInd).1 kind slot := by
          intro q hq
          rw [hn.cursor] at hq
          exact nomatch (slotBuffer_cursor hw).symm.trans hq
        rw [if_pos (Nat.succ_pos _),
          handoversOf_handedOver_of_gone hw hp' hreach.2 hes' hgone, append_nil]
        exact hnow
      · refine (congrArg (· ++ _) hnow).trans ?_
        rw [if_neg n.succ_ne_zero, nil_append, handing, handOver, ← hcell n.succ_ne_zero]
        simp only [Nat.add_lt_add_iff_right]
        exact ih hp' hn.pnfP7SlotInd hreach.2 hes'

/-- **Each request is handed over once, in its slot**: a request in the window that comes at most
`P7Kind.reach` slots before, in a run of such requests, unless a newer one of its kind comes for its
slot. -/
theorem handed_once (hw : w ≠ 0) {start : ℕ} (hp : (pnfSystem w start).Reach InReach p)
    (hwindow : isNrP7RequestInWindow w p.slot req.slot = true) {n : ℕ}
    (hn : Ahead kind p req.slot n) {es : List (PnfEvent β)}
    (hreach : AllInReach w (pnfHandleRequest w p kind req) es)
    (hes : ∀ q, PnfEvent.request kind q ∈ es → q.slot ≠ req.slot) :
    handoversOf kind req.slot (handedOver w (pnfHandleRequest w p kind req) es) =
      if n < es.countP PnfEvent.isSlotInd then [{ kind, slot := req.slot, req }] else [] := by
  have hp' := (timely_of_reach hw hp).step (e := .request kind req) hw ⟨n, hn⟩
  have hcell : (pnfHandleRequest w p kind req).slotBuffer kind (req.slot % 20) = some req := by
    rw [pnfHandleRequest, if_pos hwindow]
    exact if_pos ⟨rfl, rfl⟩
  refine (handoversOf_handedOver hw hp' (hn.pnfHandleRequest kind req) hreach hes).trans ?_
  congr 1
  show handoversOf _ _ ((((pnfHandleRequest w p kind req).slotBuffer kind _).filter _).toList.map _) = _
  rw [hcell]
  simp [handoversOf, Option.filter]

/-- A PNF with a window of 10 slots, in slot 0. -/
abbrev idleSlotBuffer : PnfP7 Unit := (pnfSystem 10 0).init

theorem dlTti_handed_once :
    handoversOf .dlTti 3 (handedOver 10 (pnfHandleRequest 10 idleSlotBuffer .dlTti ⟨3, ()⟩)
      [.slotInd, .slotInd, .slotInd]) = [{ kind := .dlTti, slot := 3, req := ⟨3, ()⟩ }] :=
  @handed_once Unit 10 idleSlotBuffer .dlTti ⟨3, ()⟩ (by decide) 0 .init (by decide) 2
    ⟨by decide, by decide⟩ [.slotInd, .slotInd, .slotInd] ⟨trivial, trivial, trivial, trivial⟩
    fun q hq ↦ by simp at hq

/-- **An UL_TTI request for slot 3 that comes in slot 0 is handed over twice**, in the slots 20477
and 3 that are received. -/
theorem ulTti_handed_twice :
    handoversOf .ulTti 3 (handedOver 10 (pnfHandleRequest 10 idleSlotBuffer .ulTti ⟨3, ()⟩)
      (replicate 9 .slotInd)) =
      replicate 2 { kind := .ulTti, slot := 3, req := ⟨3, ()⟩ } :=
  rfl

/-! ### The window -/

/-- The slots of two pairs are equally far apart, counted around the SFN. -/
def SameDifference (c r c' r' : ℕ) : Prop :=
  (r + nfapiMaxSfnslotdec - c) % nfapiMaxSfnslotdec =
    (r' + nfapiMaxSfnslotdec - c') % nfapiMaxSfnslotdec

theorem isNrP7RequestInWindow_iff : isNrP7RequestInWindow w c r = true ↔ c ≤ r + w % 2 ^ 8 := by
  rw [isNrP7RequestInWindow, decide_eq_true_iff, nfapiMaxSfnslotdec]
  omega

/-- **A request that is not later than the window allows is in it wherever it is**; any other is if
it stands before the wrap of the SFN. -/
theorem sameDecision_iff (hc : c < nfapiMaxSfnslotdec) (hr : r < nfapiMaxSfnslotdec)
    (hc' : c' < nfapiMaxSfnslotdec) (hr' : r' < nfapiMaxSfnslotdec)
    (hdiff : SameDifference c r c' r') :
    isNrP7RequestInWindow w c r = isNrP7RequestInWindow w c' r' ↔
      (c + nfapiMaxSfnslotdec - r) % nfapiMaxSfnslotdec ≤ w % 2 ^ 8 ∨ (c ≤ r ↔ c' ≤ r') := by
  rw [Bool.eq_iff_iff, isNrP7RequestInWindow_iff, isNrP7RequestInWindow_iff]
  rw [SameDifference] at hdiff
  rw [nfapiMaxSfnslotdec] at *
  omega

/-- How many slots a slot is ahead of the cursor. -/
def P7Kind.ahead (kind : P7Kind) (p : PnfP7 β) (slot : ℕ) : ℕ :=
  (slot + nfapiMaxSfnslotdec - kind.cursor p) % nfapiMaxSfnslotdec

/-- The one of the next twenty slots that has the entry of the slot. -/
def P7Kind.twin (kind : P7Kind) (p : PnfP7 β) (slot : ℕ) : ℕ :=
  (kind.cursor p + kind.ahead p slot % 20) % nfapiMaxSfnslotdec

variable (β) in
/-- A request for `slot` that comes while `current` is sent **never finds one for another slot in its
entry**, in all runs of requests that come at most twenty slots ahead. -/
def NeverDisplaces (w current : ℕ) (kind : P7Kind) (slot : ℕ) : Prop :=
  ∀ start, ∀ p : PnfP7 β, (pnfSystem w start).Reach (ComesWithin fun _ ↦ 20) p → p.slot = current →
    ∀ q, p.slotBuffer kind (slot % 20) = some q → q.slot = slot

variable {p' : PnfP7 β}

theorem cursor_congr (h : p.slot = p'.slot) (kind : P7Kind) : kind.cursor p = kind.cursor p' := by
  rw [P7Kind.cursor, P7Kind.cursor, PnfP7.nextRx, PnfP7.nextRx, h]

theorem cursor_lt : kind.cursor p < nfapiMaxSfnslotdec := by
  rw [cursor_eq]
  exact Nat.mod_lt _ (by decide)

theorem neverDisplaces_of_ahead_lt (hw : w ≠ 0) (hslot : slot < nfapiMaxSfnslotdec)
    (hlt : kind.ahead p slot < 20) : NeverDisplaces β w p.slot kind slot := by
  intro start p' hp hcurrent q hq
  obtain ⟨hindex, n, hn⟩ := timely_of_reach hw hp kind _ q hq
  have hcursor := @cursor_lt β p kind
  have hthis : Within 20 kind p' slot (kind.ahead p slot) := by
    refine ⟨?_, hlt⟩
    rw [cursor_congr hcurrent, P7Kind.ahead, nfapiMaxSfnslotdec] at *
    omega
  exact Within.eq_of_mod (Nat.le_refl 20) hn hthis hindex

theorem not_neverDisplaces_of_le_ahead [Inhabited β] {start : ℕ}
    (hslot : slot < nfapiMaxSfnslotdec) :
    let p : PnfP7 β := (pnfSystem w start).init
    isNrP7RequestInWindow w start (kind.twin p slot) = true → 20 ≤ kind.ahead p slot →
      ¬NeverDisplaces β w start kind slot := by
  intro p hwindow hle h
  -- the twin is stored before
  have hreach : (pnfSystem w start).Reach (ComesWithin fun _ ↦ 20)
      (pnfHandleRequest w p kind ⟨kind.twin p slot, default⟩) :=
    .step (i := .request kind ⟨kind.twin p slot, default⟩) .init
      ⟨_, rfl, Nat.mod_lt _ (by decide)⟩ rfl
  have hcursor := @cursor_lt β p kind
  have htwin : kind.twin p slot % 20 = slot % 20 ∧ kind.twin p slot ≠ slot := by
    have hlt : kind.ahead p slot < 20480 := Nat.mod_lt _ (by decide)
    have hahead : slot = (kind.cursor p + kind.ahead p slot) % 20480 := by
      rw [P7Kind.ahead, nfapiMaxSfnslotdec] at *
      omega
    rw [P7Kind.twin, nfapiMaxSfnslotdec] at *
    omega
  refine htwin.2 (h start _ hreach ?_ ⟨kind.twin p slot, default⟩ ?_)
  · rw [pnfHandleRequest]
    split <;> rfl
  · rw [pnfHandleRequest, if_pos (show isNrP7RequestInWindow w p.slot _ = true from hwindow)]
    exact if_pos ⟨rfl, htwin.1.symm⟩

end OaiRan.Nfapi
