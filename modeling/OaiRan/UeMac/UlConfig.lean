import Mathlib.Data.List.GetD
import Mathlib.Data.List.TakeWhile
import Mathlib.Data.Int.Basic
import OaiRan.Lib.StepSystem

/-!
# The list of uplink configurations of a slot

The UE's MAC has one list of uplink configurations for each slot. `lockGet_ul_config` hands out the
next entry with the list's mutex held, and counts it at once; the caller fills the entry in, takes it
back with `remove_ul_config_last_item` if that fails, and gives the mutex back with
`release_ul_config`. `lockGet_ul_iterator` puts an end mark behind the last entry, and its caller
walks up to it.

An entry has **a pointer to the count** of its list. `remove_ul_config_last_item` decrements the
pointer and not the count: the entry stays in the list, and a release that clears the list by way of
this entry later on writes to the field before the count. Besides, ten entries can be obtained, but a
list with ten entries cannot be walked. `transactional_of_admitted` says that nothing else is wrong:
in a run with no removal, and with no walk of a full list, the list has the entries that it should.
-/

namespace OaiRan.UeMac

open Function List Option Nat

/-- The types of uplink configurations. -/
inductive UlPduType
  | done
  | prach
  | pucch
  | pusch
  | srs
  deriving DecidableEq

/-- `fapi_nr_ul_config_request_pdu_t`. The type is `none` for `FAPI_NR_END`; `config` stands for the
union of the configurations. `privateNbPdus` says how many integers behind `number_pdus` the pointer
points to. -/
structure UlConfigPdu (γ : Type*) where
  pduType : Option UlPduType
  config : γ
  privateNbPdus : ℤ
  deriving DecidableEq

/-- `fapi_nr_ul_config_request_t`: the fields before the list are in the order of the source. -/
structure UlConfigRequest (γ : Type*) where
  (frame slot : ℤ)
  numberPdus : ℕ
  ulConfigList : ℕ → UlConfigPdu γ

/-- `FAPI_NR_UL_CONFIG_LIST_NUM`. The list itself has one entry more. -/
def fapiNrUlConfigListNum : ℕ := 10

variable {γ : Type*}

namespace UlConfigRequest

/-- `lockGet_ul_config`: the index of the entry if the result is not `NULL`. -/
def lockGetUlConfig (ulConfig : UlConfigRequest γ) (isUlSlot : Bool) (frameTx slotTx : ℤ)
    (pduType : UlPduType) : UlConfigRequest γ × Option ℕ :=
  if isUlSlot then
    let numberPdus :=
      if ulConfig.numberPdus ≠ 0 ∧ (ulConfig.frame ≠ frameTx ∨ ulConfig.slot ≠ slotTx) then 0
      else ulConfig.numberPdus
    let ulConfig := { ulConfig with frame := frameTx, slot := slotTx, numberPdus := numberPdus }
    if numberPdus ≥ fapiNrUlConfigListNum then (ulConfig, none)
    else
      let pdu := { ulConfig.ulConfigList numberPdus with
        pduType := some pduType, privateNbPdus := 0 }
      ({ ulConfig with
          numberPdus := numberPdus + 1
          ulConfigList := update ulConfig.ulConfigList numberPdus pdu },
        some numberPdus)
  else (ulConfig, none)

/-- The caller fills the entry in. -/
def fill (ulConfig : UlConfigRequest γ) (i : ℕ) (config : γ) : UlConfigRequest γ :=
  { ulConfig with
    ulConfigList :=
      update ulConfig.ulConfigList i { ulConfig.ulConfigList i with config := config } }

/-- `remove_ul_config_last_item`: the entry's pointer is decremented. -/
def removeUlConfigLastItem (ulConfig : UlConfigRequest γ) (i : ℕ) : UlConfigRequest γ :=
  let pdu := ulConfig.ulConfigList i
  { ulConfig with
    ulConfigList :=
      update ulConfig.ulConfigList i { pdu with privateNbPdus := pdu.privateNbPdus - 1 } }

/-- Zero is written where the entry's pointer points to; `none` if that is not in the three fields
before the list. -/
def clearAt (ulConfig : UlConfigRequest γ) (privateNbPdus : ℤ) : Option (UlConfigRequest γ) :=
  if privateNbPdus = 0 then some { ulConfig with numberPdus := 0 }
  else if privateNbPdus = -1 then some { ulConfig with slot := 0 }
  else if privateNbPdus = -2 then some { ulConfig with frame := 0 }
  else none

def releaseUlConfig (ulConfig : UlConfigRequest γ) (i : ℕ) (clearIt : Bool) :
    Option (UlConfigRequest γ) :=
  if clearIt then ulConfig.clearAt (ulConfig.ulConfigList i).privateNbPdus else some ulConfig

/-- `fapiLockIterator`; the flag says that the result is not `NULL`. -/
def fapiLockIterator (ulConfig : UlConfigRequest γ) (frameTx slotTx : ℤ) :
    UlConfigRequest γ × Bool :=
  if ulConfig.numberPdus ≥ fapiNrUlConfigListNum then (ulConfig, false)
  else if ulConfig.numberPdus ≠ 0 ∧ (ulConfig.frame ≠ frameTx ∨ ulConfig.slot ≠ slotTx) then
    ({ ulConfig with numberPdus := 0 }, false)
  else
    let pdu := { ulConfig.ulConfigList ulConfig.numberPdus with
      pduType := none, privateNbPdus := 0 }
    ({ ulConfig with
        ulConfigList := update ulConfig.ulConfigList ulConfig.numberPdus pdu }, true)

def lockGetUlIterator (ulConfig : UlConfigRequest γ) (isUlSlot : Bool) (frameTx slotTx : ℤ) :
    UlConfigRequest γ × Bool :=
  if isUlSlot then ulConfig.fapiLockIterator frameTx slotTx else (ulConfig, false)

/-- The entries from `i` up to the end mark, as the callers of the iterator walk them; `none` if the
walk leaves the list. -/
def walk (ulConfig : UlConfigRequest γ) : ℕ → ℕ → Option (List (UlPduType × γ))
  | 0, _ => none
  | fuel + 1, i =>
    match (ulConfig.ulConfigList i).pduType with
    | none => some []
    | some pduType =>
      (ulConfig.walk fuel (i + 1)).map ((pduType, (ulConfig.ulConfigList i).config) :: ·)

end UlConfigRequest

/-! ### Runs -/

/-- The calls on the list of one slot. -/
inductive UlConfigCall (γ : Type*)
  /-- `lockGet_ul_config`, and what the caller fills in if it gets an entry. -/
  | get (frameTx : ℤ) (pduType : UlPduType) (config : γ)
  /-- `remove_ul_config_last_item`. -/
  | remove
  /-- `release_ul_config`. -/
  | release (clearIt : Bool)
  /-- `lockGet_ul_iterator` and the walk of its caller, which may leave it early, after `stop`
  entries. -/
  | iterate (frameTx : ℤ) (stop : ℕ)
  /-- `clear_ul_config_request`. -/
  | clear

/-- The entry for which its holder has locked the mutex. -/
inductive UlConfigHeld
  | obtained (i : ℕ)
  | removed (i : ℕ)
  | iterating (i : ℕ)
  deriving DecidableEq

/-- The index of the entry. -/
def UlConfigHeld.index : UlConfigHeld → ℕ
  | .obtained i => i
  | .removed i => i
  | .iterating i => i

/-- An entry that a caller has obtained and filled in. -/
structure KeptPdu (γ : Type*) where
  frame : ℤ
  pdu : UlPduType × γ

/-- The list of a slot, with what has happened to it. `kept` are the entries that were obtained and
neither removed nor cleared, without those for another frame than the last call's; `walks` are the
walks so far, each with the entries that were kept then. -/
structure UlConfigSlot (γ : Type*) where
  request : UlConfigRequest γ
  held : Option UlConfigHeld := none
  kept : List (KeptPdu γ) := []
  walks : List (List (UlPduType × γ) × List (KeptPdu γ)) := []

namespace UlConfigSlot

/-- The entries kept for a frame. -/
def keptFor (s : UlConfigSlot γ) (frameTx : ℤ) : List (KeptPdu γ) :=
  s.kept.filter (·.frame = frameTx)

/-- `lockGet_ul_config`, with the entry filled in by the caller. -/
def get (s : UlConfigSlot γ) (isUlSlot : Bool) (slotTx frameTx : ℤ) (pduType : UlPduType)
    (config : γ) : UlConfigSlot γ :=
  match s.request.lockGetUlConfig isUlSlot frameTx slotTx pduType with
  | (request, none) => { s with request := request }
  | (request, some i) =>
    { s with
      request := request.fill i config
      held := some (.obtained i)
      kept := s.keptFor frameTx ++ [{ frame := frameTx, pdu := (pduType, config) }] }

/-- `lockGet_ul_iterator` and the walk. Nothing is visited if the result is `NULL`. -/
def iterate (s : UlConfigSlot γ) (isUlSlot : Bool) (slotTx frameTx : ℤ) (stop : ℕ) :
    Option (UlConfigSlot γ) :=
  match s.request.lockGetUlIterator isUlSlot frameTx slotTx with
  | (request, false) =>
    some { s with
      request := request, kept := s.keptFor frameTx, walks := ([], s.keptFor frameTx) :: s.walks }
  | (request, true) =>
    (request.walk (fapiNrUlConfigListNum + 1) 0).map fun visited ↦
      { s with
        request := request
        held := some (.iterating (min stop visited.length))
        kept := s.keptFor frameTx
        walks := (visited, s.keptFor frameTx) :: s.walks }

/-- One call. A call that needs the mutex waits while it is held; an entry is removed at most once,
by the caller that has obtained it. -/
def step (isUlSlot : Bool) (slotTx : ℤ) (s : UlConfigSlot γ) :
    UlConfigCall γ → Option (UlConfigSlot γ)
  | .get frameTx pduType config =>
    if s.held = none then some (s.get isUlSlot slotTx frameTx pduType config) else none
  | .remove =>
    match s.held with
    | some (.obtained i) =>
      some { s with
        request := s.request.removeUlConfigLastItem i
        held := some (.removed i)
        kept := s.kept.dropLast }
    | _ => none
  | .release clearIt =>
    s.held.bind fun held ↦ (s.request.releaseUlConfig held.index clearIt).map fun request ↦
      { s with request := request, held := none, kept := if clearIt then [] else s.kept }
  | .iterate frameTx stop =>
    if s.held = none then s.iterate isUlSlot slotTx frameTx stop else none
  | .clear =>
    if s.held = none then
      let request := { s.request with numberPdus := 0 }
      some { s with request := request, kept := [] }
    else none

/-- The list starts out empty, whatever its memory has in it. -/
def start (frame slot : ℤ) (ulConfigList : ℕ → UlConfigPdu γ) : UlConfigSlot γ where
  request := { frame := frame, slot := slot, numberPdus := 0, ulConfigList := ulConfigList }

/-- **The list is transactional**: the count is the number of kept entries, and every walk so far has
visited the entries kept at its time, in order. -/
structure Transactional (s : UlConfigSlot γ) : Prop where
  numberPdus_eq : s.request.numberPdus = s.kept.length
  visited_eq : ∀ w ∈ s.walks, w.1 = w.2.map KeptPdu.pdu

end UlConfigSlot

/-- The calls on a list that starts out as `s₀`. -/
def ulConfigSystem (isUlSlot : Bool) (slotTx : ℤ) (s₀ : UlConfigSlot γ) :
    StepSystem (UlConfigSlot γ) (UlConfigCall γ) where
  init := s₀
  step := UlConfigSlot.step isUlSlot slotTx

/-- No entry is removed, and no full list is walked. -/
def UlConfigAdmitted (s : UlConfigSlot γ) : UlConfigCall γ → Prop
  | .remove => False
  | .iterate _ _ => s.request.numberPdus < fapiNrUlConfigListNum
  | _ => True

instance (s : UlConfigSlot γ) (c : UlConfigCall γ) : Decidable (UlConfigAdmitted s c) :=
  match c with
  | .remove => inferInstanceAs (Decidable False)
  | .iterate _ _ => inferInstanceAs (Decidable (_ < _))
  | .get _ _ _ => inferInstanceAs (Decidable True)
  | .release _ => inferInstanceAs (Decidable True)
  | .clear => inferInstanceAs (Decidable True)

/-! ### The entries in the list -/

/-- The first entries of the list are the given ones, with their pointers in order. -/
def Lists (l : ℕ → UlConfigPdu γ) (pdus : List (UlPduType × γ)) : Prop :=
  ∀ i (h : i < pdus.length), l i = ⟨some pdus[i].1, pdus[i].2, 0⟩

theorem Lists.nil (l : ℕ → UlConfigPdu γ) : Lists l [] := fun _ h ↦ absurd h (not_lt_zero _)

variable {pdus : List (UlPduType × γ)}

variable {l : ℕ → UlConfigPdu γ}

/-- What is behind the entries does not matter. -/
theorem Lists.update (h : Lists l pdus) (hi : pdus.length ≤ i)
    (pdu : UlConfigPdu γ) : Lists (update l i pdu) pdus := by
  intro j hj
  rw [update_of_ne (Nat.ne_of_lt (hj.trans_le hi))]
  exact h j hj

/-- An entry is put behind the others. -/
theorem Lists.concat (h : Lists l pdus) (pdu : UlPduType × γ) :
    Lists (Function.update l pdus.length ⟨some pdu.1, pdu.2, 0⟩) (pdus ++ [pdu]) := by
  intro j hj
  rcases lt_or_ge j pdus.length with hlt | hge
  · rw [getElem_append_left hlt]
    exact h.update le_rfl _ j hlt
  · obtain rfl : j = pdus.length := by
      rw [length_append, length_singleton] at hj
      exact le_antisymm (le_of_lt_succ hj) hge
    rw [getElem_concat_length rfl, update_self]

/-- **The walk visits the entries in front of the end mark**, in order. -/
theorem walk_eq {r : UlConfigRequest γ} (h : Lists r.ulConfigList pdus)
    (hend : (r.ulConfigList pdus.length).pduType = none) {fuel i : ℕ} (hi : i ≤ pdus.length)
    (hfuel : pdus.length < i + fuel) : r.walk fuel i = some (pdus.drop i) := by
  induction fuel generalizing i with
  | zero => exact absurd hfuel (not_lt.2 hi)
  | succ fuel ih =>
    rcases hi.lt_or_eq with hlt | rfl
    · have htail := ih (i := i + 1) hlt (by rwa [Nat.add_right_comm])
      rw [UlConfigRequest.walk, h i hlt, drop_eq_getElem_cons hlt]
      show Option.map _ _ = _
      rw [htail]
      rfl
    · rw [UlConfigRequest.walk, hend, drop_length]

/-! ### Runs without removals -/

/-- What holds in a run without removals: the list has the kept entries in front, all for the frame
of the list, and the pointers of these and of the held entry are in order. -/
structure ListsKept (isUlSlot : Bool) (slotTx : ℤ) (s : UlConfigSlot γ) : Prop extends s.Transactional where
  le : s.kept.length ≤ fapiNrUlConfigListNum
  lists : Lists s.request.ulConfigList (s.kept.map KeptPdu.pdu)
  frame_eq : ∀ e ∈ s.kept, e.frame = s.request.frame
  slot_eq : s.kept ≠ [] → isUlSlot = true ∧ s.request.slot = slotTx
  held : ∀ h ∈ s.held, (s.request.ulConfigList h.index).privateNbPdus = 0

section

variable {isUlSlot : Bool} {slotTx : ℤ} {s t : UlConfigSlot γ}

variable {frameTx : ℤ}

/-- The entries kept for the frame of the list are all of them, for another frame there are none. -/
theorem ListsKept.keptFor_eq (h : ListsKept isUlSlot slotTx s) (frameTx : ℤ) :
    s.keptFor frameTx = if s.request.frame = frameTx then s.kept else [] := by
  split_ifs with hf
  · refine filter_eq_self.2 fun e he ↦ ?_
    rw [decide_eq_true_eq, h.frame_eq e he, hf]
  · refine filter_eq_nil_iff.2 fun e he ↦ ?_
    rw [decide_eq_true_eq, h.frame_eq e he]
    exact hf

/-- The consistency test of both functions leaves the entries kept for the frame. -/
theorem ListsKept.length_keptFor (h : ListsKept isUlSlot slotTx s) (frameTx : ℤ) :
    (if s.request.numberPdus ≠ 0 ∧ (s.request.frame ≠ frameTx ∨ s.request.slot ≠ slotTx) then 0
      else s.request.numberPdus) = (s.keptFor frameTx).length := by
  rw [h.keptFor_eq, h.numberPdus_eq]
  rcases eq_or_ne s.kept [] with hnil | hne
  · rw [hnil]
    split_ifs <;> rfl
  · have hlen : s.kept.length ≠ 0 := fun h0 ↦ hne (length_eq_zero_iff.1 h0)
    rw [(h.slot_eq hne).2]
    by_cases hf : s.request.frame = frameTx
    · rw [if_neg (by simp [hf]), if_pos hf]
    · rw [if_pos ⟨hlen, .inl hf⟩, if_neg hf]
      rfl

theorem ListsKept.lists_keptFor (h : ListsKept isUlSlot slotTx s) (frameTx : ℤ) :
    Lists s.request.ulConfigList ((s.keptFor frameTx).map KeptPdu.pdu) := by
  rw [h.keptFor_eq]
  split_ifs
  exacts [h.lists, Lists.nil _]

theorem ListsKept.keptFor_frame (frameTx : ℤ) : ∀ e ∈ s.keptFor frameTx, e.frame = frameTx :=
  fun _ he ↦ of_decide_eq_true (mem_filter.1 he).2

/-- An entry that is filled in after it was obtained. -/
theorem update_fill (l : ℕ → UlConfigPdu γ) (i : ℕ) (pdu : UlConfigPdu γ) (config : γ) :
    update (update l i pdu) i
        { update l i pdu i with config := config } =
      update l i { pdu with config := config } := by
  rw [update_idem, update_self]

/-- `lockGet_ul_config` keeps the invariant: it puts the new entry behind those for its frame. -/
theorem ListsKept.get (h : ListsKept isUlSlot slotTx s) (frameTx : ℤ) (pduType : UlPduType)
    (config : γ) : ListsKept isUlSlot slotTx (s.get isUlSlot slotTx frameTx pduType config) := by
  have hlen := h.length_keptFor frameTx
  have hlists := h.lists_keptFor frameTx
  cases isUlSlot with
  | false => exact h
  | true =>
    unfold UlConfigSlot.get UlConfigRequest.lockGetUlConfig
    rw [if_pos rfl, hlen]
    dsimp only
    split_ifs with hfull
    · -- A list that is full for this frame is full of entries for it.
      have hkept : s.keptFor frameTx = s.kept := by
        rw [h.keptFor_eq] at hfull ⊢
        split_ifs at hfull ⊢ with hf
        · rfl
        · exact absurd hfull (not_le.2 (succ_pos 9))
      refine ⟨⟨congrArg List.length hkept, h.visited_eq⟩, h.le, h.lists, ?_, fun _ ↦ ⟨rfl, rfl⟩, h.held⟩
      show ∀ e ∈ s.kept, e.frame = frameTx
      rw [← hkept]
      exact ListsKept.keptFor_frame frameTx
    · have hlt : (s.keptFor frameTx).length < fapiNrUlConfigListNum := lt_of_not_ge hfull
      refine ⟨⟨(@List.length_append _ (s.keptFor frameTx) [_]).symm, h.visited_eq⟩,
        ?_, ?_, ?_, fun _ ↦ ⟨rfl, rfl⟩, ?_⟩
      · show (s.keptFor frameTx ++ [_]).length ≤ _
        rw [List.length_append]
        exact hlt
      · have := hlists.concat (pduType, config)
        rw [List.length_map] at this
        show Lists (Function.update (Function.update _ _ _) _ _) ((s.keptFor frameTx ++ [_]).map _)
        rw [update_fill, List.map_append]
        exact this
      · intro e he
        rcases List.mem_append.1 he with he | he
        · exact ListsKept.keptFor_frame frameTx e he
        · rw [List.mem_singleton.1 he]
          rfl
      · rintro _ ⟨⟩
        show ((Function.update (Function.update _ _ _) _ _ : ℕ → UlConfigPdu γ) _).privateNbPdus = 0
        rw [update_fill, UlConfigHeld.index, Function.update_self]

variable {request : UlConfigRequest γ}

section

variable (h : ListsKept isUlSlot slotTx s)
include h

/-- `release_ul_config` keeps the invariant: the pointer is to the count. -/
theorem ListsKept.release {held : UlConfigHeld} (hheld : s.held = some held)
    (hr : s.request.releaseUlConfig held.index clearIt = some request) :
    ListsKept isUlSlot slotTx
      { s with request := request, held := none, kept := if clearIt then [] else s.kept } := by
  cases clearIt with
  | false =>
    obtain rfl : s.request = request := some.inj hr
    exact ⟨⟨h.numberPdus_eq, h.visited_eq⟩, h.le, h.lists, h.frame_eq, h.slot_eq, nofun⟩
  | true =>
    have hptr := h.held held hheld
    rw [UlConfigRequest.releaseUlConfig, if_pos rfl, hptr] at hr
    obtain rfl : { s.request with numberPdus := 0 } = request := some.inj hr
    exact ⟨⟨rfl, h.visited_eq⟩, zero_le _, Lists.nil _, nofun, fun h ↦ absurd rfl h, nofun⟩

/-- What a walk leaves behind, whatever it has visited. -/
theorem ListsKept.walked {held : Option UlConfigHeld}
    (hvisited : visited = (s.keptFor frameTx).map KeptPdu.pdu)
    (hnumber : request.numberPdus = (s.keptFor frameTx).length)
    (hlists : Lists request.ulConfigList visited)
    (htime : request.frame = s.request.frame ∧ request.slot = s.request.slot)
    (hheld : ∀ e ∈ held, (request.ulConfigList e.index).privateNbPdus = 0) :
    ListsKept isUlSlot slotTx
      { s with
        request := request
        held := held
        kept := s.keptFor frameTx
        walks := (visited, s.keptFor frameTx) :: s.walks } := by
  refine ⟨⟨hnumber, ?_⟩, ?_, ?_, ?_, ?_, hheld⟩
  · intro w hw
    rcases mem_cons.1 hw with rfl | hw
    · exact hvisited
    · exact h.visited_eq w hw
  · exact (length_filter_le _ _).trans h.le
  · rw [← hvisited]
    exact hlists
  · intro e he
    show e.frame = request.frame
    rw [htime.1]
    exact h.frame_eq e (mem_filter.1 he).1
  · intro hne
    show _ ∧ request.slot = slotTx
    rw [htime.2]
    refine h.slot_eq fun hnil ↦ hne ?_
    rw [UlConfigSlot.keptFor, hnil, filter_nil]

/-- The walk of a list that is not full visits the entries kept for its frame. -/
theorem ListsKept.iterate {stop : ℕ}
    (hheld : s.held = none) (hlt : s.request.numberPdus < fapiNrUlConfigListNum)
    (ht : s.iterate isUlSlot slotTx frameTx stop = some t) : ListsKept isUlSlot slotTx t := by
  have hlen := h.length_keptFor frameTx
  have hlists := h.lists_keptFor frameTx
  cases isUlSlot with
  | false =>
    -- No entry can have been obtained in a slot that is not for the uplink.
    have hkept : s.kept = [] := by
      by_contra hne
      exact Bool.false_ne_true (h.slot_eq hne).1
    have hnil : s.keptFor frameTx = [] := by rw [UlConfigSlot.keptFor, hkept, filter_nil]
    cases ht
    refine h.walked ?_ ?_ (Lists.nil _) ⟨rfl, rfl⟩ h.held
    · rw [hnil, map_nil]
    · rw [hnil, h.numberPdus_eq, hkept]
  | true =>
    unfold UlConfigSlot.iterate UlConfigRequest.lockGetUlIterator
      UlConfigRequest.fapiLockIterator at ht
    rw [if_pos rfl, if_neg (not_le.2 hlt)] at ht
    split_ifs at ht hlen with hstale
    · have hnil : s.keptFor frameTx = [] := length_eq_zero_iff.1 hlen.symm
      cases ht
      refine h.walked ?_ hlen (Lists.nil _) ⟨rfl, rfl⟩ ?_
      · rw [hnil, map_nil]
      · rw [hheld]
        nofun
    · obtain ⟨visited, hwalk, rfl⟩ := map_eq_some_iff.1 ht
      have hlen' : ((s.keptFor frameTx).map KeptPdu.pdu).length = s.request.numberPdus := by
        rw [length_map, hlen]
      have hlists' := hlists.update hlen'.le
        { s.request.ulConfigList s.request.numberPdus with pduType := none, privateNbPdus := 0 }
      obtain rfl : (s.keptFor frameTx).map KeptPdu.pdu = visited := by
        refine some.inj (Eq.trans (walk_eq hlists' ?_ (zero_le _) ?_).symm hwalk)
        · show ((update _ _ _ : ℕ → UlConfigPdu γ) _).pduType = none
          rw [hlen', update_self]
        · rw [hlen', Nat.zero_add]
          exact hlt.trans (lt_succ_self _)
      refine h.walked rfl hlen hlists' ⟨rfl, rfl⟩ ?_
      rintro _ ⟨⟩
      -- The walk ends at one of the entries or at the end mark.
      show ((update _ _ _ : ℕ → UlConfigPdu γ) (min stop _)).privateNbPdus = 0
      rcases (min_le_right stop ((s.keptFor frameTx).map KeptPdu.pdu).length).lt_or_eq with
        hin | hend
      · rw [hlists' _ hin]
      · rw [hend, hlen', update_self]

/-- **One call** keeps the invariant if it is admitted. -/
theorem ListsKept.step (hc : UlConfigAdmitted s c) (ht : s.step isUlSlot slotTx c = some t) :
    ListsKept isUlSlot slotTx t := by
  cases c with
  | get frameTx pduType config =>
    obtain ⟨-, ht⟩ := ite_none_right_eq_some.1 ht
    cases ht
    exact h.get frameTx pduType config
  | remove => exact absurd hc id
  | release clearIt =>
    obtain ⟨held, hheld, ht⟩ := bind_eq_some_iff.1 ht
    obtain ⟨request, hr, rfl⟩ := map_eq_some_iff.1 ht
    exact h.release hheld hr
  | iterate frameTx stop =>
    obtain ⟨hheld, ht⟩ := ite_none_right_eq_some.1 ht
    exact h.iterate hheld hc ht
  | clear =>
    obtain ⟨hheld, ht⟩ := ite_none_right_eq_some.1 ht
    cases ht
    refine ⟨⟨rfl, h.visited_eq⟩, zero_le _, Lists.nil _, nofun, fun h ↦ absurd rfl h, ?_⟩
    rw [hheld]
    nofun

end

end

/-- **In a run without removals, and without walks of a full list, the list is transactional.** -/
theorem transactional_of_admitted (isUlSlot : Bool) (slotTx frame slot : ℤ)
    (ulConfigList : ℕ → UlConfigPdu γ) {s : UlConfigSlot γ}
    (h : (ulConfigSystem isUlSlot slotTx (.start frame slot ulConfigList)).Reach
      UlConfigAdmitted s) : s.Transactional := by
  have hkept : ListsKept isUlSlot slotTx s := by
    refine h.invariant ?_ fun hs hok ht ↦ hs.step hok ht
    exact ⟨⟨rfl, nofun⟩, zero_le _, Lists.nil _, nofun, fun h ↦ absurd rfl h, nofun⟩
  exact hkept.toTransactional

/-- A list whose memory is all zero; the configurations are numbers. -/
def zeroedSlot : UlConfigSlot ℕ := .start 0 0 fun _ ↦ ⟨some .done, 0, 0⟩

/-- A PUCCH and a PUSCH for slot 7 of frame 5, and then their transmission. -/
def twoPdus : List (UlConfigCall ℕ) :=
  [.get 5 .pucch 1, .release false, .get 5 .pusch 2, .release false, .iterate 5 2, .release true]

theorem twoPdus_isSome :
    ((ulConfigSystem true 7 zeroedSlot).exec UlConfigAdmitted zeroedSlot twoPdus).isSome := by
  decide

/-- Both are transmitted, and the list is empty afterwards. -/
theorem twoPdus_transactional :
    (((ulConfigSystem true 7 zeroedSlot).exec UlConfigAdmitted zeroedSlot twoPdus).get
      twoPdus_isSome).Transactional :=
  transactional_of_admitted true 7 0 0 (fun _ ↦ ⟨some .done, 0, 0⟩)
    (StepSystem.reach_get_exec (ulConfigSystem true 7 zeroedSlot) UlConfigAdmitted twoPdus
      twoPdus_isSome)

/-- A PUSCH that is removed because its configuration has failed, and then the transmission. -/
def failedPusch : List (UlConfigCall ℕ) :=
  [.get 5 .pusch 2, .remove, .release false, .iterate 5 1]

/-- **The PUSCH that was removed** is counted, and transmitted. -/
theorem failedPusch_visited :
    ∃ s : UlConfigSlot ℕ,
      (ulConfigSystem true 7 zeroedSlot).Reach (fun _ _ ↦ True) s ∧
        s.kept.length = 0 ∧ s.request.numberPdus = 1 ∧ s.walks.map Prod.fst = [[(.pusch, 2)]] ∧
        ¬ s.Transactional := by
  refine ⟨_, StepSystem.reach_get_exec (ulConfigSystem true 7 zeroedSlot) (fun _ _ ↦ True)
    failedPusch (by decide), by decide, by decide, by decide,
    fun h ↦ ?_⟩
  exact absurd h.numberPdus_eq (by decide)

end OaiRan.UeMac
