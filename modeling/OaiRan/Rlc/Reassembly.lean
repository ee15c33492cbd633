import OaiRan.Rlc.Pdu
import Mathlib.Algebra.BigOperators.Group.List.Basic
import Mathlib.Tactic.Linarith

/-!
# Questions about a receive list, and reassembly

The functions that the acknowledged and the unacknowledged entity have in common, word for word:
`sdu_full`, `sdu_delivered`, `sdu_has_missing_bytes` and the copying loop of
`reassemble_and_deliver`. All of them look for the first cell of an SN and then walk the cells of
that SN that follow it; `snRun` is that stretch of the list.

The copying loop is modelled with what it reads: a byte read outside a segment's payload is
`none`, and every `memcpy` is recorded. Nothing else in the model depends on the record.
-/

namespace OaiRan.Rlc

open List

variable {p pdu q : NrRlcPdu} {l₂ : List NrRlcPdu}

/-! ### The cells of one SN -/

/-- The list from the first cell of `sn` on. -/
def fromSn (sn : ℤ) (l : List NrRlcPdu) : List NrRlcPdu := l.dropWhile fun p ↦ p.sn != sn

/-- The cells of `sn`, as far as they follow each other. -/
def snRun (sn : ℤ) (l : List NrRlcPdu) : List NrRlcPdu :=
  (fromSn sn l).takeWhile fun p ↦ p.sn == sn

/-- Change the cells of `snRun` in place. -/
def mapSnRun (f : NrRlcPdu → NrRlcPdu) (sn : ℤ) (l : List NrRlcPdu) : List NrRlcPdu :=
  l.takeWhile (fun p ↦ p.sn != sn) ++ (snRun sn l).map f ++
    (fromSn sn l).dropWhile fun p ↦ p.sn == sn

theorem snRun_split (sn : ℤ) (l : List NrRlcPdu) :
    l.takeWhile (fun p ↦ p.sn != sn) ++ snRun sn l ++
      (fromSn sn l).dropWhile (fun p ↦ p.sn == sn) = l := by
  rw [append_assoc, snRun, takeWhile_append_dropWhile, fromSn, takeWhile_append_dropWhile]

variable {sn : ℤ} {l l₁ : List NrRlcPdu} {f : NrRlcPdu → NrRlcPdu}

theorem sn_eq_of_mem_snRun (h : p ∈ snRun sn l) : p.sn = sn := by
  have := mem_takeWhile_imp h
  simpa using this

theorem mem_of_mem_snRun (h : p ∈ snRun sn l) : p ∈ l := by
  rw [← snRun_split sn l]
  simp [h]

theorem fromSn_append_of_ne (h : ∀ p ∈ l₁, p.sn ≠ sn) (l₂ : List NrRlcPdu) :
    fromSn sn (l₁ ++ l₂) = fromSn sn l₂ :=
  dropWhile_append_of_pos fun p hp ↦ by simpa using h p hp

theorem fromSn_eq_nil_of_ne (h : ∀ p ∈ l, p.sn ≠ sn) : fromSn sn l = [] := by
  simpa [fromSn] using fromSn_append_of_ne h []

theorem fromSn_of_eq (h : ∀ p ∈ l, p.sn = sn) : fromSn sn l = l := by
  cases l with
  | nil => rfl
  | cons p l => exact dropWhile_cons_of_neg (by simp [h p (by simp)])

/-- The cells of an SN that closes the list. -/
theorem snRun_append_of_eq (h₁ : ∀ p ∈ l₁, p.sn ≠ sn)
    (h₂ : ∀ p ∈ l₂, p.sn = sn) : snRun sn (l₁ ++ l₂) = l₂ := by
  rw [snRun, fromSn_append_of_ne h₁, fromSn_of_eq h₂]
  exact takeWhile_eq_self_iff.2 fun p hp ↦ by simpa using h₂ p hp

theorem mapSnRun_append_of_eq (f : NrRlcPdu → NrRlcPdu)
    (h₁ : ∀ p ∈ l₁, p.sn ≠ sn) (h₂ : ∀ p ∈ l₂, p.sn = sn) :
    mapSnRun f sn (l₁ ++ l₂) = l₁ ++ l₂.map f := by
  have hrest : (fromSn sn (l₁ ++ l₂)).dropWhile (fun p ↦ p.sn == sn) = [] := by
    rw [fromSn_append_of_ne h₁, fromSn_of_eq h₂]
    exact dropWhile_eq_nil_iff.2 fun p hp ↦ by simpa using h₂ p hp
  have hfront : (l₁ ++ l₂).takeWhile (fun p ↦ p.sn != sn) = l₁ := by
    rw [takeWhile_append_of_pos fun p hp ↦ by simpa using h₁ p hp]
    cases l₂ with
    | nil => simp
    | cons p l => rw [takeWhile_cons_of_neg (by simp [h₂ p (by simp)]), append_nil]
  rw [mapSnRun, hrest, hfront, snRun_append_of_eq h₁ h₂, append_nil]

/-- A changed cell comes from a cell of the list, changed or not. -/
theorem mem_mapSnRun (h : q ∈ mapSnRun f sn l) : q ∈ l ∨ ∃ p ∈ snRun sn l, q = f p := by
  rcases mem_append.1 h with h | h
  · rcases mem_append.1 h with h | h
    · exact .inl ((takeWhile_sublist _).subset h)
    · obtain ⟨p, hp, rfl⟩ := mem_map.1 h
      exact .inr ⟨p, hp, rfl⟩
  · exact .inl ((dropWhile_sublist _).subset ((dropWhile_sublist _).subset h))

/-- Reading a field that the change leaves alone. -/
theorem map_mapSnRun (hfg : ∀ p, g (f p) = g p) (sn : ℤ) (l : List NrRlcPdu) :
    (mapSnRun f sn l).map g = l.map g := by
  conv_rhs => rw [← snRun_split sn l]
  simp [mapSnRun, hfg]

/-- Emptying the cells of an SN takes exactly their sizes off the total. -/
theorem sum_size_mapSnRun (hf : ∀ p, (f p).size = 0) (sn : ℤ) (l : List NrRlcPdu) :
    ((mapSnRun f sn l).map NrRlcPdu.size).sum =
      (l.map NrRlcPdu.size).sum - ((snRun sn l).map NrRlcPdu.size).sum := by
  have hzero : ((snRun sn l).map (NrRlcPdu.size ∘ f)).sum = 0 :=
    sum_eq_zero (by simp [hf])
  have hl := congrArg (fun l ↦ (l.map NrRlcPdu.size).sum) (snRun_split sn l)
  simp only [map_append, sum_append] at hl
  simp only [mapSnRun, map_append, map_map, sum_append, hzero]
  linarith

theorem perm_nrRlcPduListAdd (snCompare : ℤ → ℤ → ℤ) (l : List NrRlcPdu) (pdu : NrRlcPdu) :
    (nrRlcPduListAdd snCompare l pdu).Perm (pdu :: l) :=
  OrderedChain.perm_insertBefore _ _ _

/-- A PDU that no cell comes after goes to the end. -/
theorem nrRlcPduListAdd_eq_append
    (h : ∀ q ∈ l, snCompare q.sn pdu.sn ≤ 0 ∧ (q.sn = pdu.sn → q.so ≤ pdu.so)) :
    nrRlcPduListAdd snCompare l pdu = l ++ [pdu] := by
  refine OrderedChain.insertBefore_of_forall fun q hq ↦ ?_
  obtain ⟨h₁, h₂⟩ := h q hq
  rw [Bool.or_eq_false_iff, Bool.and_eq_false_imp, beq_iff_eq]
  exact ⟨decide_eq_false (by omega), fun he ↦ decide_eq_false (by have := h₂ he; omega)⟩

/-- The data of the first cell of `sn` has already been handed on. -/
def firstProcessed (sn : ℤ) (l : List NrRlcPdu) : Bool :=
  match fromSn sn l with
  | [] => false
  | p :: _ => p.data.isNone

def sduFullLoop (sn : ℤ) : ℤ → List NrRlcPdu → Bool
  | _, [] => false
  | lastByte, l :: ls =>
    if l.sn ≠ sn then false
    else if l.so > lastByte + 1 then false
    else if l.isLast then true
    else sduFullLoop sn (max lastByte (l.so + l.size - 1)) ls

/-- All the bytes of the SDU have been received (but it has not been already processed). -/
def sduFull (rxList : List NrRlcPdu) (sn : ℤ) : Bool :=
  if firstProcessed sn rxList then false else sduFullLoop sn (-1) (fromSn sn rxList)

/-- The SDU has already been delivered. -/
def sduDelivered (rxList : List NrRlcPdu) (sn : ℤ) : Bool := firstProcessed sn rxList

def sduHasMissingBytesLoop (sn : ℤ) : ℤ → List NrRlcPdu → Bool
  | _, [] => false
  | lastByte, l :: ls =>
    if l.sn ≠ sn then false
    else if l.so > lastByte + 1 then true
    else sduHasMissingBytesLoop sn (max lastByte (l.so + l.size - 1)) ls

/-- Some bytes are missing before the last received byte of the SDU. -/
def sduHasMissingBytes (rxList : List NrRlcPdu) (sn : ℤ) : Bool :=
  if firstProcessed sn rxList then false
  else sduHasMissingBytesLoop sn (-1) (fromSn sn rxList)

/-- `while (sdu_delivered(entity, sn)) sn = (sn + 1) % sn_modulus;` for at most `fuel` turns. -/
def skipDelivered (snModulus : ℤ) (rxList : List NrRlcPdu) : ℕ → ℤ → ℤ
  | 0, sn => sn
  | fuel + 1, sn =>
    if sduDelivered rxList sn then skipDelivered snModulus rxList fuel ((sn + 1) % snModulus)
    else sn

/-! ### Reassembly -/

/-- A `memcpy` of the reassembly: `len` bytes from `offset` on in a segment's `payload`. -/
structure Memcpy where
  payload : List UInt8
  (offset len : ℤ)
  deriving DecidableEq, Repr

/-- The bytes read; `none` for a byte outside the payload. -/
def Memcpy.read (m : Memcpy) : List (Option UInt8) :=
  (range m.len.toNat).map fun (i : ℕ) ↦
    if 0 ≤ m.offset + i then m.payload[(m.offset + i).toNat]? else none

/-- The `memcpy` stays inside the payload. -/
def Memcpy.InBounds (m : Memcpy) : Prop := 0 ≤ m.offset ∧ m.offset + m.len ≤ m.payload.length

/-- The local variables of the loop: the buffer `sdu` filled up to `so`, and `bad_sdu`. -/
structure Reassembly where
  sdu : List (Option UInt8)
  badSdu : Bool
  memcpys : List Memcpy
  deriving DecidableEq, Repr

def Reassembly.so (r : Reassembly) : ℤ := r.sdu.length

/-- One turn of the loop. -/
def Reassembly.add (r : Reassembly) (pdu : NrRlcPdu) : Reassembly :=
  let len := pdu.size - (r.so - pdu.so)
  let badSdu := r.badSdu || decide (r.so + len > nrSduMax)
  if !badSdu && decide (len > 0) then
    let m : Memcpy := ⟨pdu.data.getD [], r.so - pdu.so, len⟩
    { sdu := r.sdu ++ m.read, badSdu := badSdu, memcpys := r.memcpys ++ [m] }
  else { r with badSdu := badSdu }

def Reassembly.init : Reassembly := ⟨[], false, []⟩

/-- The loop over the segments of an SN. -/
def reassemble (segments : List NrRlcPdu) : Reassembly := segments.foldl .add .init

/-- What is passed to `deliver_sdu`, if anything is. -/
def Reassembly.delivered (r : Reassembly) : Option (List (Option UInt8)) :=
  if r.badSdu then none else some r.sdu

end OaiRan.Rlc
