import OaiRan.Lib.CInt
import Mathlib.Data.List.TakeWhile

/-!
# Containers, and conversions to and from ASN.1 strings

The lists of information elements of which F1AP messages consist, and the macros of
`conversions.h` with which the codecs write numbers into octet and bit strings and read them back. A
failed `DevCheck` or `DevAssert` ends the program; such a conversion is `none` here.

**The NR cell identity** has 36 bits, but is read back in the 32 bits of an `int`
(`bitStringToNrCellIdentity_eq_iff`).
-/

namespace OaiRan.Asn1

/-- `F1AP_Criticality`. -/
inductive Criticality
  | reject
  | ignore
  | notify
  deriving DecidableEq, Repr

/-- An element of a container or of an extension container: `value` is the open type with its
`present` field. -/
structure ProtocolIE (ι ν : Type*) where
  id : ι
  criticality : Criticality
  value : ν
  deriving DecidableEq, Repr

/-- `F1AP_LIB_FIND_IE` of mandatory elements: the decoder returns if one of them is missing. -/
def findIes {ι ν : Type*} [DecidableEq ι] (ies : List (ProtocolIE ι ν)) (ids : List ι) : Bool :=
  ids.all fun id ↦ ies.any fun ie ↦ ie.id = id

/-- A string that ends at the first zero byte. -/
structure CString where
  bytes : List UInt8
  ne_zero : ∀ b ∈ bytes, b ≠ 0
  deriving DecidableEq

theorem ne_zero_of_mem_takeWhile {buf : List UInt8} :
    ∀ b ∈ buf.takeWhile (fun b ↦ decide (b ≠ 0)), b ≠ 0 := by
  intro b hb
  have hne := List.mem_takeWhile_imp hb
  exact of_decide_eq_true hne

/-- `strncpy` into a zeroed buffer with room for the bytes and one more. -/
def CString.strncpy (buf : List UInt8) : CString where
  bytes := buf.takeWhile fun b ↦ decide (b ≠ 0)
  ne_zero := ne_zero_of_mem_takeWhile

@[simp]
theorem CString.strncpy_bytes (s : CString) : CString.strncpy s.bytes = s := by
  obtain ⟨bytes, h⟩ := s
  rw [CString.strncpy, CString.mk.injEq, List.takeWhile_eq_self_iff]
  exact fun b hb ↦ decide_eq_true (h b hb)

open UInt8

structure BitString where
  buf : List UInt8
  bitsUnused : ℕ
  deriving DecidableEq, Repr

/-! ### PLMN identities -/

/-- `f1ap_plmn_t` and `PLMN_ID_t`. -/
structure Plmn where
  mcc : ℕ := 0
  mnc : ℕ := 0
  mncDigitLength : ℕ := 0
  deriving DecidableEq, Repr

/-- Three digits of MCC, and two or three of MNC. -/
structure Plmn.Valid (p : Plmn) : Prop where
  mcc_le : p.mcc ≤ 999
  mnc_le : p.mncDigitLength = 2 ∧ p.mnc ≤ 99 ∨ p.mncDigitLength = 3 ∧ p.mnc ≤ 999

def mccHundreds (value : ℕ) : ℕ := value / 100

def mncHundreds (value mncDigitLength : ℕ) : ℕ := if mncDigitLength = 2 then 15 else value / 100

def mccMncDecimal (value : ℕ) : ℕ := value / 10 % 10

def mccMncDigit (value : ℕ) : ℕ := value % 10

def mccMncToPlmnid (p : Plmn) : List UInt8 :=
  [.ofNat ((mccMncDecimal p.mcc <<< 4) ||| mccHundreds p.mcc),
    .ofNat ((mncHundreds p.mnc p.mncDigitLength <<< 4) ||| mccMncDigit p.mcc),
    .ofNat ((mccMncDigit p.mnc <<< 4) ||| mccMncDecimal p.mnc)]

def tbcdToMccMnc : List UInt8 → Option Plmn
  | [b₀, b₁, b₂] =>
    let mncHundred := (b₁.toNat &&& 0xf0) >>> 4
    some
      { mcc := ((b₀.toNat &&& 0xf0) >>> 4) * 10 + (b₀.toNat &&& 0x0f) * 100 + (b₁.toNat &&& 0x0f)
        mnc := (if mncHundred = 0xf then 0 else mncHundred) * 100 +
          ((b₂.toNat &&& 0xf0) >>> 4) + (b₂.toNat &&& 0x0f) * 10
        mncDigitLength := if mncHundred = 0xf then 2 else 3 }
  | _ => none

/-- The upper and the lower half of a byte. -/
theorem nibbles : ∀ a < 16, ∀ b < 16,
    ((ofNat ((a <<< 4) ||| b)).toNat &&& 0xf0) >>> 4 = a ∧
    ((ofNat ((a <<< 4) ||| b)).toNat >>> 4) &&& 0x0f = a ∧
    (ofNat ((a <<< 4) ||| b)).toNat &&& 0x0f = b := by
  decide

theorem Plmn.Valid.digits_lt {p : Plmn} (h : p.Valid) :
    mccMncDecimal p.mcc < 16 ∧ mccHundreds p.mcc < 16 ∧ mncHundreds p.mnc p.mncDigitLength < 16 ∧
      mccMncDigit p.mcc < 16 ∧ mccMncDigit p.mnc < 16 ∧ mccMncDecimal p.mnc < 16 := by
  obtain ⟨hmcc, hmnc⟩ := h
  simp only [mccMncDecimal, mccHundreds, mncHundreds, mccMncDigit]
  split_ifs <;> omega

theorem tbcdToMccMnc_mccMncToPlmnid {p : Plmn} (h : p.Valid) :
    tbcdToMccMnc (mccMncToPlmnid p) = some p := by
  obtain ⟨hdec, hhund, hmncHund, hdig, hmncDig, hmncDec⟩ := h.digits_lt
  have h₀ := nibbles _ hdec _ hhund
  have h₁ := nibbles _ hmncHund _ hdig
  have h₂ := nibbles _ hmncDig _ hmncDec
  obtain ⟨hmcc, hmnc⟩ := h
  obtain ⟨mcc, mnc, len⟩ := p
  simp only [mccMncToPlmnid, tbcdToMccMnc, h₀.1, h₀.2.2, h₁.1, h₁.2.2, h₂.1, h₂.2.2,
    Option.some.injEq, Plmn.mk.injEq]
  simp only [mccMncDecimal, mccHundreds, mccMncDigit, mncHundreds] at *
  split_ifs <;> omega

/-! ### NR cell identities -/

def nrCellIdToBitString (id : ℕ) : BitString where
  buf := [.ofNat (id >>> 28), .ofNat (id >>> 20), .ofNat (id >>> 12), .ofNat (id >>> 4),
    .ofNat ((id &&& 0x0f) <<< 4)]
  bitsUnused := 4

/-- `BIT_STRING_TO_NR_CELL_IDENTITY`: the bytes are promoted to `int`. -/
def bitStringToNrCellIdentity : BitString → Option ℕ
  | ⟨b₀ :: b₁ :: b₂ :: b₃ :: b₄ :: _, bitsUnused⟩ =>
    if bitsUnused = 4 then
      some (CInt.toUint64 (CInt.toInt32
        ((b₀.toNat <<< 28) ||| (b₁.toNat <<< 20) ||| (b₂.toNat <<< 12) ||| (b₃.toNat <<< 4) |||
          (b₄.toNat >>> 4) : ℕ)))
    else none
  | _ => none

theorem shiftLeft_or (a : ℕ) (h : b < 2 ^ n) : a <<< n ||| b = a * 2 ^ n + b := by
  rw [← Nat.shiftLeft_add_eq_or_of_lt h, Nat.shiftLeft_eq]

/-- **Only 32 bits come back**, with a sign. -/
theorem bitStringToNrCellIdentity_nrCellIdToBitString (id : ℕ) :
    bitStringToNrCellIdentity (nrCellIdToBitString id) =
      some (CInt.toUint64 (CInt.toInt32 id)) := by
  have hlast : (ofNat ((id &&& 0x0f) <<< 4)).toNat >>> 4 = id % 2 ^ 4 := by
    rw [toNat_ofNat', Nat.shiftLeft_eq, Nat.shiftRight_eq_div_pow,
      show (0x0f : ℕ) = 2 ^ 4 - 1 from rfl, Nat.and_two_pow_sub_one_eq_mod]
    omega
  have hword : ((ofNat (id >>> 28)).toNat <<< 28) |||
      ((ofNat (id >>> 20)).toNat <<< 20) ||| ((ofNat (id >>> 12)).toNat <<< 12) |||
        ((ofNat (id >>> 4)).toNat <<< 4) |||
          ((ofNat ((id &&& 0x0f) <<< 4)).toNat >>> 4) = id % 2 ^ 36 := by
    rw [hlast]
    simp only [toNat_ofNat', Nat.shiftRight_eq_div_pow, Nat.or_assoc]
    rw [shiftLeft_or (n := 4) _ (by omega), shiftLeft_or (n := 12) _ (by omega),
      shiftLeft_or (n := 20) _ (by omega), shiftLeft_or (n := 28) _ (by omega)]
    omega
  have hint : CInt.toInt32 ((id % 2 ^ 36 : ℕ) : ℤ) = CInt.toInt32 id := by
    rw [CInt.toInt32, CInt.toInt32]
    omega
  rw [nrCellIdToBitString, bitStringToNrCellIdentity, if_pos rfl, hword, hint]

/-- **A cell identity is read back exactly if it has 31 bits.** -/
theorem bitStringToNrCellIdentity_eq_iff {id : ℕ} (h : id < 2 ^ 36) :
    bitStringToNrCellIdentity (nrCellIdToBitString id) = some id ↔ id < 2 ^ 31 := by
  rw [bitStringToNrCellIdentity_nrCellIdToBitString, Option.some.injEq, CInt.toUint64, CInt.toInt32]
  omega

/-! ### Octet strings -/

def octetStringToInt8 : List UInt8 → Option UInt8
  | [b] => some b
  | _ => none

/-- `OCTET_STRING_TO_INT24`. The byte behind an octet string is 0. -/
def octetStringToInt24 : List UInt8 → Option ℕ
  | [b₀, b₁] => some ((b₀.toNat <<< 16) ||| (b₁.toNat <<< 8))
  | [b₀, b₁, b₂] => some ((b₀.toNat <<< 16) ||| (b₁.toNat <<< 8) ||| b₂.toNat)
  | _ => none

def int24ToOctetString (x : ℕ) : List UInt8 := [.ofNat (x >>> 16), .ofNat (x >>> 8), .ofNat x]

theorem octetStringToInt24_int24ToOctetString (h : x < 2 ^ 24) :
    octetStringToInt24 (int24ToOctetString x) = some x := by
  simp only [int24ToOctetString, octetStringToInt24, toNat_ofNat',
    Nat.shiftRight_eq_div_pow, Nat.or_assoc, Option.some.injEq]
  rw [shiftLeft_or (n := 8) _ (by omega), shiftLeft_or (n := 16) _ (by omega)]
  omega

end OaiRan.Asn1
