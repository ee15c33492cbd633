import OaiRan.Lib.BitString
import OaiRan.Lib.OrderedChain

/-!
# Received PDUs, and the bit-level PDU decoder and encoder

`nr_rlc_pdu.c`: the cell type of the receive lists, insertion into them, and the reader and
writer of PDU headers. Buffers are lists of bytes; the `size` that the source passes beside a
buffer is its length. A decoder error (`R(decoder)` in the callers) is `none`, and so is the
`exit` of the encoder when its buffer is full.

The second half states the reader and the writer over bit strings. Every decoder the code builds
is `decoderAt buf k` for a bit position `k`, so reading is `getBits_decoderAt`; every encoder
holds the bits written so far (`NrRlcPduEncoder.Wrote`), so writing is `Wrote.putBits`.
-/

namespace OaiRan.Rlc

open BitString List

variable {buf : List UInt8} {a bit j ret so : ℕ}

/-- The largest SDU, `NR_SDU_MAX`. -/
def nrSduMax : ℤ := 16000

/-! ### Received PDUs -/

/-- A received segment: `data` is `none` once its bytes have been handed on and freed. -/
structure NrRlcPdu where
  sn : ℤ
  data : Option (List UInt8)
  (size so : ℤ)
  (isFirst isLast : Bool)
  deriving DecidableEq, Repr

def nrRlcNewPdu (sn so : ℤ) (isFirst isLast : Bool) (data : List UInt8) : NrRlcPdu where
  sn := sn
  data := some data
  size := data.length
  so := so
  isFirst := isFirst
  isLast := isLast

/-- Order is by `sn`; if `sn` is the same then order is by `so`. -/
def nrRlcPduListAdd (snCompare : ℤ → ℤ → ℤ) (list : List NrRlcPdu) (pdu : NrRlcPdu) :
    List NrRlcPdu :=
  OrderedChain.insertBefore
    (fun cur ↦ snCompare cur.sn pdu.sn > 0 || (cur.sn == pdu.sn && cur.so > pdu.so)) pdu list

/-! ### The decoder -/

structure NrRlcPduDecoder where
  (byte bit : ℕ)
  buffer : List UInt8
  deriving DecidableEq, Repr

def nrRlcPduDecoderInit (buffer : List UInt8) : NrRlcPduDecoder := ⟨0, 0, buffer⟩

def getBit (d : NrRlcPduDecoder) : Option (ℕ × NrRlcPduDecoder) :=
  match d.buffer[d.byte]? with
  | none => none
  | some b =>
    some ((b.toNat >>> (7 - d.bit)) &&& 1,
      if d.bit + 1 = 8 then { d with bit := 0, byte := d.byte + 1 }
      else { d with bit := d.bit + 1 })

/-- The loop of `nr_rlc_pdu_decoder_get_bits`, `ret` being the bits read so far. -/
def getBitsLoop : ℕ → ℕ → NrRlcPduDecoder → Option (ℕ × NrRlcPduDecoder)
  | ret, 0, d => some (ret, d)
  | ret, count + 1, d =>
    match getBit d with
    | none => none
    | some (b, d) => getBitsLoop (ret <<< 1 ||| b) count d

def nrRlcPduDecoderGetBits (d : NrRlcPduDecoder) (count : ℕ) : Option (ℕ × NrRlcPduDecoder) :=
  getBitsLoop 0 count d

/-- The SO of a data PDU, which both kinds of entity read alike: zero for a first segment, and
otherwise a field of 16 bits. `none` is a decoding error or a zero SO field. -/
def decodeSo (isFirst : Bool) (d : NrRlcPduDecoder) : Option (ℕ × NrRlcPduDecoder) :=
  if isFirst then some (0, d)
  else (nrRlcPduDecoderGetBits d 16).filter fun (so, _) ↦ so != 0

/-! ### The encoder -/

/-- `buffer` is the caller's buffer, whose length is the encoder's `size`. -/
structure NrRlcPduEncoder where
  (byte bit : ℕ)
  buffer : List UInt8
  deriving DecidableEq, Repr

def nrRlcPduEncoderInit (buffer : List UInt8) : NrRlcPduEncoder := ⟨0, 0, buffer⟩

def putBit (e : NrRlcPduEncoder) (bit : Bool) : Option NrRlcPduEncoder :=
  if e.byte = e.buffer.length then none
  else
    let buffer := e.buffer.modify e.byte fun x ↦ x <<< 1 ||| (if bit then 1 else 0)
    if e.bit + 1 = 8 then some ⟨e.byte + 1, 0, buffer⟩ else some ⟨e.byte, e.bit + 1, buffer⟩

/-- The highest of the `count` bits goes first. -/
def nrRlcPduEncoderPutBits (e : NrRlcPduEncoder) (value : ℕ) : ℕ → Option NrRlcPduEncoder
  | 0 => some e
  | count + 1 =>
    match putBit e (value.testBit count) with
    | none => none
    | some e => nrRlcPduEncoderPutBits e value count

/-! ### Reading at a bit position -/

/-- The decoder of `buf` with `k` bits consumed. -/
def decoderAt (buf : List UInt8) (k : ℕ) : NrRlcPduDecoder := ⟨k / 8, k % 8, buf⟩

@[simp] theorem nrRlcPduDecoderInit_eq (buf : List UInt8) :
    nrRlcPduDecoderInit buf = decoderAt buf 0 := rfl

@[simp] theorem decoderAt_byte (buf : List UInt8) (k : ℕ) : (decoderAt buf k).byte = k / 8 := rfl

variable {i k n v len : ℕ} {rest bits : List Bool} {e : NrRlcPduEncoder}

theorem natBits_eight_getElem? (b : UInt8) (hi : i < 8) :
    (natBits 8 b.toNat)[i]? = some ((b.toNat >>> (7 - i)) &&& 1 == 1) := by
  rw [getElem?_natBits _ hi, Nat.testBit_eq_decide_div_mod_eq, Nat.and_one_is_mod,
    Nat.shiftRight_eq_div_pow]
  rfl

theorem bitsOf_getElem? (buf : List UInt8) (k : ℕ) :
    (bitsOf buf)[k]? = (buf[k / 8]?).map fun b ↦ (b.toNat >>> (7 - k % 8)) &&& 1 == 1 := by
  induction buf generalizing k with
  | nil => simp
  | cons b buf ih =>
    rw [bitsOf_cons]
    by_cases hk : k < 8
    · rw [getElem?_append_left (by simpa using hk), natBits_eight_getElem? b hk,
        Nat.div_eq_of_lt hk, Nat.mod_eq_of_lt hk]
      rfl
    · rw [getElem?_append_right (by simpa using hk), length_natBits, ih,
        show k / 8 = (k - 8) / 8 + 1 by omega, show (k - 8) % 8 = k % 8 by omega]
      rfl

theorem getBit_decoderAt (buf : List UInt8) (k : ℕ) :
    getBit (decoderAt buf k) =
      (bitsOf buf)[k]?.map fun b ↦ (b.toNat, decoderAt buf (k + 1)) := by
  have hnext : (if k % 8 + 1 = 8 then (⟨k / 8 + 1, 0, buf⟩ : NrRlcPduDecoder)
      else ⟨k / 8, k % 8 + 1, buf⟩) = decoderAt buf (k + 1) := by
    split <;> congr 1 <;> omega
  rw [bitsOf_getElem?, getBit, ← hnext]
  simp only [decoderAt]
  rcases h : buf[k / 8]? with - | b
  · rfl
  · rcases Nat.mod_two_eq_zero_or_one (b.toNat >>> (7 - k % 8)) with hb | hb <;>
      simp [Nat.and_one_is_mod, hb]

theorem getBitsLoop_decoderAt (buf : List UInt8) (ret n : ℕ) (hk : k ≤ 8 * buf.length) :
    getBitsLoop ret n (decoderAt buf k) =
      if k + n ≤ 8 * buf.length then
        some (ret * 2 ^ n + ofBits (((bitsOf buf).drop k).take n), decoderAt buf (k + n))
      else none := by
  induction n generalizing ret k with
  | zero => simp [getBitsLoop, ofBits, hk]
  | succ n ih =>
    rw [getBitsLoop, getBit_decoderAt]
    by_cases hlt : k < 8 * buf.length
    · have hlen : k < (bitsOf buf).length := by rw [length_bitsOf]; exact hlt
      obtain ⟨b, hb⟩ : ∃ b, (bitsOf buf)[k]? = some b := ⟨_, getElem?_eq_getElem hlen⟩
      have hdrop : (bitsOf buf).drop k = b :: (bitsOf buf).drop (k + 1) := by
        rw [drop_eq_getElem_cons hlen]
        rw [getElem?_eq_getElem hlen, Option.some.injEq] at hb
        rw [hb]
      have hret : ret <<< 1 ||| b.toNat = 2 * ret + b.toNat := by
        have h := Nat.two_pow_add_eq_or_of_lt (i := 1) b.toNat_lt ret
        rw [Nat.shiftLeft_eq, Nat.mul_comm ret, ← h, pow_one]
      simp only [hb, Option.map_some]
      rw [ih _ (by omega), show k + 1 + n = k + (n + 1) by omega]
      split
      · rw [hdrop, take_succ_cons, ofBits_cons, length_take, length_drop,
          length_bitsOf, hret, Nat.min_eq_left (by omega)]
        congr 2
        ring
      · rfl
    · have hnone : (bitsOf buf)[k]? = none := by
        rw [getElem?_eq_none_iff, length_bitsOf]; omega
      rw [hnone, if_neg (by omega)]
      rfl

/-- **Reading a field.** The bits at the decoder's position, or an error past the end. -/
theorem getBits_decoderAt (buf : List UInt8) (n : ℕ) (hk : k ≤ 8 * buf.length) :
    nrRlcPduDecoderGetBits (decoderAt buf k) n =
      if k + n ≤ 8 * buf.length then
        some (ofBits (((bitsOf buf).drop k).take n), decoderAt buf (k + n))
      else none := by
  rw [nrRlcPduDecoderGetBits, getBitsLoop_decoderAt buf 0 n hk, Nat.zero_mul, Nat.zero_add]

/-- Reading back a field that the buffer spells at the decoder's position. -/
theorem getBits_of_drop_eq (h : (bitsOf buf).drop k = natBits n v ++ rest) :
    nrRlcPduDecoderGetBits (decoderAt buf k) n = some (v % 2 ^ n, decoderAt buf (k + n)) ∧
      (bitsOf buf).drop (k + n) = rest := by
  have hrest : (bitsOf buf).drop (k + n) = rest := by
    rw [← drop_drop, h, drop_left' (length_natBits n v)]
  refine ⟨?_, hrest⟩
  have hlen := congrArg length h
  rw [length_drop, length_bitsOf, length_append, length_natBits] at hlen
  rcases n with - | n
  · simp [nrRlcPduDecoderGetBits, getBitsLoop, Nat.mod_one]
  · rw [getBits_decoderAt buf (n + 1) (by omega), if_pos (by omega), h,
      take_left' (length_natBits _ v), ofBits_natBits]

variable {d d' : NrRlcPduDecoder}

theorem getBitsLoop_lt (h : getBitsLoop ret n d = some (v, d')) : v < (ret + 1) * 2 ^ n := by
  induction n generalizing ret d with
  | zero =>
    cases h
    omega
  | succ n ih =>
    rw [getBitsLoop] at h
    rcases hb : getBit d with - | ⟨b, d₁⟩
    · rw [hb] at h
      simp at h
    · rw [hb] at h
      have hb1 : b ≤ 1 := by
        rw [getBit] at hb
        rcases hbyte : d.buffer[d.byte]? with - | byte
        · simp [hbyte] at hb
        · simp only [hbyte, Option.some.injEq, Prod.mk.injEq] at hb
          rw [← hb.1, Nat.and_one_is_mod]
          omega
      have hret : ret <<< 1 ||| b = 2 * ret + b := by
        have h := Nat.two_pow_add_eq_or_of_lt (i := 1) (show b < 2 ^ 1 by omega) ret
        rw [Nat.shiftLeft_eq, Nat.mul_comm ret, ← h, pow_one]
      have := ih h
      rw [hret] at this
      calc v < (2 * ret + b + 1) * 2 ^ n := this
        _ ≤ (2 * (ret + 1)) * 2 ^ n := Nat.mul_le_mul_right _ (by omega)
        _ = (ret + 1) * 2 ^ (n + 1) := by ring

/-- A field of `n` bits is below `2 ^ n`. -/
theorem getBits_lt (h : nrRlcPduDecoderGetBits d n = some (v, d')) : v < 2 ^ n := by
  simpa using getBitsLoop_lt h

/-- The SO field, which a first segment does not have. -/
def soBits (isFirst : Bool) (so : ℕ) : List Bool := if isFirst then [] else natBits 16 so

theorem decodeSo_of_drop_eq (hso : so < 2 ^ 16) (hfirst : isFirst = true ↔ so = 0)
    (h : (bitsOf buf).drop k = soBits isFirst so ++ rest) :
    ∃ k', decodeSo isFirst (decoderAt buf k) = some (so, decoderAt buf k') ∧
      (bitsOf buf).drop k' = rest := by
  rcases isFirst with - | -
  · have hso0 : so ≠ 0 := fun h0 ↦ by simp [h0] at hfirst
    obtain ⟨hg, hd⟩ := getBits_of_drop_eq h
    rw [Nat.mod_eq_of_lt hso] at hg
    exact ⟨_, by simp [decodeSo, hg, hso0], hd⟩
  · exact ⟨k, by simp [decodeSo, hfirst.1 rfl], by simpa [soBits] using h⟩

/-! ### Writing bit by bit -/

/-- The encoder's buffer has `len` bytes and `bits` are the bits written to it so far: the
complete bytes, then the low bits of the byte being filled. -/
structure NrRlcPduEncoder.Wrote (e : NrRlcPduEncoder) (len : ℕ) (bits : List Bool) : Prop where
  length_eq : e.buffer.length = len
  pos_eq : 8 * e.byte + e.bit = bits.length
  bit_lt : e.bit < 8
  le : bits.length ≤ 8 * len
  bits_eq : bitsOf (e.buffer.take e.byte) ++ natBits e.bit (e.buffer.getD e.byte 0).toNat = bits

theorem wrote_init (buffer : List UInt8) : (nrRlcPduEncoderInit buffer).Wrote buffer.length [] := by
  constructor <;> simp [nrRlcPduEncoderInit]

theorem toNat_shiftLeft_one_or (x : UInt8) (b : Bool) :
    (x <<< 1 ||| (if b then 1 else 0)).toNat = (2 * x.toNat + b.toNat) % 2 ^ 8 := by
  have key : ∀ v : Fin 256, ∀ b : Bool,
      (UInt8.ofNat v.1 <<< 1 ||| (if b then 1 else 0)).toNat = (2 * v.1 + b.toNat) % 2 ^ 8 := by
    decide +kernel
  have h := key ⟨x.toNat, x.toNat_lt⟩ b
  simpa using h

theorem putBit_wrote (h : e.Wrote len bits) (hroom : bits.length + 1 ≤ 8 * len) (b : Bool) :
    ∃ e', putBit e b = some e' ∧ e'.Wrote len (bits ++ [b]) := by
  have hpos := h.pos_eq
  have hbit := h.bit_lt
  have hbyte : e.byte < e.buffer.length := by
    have := h.length_eq
    omega
  set x : UInt8 := e.buffer[e.byte] with hx
  set y : UInt8 := x <<< 1 ||| (if b then 1 else 0) with hy
  have hmod : e.buffer.modify e.byte (fun x ↦ x <<< 1 ||| (if b then 1 else 0)) =
      e.buffer.take e.byte ++ y :: e.buffer.drop (e.byte + 1) :=
    modify_eq_take_cons_drop hbyte
  have htl : (e.buffer.take e.byte).length = e.byte := by
    rw [length_take, Nat.min_eq_left hbyte.le]
  have hget : (e.buffer.getD e.byte 0) = x := by
    rw [getD_eq_getElem?_getD, getElem?_eq_getElem hbyte, Option.getD_some]
  have hfield : ∀ {n : ℕ}, n + 1 ≤ 8 → natBits (n + 1) y.toNat = natBits n x.toNat ++ [b] := by
    intro n hn
    rw [hy, toNat_shiftLeft_one_or, natBits_mod hn, natBits_succ_append]
  rw [putBit, if_neg hbyte.ne]
  simp only [hmod]
  have hbits := h.bits_eq
  rw [hget] at hbits
  have hlen : (e.buffer.take e.byte ++ y :: e.buffer.drop (e.byte + 1)).length = len := by
    rw [length_append, length_cons, length_drop, htl, ← h.length_eq]
    omega
  split
  · -- the byte is full: its eight bits join the complete bytes
    refine ⟨_, rfl, hlen, ?_, by simp, by simpa using hroom, ?_⟩
    · simp only [length_append, length_singleton]
      omega
    · have htake : (e.buffer.take e.byte ++ y :: e.buffer.drop (e.byte + 1)).take (e.byte + 1) =
          e.buffer.take e.byte ++ [y] := by
        rw [take_append, htl, take_of_length_le (by omega), show e.byte + 1 - e.byte = 1 by omega]
        rfl
      rw [htake, bitsOf_append, bitsOf_cons, bitsOf_nil, natBits_zero, append_nil, append_nil,
        hfield (n := 7) le_rfl, ← hbits, show e.bit = 7 by omega, append_assoc]
  · refine ⟨_, rfl, hlen, ?_, ?_, by simpa using hroom, ?_⟩
    · simp only [length_append, length_singleton]
      omega
    · simp only
      omega
    · have hget' : (e.buffer.take e.byte ++ y :: e.buffer.drop (e.byte + 1)).getD e.byte 0 = y := by
        rw [getD_eq_getElem?_getD, getElem?_append_right htl.le, htl, Nat.sub_self]
        rfl
      simp only [hget', take_left' htl]
      rw [hfield (by omega), ← hbits, append_assoc]

/-- **Writing a field.** With room left, the encoder appends the field's bits. -/
theorem putBits_wrote (h : e.Wrote len bits) (value n : ℕ) (hroom : bits.length + n ≤ 8 * len) :
    ∃ e', nrRlcPduEncoderPutBits e value n = some e' ∧ e'.Wrote len (bits ++ natBits n value) := by
  induction n generalizing e bits with
  | zero => exact ⟨e, rfl, by simpa using h⟩
  | succ n ih =>
    obtain ⟨e₁, he₁, h₁⟩ := putBit_wrote h (by omega) (value.testBit n)
    obtain ⟨e₂, he₂, h₂⟩ := ih h₁ (by simp only [length_append, length_singleton]; omega)
    refine ⟨e₂, ?_, ?_⟩
    · rw [nrRlcPduEncoderPutBits, he₁]
      exact he₂
    · rw [natBits_succ_cons]
      simpa using h₂

/-- After whole bytes, the written part of the buffer spells the written bits. -/
theorem NrRlcPduEncoder.Wrote.bitsOf_take (h : e.Wrote len bits) (hn : bits.length = 8 * n) :
    e.byte = n ∧ bitsOf (e.buffer.take n) = bits := by
  have hpos := h.pos_eq
  have hbit := h.bit_lt
  have hb : e.bit = 0 := by omega
  have hbyte : e.byte = n := by omega
  have hbits := h.bits_eq
  rw [hb, natBits_zero, append_nil, hbyte] at hbits
  exact ⟨hbyte, hbits⟩

/-! ### Patching what is written -/

theorem natBits_or_bit (x : UInt8) (hbit : bit < 8) :
    natBits 8 (x ||| (1 <<< UInt8.ofNat bit)).toNat = (natBits 8 x.toNat).set (7 - bit) true := by
  have hpow : (1 <<< UInt8.ofNat bit : UInt8).toNat = 2 ^ bit := by
    have key : ∀ k : Fin 8, (1 <<< UInt8.ofNat k.1 : UInt8).toNat = 2 ^ k.1 := by decide
    exact key ⟨bit, hbit⟩
  refine ext_getElem? fun i ↦ ?_
  rcases Nat.lt_or_ge i 8 with hi | hi
  · rw [getElem?_natBits _ hi, getElem?_set, getElem?_natBits _ hi, UInt8.toNat_or, hpow,
      Nat.testBit_or, Nat.testBit_two_pow]
    by_cases heq : bit = 7 - i
    · simp [heq, hi, show 7 - (7 - i) = i by omega]
    · simp [heq, show ¬ 7 - bit = i by omega]
  · rw [getElem?_eq_none (by simpa using hi), getElem?_eq_none (by simpa using hi)]

theorem take_modify {α : Type*} (f : α → α) {l : List α} :
    (l.modify i f).take n = (l.take n).modify i f := by
  induction l generalizing i n with
  | nil => simp
  | cons x l ih =>
    rcases n with - | n
    · simp
    · rcases i with - | i
      · simp
      · simp [ih]

/-- A byte that is complete can be patched. -/
theorem NrRlcPduEncoder.Wrote.modify
    (h : e.Wrote len bits) (hn : bits.length = 8 * n) (ha : a < n) (f : UInt8 → UInt8) :
    ∃ x : UInt8, natBits 8 x.toNat = (bits.drop (8 * a)).take 8 ∧
      ({ e with buffer := e.buffer.modify a f } : NrRlcPduEncoder).Wrote len
        (bits.take (8 * a) ++ natBits 8 (f x).toNat ++ bits.drop (8 * (a + 1))) := by
  obtain ⟨hbyte, hbits⟩ := h.bitsOf_take hn
  have hle := h.le
  have hlen := h.length_eq
  have hpos := h.pos_eq
  have hbit : e.bit = 0 := by
    omega
  have hlt : a < (e.buffer.take n).length := by
    rw [length_take]
    omega
  have hmod : (e.buffer.take n).modify a f = (e.buffer.take n).set a (f (e.buffer.take n)[a]) := by
    rw [modify_eq_set_getElem?, getElem?_eq_getElem hlt]
    rfl
  refine ⟨(e.buffer.take n)[a], ?_, ?_, ?_, h.bit_lt, ?_, ?_⟩
  · rw [natBits_getElem _ hlt, hbits]
  · rw [length_modify]
    exact hlen
  · simp only [length_append, length_take, length_drop, length_natBits]
    omega
  · simp only [length_append, length_take, length_drop, length_natBits]
    omega
  · show bitsOf ((e.buffer.modify a f).take e.byte) ++ natBits e.bit _ = _
    rw [hbit, natBits_zero, append_nil, hbyte, take_modify, hmod, bitsOf_set _ hlt, hbits]

/-- A byte that is complete can be replaced. -/
theorem NrRlcPduEncoder.Wrote.set (h : e.Wrote len (front ++ (natBits 8 v ++ rest)))
    (hn : (front ++ (natBits 8 v ++ rest)).length = 8 * n) (ha : front.length = 8 * a)
    (x : UInt8) : ({ e with buffer := e.buffer.set a x } : NrRlcPduEncoder).Wrote len
      (front ++ (natBits 8 x.toNat ++ rest)) := by
  have hlt : a < n := by
    simp only [length_append, length_natBits] at hn
    omega
  obtain ⟨-, -, hw⟩ := h.modify hn hlt fun _ ↦ x
  have hdrop : (front ++ (natBits 8 v ++ rest)).drop (8 * (a + 1)) = rest := by
    rw [← append_assoc, drop_left' (by simp only [length_append, length_natBits]; omega)]
  rw [take_left' ha, hdrop, append_assoc] at hw
  rwa [set_eq_modify]

theorem set_take_drop (l : List α) (hj : j < n) (hle : i + n ≤ l.length)
    (x : α) : l.take i ++ ((l.drop i).take n).set j x ++ l.drop (i + n) = l.set (i + j) x := by
  have hsplit : l.take i ++ ((l.drop i).take n ++ l.drop (i + n)) = l := by
    rw [← drop_drop, take_append_drop, take_append_drop]
  have hlen : (l.take i).length = i := by rw [length_take]; omega
  have hlen' : ((l.drop i).take n).length = n := by
    rw [length_take, length_drop]
    omega
  conv_rhs => rw [← hsplit]
  rw [set_append_right _ _ (by omega), hlen, Nat.add_sub_cancel_left,
    set_append_left _ _ (by omega), append_assoc]

/-! ### Lists of fields -/

/-- A field that the source can put: more than 31 bits are fatal. -/
structure BitField where
  (value width : ℕ)
  width_mem : 1 ≤ width ∧ width ≤ 31
  value_lt : value < 2 ^ width

def putFields (e : NrRlcPduEncoder) (fields : List BitField) : Option NrRlcPduEncoder :=
  fields.foldlM (fun e f ↦ nrRlcPduEncoderPutBits e f.value f.width) e

def getFields : NrRlcPduDecoder → List ℕ → Option (List ℕ × NrRlcPduDecoder)
  | d, [] => some ([], d)
  | d, width :: widths => do
    let (value, d) ← nrRlcPduDecoderGetBits d width
    let (values, d) ← getFields d widths
    some (value :: values, d)

/-- The bytes that no bit was written to. -/
def NrRlcPduEncoder.Keeps (e : NrRlcPduEncoder) (buffer : List UInt8) : Prop :=
  ∀ i, 8 * e.byte + e.bit ≤ 8 * i → e.buffer[i]? = buffer[i]?

variable {e' : NrRlcPduEncoder} {buffer : List UInt8} {fields : List BitField}

theorem putBit_keeps (h : e.Keeps buffer) (hput : putBit e b = some e') : e'.Keeps buffer := by
  intro i hi
  rw [putBit] at hput
  split at hput
  · cases hput
  · dsimp only at hput
    split at hput <;> obtain rfl := Option.some.inj hput <;> dsimp only at hi <;>
      exact (getElem?_modify_ne _ _ (by omega)).trans (h i (by omega))

theorem putBits_keeps (h : e.Keeps buffer) (hput : nrRlcPduEncoderPutBits e v n = some e') :
    e'.Keeps buffer := by
  induction n generalizing e with
  | zero =>
    cases hput
    exact h
  | succ n ih =>
    rw [nrRlcPduEncoderPutBits] at hput
    split at hput
    · cases hput
    · rename_i e₁ he₁
      exact ih (putBit_keeps h he₁) hput

theorem putFields_wrote (h : e.Wrote len bits) (hkeeps : e.Keeps buffer)
    (hroom : bits.length + (fields.map BitField.width).sum ≤ 8 * len) :
    ∃ e', putFields e fields = some e' ∧ e'.Keeps buffer ∧
      e'.Wrote len (bits ++ fields.flatMap fun f ↦ natBits f.width f.value) := by
  induction fields generalizing e bits with
  | nil => exact ⟨e, rfl, hkeeps, by simpa using h⟩
  | cons f fields ih =>
    rw [map_cons, sum_cons] at hroom
    obtain ⟨e₁, he₁, h₁⟩ := putBits_wrote h f.value f.width (by omega)
    obtain ⟨e₂, he₂, hkeeps₂, h₂⟩ := ih h₁ (putBits_keeps hkeeps he₁)
      (by rw [length_append, length_natBits]; omega)
    refine ⟨e₂, ?_, hkeeps₂, by simpa using h₂⟩
    rw [putFields, foldlM_cons, he₁]
    exact he₂

theorem getFields_of_drop_eq
    (h : (bitsOf buf).drop k = fields.flatMap (fun f ↦ natBits f.width f.value) ++ rest) :
    getFields (decoderAt buf k) (fields.map BitField.width) =
      some (fields.map BitField.value, decoderAt buf (k + (fields.map BitField.width).sum)) := by
  induction fields generalizing k with
  | nil => rfl
  | cons f fields ih =>
    rw [flatMap_cons, append_assoc] at h
    obtain ⟨hget, hrest⟩ := getBits_of_drop_eq h
    rw [Nat.mod_eq_of_lt f.value_lt] at hget
    simp [getFields, hget, ih hrest, Nat.add_assoc]

/-- **Fields of whole bytes are read back** as they were put, whatever the buffer held. -/
theorem getFields_putFields (fields : List BitField) (buffer : List UInt8)
    (hbytes : 8 ∣ (fields.map BitField.width).sum)
    (hroom : (fields.map BitField.width).sum ≤ 8 * buffer.length) :
    ∃ e, putFields (nrRlcPduEncoderInit buffer) fields = some e ∧
      getFields (nrRlcPduDecoderInit e.buffer) (fields.map BitField.width) =
        some (fields.map BitField.value, ⟨e.byte, 0, e.buffer⟩) ∧
      e.buffer.length = buffer.length ∧ e.buffer.drop e.byte = buffer.drop e.byte := by
  obtain ⟨n, hn⟩ := hbytes
  obtain ⟨e, he, hkeeps, hwrote⟩ := putFields_wrote (wrote_init buffer) (fun _ _ ↦ rfl) (by simpa)
  have hlen : (fields.flatMap fun f ↦ natBits f.width f.value).length = 8 * n := by
    rw [← hn, length_flatMap]
    simp
  obtain ⟨hbyte, hbits⟩ := hwrote.bitsOf_take hlen
  refine ⟨e, he, ?_, hwrote.length_eq, ?_⟩
  · have hdrop : (bitsOf e.buffer).drop 0 =
        fields.flatMap (fun f ↦ natBits f.width f.value) ++ bitsOf (e.buffer.drop n) := by
      rw [drop_zero, ← nil_append (fields.flatMap _), ← hbits, ← bitsOf_append, take_append_drop]
    rw [nrRlcPduDecoderInit_eq, getFields_of_drop_eq hdrop, Nat.zero_add, hn, decoderAt]
    simp [hbyte]
  · refine ext_getElem? fun i ↦ ?_
    rw [getElem?_drop, getElem?_drop]
    have hpos := hwrote.pos_eq
    rw [nil_append, hlen] at hpos
    exact hkeeps _ (by omega)

/-- Fields of 3 and 5 bits in a buffer of two bytes. -/
theorem twoFields_read_back :
    ∃ e, putFields (nrRlcPduEncoderInit [255, 7]) [⟨5, 3, by decide, by decide⟩,
        ⟨17, 5, by decide, by decide⟩] = some e ∧
      getFields (nrRlcPduDecoderInit e.buffer) [3, 5] = some ([5, 17], ⟨e.byte, 0, e.buffer⟩) ∧
      e.buffer.length = 2 ∧ e.buffer.drop e.byte = [255, 7].drop e.byte :=
  getFields_putFields _ _ (by decide) (by decide)

end OaiRan.Rlc
