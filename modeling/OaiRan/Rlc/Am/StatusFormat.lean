import OaiRan.Rlc.Am.Control
import OaiRan.Rlc.Am.Status

/-!
# STATUS PDUs on the wire

`generate_status` writes the report while it goes through the receive list, and patches it three
times: the E1 bit of the block before a new NACK, the last SO end of a report that is cut short, and
ACK_SN. Here the report is first a list of pieces (`reportPlan`), each one the NACK for at most 255
SNs. The PDU is then **the format of 38.322 for these pieces** (`bitsOf_statusPdu`), from which
`process_control_pdu` reads them back (`decodeControl_of_bits`).

`status_size` goes through the list on its own, with `nack_count` in the place of `check_head`. It
adds up the same pieces (`length_statusPdu`).
-/

namespace OaiRan.Rlc.Am

open BitString List Option

variable {c : AmConfig}

variable {ackSn n : ℕ} {maxSo used : ℤ} {cur : NrRlcPdu}

/-! ### The format -/

/-- A NACK on the wire: SO start and SO end, and the NACK range, are optional. -/
structure WireNack where
  nackSn : ℕ
  soRange : Option (ℕ × ℕ)
  nackRange : Option ℕ
  deriving DecidableEq, Repr

namespace WireNack

/-- The reserved bits of a NACK. -/
def rBits (c : AmConfig) : ℕ := if c.snFieldLength = 18 then 3 else 1

/-- The bits of the two optional parts. -/
def soBits (w : WireNack) : List Bool :=
  match w.soRange with
  | none => []
  | some (soStart, soEnd) => natBits 16 soStart ++ natBits 16 soEnd

def rangeBits (w : WireNack) : List Bool :=
  match w.nackRange with
  | none => []
  | some range => natBits 8 range

/-- The bits after E1. -/
def tailBits (c : AmConfig) (w : WireNack) : List Bool :=
  natBits 1 w.soRange.isSome.toNat ++ (natBits 1 w.nackRange.isSome.toNat ++
    (natBits (rBits c) 0 ++ (w.soBits ++ w.rangeBits)))

/-- The fields as they are read; without SO start and SO end the NACK is for the whole SDU. -/
def soStart (w : WireNack) : ℕ := (w.soRange.map fun r ↦ r.1 % 2 ^ 16).getD 0

def soEnd (w : WireNack) : ℕ := (w.soRange.map fun r ↦ r.2 % 2 ^ 16).getD 0xffff

def range (w : WireNack) : ℕ := (w.nackRange.map fun r ↦ r % 2 ^ 8).getD 1

/-- What `process_control_pdu` makes of the NACK. -/
def nack (c : AmConfig) (w : WireNack) : Nack where
  nackSn := (w.nackSn % 2 ^ c.snFieldLength : ℕ)
  soStart := w.soStart
  soEnd := if w.soEnd = 0xffff then -1 else w.soEnd
  range := w.range

/-- The bytes of the NACK. -/
def size (c : AmConfig) (w : WireNack) : ℕ :=
  2 + (if c.snFieldLength = 18 then 1 else 0) + (if w.soRange.isSome then 4 else 0) +
    (if w.nackRange.isSome then 1 else 0)

/-- The same NACK up to the end of the SDU. -/
def forced (w : WireNack) : WireNack := { w with soRange := w.soRange.map fun r ↦ (r.1, 0xffff) }

end WireNack

/-- The header, or a NACK. -/
inductive StatusBlock
  | head (ackSn : ℕ)
  | nack (w : WireNack)

namespace StatusBlock

/-- The bits before E1, and those after it. -/
def front (c : AmConfig) : StatusBlock → List Bool
  | head ackSn => natBits 4 0 ++ natBits c.snFieldLength ackSn
  | nack w => natBits c.snFieldLength w.nackSn

def tail (c : AmConfig) : StatusBlock → List Bool
  | head _ => natBits (if c.snFieldLength = 18 then 1 else 7) 0
  | nack w => w.tailBits c

def bits (c : AmConfig) (b : StatusBlock) (e1 : Bool) : List Bool :=
  b.front c ++ e1 :: b.tail c

def size (c : AmConfig) : StatusBlock → ℕ
  | head _ => 3
  | nack w => w.size c

theorem length_bits (hc : c.Sane) (b : StatusBlock) (e1 : Bool) :
    (b.bits c e1).length = 8 * b.size c := by
  rcases b with a | ⟨sn, - | ⟨so, se⟩, - | r⟩ <;> rcases hc.snFieldLength_eq with h | h <;>
    simp [bits, front, tail, size, WireNack.tailBits, WireNack.soBits, WireNack.rangeBits,
      WireNack.rBits, WireNack.size, h]

/-- **Setting the E1 bit.** -/
theorem bits_true (b : StatusBlock) :
    b.bits c true = (b.bits c false).set (b.front c).length true := by
  rw [bits, bits, set_append_right _ _ le_rfl, Nat.sub_self, set_cons_zero]

/-- Where the SO end of a NACK is. -/
def soEndOffset (c : AmConfig) : StatusBlock → Option ℕ
  | head _ => none
  | nack w => w.soRange.map fun _ ↦ c.snFieldLength + (3 + (WireNack.rBits c + 16))

def forced : StatusBlock → StatusBlock
  | head a => head a
  | nack w => nack w.forced

end StatusBlock

/-- The NACKs, each with the E1 bit that says if another one follows. -/
def nacksBits (c : AmConfig) : List WireNack → List Bool
  | [] => []
  | w :: ws => (StatusBlock.nack w).bits c (!ws.isEmpty) ++ nacksBits c ws

/-- A block and the NACKs after it. -/
def blockBits (c : AmConfig) (b : StatusBlock) (ws : List WireNack) : List Bool :=
  b.bits c (!ws.isEmpty) ++ nacksBits c ws

/-- The last block, and the bits before it. -/
def lastBlock (b : StatusBlock) (ws : List WireNack) : StatusBlock :=
  (ws.getLast?.map StatusBlock.nack).getD b

def frontBits (c : AmConfig) : StatusBlock → List WireNack → List Bool
  | _, [] => []
  | b, w :: ws => b.bits c true ++ frontBits c (.nack w) ws

theorem lastBlock_cons (b : StatusBlock) (w : WireNack) (ws : List WireNack) :
    lastBlock b (w :: ws) = lastBlock (.nack w) ws := by
  rcases ws with - | ⟨w', ws⟩
  · rfl
  · obtain ⟨x, hx⟩ : ∃ x, (w' :: ws).getLast? = some x :=
      ⟨_, getLast?_eq_some_getLast (cons_ne_nil _ _)⟩
    simp [lastBlock, getLast?_cons_cons, hx]

section

variable (b : StatusBlock) (ws : List WireNack)
include b ws

theorem blockBits_eq : blockBits c b ws = frontBits c b ws ++ (lastBlock b ws).bits c false := by
  induction ws generalizing b with
  | nil => simp [blockBits, nacksBits, frontBits, lastBlock]
  | cons w ws ih =>
    rw [lastBlock_cons, frontBits, append_assoc, ← ih]
    rfl

theorem lastBlock_append (w : WireNack) : lastBlock b (ws ++ [w]) = .nack w := by
  simp [lastBlock]

theorem frontBits_append (w : WireNack) :
    frontBits c b (ws ++ [w]) = frontBits c b ws ++ (lastBlock b ws).bits c true := by
  induction ws generalizing b with
  | nil => simp [frontBits, lastBlock]
  | cons w' ws ih =>
    rw [cons_append, frontBits, ih, frontBits, lastBlock_cons, append_assoc]

end

/-- The bytes of the NACKs. -/
def nacksSize (c : AmConfig) (ws : List WireNack) : ℕ := (ws.map (WireNack.size c)).sum

theorem length_nacksBits (hc : c.Sane) (ws : List WireNack) :
    (nacksBits c ws).length = 8 * nacksSize c ws := by
  induction ws with
  | nil => rfl
  | cons w ws ih =>
    rw [nacksBits, length_append, StatusBlock.length_bits hc, ih]
    simp [nacksSize, StatusBlock.size, Nat.mul_add]

theorem length_blockBits (hc : c.Sane) (b : StatusBlock) (ws : List WireNack) :
    (blockBits c b ws).length = 8 * (b.size c + nacksSize c ws) := by
  rw [blockBits, length_append, StatusBlock.length_bits hc, length_nacksBits hc, Nat.mul_add]

/-! ### Reading -/

variable {buf : List UInt8} {k fuel len : ℕ} {w : WireNack} {rest bits : List Bool} {e1 b : Bool}
  {ws : List WireNack} {e : NrRlcPduEncoder} {g : StatusEncoder} {m : MissingData} {ps : List Piece}
  {s : AmRx} {size : ℤ}

theorem decodeSoRange_of_drop_eq (h : (bitsOf buf).drop k = w.soBits ++ rest) :
    ∃ k', decodeSoRange (w.soRange.isSome.toNat % 2 ^ 1) (decoderAt buf k) =
        some (w.soStart, w.soEnd, decoderAt buf k') ∧
      (bitsOf buf).drop k' = rest := by
  rcases w with ⟨sn, - | ⟨soStart, soEnd⟩, r⟩
  · exact ⟨k, rfl, h⟩
  · simp only [WireNack.soBits, append_assoc] at h
    obtain ⟨h₁, hd₁⟩ := getBits_of_drop_eq h
    obtain ⟨h₂, hd₂⟩ := getBits_of_drop_eq hd₁
    exact ⟨_, by simp [decodeSoRange, h₁, h₂, WireNack.soStart, WireNack.soEnd], hd₂⟩

theorem decodeNackRange_of_drop_eq (h : (bitsOf buf).drop k = w.rangeBits ++ rest) :
    ∃ k', decodeNackRange (w.nackRange.isSome.toNat % 2 ^ 1) (decoderAt buf k) =
        some (w.range, decoderAt buf k') ∧
      (bitsOf buf).drop k' = rest := by
  rcases w with ⟨sn, so, - | r⟩
  · exact ⟨k, rfl, h⟩
  · obtain ⟨h₁, hd₁⟩ := getBits_of_drop_eq h
    exact ⟨_, by simp [decodeNackRange, h₁, WireNack.range], hd₁⟩

theorem decodeNack_of_drop_eq (h : (bitsOf buf).drop k = (StatusBlock.nack w).bits c e1 ++ rest) :
    ∃ k', decodeNack c (decoderAt buf k) = some (w.nack c, e1.toNat, decoderAt buf k') ∧
      (bitsOf buf).drop k' = rest := by
  have hall : (bitsOf buf).drop k = natBits c.snFieldLength w.nackSn ++ (natBits 1 e1.toNat ++
      (natBits 1 w.soRange.isSome.toNat ++ (natBits 1 w.nackRange.isSome.toNat ++
        (natBits (WireNack.rBits c) 0 ++ (w.soBits ++ (w.rangeBits ++ rest)))))) := by
    rw [h]
    cases e1 <;>
      simp [StatusBlock.bits, StatusBlock.front, StatusBlock.tail, WireNack.tailBits, natBits_succ]
  obtain ⟨hsn, h₁⟩ := getBits_of_drop_eq hall
  obtain ⟨he1, h₂⟩ := getBits_of_drop_eq h₁
  obtain ⟨he2, h₃⟩ := getBits_of_drop_eq h₂
  obtain ⟨he3, h₄⟩ := getBits_of_drop_eq h₃
  obtain ⟨hr, h₅⟩ := getBits_of_drop_eq h₄
  obtain ⟨k₆, hso, h₆⟩ := decodeSoRange_of_drop_eq h₅
  obtain ⟨k₇, hrange, h₇⟩ := decodeNackRange_of_drop_eq h₆
  refine ⟨k₇, ?_, h₇⟩
  have he1' : e1.toNat % 2 ^ 1 = e1.toNat := by cases e1 <;> rfl
  rw [WireNack.rBits] at hr
  rw [he1'] at he1
  simp only [decodeNack, hsn, he1, he2, he3, hr, bind_eq_bind, bind_some]
  rw [← WireNack.rBits, hso, bind_some, hrange]
  rfl

/-- **The NACKs are read back.** -/
theorem decodeNacks_of_drop_eq
    (hfuel : ws.length ≤ fuel) (h : (bitsOf buf).drop k = nacksBits c ws) :
    decodeNacks c fuel (!ws.isEmpty).toNat (decoderAt buf k) = some (ws.map (WireNack.nack c)) := by
  induction ws generalizing k fuel with
  | nil => rcases fuel with - | fuel <;> rfl
  | cons w ws ih =>
    obtain ⟨fuel, rfl⟩ : ∃ n, fuel = n + 1 := ⟨fuel - 1, by rw [length_cons] at hfuel; omega⟩
    obtain ⟨k', hw, h'⟩ := decodeNack_of_drop_eq h
    show decodeNacks c (fuel + 1) (0 + 1) (decoderAt buf k) = _
    rw [decodeNacks]
    simp only [hw, bind_eq_bind, bind_some]
    rw [ih (by simpa using hfuel) h']
    rfl

theorem length_le_nacksSize (ws : List WireNack) : 2 * ws.length ≤ nacksSize c ws := by
  induction ws with
  | nil => rfl
  | cons w ws ih =>
    rw [nacksSize, map_cons, sum_cons, length_cons]
    have : 2 ≤ w.size c := by
      rw [WireNack.size]
      omega
    have : nacksSize c ws = (ws.map (WireNack.size c)).sum := rfl
    omega

/-- **`process_control_pdu` reads the format.** -/
theorem decodeControl_of_bits (hc : c.Sane) (hack : ackSn < 2 ^ c.snFieldLength)
    (h : bitsOf buf = blockBits c (.head ackSn) ws) :
    decodeControl c buf = some ((ackSn : ℤ), ws.map (WireNack.nack c)) := by
  have hall : (bitsOf buf).drop 0 = natBits 1 0 ++ (natBits 3 0 ++ (natBits c.snFieldLength ackSn ++
      (natBits 1 (!ws.isEmpty).toNat ++ (natBits (if c.snFieldLength = 18 then 1 else 7) 0 ++
        nacksBits c ws)))) := by
    rw [drop_zero, h, blockBits]
    cases ws.isEmpty <;> simp [StatusBlock.bits, StatusBlock.front, StatusBlock.tail, natBits_succ]
  have hlen := congrArg length h
  rw [length_bitsOf, length_blockBits hc] at hlen
  have hfuel : ws.length ≤ buf.length := by
    have := length_le_nacksSize (c := c) ws
    omega
  obtain ⟨hdc, h₁⟩ := getBits_of_drop_eq hall
  obtain ⟨hcpt, h₂⟩ := getBits_of_drop_eq h₁
  obtain ⟨hsn, h₃⟩ := getBits_of_drop_eq h₂
  obtain ⟨he1, h₄⟩ := getBits_of_drop_eq h₃
  obtain ⟨hr, h₅⟩ := getBits_of_drop_eq h₄
  rw [Nat.mod_eq_of_lt hack] at hsn
  have he1' : (!ws.isEmpty).toNat % 2 ^ 1 = (!ws.isEmpty).toNat := by cases ws.isEmpty <;> rfl
  rw [he1'] at he1
  simp only [decodeControl, decodeAck, nrRlcPduDecoderInit_eq, hdc, hcpt, hsn, he1, hr,
    bind_eq_bind, bind_some]
  rw [if_pos (show 0 % 2 ^ 3 = 0 from rfl), bind_some, decodeNacks_of_drop_eq hfuel h₅]
  rfl

/-! ### Writing -/

theorem setBit_wrote {n byte bit : ℕ} (h : e.Wrote len bits) (hn : bits.length = 8 * n)
    (hbyte : byte < n) (hbit : bit < 8) :
    (NrRlcPduEncoder.setBit e byte bit).Wrote len (bits.set (8 * byte + (7 - bit)) true) := by
  obtain ⟨x, hx, hw⟩ := h.modify hn hbyte fun x ↦ x ||| (1 <<< UInt8.ofNat bit)
  rw [natBits_or_bit x hbit, hx, Nat.mul_succ, set_take_drop bits (by omega) (by omega)] at hw
  exact hw

/-- The encoder has written the header and the NACKs `ws`. -/
structure Written (c : AmConfig) (len : ℕ) (ws : List WireNack) (g : StatusEncoder) : Prop where
  wrote : g.encoder.Wrote len (blockBits c (.head 0) ws)
  e1_lt : g.e1Bit < 8
  e1_eq : 8 * g.e1Byte + (7 - g.e1Bit) =
    (frontBits c (.head 0) ws).length + ((lastBlock (.head 0) ws).front c).length
  soEnd_eq : g.soEndAddress.map (8 * ·) = ((lastBlock (.head 0) ws).soEndOffset c).map
    ((frontBits c (.head 0) ws).length + ·)

theorem Written.byte_eq (hc : c.Sane) (h : Written c len ws g) :
    g.encoder.byte = 3 + nacksSize c ws :=
  (h.wrote.bitsOf_take (length_blockBits hc _ ws)).1

/-- The block before a new NACK has its E1 bit set. -/
theorem Written.setE1 (hc : c.Sane) (h : Written c len ws g) :
    (NrRlcPduEncoder.setBit g.encoder g.e1Byte g.e1Bit).Wrote len
      (frontBits c (.head 0) ws ++ (lastBlock (.head 0) ws).bits c true) := by
  have hlen : (blockBits c (.head 0) ws).length = 8 * (3 + nacksSize c ws) :=
    length_blockBits hc _ ws
  have heq := h.e1_eq
  have hsplit := congrArg length (blockBits_eq (c := c) (.head 0) ws)
  rw [length_append, StatusBlock.bits, length_append, length_cons] at hsplit
  have hbyte : g.e1Byte < 3 + nacksSize c ws := by omega
  have hset := setBit_wrote h.wrote hlen hbyte h.e1_lt
  rw [heq, blockBits_eq, set_append_right _ _ (Nat.le_add_right _ _), Nat.add_sub_cancel_left,
    ← StatusBlock.bits_true] at hset
  exact hset

/-- The NACK for the `snCount` SNs of `m`. -/
def wireNack (m : MissingData) (snCount : ℤ) : WireNack where
  nackSn := m.snStart.toNat
  soRange := if m.whole then none else some (m.soStart.toNat, m.soEnd.toNat)
  nackRange := if m.snStart = m.snEnd then none else some snCount.toNat

theorem size_wireNack (m : MissingData) (snCount : ℤ) :
    ((wireNack m snCount).size c : ℤ) = nackSize c m := by
  rw [nackSize, WireNack.size, wireNack]
  rcases m.whole with - | - <;> by_cases hsn : m.snStart = m.snEnd <;>
    by_cases h18 : c.snFieldLength = 18 <;> simp [hsn, h18]

theorem soBits_wireNack (m : MissingData) (snCount : ℤ) : (wireNack m snCount).soBits =
    if m.whole then [] else natBits 16 m.soStart.toNat ++ natBits 16 m.soEnd.toNat := by
  rw [WireNack.soBits, wireNack]
  cases m.whole <;> rfl

theorem rangeBits_wireNack (m : MissingData) (snCount : ℤ) : (wireNack m snCount).rangeBits =
    if m.snStart = m.snEnd then [] else natBits 8 snCount.toNat := by
  by_cases hsn : m.snStart = m.snEnd <;> simp [WireNack.rangeBits, wireNack, hsn]

/-- SO start and SO end are written. -/
theorem putSoRange_wrote (he : e.Wrote len bits)
    (m : MissingData) (snCount : ℤ) (hn : bits.length = 8 * n)
    (hroom : bits.length + (wireNack m snCount).soBits.length ≤ 8 * len) :
    ∃ e' a, putSoRange e m = some (e', a) ∧
      e'.Wrote len (bits ++ (wireNack m snCount).soBits) ∧
      a.map (8 * ·) = (wireNack m snCount).soRange.map fun _ ↦ bits.length + 16 := by
  rw [soBits_wireNack] at hroom ⊢
  rw [putSoRange]
  simp only [wireNack]
  rcases hwhole : m.whole with - | -
  · simp only [hwhole, Bool.false_eq_true, if_false, length_append, length_natBits] at hroom ⊢
    obtain ⟨e₁, he₁, h₁⟩ := putBits_wrote he m.soStart.toNat 16 (by omega)
    obtain ⟨e₂, he₂, h₂⟩ := putBits_wrote h₁ m.soEnd.toNat 16
      (by simp only [length_append, length_natBits]; omega)
    obtain ⟨hbyte, -⟩ := h₁.bitsOf_take (n := n + 2)
      (by simp only [length_append, length_natBits]; omega)
    refine ⟨e₂, some (n + 2), ?_, by simpa using h₂, ?_⟩
    · simp only [he₁, he₂, hbyte, bind_eq_bind, bind_some]
    · simp only [map_some, some.injEq]
      omega
  · exact ⟨e, none, rfl, by simpa using he, rfl⟩

theorem putNackRange_wrote (he : e.Wrote len bits) (m : MissingData) (snCount : ℤ)
    (hroom : bits.length + (wireNack m snCount).rangeBits.length ≤ 8 * len) :
    ∃ e', putNackRange e m snCount = some e' ∧
      e'.Wrote len (bits ++ (wireNack m snCount).rangeBits) := by
  rw [rangeBits_wireNack] at hroom ⊢
  rw [putNackRange]
  split
  · exact ⟨e, rfl, by simpa using he⟩
  · rename_i hsn
    rw [if_neg hsn, length_natBits] at hroom
    exact putBits_wrote he snCount.toNat 8 hroom

theorem length_getE1Position (hc : c.Sane) :
    (getE1Position c e).2 < 8 ∧ 8 * (getE1Position c e).1 + (7 - (getE1Position c e).2) =
      8 * e.byte + c.snFieldLength := by
  rw [getE1Position]
  rcases hc.snFieldLength_eq with h | h
  · rw [if_neg (by omega), h]
    omega
  · rw [if_pos h, h]
    omega

/-- **A NACK is appended.** -/
theorem Written.putNack (hc : c.Sane) (h : Written c len ws g) (m : MissingData) (snCount : ℤ)
    (hroom : 3 + nacksSize c ws + (wireNack m snCount).size c ≤ len) :
    ∃ g', putNack c g m snCount = some g' ∧ Written c len (ws ++ [wireNack m snCount]) g' := by
  set w := wireNack m snCount with hw
  have h₀ := h.setE1 hc
  rw [← frontBits_append (.head 0) ws w] at h₀
  set e₀ := NrRlcPduEncoder.setBit g.encoder g.e1Byte g.e1Bit with he₀
  have hfront : (frontBits c (.head 0) (ws ++ [w])).length = 8 * (3 + nacksSize c ws) := by
    rw [frontBits_append, List.length_append, StatusBlock.length_bits hc,
      ← StatusBlock.length_bits hc _ false, ← List.length_append, ← blockBits_eq,
      length_blockBits hc]
    rfl
  obtain ⟨hbyte, -⟩ := h₀.bitsOf_take hfront
  have hsize := StatusBlock.length_bits hc (.nack w) false
  have htail : c.snFieldLength + 1 + (1 + (1 + (WireNack.rBits c +
      (w.soBits.length + w.rangeBits.length)))) = 8 * w.size c := by
    simp only [StatusBlock.bits, StatusBlock.front, StatusBlock.tail, WireNack.tailBits,
      List.length_append, List.length_cons, length_natBits, StatusBlock.size] at hsize
    omega
  obtain ⟨e₁, he₁, h₁⟩ := putBits_wrote h₀ m.snStart.toNat c.snFieldLength (by omega)
  obtain ⟨e₂, he₂, h₂⟩ := putBits_wrote h₁ 0 1
    (by simp only [List.length_append, length_natBits]; omega)
  obtain ⟨e₃, he₃, h₃⟩ := putBits_wrote h₂ (!m.whole).toNat 1
    (by simp only [List.length_append, length_natBits]; omega)
  obtain ⟨e₄, he₄, h₄⟩ := putBits_wrote h₃ (decide (m.snStart ≠ m.snEnd)).toNat 1
    (by simp only [List.length_append, length_natBits]; omega)
  obtain ⟨e₅, he₅, h₅⟩ := putBits_wrote h₄ 0 (WireNack.rBits c)
    (by simp only [List.length_append, length_natBits]; omega)
  have haligned : ∃ n, c.snFieldLength + (3 + WireNack.rBits c) = 8 * n := by
    rcases hc.snFieldLength_eq with h | h
    · exact ⟨2, by simp [h, WireNack.rBits]⟩
    · exact ⟨3, by simp [h, WireNack.rBits]⟩
  obtain ⟨n, hn⟩ := haligned
  obtain ⟨e₆, a, he₆, h₆, ha⟩ := putSoRange_wrote h₅ m snCount (n := 3 + nacksSize c ws + n)
    (by simp only [List.length_append, length_natBits]; omega)
    (by simp only [List.length_append, length_natBits, ← hw]; omega)
  obtain ⟨e₇, he₇, h₇⟩ := putNackRange_wrote h₆ m snCount
    (by simp only [List.length_append, length_natBits, ← hw]; omega)
  rw [← hw] at h₆ h₇ ha
  refine ⟨⟨e₇, (getE1Position c e₀).1, (getE1Position c e₀).2, a⟩, ?_, ?_, ?_, ?_, ?_⟩
  · rw [WireNack.rBits] at he₅
    simp only [Am.putNack, ← he₀, he₁, he₂, he₃, he₄, he₅, he₆, he₇, Option.bind_eq_bind,
      Option.bind_some]
  · have hsome : w.soRange.isSome = !m.whole := by
      rw [hw, wireNack]
      cases m.whole <;> rfl
    have hrange : w.nackRange.isSome = decide (m.snStart ≠ m.snEnd) := by
      by_cases hsn : m.snStart = m.snEnd <;> simp [hw, wireNack, hsn]
    rw [blockBits_eq, lastBlock_append, StatusBlock.bits, StatusBlock.front, StatusBlock.tail,
      WireNack.tailBits, hsome, hrange]
    have hsn : w.nackSn = m.snStart.toNat := rfl
    simpa [natBits_succ, hsn] using h₇
  · exact (length_getE1Position hc).1
  · rw [lastBlock_append, hfront, (length_getE1Position hc).2, hbyte, StatusBlock.front,
      length_natBits]
  · rw [ha, lastBlock_append, StatusBlock.soEndOffset, Option.map_map]
    congr 1
    funext r
    simp only [List.length_append, length_natBits, Function.comp_apply]
    omega

/-! ### The pieces of a report -/

/-- A NACK to write: for `count` SNs. -/
structure Piece where
  missing : MissingData
  count : ℤ

namespace Piece

def wire (p : Piece) : WireNack := wireNack p.missing p.count

/-- The last SN, not reduced. -/
def lastSn (p : Piece) : ℤ :=
  if p.missing.snStart = p.missing.snEnd then p.missing.snStart
  else p.missing.snStart + (p.count - 1)

end Piece

/-- The size of the pieces. -/
def piecesSize (c : AmConfig) (ps : List Piece) : ℤ := (ps.map fun p ↦ nackSize c p.missing).sum

/-- The pieces of `m` that fit into `size` bytes, `used` of which are taken, and whether there was
no more room. -/
def missingPlan (c : AmConfig) (m : MissingData) (size : ℤ) : ℕ → ℤ → ℤ → ℤ → List Piece × Bool
  | 0, _, _, _ => ([], false)
  | fuel + 1, snStart, snCount, used =>
    if snCount = 0 then ([], false)
    else
      let range := nackRange c m snStart snCount
      if used + nackSize c range > size then ([], true)
      else
        let count := min snCount 255
        let plan := missingPlan c m size fuel ((snStart + count) % c.snModulus) (snCount - count)
          (used + nackSize c range)
        (⟨range, count⟩ :: plan.1, plan.2)

/-- The pieces of a stretch of missing bytes. -/
def stretchPlan (c : AmConfig) (m : MissingData) (size used : ℤ) : List Piece × Bool :=
  missingPlan c m size (snCount c m).toNat m.snStart (snCount c m) used

/-- The pieces of a report that goes through the cells `l`. -/
def reportPlanLoop (c : AmConfig) (s : AmRx) (size : ℤ) :
    ℕ → List NrRlcPdu → Bool → ℤ → List Piece × Bool
  | 0, _, _, _ => ([], false)
  | _ + 1, [], _, _ => ([], false)
  | fuel + 1, cur :: rest, checkHead, used =>
    match nextMissing c s cur rest checkHead with
    | none => ([], false)
    | some (m, next) =>
      let plan := stretchPlan c m size used
      if plan.2 then plan
      else
        let plan' := reportPlanLoop c s size fuel next false (used + piecesSize c plan.1)
        (plan.1 ++ plan'.1, plan'.2)

def reportPlan (c : AmConfig) (s : AmRx) (size : ℤ) : List Piece × Bool :=
  reportPlanLoop c s size (s.rxList.length + 1) s.rxList true 3

theorem nacksSize_wire (ps : List Piece) :
    (nacksSize c (ps.map Piece.wire) : ℤ) = piecesSize c ps := by
  induction ps with
  | nil => rfl
  | cons p ps ih =>
    rw [nacksSize, piecesSize] at ih
    simp only [nacksSize, piecesSize, map_cons, sum_cons, Nat.cast_add, Piece.wire,
      size_wireNack, ih]

theorem nacksSize_append (ws ws' : List WireNack) :
    nacksSize c (ws ++ ws') = nacksSize c ws + nacksSize c ws' := by
  simp [nacksSize]

/-- **The NACKs of one stretch** are written as planned. -/
theorem generateMissingLoop_eq (hc : c.Sane) {a n : ℤ} {l : Option ℤ} (h : Written c len ws g) :
    ∃ g', generateMissingLoop c m fuel a n l g =
        some (g', ((missingPlan c m len fuel a n (3 + nacksSize c ws)).1.getLast?.map
            Piece.lastSn).or l, (missingPlan c m len fuel a n (3 + nacksSize c ws)).2) ∧
      Written c len
        (ws ++ (missingPlan c m len fuel a n (3 + nacksSize c ws)).1.map Piece.wire) g' := by
  induction fuel generalizing a n l ws g with
  | zero => exact ⟨g, by simp [generateMissingLoop, missingPlan], by simpa [missingPlan] using h⟩
  | succ fuel ih =>
    rw [generateMissingLoop, missingPlan, h.byte_eq hc, h.wrote.length_eq]
    push_cast
    split
    · exact ⟨g, by simp, by simpa using h⟩
    · split
      · exact ⟨g, by simp, by simpa using h⟩
      · set range := nackRange c m a n with hrange
        have hsize := size_wireNack (c := c) range (min n 255)
        obtain ⟨g₁, hput, h₁⟩ := h.putNack hc range (min n 255) (by omega)
        have hused : (3 : ℤ) + nacksSize c (ws ++ [wireNack range (min n 255)]) =
            3 + nacksSize c ws + nackSize c range := by
          rw [nacksSize_append, ← hsize]
          simp [nacksSize, add_assoc]
        obtain ⟨g₂, hgen, h₂⟩ := ih (a := (a + min n 255) % c.snModulus)
          (n := n - min n 255)
          (l := some (if range.snStart = range.snEnd then a else a + (min n 255 - 1))) h₁
        rw [hused] at hgen h₂
        refine ⟨g₂, ?_, by simpa [Piece.wire] using h₂⟩
        rw [hput]
        simp only [bind_eq_bind, bind_some, hgen, some.injEq, Prod.mk.injEq,
          true_and, and_true, getLast?_cons, map_some]
        generalize missingPlan c m len fuel _ _ _ = plan
        rcases plan.1.getLast? with - | p <;> rfl

/-- The last SO end is forced to the end of the SDU. -/
def forceLast (ws : List WireNack) : List WireNack :=
  ws.dropLast ++ (ws.getLast?.map WireNack.forced).toList

theorem blockBits_forceLast (b : StatusBlock) (ws : List WireNack) (hne : ws ≠ []) :
    blockBits c b (forceLast ws) =
      frontBits c b ws ++ ((lastBlock b ws).forced).bits c false := by
  obtain ⟨ws, w, rfl⟩ := eq_nil_or_concat ws |>.resolve_left hne
  rw [concat_eq_append, forceLast, dropLast_concat, getLast?_concat, map_some, toList_some,
    blockBits_eq, lastBlock_append, lastBlock_append, frontBits_append, frontBits_append]
  rfl

/-- The bits of a NACK before its SO end and after it. -/
theorem bits_of_soRange (hw : w.soRange = some (soStart, soEnd)) :
    ∃ front, front.length = c.snFieldLength + (3 + (WireNack.rBits c + 16)) ∧
      (StatusBlock.nack w).bits c false = front ++ (natBits 16 soEnd ++ w.rangeBits) ∧
      (StatusBlock.nack w.forced).bits c false = front ++ (natBits 16 0xffff ++ w.rangeBits) := by
  refine ⟨natBits c.snFieldLength w.nackSn ++ false :: (natBits 1 1 ++ (natBits 1
    w.nackRange.isSome.toNat ++ (natBits (WireNack.rBits c) 0 ++ natBits 16 soStart))), ?_, ?_, ?_⟩
  · simp only [length_append, length_cons, length_natBits]
    omega
  · simp [StatusBlock.bits, StatusBlock.front, StatusBlock.tail, WireNack.tailBits,
      WireNack.soBits, hw]
  · simp [StatusBlock.bits, StatusBlock.front, StatusBlock.tail, WireNack.tailBits,
      WireNack.soBits, WireNack.forced, WireNack.rangeBits, hw]

/-- **The last SO end is forced.** -/
theorem Written.forceSoEnd (hc : c.Sane) (h : Written c len ws g) :
    (forceSoEnd g).encoder.Wrote len (blockBits c (.head 0) (forceLast ws)) := by
  have hlen : (blockBits c (.head 0) ws).length = 8 * (3 + nacksSize c ws) :=
    length_blockBits hc _ ws
  have hwrote := h.wrote
  have hend := h.soEnd_eq
  rw [Am.forceSoEnd]
  by_cases hne : ws = []
  · subst hne
    have hnone : g.soEndAddress = none := by simpa [lastBlock, StatusBlock.soEndOffset] using hend
    rw [hnone]
    exact hwrote
  · obtain ⟨ws, w, rfl⟩ := (eq_nil_or_concat ws).resolve_left hne
    rw [concat_eq_append] at *
    rw [blockBits_forceLast _ _ hne, lastBlock_append, StatusBlock.forced]
    rw [lastBlock_append, StatusBlock.soEndOffset] at hend
    rw [blockBits_eq, lastBlock_append] at hwrote hlen
    rcases hso : w.soRange with - | ⟨soStart, soEnd⟩
    · have hnone : g.soEndAddress = none := by simpa [hso] using hend
      have hforced : w.forced = w := by
        rw [WireNack.forced, hso, map_none, ← hso]
      rw [hnone, hforced]
      exact hwrote
    · obtain ⟨front, hfront, hbits, hforced⟩ := bits_of_soRange (c := c) hso
      obtain ⟨a, ha, ha'⟩ : ∃ a, g.soEndAddress = some a ∧
          8 * a = (frontBits c (.head 0) (ws ++ [w])).length + front.length := by
        rw [hso, map_some, map_some, map_eq_some_iff] at hend
        obtain ⟨a, ha, ha'⟩ := hend
        exact ⟨a, ha, by rw [ha', hfront]⟩
      -- the field is two bytes, the high one first
      have hsplit : natBits 16 soEnd = natBits 8 (soEnd / 2 ^ 8) ++ natBits 8 soEnd :=
        natBits_add 8 8 soEnd
      rw [hbits, hsplit, append_assoc, ← append_assoc] at hwrote hlen
      have h₁ := hwrote.set hlen (a := a) (by rw [length_append, ha']) 0xff
      have hlen₁ : ((frontBits c (.head 0) (ws ++ [w]) ++ front) ++ (natBits 8 (0xff : UInt8).toNat ++
          (natBits 8 soEnd ++ w.rangeBits))).length = 8 * (3 + nacksSize c (ws ++ [w])) := by
        rw [← hlen]
        simp only [length_append, length_natBits]
      rw [← append_assoc] at h₁ hlen₁
      have h₂ := h₁.set hlen₁ (a := a + 1)
        (by simp only [length_append, length_natBits]; omega) 0xff
      rw [ha, hforced]
      show NrRlcPduEncoder.Wrote _ len _
      have hff : natBits 16 0xffff =
          natBits 8 (0xff : UInt8).toNat ++ natBits 8 (0xff : UInt8).toNat := by decide
      rw [hff]
      simpa [append_assoc] using h₂

/-! ### The whole report -/

/-- The NACKs of a report, with the last SO end forced if it was cut short. -/
def planWires (plan : List Piece × Bool) : List WireNack :=
  if plan.2 then forceLast (plan.1.map Piece.wire) else plan.1.map Piece.wire

theorem piecesSize_append (ps qs : List Piece) :
    piecesSize c (ps ++ qs) = piecesSize c ps + piecesSize c qs := by
  simp [piecesSize]

theorem generateMissing_eq (hc : c.Sane) (m : MissingData)
    (h : Written c len (ps.map Piece.wire) g) :
    ∃ g', generateMissing c m g =
        some (g', (stretchPlan c m len (3 + piecesSize c ps)).1.getLast?.map Piece.lastSn,
          (stretchPlan c m len (3 + piecesSize c ps)).2) ∧
      Written c len ((ps ++ (stretchPlan c m len (3 + piecesSize c ps)).1).map Piece.wire) g' := by
  obtain ⟨g', hgen, hg'⟩ : ∃ g', generateMissing c m g = some (g', _, _) ∧ _ :=
    generateMissingLoop_eq hc h
  rw [nacksSize_wire] at hgen hg'
  refine ⟨g', ?_, ?_⟩
  · rw [hgen, or_none]
    rfl
  · rw [map_append]
    exact hg'

/-- Nothing is left to report. -/
theorem Written.done (h : Written c len (ps.map Piece.wire) g) (n : ℤ) :
    ∃ g', some (g, n) = some (g', ((([] : List Piece)).getLast?.map Piece.lastSn).getD n) ∧
      g'.encoder.Wrote len (blockBits c (.head 0) (planWires (ps ++ [], false))) := by
  refine ⟨g, rfl, ?_⟩
  rw [append_nil]
  exact h.wrote

/-- **The walk over the receive list** writes the report as planned. -/
theorem generateStatusLoop_eq (hc : c.Sane) {l : List NrRlcPdu} {n : ℤ}
    (h : Written c len (ps.map Piece.wire) g) :
    ∃ g', generateStatusLoop c s fuel l b n g =
        some (g', ((reportPlanLoop c s len fuel l b (3 + piecesSize c ps)).1.getLast?.map
          Piece.lastSn).getD n) ∧
      g'.encoder.Wrote len (blockBits c (.head 0) (planWires
        (ps ++ (reportPlanLoop c s len fuel l b (3 + piecesSize c ps)).1,
          (reportPlanLoop c s len fuel l b (3 + piecesSize c ps)).2))) := by
  induction fuel generalizing l b n ps g with
  | zero => exact h.done n
  | succ fuel ih =>
    rcases l with - | ⟨cur, rest⟩
    · exact h.done n
    · rw [generateStatusLoop, reportPlanLoop]
      rcases hm : nextMissing c s cur rest b with - | ⟨m, next⟩
      · exact h.done n
      · obtain ⟨g₁, hgen, h₁⟩ := generateMissing_eq hc m h
        simp only [hgen, bind_eq_bind, bind_some]
        generalize stretchPlan c m len (3 + piecesSize c ps) = plan at h₁ ⊢
        rcases htr : plan.2 with - | -
        · simp only [Bool.false_eq_true, if_false]
          obtain ⟨g₂, hloop, h₂⟩ := ih (l := next) (b := false)
            (n := (plan.1.getLast?.map Piece.lastSn).getD n) h₁
          rw [piecesSize_append, ← add_assoc] at hloop h₂
          refine ⟨g₂, ?_, ?_⟩
          · rw [hloop, getLast?_append]
            rcases (reportPlanLoop c s len fuel next false _).1.getLast? with - | q <;> simp
          · rw [← append_assoc]
            exact h₂
        · simp only [if_true]
          refine ⟨forceSoEnd g₁, rfl, ?_⟩
          rw [planWires, htr, if_pos rfl]
          exact h₁.forceSoEnd hc

/-! ### ACK_SN -/

theorem natBits_ofNat (v : ℕ) : natBits 8 (UInt8.ofNat v).toNat = natBits 8 v := by
  exact natBits_mod le_rfl v

theorem natBits_and_255 (v : ℕ) : natBits 8 (v &&& 255) = natBits 8 v := by
  rw [show 255 = 2 ^ 8 - 1 from rfl, Nat.and_two_pow_sub_one_eq_mod, natBits_mod le_rfl]

/-- The last bits of an ACK_SN of 18 bits share their byte with E1. -/
theorem natBits_or_ackSn (hz : natBits 8 z.toNat = natBits 6 0 ++ e1 :: natBits 1 0) (ackSn : ℕ) :
    natBits 8 (z ||| UInt8.ofNat ((ackSn &&& 0x3f) <<< 2)).toNat =
      natBits 6 ackSn ++ e1 :: natBits 1 0 := by
  have key : ∀ v : Fin 64, ∀ e1 : Bool, natBits 8 (UInt8.ofNat (2 * e1.toNat) |||
      UInt8.ofNat (v.1 <<< 2)).toNat = natBits 6 v.1 ++ e1 :: natBits 1 0 := by decide
  have hval : z = UInt8.ofNat (2 * e1.toNat) := by
    have h := congrArg ofBits hz
    rw [ofBits_natBits, Nat.mod_eq_of_lt z.toNat_lt] at h
    rw [← UInt8.ofNat_toNat (x := z), h]
    cases e1 <;> rfl
  have hand : ackSn &&& 0x3f = ackSn % 2 ^ 6 := Nat.and_two_pow_sub_one_eq_mod ackSn 6
  rw [hval, hand, key ⟨ackSn % 2 ^ 6, Nat.mod_lt _ (by decide)⟩ e1, natBits_mod le_rfl]

theorem bitsOf_putAckSn (hc : c.Sane) (hack : ackSn < 2 ^ c.snFieldLength)
    (h : bitsOf buf = (StatusBlock.head 0).bits c e1 ++ rest) :
    bitsOf (putAckSn c buf ackSn) = (StatusBlock.head ackSn).bits c e1 ++ rest := by
  have hlen := congrArg length h
  rw [length_bitsOf, length_append, StatusBlock.length_bits hc] at hlen
  have hthree : 3 ≤ buf.length := by
    rw [StatusBlock.size] at hlen
    omega
  obtain ⟨x, y, z, buf, rfl⟩ : ∃ x y z buf', buf = x :: y :: z :: buf' := by
    rcases buf with - | ⟨x, - | ⟨y, - | ⟨z, buf⟩⟩⟩
    · simp at hthree
    · simp at hthree
    · simp at hthree
    · exact ⟨x, y, z, buf, rfl⟩
  rcases hc.snFieldLength_eq with hL | hL
  · have hbits : (StatusBlock.head 0).bits c e1 ++ rest =
        (natBits 8 0 ++ natBits 8 0) ++ ((e1 :: natBits 7 0) ++ rest) := by
      simp [StatusBlock.bits, StatusBlock.front, StatusBlock.tail, hL, natBits_succ]
    rw [hbits, bitsOf_cons, bitsOf_cons, bitsOf_cons, ← append_assoc] at h
    obtain ⟨hz, hrest⟩ := append_inj (append_inj h (by simp)).2 (by simp)
    rw [putAckSn, if_pos hL]
    show bitsOf (UInt8.ofNat (ackSn >>> 8) :: UInt8.ofNat (ackSn &&& 255) :: z :: buf) = _
    rw [bitsOf_cons, bitsOf_cons, bitsOf_cons, hz, hrest, natBits_ofNat, natBits_ofNat,
      natBits_and_255, Nat.shiftRight_eq_div_pow]
    rw [hL] at hack
    rw [natBits_of_lt (m := 4) (n := 4) (Nat.div_lt_of_lt_mul (by omega)), StatusBlock.bits,
      StatusBlock.front, StatusBlock.tail, hL, natBits_add 4 8 ackSn]
    simp
  · have hbits : (StatusBlock.head 0).bits c e1 ++ rest =
        (natBits 8 0 ++ natBits 8 0) ++ ((natBits 6 0 ++ e1 :: natBits 1 0) ++ rest) := by
      simp [StatusBlock.bits, StatusBlock.front, StatusBlock.tail, hL, natBits_succ]
    rw [hbits, bitsOf_cons, bitsOf_cons, bitsOf_cons, ← append_assoc] at h
    obtain ⟨hz, hrest⟩ := append_inj (append_inj h (by simp)).2 (by simp)
    rw [putAckSn, if_neg (by omega)]
    show bitsOf (UInt8.ofNat (ackSn >>> 14) :: UInt8.ofNat (ackSn >>> 6 &&& 255) ::
      (z ||| UInt8.ofNat ((ackSn &&& 0x3f) <<< 2)) :: buf) = _
    rw [bitsOf_cons, bitsOf_cons, bitsOf_cons, natBits_or_ackSn hz, hrest, natBits_ofNat,
      natBits_ofNat, natBits_and_255, Nat.shiftRight_eq_div_pow, Nat.shiftRight_eq_div_pow]
    rw [hL] at hack
    rw [natBits_of_lt (m := 4) (n := 4) (Nat.div_lt_of_lt_mul (by omega)), StatusBlock.bits,
      StatusBlock.front, StatusBlock.tail, hL, natBits_add 12 6 ackSn, natBits_add 4 8,
      Nat.div_div_eq_div_mul]
    simp

theorem take_putAckSn (buf : List UInt8) (ackSn n : ℕ) :
    (putAckSn c buf ackSn).take n = putAckSn c (buf.take n) ackSn := by
  rw [putAckSn, putAckSn]
  split
  · rw [take_set, take_set]
  · rw [take_modify, take_set, take_set]

/-- ACK_SN is after the last NACK, or it is `rx_next`. -/
def reportAckSn (c : AmConfig) (s : AmRx) (plan : List Piece × Bool) : ℤ :=
  (((plan.1.getLast?.map Piece.lastSn).getD (snBefore c s.rxNext)) + 1) % c.snModulus

theorem toNat_reportAckSn_lt (hc : c.Sane) (s : AmRx) (plan : List Piece × Bool) :
    (reportAckSn c s plan).toNat < 2 ^ c.snFieldLength := by
  have hpow := hc.snModulus_eq_pow
  have := Int.emod_lt_of_pos ((plan.1.getLast?.map Piece.lastSn).getD (snBefore c s.rxNext) + 1)
    hc.pos
  have hnonneg := Int.emod_nonneg ((plan.1.getLast?.map Piece.lastSn).getD (snBefore c s.rxNext) + 1)
    hc.pos.ne'
  rw [reportAckSn]
  have : ((2 ^ c.snFieldLength : ℕ) : ℤ) = c.snModulus := by rw [hpow]; norm_cast
  omega

theorem written_init (hc : c.Sane) (hsize : 3 ≤ size) :
    ∃ e, nrRlcPduEncoderPutBits (nrRlcPduEncoderInit (replicate size.toNat 0)) 0 (8 * 3) =
        some e ∧
      Written c size.toNat [] ⟨e, 2, if c.snFieldLength = 18 then 1 else 7, none⟩ := by
  have hinit := wrote_init (replicate size.toNat 0)
  rw [length_replicate] at hinit
  obtain ⟨e, he, hw⟩ := putBits_wrote hinit 0 (8 * 3) (by rw [length_nil]; omega)
  refine ⟨e, he, ?_, ?_, ?_, rfl⟩
  · rcases hc.snFieldLength_eq with h | h <;>
      simpa [blockBits, nacksBits, StatusBlock.bits, StatusBlock.front, StatusBlock.tail, h,
        natBits_succ] using hw
  · show (if c.snFieldLength = 18 then 1 else 7) < 8
    split <;> omega
  · rcases hc.snFieldLength_eq with h | h <;>
      simp [frontBits, lastBlock, StatusBlock.front, h]

/-- **The STATUS PDU is the format for the planned pieces.** -/
theorem bitsOf_statusPdu (hc : c.Sane) (s : AmRx) (hsize : 3 ≤ size) :
    ∃ pdu, statusPdu c s size = some pdu ∧
      bitsOf pdu = blockBits c (.head (reportAckSn c s (reportPlan c s size)).toNat)
        (planWires (reportPlan c s size)) := by
  obtain ⟨e, he, hw⟩ := written_init hc hsize
  have hw' : Written c size.toNat (([] : List Piece).map Piece.wire) _ := hw
  obtain ⟨g, hloop, hg⟩ : ∃ g', generateStatusLoop c s (s.rxList.length + 1) s.rxList true
      (snBefore c s.rxNext) _ = some (g', _) ∧ _ := generateStatusLoop_eq hc hw'
  have hplan : reportPlanLoop c s size.toNat (s.rxList.length + 1) s.rxList true
      (3 + piecesSize c []) = reportPlan c s size := by
    rw [reportPlan, Int.toNat_of_nonneg (by omega)]
    rfl
  rw [hplan] at hloop hg
  obtain ⟨hbyte, hbits⟩ := hg.bitsOf_take (length_blockBits hc _ _)
  refine ⟨_, ?_, (congrArg bitsOf (take_putAckSn _ _ _)).trans
    (bitsOf_putAckSn hc (toNat_reportAckSn_lt hc s (reportPlan c s size)) hbits)⟩
  rw [statusPdu, if_neg (by omega)]
  simp only [he, hloop, bind_eq_bind, bind_some, hbyte]
  rfl

/-! ### The size of a report -/

theorem nacksSize_forceLast (ws : List WireNack) : nacksSize c (forceLast ws) = nacksSize c ws := by
  rcases eq_nil_or_concat ws with rfl | ⟨ws, w, rfl⟩
  · rfl
  · rw [concat_eq_append, forceLast, dropLast_concat, getLast?_concat]
    simp [nacksSize, WireNack.forced, WireNack.size]

theorem nacksSize_planWires (plan : List Piece × Bool) :
    (nacksSize c (planWires plan) : ℤ) = piecesSize c plan.1 := by
  rw [planWires]
  split
  · rw [nacksSize_forceLast, nacksSize_wire]
  · exact nacksSize_wire _

/-- `missing_size` adds up the bits that `nack_size` says. -/
theorem nackBitCount_div (hc : c.Sane) (m : MissingData) :
    ((nackBitCount c m / 8 : ℕ) : ℤ) = nackSize c m := by
  rw [nackBitCount, nackSize]
  rcases hc.snFieldLength_eq with h | h <;> rcases m.whole with - | - <;>
    by_cases hsn : m.snStart = m.snEnd <;> simp [h, hsn]

theorem missingSizeLoop_eq (hc : c.Sane) (m : MissingData) (size : ℤ) (fuel k : ℕ) (a n used : ℤ) :
    missingSizeLoop c m size fuel a n k used =
      (used + piecesSize c (missingPlan c m size fuel a n used).1,
        k + (missingPlan c m size fuel a n used).1.length,
        (missingPlan c m size fuel a n used).2) := by
  induction fuel generalizing a n k used with
  | zero => simp [missingSizeLoop, missingPlan, piecesSize]
  | succ fuel ih =>
    rw [missingSizeLoop, missingPlan]
    split
    · simp [piecesSize]
    · dsimp only
      split
      · simp [piecesSize]
      · rw [ih, nackBitCount_div hc]
        simp only [piecesSize, map_cons, sum_cons, length_cons, add_assoc, add_comm 1]

/-- A stretch of missing bytes has a piece, unless there is no room for it. -/
theorem stretchPlan_ne_nil (hc : c.Sane) (m : MissingData)
    (h : (stretchPlan c m size used).2 = false) : (stretchPlan c m size used).1 ≠ [] := by
  have hcount : 1 ≤ snCount c m := by
    have := Int.emod_nonneg (m.snEnd - m.snStart + c.snModulus) hc.pos.ne'
    rw [snCount]
    omega
  obtain ⟨fuel, hfuel⟩ : ∃ n, (snCount c m).toNat = n + 1 := ⟨(snCount c m).toNat - 1, by omega⟩
  rw [stretchPlan, hfuel, missingPlan, if_neg (by omega)] at h ⊢
  dsimp only at h ⊢
  split at h
  · cases h
  · rename_i hroom
    rw [if_neg hroom]
    exact cons_ne_nil _ _

theorem statusSizeLoop_eq (hc : c.Sane) (s : AmRx) (size : ℤ) (fuel k : ℕ) (l : List NrRlcPdu)
    (used : ℤ) : statusSizeLoop c s size fuel l k used =
      used + piecesSize c (reportPlanLoop c s size fuel l (k == 0) used).1 := by
  induction fuel generalizing l k used with
  | zero => simp [statusSizeLoop, reportPlanLoop, piecesSize]
  | succ fuel ih =>
    rcases l with - | ⟨cur, rest⟩
    · simp [statusSizeLoop, reportPlanLoop, piecesSize]
    · rw [statusSizeLoop, reportPlanLoop]
      rcases nextMissing c s cur rest (k == 0) with - | ⟨m, next⟩
      · simp [piecesSize]
      · simp only [missingSize, missingSizeLoop_eq hc, Nat.zero_add]
        rw [← stretchPlan]
        rcases htr : (stretchPlan c m size used).2 with - | -
        · -- there is a NACK now, so the head is not checked again
          have hne := length_pos_iff.2 (stretchPlan_ne_nil hc m htr)
          have hk : (k + (stretchPlan c m size used).1.length == 0) = false :=
            beq_false_of_ne (by omega)
          simp only [Bool.false_eq_true, if_false]
          rw [ih, hk, piecesSize_append, add_assoc]
        · simp

/-! #### The walk ends

Every stretch of missing bytes leaves a cell behind, the one before the head apart. -/

theorem length_setEndDifferentSdu_le (s : AmRx) (sn so : ℤ) (cur : NrRlcPdu)
    (next : List NrRlcPdu) : (setEndDifferentSdu c s sn so cur next).2.length ≤ next.length := by
  rw [setEndDifferentSdu]
  generalize (if cur.isFirst = true then _ else _) = snEnd
  split
  · exact Nat.zero_le _
  · exact le_rfl

theorem length_nextMissingLoop_le {rest next : List NrRlcPdu}
    (h : nextMissingLoop c s cur rest maxSo lastReached = some (m, next)) :
    next.length ≤ rest.length := by
  induction rest generalizing cur maxSo lastReached with
  | nil =>
    rw [nextMissingLoop] at h
    generalize (if (cur.data.isNone || (lastReached || cur.isLast)) = true then _ else _) = sn at h
    generalize (if (cur.data.isNone || (lastReached || cur.isLast)) = true then _ else _) = so at h
    split at h
    · cases h
    · cases h
      exact le_rfl
  | cons cell rest ih =>
    rw [nextMissingLoop] at h
    dsimp only at h
    split at h
    · exact (ih h).trans (Nat.le_succ _)
    · split at h
      · exact (ih h).trans (Nat.le_succ _)
      · split at h
        · split at h
          · cases h
          · cases h
            exact le_rfl
        · generalize (if (lastReached || cur.isLast) = true then _ else _) = sn at h
          generalize (if (lastReached || cur.isLast) = true then _ else _) = so at h
          split at h
          · cases h
          · rw [← (Prod.mk.inj (some.inj h)).2]
            exact length_setEndDifferentSdu_le _ _ _ _ _

theorem length_nextMissing_le {rest next : List NrRlcPdu}
    (h : nextMissing c s cur rest b = some (m, next)) : next.length ≤ rest.length + b.toNat := by
  rw [nextMissing] at h
  split at h
  · rename_i hb
    split at h
    · cases h
    · rw [← (Prod.mk.inj (some.inj h)).2, (Bool.and_eq_true _ _ |>.mp hb).1]
      exact length_setEndDifferentSdu_le _ _ _ _ _
  · exact (length_nextMissingLoop_le h).trans (Nat.le_add_right _ _)

/-- **`status_size` is the size of the PDU that `generate_status` writes.** -/
theorem length_statusPdu (p : AmParams) (s : AmRx) (size : ℤ) :
    ∃ pdu, statusPdu p.config s size = some pdu ∧ (pdu.length : ℤ) = statusSize p.config s size := by
  by_cases hsize : size < 3
  · exact ⟨[], by rw [statusPdu, if_pos hsize], by rw [statusSize, if_pos hsize]; rfl⟩
  · obtain ⟨pdu, hpdu, hbits⟩ := bitsOf_statusPdu p.sane s (not_lt.1 hsize)
    refine ⟨pdu, hpdu, ?_⟩
    have hlen := congrArg length hbits
    rw [length_bitsOf, length_blockBits p.sane, StatusBlock.size] at hlen
    have hsum := nacksSize_planWires (c := p.config) (reportPlan p.config s size)
    rw [statusSize, if_neg hsize, statusSizeLoop_eq p.sane]
    show (pdu.length : ℤ) = 3 + piecesSize p.config (reportPlan p.config s size).1
    omega

end OaiRan.Rlc.Am
