import OaiRan.Rlc.Pdu

/-!
# SDUs to transmit and their segments

`nr_rlc_sdu.c`: an SDU lives in one heap cell that all its segments point to, so that its SN and
its reference counts are shared; a segment is a byte range of it. Addresses are natural numbers
handed out in order (`SduHeap.brk` is the first one never used), which gives segments an
identity that the pointer comparisons of the callers can use.
-/

namespace OaiRan.Rlc

/-- `sn` is `-1` until the SDU is first transmitted; `size` is the length of `data`. -/
structure NrRlcSdu where
  (sn upperLayerId : ℤ)
  data : List UInt8
  (retxCount refCount freeCount : ℤ)
  deriving DecidableEq, Repr

def NrRlcSdu.size (s : NrRlcSdu) : ℤ := s.data.length

/-- A segment, at address `ptr`, of the SDU at address `sdu`. -/
structure NrRlcSduSegment where
  (ptr sdu : ℕ)
  (size so : ℤ)
  (isFirst isLast : Bool)
  deriving DecidableEq, Repr

/-- The SDU cells by address, and the next address to hand out. -/
structure SduHeap where
  cell : ℕ → NrRlcSdu
  brk : ℕ

namespace SduHeap

def empty : SduHeap where
  cell _ := ⟨-1, 0, [], -1, 0, 0⟩
  brk := 0

def update (h : SduHeap) (a : ℕ) (f : NrRlcSdu → NrRlcSdu) : SduHeap :=
  { h with cell := Function.update h.cell a (f (h.cell a)) }

/-- The SN that a segment's SDU carries. -/
def sn (h : SduHeap) (g : NrRlcSduSegment) : ℤ := (h.cell g.sdu).sn

/-- The bytes of a segment. -/
def bytes (h : SduHeap) (g : NrRlcSduSegment) : List UInt8 :=
  ((h.cell g.sdu).data.drop g.so.toNat).take g.size.toNat

@[simp] theorem update_cell_self (h : SduHeap) (a : ℕ) (f : NrRlcSdu → NrRlcSdu) :
    (h.update a f).cell a = f (h.cell a) := by simp [update]

theorem update_cell_of_ne (h : SduHeap) (f : NrRlcSdu → NrRlcSdu) (hab : b ≠ a) :
    (h.update a f).cell b = h.cell b := by simp [update, hab]

/-- The bookkeeping of a cell never changes its bytes. -/
theorem update_data (h : SduHeap) (a b : ℕ)
    (hf : ∀ s, (f s).data = s.data) : ((h.update a f).cell b).data = (h.cell b).data := by
  by_cases hab : b = a
  · rw [hab, update_cell_self, hf]
  · rw [update_cell_of_ne h f hab]

end SduHeap

/-- The whole SDU as one segment. -/
def nrRlcNewSdu (h : SduHeap) (buffer : List UInt8) (upperLayerId : ℤ) :
    SduHeap × NrRlcSduSegment :=
  ({ cell := Function.update h.cell h.brk ⟨-1, upperLayerId, buffer, -1, 1, 0⟩, brk := h.brk + 1 },
    { ptr := h.brk, sdu := h.brk, size := buffer.length, so := 0, isFirst := true, isLast := true })

/-- Count a freed segment; the flag says whether the SDU went with it. -/
def nrRlcFreeSduSegment (h : SduHeap) (g : NrRlcSduSegment) : SduHeap × Bool :=
  let h := h.update g.sdu fun s ↦ { s with freeCount := s.freeCount + 1 }
  (h, (h.cell g.sdu).freeCount == (h.cell g.sdu).refCount)

section

variable {h : SduHeap} {g : NrRlcSduSegment}

theorem free_cell_of_ne (ha : a ≠ g.sdu) : (nrRlcFreeSduSegment h g).1.cell a = h.cell a := by
  simp only [nrRlcFreeSduSegment, SduHeap.update_cell_of_ne h _ ha]

@[simp] theorem free_cell_self : (nrRlcFreeSduSegment h g).1.cell g.sdu =
    { h.cell g.sdu with freeCount := (h.cell g.sdu).freeCount + 1 } := by
  simp only [nrRlcFreeSduSegment, SduHeap.update_cell_self]

end

end OaiRan.Rlc
